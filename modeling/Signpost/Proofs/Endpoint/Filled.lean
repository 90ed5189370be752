import Signpost.Proofs.Endpoint.Captured
import Signpost.Proofs.RouteTable

/-!
# Requests made from a pattern

The segments of an endpoint, with a text in place of each capture, make up a request. If the types
of the captures accept the texts, the endpoint accepts the request and captures from it what the
types make of the texts. In a table that has passed the check no other endpoint gets there first.
-/
namespace Signpost

open Json

namespace Segment

/-- A segment with a text for each capture. -/
def fill (texts : Nat → String) : Segment → String
  | .literal text => text
  | .capture i => texts i

end Segment

namespace Endpoint

variable {types : Registry} {entry : Manifest.Entry} {e : Endpoint} {texts : Nat → String}

/-- The segments of an endpoint with a text for each capture. -/
def fill (e : Endpoint) (texts : Nat → String) : List String := e.segments.map (·.fill texts)

/-- The captures accept the texts chosen for them. -/
def Admits (types : Registry) (e : Endpoint) (texts : Nat → String) : Prop :=
  ∀ (i : Nat) (c : Capture), e.captures[i]? = some c →
    (c.param.convert types (.string (texts i))).isSome

theorem admits_iff_forall_zipIdx :
    Admits types e texts ↔
      ∀ p ∈ e.captures.zipIdx, (p.1.param.convert types (.string (texts p.2))).isSome := by
  constructor
  · rintro hadmits ⟨c, i⟩ hmem
    exact hadmits i c (List.mk_mem_zipIdx_iff_getElem?.1 hmem)
  · intro hall i c hc
    exact hall (c, i) (List.mk_mem_zipIdx_iff_getElem?.2 hc)

instance : Decidable (Admits types e texts) := decidable_of_iff' _ admits_iff_forall_zipIdx

theorem getElem?_fill (h : compile entry = .ok e) {i : Nat} {c : Capture}
    (hc : e.captures[i]? = some c) : (e.fill texts)[c.position]? = some (texts i) := by
  have hs : e.segments[c.position]? = some (.capture i) :=
    (getElem?_segments_iff h).2 ⟨c, hc, rfl⟩
  simp [fill, hs, Segment.fill]

theorem accept_fill_isSome (h : compile entry = .ok e) (hadmits : Admits types e texts) :
    (e.accept types (e.fill texts)).isSome := by
  rw [accept_isSome_iff]
  refine ⟨by simp [fill], ?_⟩
  rintro ⟨s, raw⟩ hmem
  obtain ⟨n, hn⟩ := List.mem_iff_getElem?.1 hmem
  obtain ⟨hs, hraw⟩ := List.getElem?_zip_eq_some.1 hn
  obtain rfl : s.fill texts = raw := by simpa [fill, hs] using hraw
  cases s with
  | literal text => rfl
  | capture i =>
    obtain ⟨c, hc, -⟩ := (getElem?_segments_iff h).1 hs
    exact ⟨c, hc, hadmits i c hc⟩

theorem get?_of_accept_fill (h : compile entry = .ok e) {values : Dict Value}
    (ha : e.accept types (e.fill texts) = some values) {name : String} {value : Value} :
    values.get? name = some value ↔
      ∃ (i : Nat) (c : Capture), e.captures[i]? = some c ∧ c.param.rename = name ∧
        c.param.convert types (.string (texts i)) = some value := by
  rw [get?_of_accept h ha]
  constructor
  · intro hleft
    obtain ⟨c, hc, hname, raw, hraw, hvalue⟩ := hleft
    obtain ⟨i, hi⟩ := List.mem_iff_getElem?.1 hc
    obtain rfl := Option.some.inj (hraw.symm.trans (getElem?_fill h hi))
    exact ⟨i, c, hi, hname, hvalue⟩
  · intro hright
    obtain ⟨i, c, hi, hname, hvalue⟩ := hright
    exact ⟨c, List.mem_of_getElem? hi, hname, texts i, getElem?_fill h hi, hvalue⟩

end Endpoint

namespace RouteTable

variable {types : Registry}

/-- In a table that has passed the check, a request made from the pattern of an endpoint with texts
that its captures accept is served by that endpoint. Each capture has what its type makes of its
text, and nothing else is captured. -/
theorem find_fill {entries : List Manifest.Entry} {endpoints : List Endpoint}
    (hcompile : Manifest.compile entries = .ok endpoints)
    (ok : Endpoint.checkAll types endpoints = .ok ()) {e : Endpoint} (he : e ∈ endpoints)
    {texts : Nat → String} (hadmits : e.Admits types texts) :
    ∃ values, (build endpoints).find types e.method.text (e.fill texts) = some ⟨e, values⟩ ∧
      values.size = e.captures.length ∧
      ∀ name value, values.get? name = some value ↔
        ∃ (i : Nat) (c : Capture), e.captures[i]? = some c ∧ c.param.rename = name ∧
          c.param.convert types (.string (texts i)) = some value := by
  obtain ⟨entry, -, hentry⟩ := Manifest.exists_entry_of_compile hcompile he
  obtain ⟨values, ha⟩ :=
    Option.isSome_iff_exists.1 (Endpoint.accept_fill_isSome hentry hadmits)
  exact ⟨values, find_of_accept ok he ha, Endpoint.size_of_accept hentry ha,
    fun name value => Endpoint.get?_of_accept_fill hentry ha⟩

/-- Two endpoints of one bucket that the type of a capture tells apart. -/
def profiles : List Manifest.Entry := [
  { method := "GET", path := "/users/me/\x7bsection\x7d",
    input := .ofList [("\x7bsection\x7d", { typeText := "string", name := some "Section" })] },
  { method := "GET", path := "/users/\x7bid\x7d/\x7bsection\x7d",
    input := .ofList [("\x7bid\x7d", { typeText := "uint", name := some "ID" }),
      ("\x7bsection\x7d", { typeText := "string", name := some "Section" })] }]

/-- The second endpoint is found past the first one. -/
theorem find_fill_profiles :
    ∃ endpoints e values, Manifest.compile profiles = .ok endpoints ∧ endpoints[1]? = some e ∧
      (build endpoints).find .builtin "GET" ["users", "7", "posts"] = some ⟨e, values⟩ ∧
      values.size = 2 := by
  have hrun : (Manifest.compile profiles).toOption.any (fun endpoints =>
      decide (Endpoint.checkAll .builtin endpoints = .ok ()) && endpoints[1]?.any fun e =>
        decide (e.method = .get ∧ e.captures.length = 2 ∧
          e.Admits .builtin (["7", "posts"].getD · "") ∧
          e.fill (["7", "posts"].getD · "") = ["users", "7", "posts"])) = true := by
    decide +kernel
  obtain ⟨endpoints, hcompile, hrest⟩ := exists_of_any_toOption hrun
  simp only [Bool.and_eq_true, decide_eq_true_eq] at hrest
  obtain ⟨hok, hsecond⟩ := hrest
  obtain ⟨e, he, hfacts⟩ := (Option.any_eq_true _ _).1 hsecond
  obtain ⟨hmethod, hlength, hadmits, hfill⟩ := of_decide_eq_true hfacts
  obtain ⟨values, hfind, hsize, -⟩ :=
    find_fill hcompile hok (List.mem_of_getElem? he) hadmits
  rw [hmethod, hfill] at hfind
  exact ⟨endpoints, e, values, hcompile, he, hfind, hsize.trans hlength⟩

end RouteTable

end Signpost
