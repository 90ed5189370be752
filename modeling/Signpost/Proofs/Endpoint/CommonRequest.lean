import Signpost.Proofs.Endpoint.Supplied
import Signpost.Validator.Builtin

/-!
# Requests in common

Two endpoints are compared place by place, and it does not matter which of them comes first. They
overlap if some request suits both wherever one of them has a literal. Such a request can be written
down: it has the literals of both. Where no capture stands against a capture, both accept it.
-/
namespace Signpost

namespace Segment

def isLiteral : Segment → Bool
  | .literal _ => true
  | .capture _ => false

/-- The text of the literal among two segments. -/
def common : Segment → Segment → String
  | .literal text, _ => text
  | .capture _, .literal text => text
  | .capture _, .capture _ => ""

end Segment

namespace Endpoint

variable {types : Registry} {a b : Endpoint}

theorem meetAt_comm (a b : Endpoint) (n : Nat) (x y : Segment) :
    meetAt types a b n (x, y) = meetAt types b a n (y, x) := by
  cases x with
  | literal text =>
    cases y with
    | literal other => simp only [meetAt, eq_comm]
    | capture j => rfl
  | capture i => cases y <;> rfl

theorem meetFrom_comm (a b : Endpoint) (n : Nat) (xs ys : List Segment) :
    meetFrom types a b n (xs.zip ys) = meetFrom types b a n (ys.zip xs) := by
  induction xs generalizing n ys with
  | nil => cases ys <;> rfl
  | cons x xs ih =>
    cases ys with
    | nil => rfl
    | cons y ys => simp only [List.zip_cons_cons, meetFrom, meetAt_comm a b, ih]

/-- Which endpoint is compared with which does not matter, not even for the error reported. -/
theorem overlaps_comm (a b : Endpoint) : overlaps types a b = overlaps types b a := by
  have hdiffer : (a.method ≠ b.method ∨ a.arity ≠ b.arity) ↔
      (b.method ≠ a.method ∨ b.arity ≠ a.arity) := by
    simp only [ne_comm]
  simp only [overlaps, hdiffer, meetFrom_comm a b]

/-- Both endpoints have as many segments as a request, and both segments fit its text wherever one
of them is a literal. -/
structure AgreeAtLiterals (types : Registry) (a b : Endpoint) (segments : List String) : Prop where
  length : segments.length = a.arity
  fits : ∀ (n : Nat) (x y : Segment) (raw : String), a.segments[n]? = some x →
    b.segments[n]? = some y → segments[n]? = some raw → x.isLiteral ∨ y.isLiteral →
      Fits types a x raw ∧ Fits types b y raw

/-- The request with the literals of both endpoints. -/
def common (a b : Endpoint) : List String := List.zipWith Segment.common a.segments b.segments

theorem fits_common_of_meetAt {n : Nat} {x y : Segment} (hx : a.segments[n]? = some x)
    (hy : b.segments[n]? = some y) (hmeet : meetAt types a b n (x, y) = .ok true)
    (hliteral : x.isLiteral ∨ y.isLiteral) :
    Fits types a x (x.common y) ∧ Fits types b y (x.common y) := by
  cases x with
  | literal text =>
    cases y with
    | literal other =>
      have hsame : text = other := by simpa [meetAt] using hmeet
      exact ⟨rfl, hsame.symm⟩
    | capture j => exact ⟨rfl, (admitsAt_eq_ok_true_iff hy).1 hmeet⟩
  | capture i =>
    cases y with
    | literal other => exact ⟨(admitsAt_eq_ok_true_iff hx).1 hmeet, rfl⟩
    | capture j => simp [Segment.isLiteral] at hliteral

theorem meetAt_of_agree {n : Nat} {x y : Segment} {raw : String} (hx : a.segments[n]? = some x)
    (hy : b.segments[n]? = some y)
    (hfits : x.isLiteral ∨ y.isLiteral → Fits types a x raw ∧ Fits types b y raw) :
    meetAt types a b n (x, y) = .ok true := by
  by_cases hliteral : x.isLiteral ∨ y.isLiteral
  · obtain ⟨ha, hb⟩ := hfits hliteral
    exact meetAt_of_fits hx hy ha hb
  · cases x with
    | literal text => exact absurd (.inl rfl) hliteral
    | capture i =>
      cases y with
      | literal other => exact absurd (.inr rfl) hliteral
      | capture j => rfl

theorem agree_common (hoverlap : overlaps types a b = .ok true) :
    AgreeAtLiterals types a b (common a b) := by
  obtain ⟨-, harity, hmeet⟩ := (overlaps_eq_ok_true_iff a b).1 hoverlap
  refine ⟨?_, fun n x y raw hx hy hraw hliteral => ?_⟩
  · have hlength : (common a b).length = min a.arity b.arity := List.length_zipWith
    omega
  · obtain ⟨x', y', hx', hy', rfl⟩ := List.getElem?_zipWith_eq_some.1 hraw
    obtain rfl := Option.some.inj (hx.symm.trans hx')
    obtain rfl := Option.some.inj (hy.symm.trans hy')
    exact fits_common_of_meetAt hx hy (hmeet n x y hx hy) hliteral

/-- Two endpoints overlap if they agree about some request at the literals of both. -/
theorem overlaps_eq_ok_true_iff_agree (a b : Endpoint) :
    overlaps types a b = .ok true ↔
      a.method = b.method ∧ a.arity = b.arity ∧
        ∃ segments, AgreeAtLiterals types a b segments := by
  constructor
  · intro hoverlap
    obtain ⟨hmethod, harity, -⟩ := (overlaps_eq_ok_true_iff a b).1 hoverlap
    exact ⟨hmethod, harity, common a b, agree_common hoverlap⟩
  · rintro ⟨hmethod, harity, segments, hlength, hfits⟩
    refine (overlaps_eq_ok_true_iff a b).2 ⟨hmethod, harity, fun n x y hx hy => ?_⟩
    have hn : n < segments.length := by
      have hlt := (List.getElem?_eq_some_iff.1 hx).1
      rw [hlength]
      exact hlt
    exact meetAt_of_agree hx hy
      (hfits n x y segments[n] hx hy (List.getElem?_eq_getElem hn))

theorem AgreeAtLiterals.symm {segments : List String} (h : AgreeAtLiterals types a b segments)
    (harity : a.arity = b.arity) : AgreeAtLiterals types b a segments where
  length := h.length.trans harity
  fits n y x raw hy hx hraw hliteral := (h.fits n x y raw hx hy hraw hliteral.symm).symm

/-- No capture of one endpoint stands against a capture of the other. -/
def CapturesApart (a b : Endpoint) : Prop :=
  ∀ p ∈ a.segments.zip b.segments, p.1.isLiteral ∨ p.2.isLiteral

instance : Decidable (CapturesApart a b) :=
  inferInstanceAs (Decidable (∀ p ∈ a.segments.zip b.segments, p.1.isLiteral ∨ p.2.isLiteral))

theorem CapturesApart.symm (h : CapturesApart a b) : CapturesApart b a := by
  rintro ⟨y, x⟩ hmem
  obtain ⟨n, hn⟩ := List.mem_iff_getElem?.1 hmem
  obtain ⟨hy, hx⟩ := List.getElem?_zip_eq_some.1 hn
  have hpair : (x, y) ∈ a.segments.zip b.segments :=
    List.mem_of_getElem? (List.getElem?_zip_eq_some.2 ⟨hx, hy⟩)
  exact (h _ hpair).symm

/-- Where no capture stands against a capture, agreement at the literals is acceptance. -/
theorem AgreeAtLiterals.accept {segments : List String} (h : AgreeAtLiterals types a b segments)
    (harity : a.arity = b.arity) (hapart : CapturesApart a b) :
    (a.accept types segments).isSome := by
  refine (accept_isSome_iff segments).2 ⟨h.length, ?_⟩
  rintro ⟨x, raw⟩ hmem
  obtain ⟨n, hn⟩ := List.mem_iff_getElem?.1 hmem
  obtain ⟨hx, hraw⟩ := List.getElem?_zip_eq_some.1 hn
  have hlt : n < b.segments.length := by
    have hlt := (List.getElem?_eq_some_iff.1 hx).1
    exact lt_of_lt_of_eq hlt harity
  have hy : b.segments[n]? = some b.segments[n] := List.getElem?_eq_getElem hlt
  have hpair : (x, b.segments[n]) ∈ a.segments.zip b.segments :=
    List.mem_of_getElem? (List.getElem?_zip_eq_some.2 ⟨hx, hy⟩)
  exact (h.fits n x _ raw hx hy hraw (hapart _ hpair)).1

theorem overlaps_eq_ok_true_iff_accept (hapart : CapturesApart a b) :
    overlaps types a b = .ok true ↔
      a.method = b.method ∧ ∃ segments,
        (a.accept types segments).isSome ∧ (b.accept types segments).isSome := by
  constructor
  · intro hoverlap
    obtain ⟨hmethod, harity, -⟩ := (overlaps_eq_ok_true_iff a b).1 hoverlap
    have hagree := agree_common hoverlap
    have ha := hagree.accept harity hapart
    have hb := (hagree.symm harity).accept harity.symm hapart.symm
    exact ⟨hmethod, common a b, ha, hb⟩
  · rintro ⟨hmethod, segments, ha, hb⟩
    exact overlaps_of_accept hmethod ha hb

/-- Overlap is symmetric, whether it is found or an error is. It means that some request suits both
endpoints at the literals of either, and with no capture against a capture that both accept it. If
the types of all captures are known, there is a verdict. -/
theorem overlaps_exact {entry other : Manifest.Entry} (ha : compile entry = .ok a)
    (hb : compile other = .ok b) (types : Registry) :
    overlaps types a b = overlaps types b a ∧
      (overlaps types a b = .ok true ↔ a.method = b.method ∧ a.arity = b.arity ∧
        ∃ segments, AgreeAtLiterals types a b segments) ∧
      (CapturesApart a b → (overlaps types a b = .ok true ↔ a.method = b.method ∧
        ∃ segments, (a.accept types segments).isSome ∧ (b.accept types segments).isSome)) ∧
      ((∀ c ∈ a.captures ++ b.captures, (c.param.conversion types).isSome) →
        ∃ verdict, overlaps types a b = .ok verdict) := by
  refine ⟨overlaps_comm a b, overlaps_eq_ok_true_iff_agree a b, overlaps_eq_ok_true_iff_accept,
    fun hknown => ?_⟩
  have hleft : ∀ c ∈ a.captures, (c.param.conversion types).isSome :=
    fun c hc => hknown c (List.mem_append_left _ hc)
  have hright : ∀ c ∈ b.captures, (c.param.conversion types).isSome :=
    fun c hc => hknown c (List.mem_append_right _ hc)
  exact exists_verdict_of_admitsAt (fun n i hs => exists_admitsAt ha hleft hs)
    fun n j hs => exists_admitsAt hb hright hs

/-- Two endpoints with a literal against each capture. -/
def postsOfUser : Manifest.Entry where
  method := "GET"
  path := "/users/\x7bid\x7d/posts"
  input := .ofList [("\x7bid\x7d", { typeText := "string", name := some "ID" })]

def sectionOfMe : Manifest.Entry where
  method := "GET"
  path := "/users/me/\x7bsection\x7d"
  input := .ofList [("\x7bsection\x7d", { typeText := "string", name := some "Section" })]

/-- They overlap, whichever comes first, for they have a request in common. -/
theorem overlaps_exact_posts :
    ∃ a b, compile postsOfUser = .ok a ∧ compile sectionOfMe = .ok b ∧ CapturesApart a b ∧
      overlaps .builtin a b = .ok true ∧ overlaps .builtin b a = .ok true ∧
      (∃ segments, AgreeAtLiterals .builtin a b segments) ∧
      ∃ segments, (a.accept .builtin segments).isSome ∧ (b.accept .builtin segments).isSome := by
  have hrun : (compile postsOfUser).toOption.any (fun a =>
      (compile sectionOfMe).toOption.any fun b =>
        decide (CapturesApart a b ∧ overlaps .builtin a b = .ok true)) = true := by decide +kernel
  obtain ⟨a, ha, hrest⟩ := exists_of_any_toOption hrun
  obtain ⟨b, hb, hfacts⟩ := exists_of_any_toOption hrest
  obtain ⟨hapart, hoverlap⟩ := of_decide_eq_true hfacts
  obtain ⟨hsymm, hagree, haccept, -⟩ := overlaps_exact ha hb .builtin
  exact ⟨a, b, ha, hb, hapart, hoverlap, hsymm.symm.trans hoverlap, (hagree.1 hoverlap).2.2,
    ((haccept hapart).1 hoverlap).2⟩

/-- Of two endpoints that differ in their method alone, both accept a request, and they do not
overlap. -/
theorem accept_both_and_not_overlaps :
    ∃ a b, compile { method := "GET", path := "/status" } = .ok a ∧
      compile { method := "POST", path := "/status" } = .ok b ∧ CapturesApart a b ∧
      ¬ (overlaps .builtin a b = .ok true ↔ ∃ segments,
        (a.accept .builtin segments).isSome ∧ (b.accept .builtin segments).isSome) := by
  have hrun : (compile { method := "GET", path := "/status" }).toOption.any (fun a =>
      (compile { method := "POST", path := "/status" }).toOption.any fun b =>
        decide (CapturesApart a b ∧ overlaps .builtin a b = .ok false ∧
          (a.accept .builtin ["status"]).isSome ∧ (b.accept .builtin ["status"]).isSome)) = true := by
    decide +kernel
  obtain ⟨a, ha, hrest⟩ := exists_of_any_toOption hrun
  obtain ⟨b, hb, hfacts⟩ := exists_of_any_toOption hrest
  obtain ⟨hapart, hoverlap, haccept⟩ := of_decide_eq_true hfacts
  refine ⟨a, b, ha, hb, hapart, fun hiff => ?_⟩
  have htrue := hiff.2 ⟨["status"], haccept⟩
  rw [hoverlap] at htrue
  cases htrue

end Endpoint

end Signpost
