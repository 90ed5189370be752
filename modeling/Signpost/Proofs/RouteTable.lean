import Mathlib.Data.List.Basic
import Signpost.Endpoint.Compile
import Signpost.Proofs.Endpoint.Overlap
import Signpost.Proofs.Outcome
import Signpost.RouteTable
import Signpost.Users
import Signpost.Validator.Builtin

/-!
# Looking up routes

Dispatch keys tell methods and numbers of segments apart, so a look-up in the bucket of a request
finds what a search through all endpoints would find. Among endpoints that have passed the check a
request has at most one match, which makes the look-up independent of the order of declaration.
-/
namespace Signpost

namespace Method

theorem text_injective {m n : Method} (h : m.text = n.text) : m = n := by
  have := congrArg ofText? h
  simpa using this

theorem text_mem (m : Method) : m.text ∈ ["GET", "POST", "PUT", "DELETE"] := by
  cases m <;> decide

theorem ordinal_pos (m : Method) : 0 < m.ordinal := by cases m <;> decide

theorem ordinal_le_four (m : Method) : m.ordinal ≤ 4 := by cases m <;> decide

theorem ordinal_lt_ten (m : Method) : m.ordinal < 10 := by
  have hle := m.ordinal_le_four
  omega

theorem ordinal_injective {m n : Method} (h : m.ordinal = n.ordinal) : m = n := by
  cases m <;> cases n <;> first | rfl | cases h

end Method

/-- The keys of known methods differ from each other and from the keys of all other methods. -/
theorem dispatchKey_eq_iff (m : Method) (method : String) (n count : Nat) :
    dispatchKey m.text n = dispatchKey method count ↔ m.text = method ∧ n = count := by
  have hpos := m.ordinal_pos
  have hlt := m.ordinal_lt_ten
  constructor
  · intro h
    cases hm : Method.ofText? method with
    | none =>
      simp only [dispatchKey, Method.ofText?_text, hm, Option.map_some, Option.map_none,
        Option.getD_some, Option.getD_none] at h
      omega
    | some m' =>
      have hlt' := m'.ordinal_lt_ten
      simp only [dispatchKey, Method.ofText?_text, hm, Option.map_some, Option.getD_some] at h
      have hord : m.ordinal = m'.ordinal := by omega
      rw [Method.ordinal_injective hord]
      exact ⟨Method.text_of_ofText? hm, by omega⟩
  · intro hright
    obtain ⟨rfl, rfl⟩ := hright
    rfl

/-- Keys fit any word that ten times the number of segments and the largest ordinal fit. -/
theorem dispatchKey_le (method : String) (count : Nat) :
    dispatchKey method count ≤ 10 * count + 4 := by
  cases hm : Method.ofText? method with
  | none =>
    simp only [dispatchKey, hm, Option.map_none, Option.getD_none]
    omega
  | some m =>
    have hle := m.ordinal_le_four
    simp only [dispatchKey, hm, Option.map_some, Option.getD_some]
    omega

namespace Match

/-- The match of an endpoint, if it has the method and accepts the segments. -/
def of? (types : Registry) (method : String) (segments : List String) (e : Endpoint) :
    Option Match :=
  if e.method.text = method then (e.accept types segments).map (⟨e, ·⟩) else none

theorem of?_isSome_iff {types : Registry} {method : String} {segments : List String}
    {e : Endpoint} :
    (of? types method segments e).isSome ↔
      e.method.text = method ∧ (e.accept types segments).isSome := by
  unfold of?
  split <;> simp_all

theorem of?_eq_some_iff {types : Registry} {method : String} {segments : List String}
    {e : Endpoint} {m : Match} :
    of? types method segments e = some m ↔
      m.endpoint = e ∧ e.method.text = method ∧ e.accept types segments = some m.values := by
  obtain ⟨endpoint, values⟩ := m
  unfold of?
  split
  next hm =>
    simp only [Option.map_eq_some_iff, Match.mk.injEq, hm, true_and]
    constructor
    · intro hleft
      obtain ⟨d, hd, rfl, rfl⟩ := hleft
      exact ⟨rfl, hd⟩
    · intro hright
      obtain ⟨rfl, hd⟩ := hright
      exact ⟨values, hd, rfl, rfl⟩
  next hm => simp [hm]

end Match

namespace RouteTable

variable {types : Registry}

/-- A look-up finds the first match among all endpoints. -/
theorem find_build (endpoints : List Endpoint) (method : String) (segments : List String) :
    (build endpoints).find types method segments =
      endpoints.findSome? (Match.of? types method segments) := by
  rw [find, bucket_build, Match.first]
  induction endpoints with
  | nil => rfl
  | cons e rest ih =>
    by_cases hkey : dispatchKey e.method.text e.arity = dispatchKey method segments.length
    · have hm := ((dispatchKey_eq_iff _ _ _ _).1 hkey).1
      have hof : Match.of? types method segments e = (e.accept types segments).map (⟨e, ·⟩) :=
        if_pos hm
      rw [List.filter_cons_of_pos (by simpa using hkey), List.findSome?_cons, ih,
        List.findSome?_cons, hof]
    · -- An endpoint of another bucket has another method or another number of segments.
      have hof : Match.of? types method segments e = none := by
        rw [← Option.not_isSome_iff_eq_none, Match.of?_isSome_iff]
        rintro ⟨hm, ha⟩
        exact hkey ((dispatchKey_eq_iff _ _ _ _).2
          ⟨hm, (Endpoint.length_of_accept ha).symm⟩)
      rw [List.filter_cons_of_neg (by simpa using hkey), ih, List.findSome?_cons, hof]

theorem bucket_build_eq_filter (endpoints : List Endpoint) (method : String) (count : Nat) :
    (build endpoints).bucket method count =
      endpoints.filter fun e => e.method.text = method ∧ e.arity = count := by
  rw [bucket_build]
  refine List.filter_congr fun e _ => ?_
  simp only [dispatchKey_eq_iff]

/-- A look-up finds what a search through all endpoints, in the order of their declaration, finds
first. A bucket lists in that order the endpoints with its method and its number of segments, and
is empty for methods that no endpoint can have. This holds of keys in machine words, too, as long as
ten times the number of segments and four fit into one. -/
theorem find_and_bucket_eq_scan (types : Registry) (endpoints : List Endpoint) (method : String) :
    (∀ segments : List String, (build endpoints).find types method segments =
        endpoints.findSome? (Match.of? types method segments)) ∧
      (∀ count, (build endpoints).bucket method count =
        endpoints.filter fun e => e.method.text = method ∧ e.arity = count) ∧
      (method ∉ ["GET", "POST", "PUT", "DELETE"] →
        ∀ count, (build endpoints).bucket method count = []) ∧
      ∀ count, dispatchKey method count ≤ 10 * count + 4 := by
  refine ⟨find_build endpoints method, bucket_build_eq_filter endpoints method,
    fun hunknown count => ?_, dispatchKey_le method⟩
  rw [bucket_build_eq_filter, List.filter_eq_nil_iff]
  intro e _ he
  obtain ⟨rfl, -⟩ : e.method.text = method ∧ e.arity = count := by simpa using he
  exact hunknown e.method.text_mem

/-- What is found is one of the endpoints, and it accepts the request. -/
theorem accept_of_find {endpoints : List Endpoint} {method : String} {segments : List String}
    {m : Match} (h : (build endpoints).find types method segments = some m) :
    m.endpoint ∈ endpoints ∧ m.endpoint.method.text = method ∧
      m.endpoint.accept types segments = some m.values := by
  rw [find_build] at h
  obtain ⟨e, he, hof⟩ := List.exists_of_findSome?_eq_some h
  obtain ⟨rfl, hm, ha⟩ := Match.of?_eq_some_iff.1 hof
  exact ⟨he, hm, ha⟩

/-- Among endpoints that have passed the check a request has at most one match. -/
theorem length_matches_le_one {endpoints : List Endpoint}
    (ok : Endpoint.checkAll types endpoints = .ok ()) (method : String) (segments : List String) :
    (endpoints.filterMap (Match.of? types method segments)).length ≤ 1 := by
  have hp : (endpoints.filterMap (Match.of? types method segments)).Pairwise
      fun _ _ => False := by
    refine (Endpoint.pairwise_not_accept ok segments).filterMap _ ?_
    intro a b hab x hx y hy
    obtain ⟨hma, ha⟩ := Match.of?_isSome_iff.1 (Option.isSome_of_mem hx)
    obtain ⟨hmb, hb⟩ := Match.of?_isSome_iff.1 (Option.isSome_of_mem hy)
    exact hab (Method.text_injective (hma.trans hmb.symm)) ha hb
  match endpoints.filterMap (Match.of? types method segments), hp with
  | [], _ => simp
  | [_], _ => simp
  | _ :: b :: _, hp => exact ((List.pairwise_cons.1 hp).1 b (by simp)).elim

/-- Among endpoints that have passed the check, one that accepts a request is found, wherever it
stands. -/
theorem find_of_accept {endpoints : List Endpoint}
    (ok : Endpoint.checkAll types endpoints = .ok ()) {e : Endpoint} (he : e ∈ endpoints)
    {segments : List String} {values : Dict Json.Value}
    (ha : e.accept types segments = some values) :
    (build endpoints).find types e.method.text segments = some ⟨e, values⟩ := by
  have hone := length_matches_le_one ok e.method.text segments
  have hof : Match.of? types e.method.text segments e = some ⟨e, values⟩ :=
    Match.of?_eq_some_iff.2 ⟨rfl, rfl, ha⟩
  have hmem : (⟨e, values⟩ : Match) ∈
      endpoints.filterMap (Match.of? types e.method.text segments) :=
    List.mem_filterMap.2 ⟨e, he, hof⟩
  -- This is a match, and there is no second one that could come before it.
  rw [find_build, ← List.head?_filterMap]
  match endpoints.filterMap (Match.of? types e.method.text segments), hone, hmem with
  | [m], _, hmem => rw [List.mem_singleton.1 hmem, List.head?_cons]

/-- A request has at most one match among endpoints that have passed the check. Its look-up does
not depend on the order of their declaration, and a match is still found after more endpoints have
been declared anywhere between them. -/
theorem find_deterministic {endpoints : List Endpoint}
    (ok : Endpoint.checkAll types endpoints = .ok ()) (method : String) (segments : List String) :
    endpoints.countP (fun e => e.method.text = method ∧ (e.accept types segments).isSome) ≤ 1 ∧
      (∀ other : List Endpoint, other.Perm endpoints →
        (build other).find types method segments = (build endpoints).find types method segments) ∧
      ∀ more : List Endpoint, endpoints.Sublist more → Endpoint.checkAll types more = .ok () →
        ∀ m, (build endpoints).find types method segments = some m →
          (build more).find types method segments = some m := by
  -- Everything is read off the list of all matches, which is empty or has one element.
  have hone := length_matches_le_one ok method segments
  refine ⟨?_, fun other hperm => ?_, fun more hsub hmore m hfound => ?_⟩
  · have hcount : endpoints.countP
        (fun e => e.method.text = method ∧ (e.accept types segments).isSome) =
        (endpoints.filterMap (Match.of? types method segments)).length := by
      rw [List.length_filterMap_eq_countP]
      refine List.countP_congr fun e _ => ?_
      simpa using Match.of?_isSome_iff.symm
    rwa [hcount]
  · have hp := hperm.filterMap (Match.of? types method segments)
    simp only [find_build, ← List.head?_filterMap]
    match endpoints.filterMap (Match.of? types method segments), hone, hp with
    | [], _, hp => rw [hp.eq_nil]
    | [x], _, hp => rw [List.perm_singleton.1 hp]
  · have hs := hsub.filterMap (Match.of? types method segments)
    have hlen := length_matches_le_one hmore method segments
    rw [find_build, ← List.head?_filterMap] at hfound ⊢
    have hne : 0 < (endpoints.filterMap (Match.of? types method segments)).length := by
      rw [List.length_pos_iff]
      intro hnil
      simp [hnil] at hfound
    rwa [← hs.eq_of_length_le (by omega)]

/-- The users service, its first endpoint declared before the others and left out, and in reverse
order. -/
theorem find_deterministic_users :
    ∃ endpoints m, Manifest.compile Users.entries = .ok endpoints ∧
      endpoints.tail.countP (fun e => e.method.text = "GET" ∧
        (e.accept .builtin ["users", "7"]).isSome) ≤ 1 ∧
      (build endpoints.tail).find .builtin "GET" ["users", "7"] = some m ∧
      (build endpoints.tail.reverse).find .builtin "GET" ["users", "7"] = some m ∧
      (build endpoints).find .builtin "GET" ["users", "7"] = some m := by
  have hrun : (Manifest.compile Users.entries).toOption.any (fun endpoints =>
      decide (Endpoint.checkAll .builtin endpoints.tail = .ok ()) &&
        (decide (Endpoint.checkAll .builtin endpoints = .ok ()) &&
          ((build endpoints.tail).find .builtin "GET" ["users", "7"]).isSome)) = true := by
    decide +kernel
  obtain ⟨endpoints, hcompile, hrest⟩ := Option.any_eq_true _ _ |>.1 hrun
  simp only [Bool.and_eq_true, decide_eq_true_eq] at hrest
  obtain ⟨htail, hall, hsome⟩ := hrest
  obtain ⟨m, hm⟩ := Option.isSome_iff_exists.1 hsome
  obtain ⟨hone, hperm, hmore⟩ := find_deterministic htail "GET" ["users", "7"]
  have hreverse := hperm endpoints.tail.reverse endpoints.tail.reverse_perm
  exact ⟨endpoints, m, toOption_eq_some_iff.1 hcompile, hone, hm, hreverse.trans hm,
    hmore endpoints endpoints.tail_sublist hall m hm⟩

end RouteTable

end Signpost
