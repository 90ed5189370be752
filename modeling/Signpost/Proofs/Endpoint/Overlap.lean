import Signpost.Endpoint.Overlap
import Signpost.Proofs.Endpoint.Match

/-!
# What the check of a set of endpoints establishes

Two endpoints overlap if they meet at every position, and a set passes the check if the types of all
parameters are known and no two of its endpoints overlap. Endpoints of one method that accept a
common request meet at every position of it.
-/
namespace Signpost.Endpoint

open Json

variable {types : Registry}

theorem meetFrom_eq_ok_true_iff (a b : Endpoint) (position : Nat)
    (pairs : List (Segment × Segment)) :
    meetFrom types a b position pairs = .ok true ↔
      ∀ k pair, pairs[k]? = some pair → meetAt types a b (position + k) pair = .ok true := by
  induction pairs generalizing position with
  | nil => simp [meetFrom]
  | cons pair rest ih =>
    have hstep : (∀ k p, (pair :: rest)[k]? = some p →
        meetAt types a b (position + k) p = .ok true) ↔
        meetAt types a b position pair = .ok true ∧
          ∀ k p, rest[k]? = some p → meetAt types a b (position + 1 + k) p = .ok true := by
      constructor
      · intro h
        refine ⟨h 0 pair rfl, fun k p hk => ?_⟩
        have := h (k + 1) p (by simpa using hk)
        rwa [show position + (k + 1) = position + 1 + k by omega] at this
      · rintro ⟨hfirst, hrest⟩ k p hk
        cases k with
        | zero =>
          obtain rfl : pair = p := by simpa using hk
          exact hfirst
        | succ k =>
          rw [show position + (k + 1) = position + 1 + k by omega]
          exact hrest k p (by simpa using hk)
    rw [hstep, ← ih (position + 1), meetFrom]
    split <;> simp_all

/-- Two endpoints overlap if they have one method and as many segments and meet at each position. -/
theorem overlaps_eq_ok_true_iff (a b : Endpoint) :
    overlaps types a b = .ok true ↔
      a.method = b.method ∧ a.arity = b.arity ∧
        ∀ n x y, a.segments[n]? = some x → b.segments[n]? = some y →
          meetAt types a b n (x, y) = .ok true := by
  unfold overlaps
  split
  next h =>
    constructor
    · simp
    · intro hright
      obtain ⟨hm, ha, _⟩ := hright
      exact absurd ha (h.resolve_left (fun hne => hne hm))
  next h =>
    have hma : a.method = b.method ∧ a.arity = b.arity := by simpa using h
    rw [meetFrom_eq_ok_true_iff]
    simp only [Nat.zero_add, hma, true_and, Prod.forall, List.getElem?_zip_eq_some, and_imp]

/-- The capture that a segment refers to is the one at its position. -/
theorem captureAt_of_capture {e : Endpoint} {n i : Nat}
    (h : e.segments[n]? = some (.capture i)) : e.captureAt n = e.captures[i]? := by
  simp [captureAt, h]

/-- A capture admits the texts that it fits. -/
theorem admitsAt_eq_ok_true_iff {e : Endpoint} {n i : Nat} {raw : String}
    (hs : e.segments[n]? = some (.capture i)) :
    e.admitsAt types n raw = .ok true ↔ Fits types e (.capture i) raw := by
  rw [admitsAt, captureAt_of_capture hs]
  cases hc : e.captures[i]? with
  | none => simp [Fits, hc]
  | some c =>
    cases hres : c.param.conversion types with
    | none => simp [Fits, hc, Parameter.convert, hres]
    | some convert => simp [Fits, hc, Parameter.convert, hres]

/-- Segments that fit a common text meet. -/
theorem meetAt_of_fits {a b : Endpoint} {n : Nat} {x y : Segment} {raw : String}
    (hx : a.segments[n]? = some x) (hy : b.segments[n]? = some y)
    (ha : Fits types a x raw) (hb : Fits types b y raw) :
    meetAt types a b n (x, y) = .ok true := by
  cases x with
  | literal text =>
    obtain rfl : text = raw := ha
    cases y with
    | literal other =>
      obtain rfl : other = text := hb
      simp [meetAt]
    | capture j => exact (admitsAt_eq_ok_true_iff hy).2 hb
  | capture i =>
    cases y with
    | literal other =>
      obtain rfl : other = raw := hb
      exact (admitsAt_eq_ok_true_iff hx).2 ha
    | capture j => rfl

/-- Endpoints of one method that accept a common request overlap. -/
theorem overlaps_of_accept {a b : Endpoint} {segments : List String}
    (hm : a.method = b.method) (ha : (a.accept types segments).isSome)
    (hb : (b.accept types segments).isSome) : overlaps types a b = .ok true := by
  have hla := length_of_accept ha
  have hlb := length_of_accept hb
  refine (overlaps_eq_ok_true_iff a b).2 ⟨hm, hla.symm.trans hlb, fun n x y hx hy => ?_⟩
  have hn : n < segments.length := by
    have := (List.getElem?_eq_some_iff.1 hx).1
    omega
  have hr : segments[n]? = some segments[n] := List.getElem?_eq_getElem hn
  exact meetAt_of_fits hx hy (fits_of_accept ha hx hr) (fits_of_accept hb hy hr)

/-- Segments can be compared if the captures among them can be asked about texts. -/
theorem exists_verdict_of_meetAt {a b : Endpoint} {n : Nat} {x y : Segment}
    (ha : ∀ i, x = .capture i → ∀ text, ∃ verdict, a.admitsAt types n text = .ok verdict)
    (hb : ∀ i, y = .capture i → ∀ text, ∃ verdict, b.admitsAt types n text = .ok verdict) :
    ∃ verdict, meetAt types a b n (x, y) = .ok verdict := by
  cases x with
  | literal text =>
    cases y with
    | literal other => exact ⟨_, rfl⟩
    | capture j => exact hb j rfl text
  | capture i =>
    cases y with
    | literal other => exact ha i rfl other
    | capture j => exact ⟨_, rfl⟩

theorem exists_verdict_of_meetFrom {a b : Endpoint} (position : Nat)
    (pairs : List (Segment × Segment))
    (hall : ∀ k p, pairs[k]? = some p →
      ∃ verdict, meetAt types a b (position + k) p = .ok verdict) :
    ∃ verdict, meetFrom types a b position pairs = .ok verdict := by
  induction pairs generalizing position with
  | nil => exact ⟨true, rfl⟩
  | cons p rest ih =>
    obtain ⟨first, hfirst⟩ := hall 0 p rfl
    have hrest : ∀ k q, rest[k]? = some q →
        ∃ verdict, meetAt types a b (position + 1 + k) q = .ok verdict := by
      intro k q hq
      have hstep := hall (k + 1) q (by simpa using hq)
      rwa [show position + (k + 1) = position + 1 + k by omega] at hstep
    rw [Nat.add_zero] at hfirst
    cases first with
    | false => exact ⟨false, by simp only [meetFrom, hfirst]⟩
    | true => simpa only [meetFrom, hfirst] using ih (position + 1) hrest

/-- Endpoints can be compared if their captures can be asked about texts. -/
theorem exists_verdict_of_admitsAt {a b : Endpoint}
    (ha : ∀ (n i : Nat), a.segments[n]? = some (.capture i) → ∀ text,
      ∃ verdict, a.admitsAt types n text = .ok verdict)
    (hb : ∀ (n i : Nat), b.segments[n]? = some (.capture i) → ∀ text,
      ∃ verdict, b.admitsAt types n text = .ok verdict) :
    ∃ verdict, overlaps types a b = .ok verdict := by
  unfold overlaps
  split
  · exact ⟨false, rfl⟩
  · refine exists_verdict_of_meetFrom 0 _ fun k p hk => ?_
    obtain ⟨hx, hy⟩ := List.getElem?_zip_eq_some.1 hk
    rw [Nat.zero_add]
    exact exists_verdict_of_meetAt (fun i hi => ha k i (hi ▸ hx)) fun j hj => hb k j (hj ▸ hy)

theorem checkAgainst_eq_ok_iff (e : Endpoint) (others : List Endpoint) :
    checkAgainst types e others = .ok () ↔ ∀ o ∈ others, overlaps types e o = .ok false := by
  induction others with
  | nil => simp [checkAgainst]
  | cons o rest ih =>
    rw [List.forall_mem_cons, ← ih, checkAgainst]
    split <;> simp_all

theorem checkPairs_eq_ok_iff (endpoints : List Endpoint) :
    checkPairs types endpoints = .ok () ↔
      endpoints.Pairwise fun a b => overlaps types a b = .ok false := by
  induction endpoints with
  | nil => simp [checkPairs]
  | cons e rest ih =>
    rw [List.pairwise_cons, ← ih, ← checkAgainst_eq_ok_iff, checkPairs]
    split <;> simp_all

/-- No parameter of the endpoint has an unknown type. -/
theorem unknownType?_eq_none_iff (e : Endpoint) :
    unknownType? types e = none ↔
      ∀ q ∈ e.parameters, (q.2.conversion types).isSome := by
  simp [unknownType?, Option.isSome_iff_ne_none]

/-- A set of endpoints passes the check if all types are known and no two endpoints overlap. -/
theorem checkAll_eq_ok_iff (endpoints : List Endpoint) :
    checkAll types endpoints = .ok () ↔
      (∀ e ∈ endpoints, ∀ q ∈ e.parameters, (q.2.conversion types).isSome) ∧
        endpoints.Pairwise fun a b => overlaps types a b = .ok false := by
  have hnone : endpoints.findSome? (unknownType? types) = none ↔
      ∀ e ∈ endpoints, ∀ q ∈ e.parameters, (q.2.conversion types).isSome := by
    rw [List.findSome?_eq_none_iff]
    exact forall₂_congr fun e _ => unknownType?_eq_none_iff e
  rw [← hnone, ← checkPairs_eq_ok_iff, checkAll]
  split <;> simp_all

/-- Of a set that passes the check, no two endpoints of one method accept a common request. -/
theorem pairwise_not_accept {endpoints : List Endpoint}
    (ok : checkAll types endpoints = .ok ()) (segments : List String) :
    endpoints.Pairwise fun a b => a.method = b.method →
      (a.accept types segments).isSome → (b.accept types segments).isSome → False := by
  refine ((checkAll_eq_ok_iff endpoints).1 ok).2.imp fun {a b} hab hm ha hb => ?_
  rw [overlaps_of_accept hm ha hb] at hab
  cases hab

end Signpost.Endpoint
