import Signpost.Proofs.Endpoint.Supplied
import Signpost.Validator.Builtin

/-!
# What the check of a set of endpoints reports

The types of all parameters are looked up before any two endpoints are compared, so that comparing
them cannot fail. Of several faults the first one is reported: endpoints in the order of their
declaration, inputs before outputs and each by their keys, pairs by the first and then the second of
them.
-/
namespace Signpost.Endpoint

variable {types : Registry} {e : Endpoint} {endpoints others : List Endpoint} {err : CheckError}

/-- The types of all inputs and outputs are known. -/
def Known (types : Registry) (e : Endpoint) : Prop :=
  ∀ key p, e.input.get? key = some p ∨ e.output.get? key = some p → (p.conversion types).isSome

theorem known_iff_parameters :
    Known types e ↔ ∀ q ∈ e.parameters, (q.2.conversion types).isSome := by
  simp only [Known, parameters, Dict.get?_eq_some_iff, List.mem_append, Prod.forall]

/-- The parameter of unknown type that comes before all others of its endpoint. -/
inductive FirstUnknown (types : Registry) (e : Endpoint) (key : String) (p : Parameter) : Prop where
  | input (h : e.input.Least (·.conversion types = none) key p)
  | output (hinput : ∀ other q, e.input.get? other = some q → (q.conversion types).isSome)
      (h : e.output.Least (·.conversion types = none) key p)

theorem find?_unknown_eq_some_iff {key : String} {p : Parameter} :
    e.parameters.find? (fun q => q.2.conversion types = none) = some (key, p) ↔
      FirstUnknown types e key p := by
  have hinput : e.input.entries.find? (fun q => q.2.conversion types = none) = none ↔
      ∀ other q, e.input.get? other = some q → (q.conversion types).isSome := by
    simp [Dict.get?_eq_some_iff, Option.isSome_iff_ne_none]
  have hleast : ∀ d : Dict Parameter,
      d.entries.find? (fun q => q.2.conversion types = none) = some (key, p) ↔
        d.Least (·.conversion types = none) key p :=
    fun d => Dict.find?_entries_eq_some_iff (P := fun q : Parameter => q.conversion types = none)
  rw [parameters, List.find?_append, Option.or_eq_some_iff, hinput, hleast, hleast]
  constructor
  · rintro (h | ⟨hknown, h⟩)
    · exact .input h
    · exact .output hknown h
  · rintro (h | ⟨hknown, h⟩)
    · exact .inl h
    · exact .inr ⟨hknown, h⟩

theorem unknownType?_eq_some_iff :
    unknownType? types e = some err ↔
      ∃ key p, FirstUnknown types e key p ∧ err = .unknownType e.title key p.typeText := by
  have hfind : unknownType? types e =
      (e.parameters.find? fun q => q.2.conversion types = none).map fun q =>
        .unknownType e.title q.1 q.2.typeText := by
    simp only [unknownType?, Option.isNone_iff_eq_none.symm, Bool.decide_eq_true]
  rw [hfind, Option.map_eq_some_iff]
  simp only [Prod.exists, find?_unknown_eq_some_iff, eq_comm (a := err)]

/-- The first of a list that is hit is its head, or the first of the rest if the head is missed. -/
theorem exists_first_cons_iff {α : Type} {hit miss P : α → Prop} {x : α} {rest : List α} :
    (∃ (j : Nat) (y : α), (x :: rest)[j]? = some y ∧ hit y ∧
        (∀ (k : Nat) (z : α), k < j → (x :: rest)[k]? = some z → miss z) ∧ P y) ↔
      hit x ∧ P x ∨ miss x ∧ ∃ (j : Nat) (y : α), rest[j]? = some y ∧ hit y ∧
        (∀ (k : Nat) (z : α), k < j → rest[k]? = some z → miss z) ∧ P y := by
  constructor
  · rintro ⟨j, y, hj, hy, hbefore, hP⟩
    cases j with
    | zero =>
      obtain rfl : x = y := by simpa using hj
      exact .inl ⟨hy, hP⟩
    | succ j =>
      refine .inr ⟨hbefore 0 x (by omega) rfl, j, y, hj, hy, fun k z hk hz => ?_, hP⟩
      exact hbefore (k + 1) z (by omega) hz
  · rintro (⟨hx, hP⟩ | ⟨hx, j, y, hj, hy, hbefore, hP⟩)
    · exact ⟨0, x, rfl, hx, by omega, hP⟩
    · refine ⟨j + 1, y, hj, hy, fun k z hk hz => ?_, hP⟩
      cases k with
      | zero =>
        obtain rfl : x = z := by simpa using hz
        exact hx
      | succ k => exact hbefore k z (by omega) hz

/-- Of several endpoints that overlap another one the first is reported. -/
theorem checkAgainst_eq_error_iff
    (hverdict : ∀ o ∈ others, ∃ verdict, overlaps types e o = .ok verdict) :
    checkAgainst types e others = .error err ↔
      ∃ (j : Nat) (o : Endpoint), others[j]? = some o ∧ overlaps types e o = .ok true ∧
        (∀ (k : Nat) (o' : Endpoint), k < j → others[k]? = some o' →
          overlaps types e o' = .ok false) ∧
        err = .overlap e.title o.title := by
  induction others with
  | nil => simp [checkAgainst]
  | cons o rest ih =>
    have hrest := ih fun o' ho' => hverdict o' (List.mem_cons_of_mem o ho')
    obtain ⟨verdict, ho⟩ := hverdict o (List.mem_cons_self ..)
    rw [exists_first_cons_iff, ← hrest, checkAgainst]
    cases verdict with
    | true => simp [ho, eq_comm]
    | false => simp [ho]

/-- The pair of endpoints that overlap which comes before all others, by the position of its first
and then of its second endpoint. -/
structure LeastOverlap (types : Registry) (endpoints : List Endpoint) (i j : Nat)
    (a b : Endpoint) : Prop where
  lt : i < j
  first : endpoints[i]? = some a
  second : endpoints[j]? = some b
  overlap : overlaps types a b = .ok true
  least : ∀ (i' j' : Nat) (a' b' : Endpoint), i' < j' → i' < i ∨ i' = i ∧ j' < j →
    endpoints[i']? = some a' → endpoints[j']? = some b' → overlaps types a' b' = .ok false

theorem leastOverlap_cons_zero_iff {j : Nat} {a b : Endpoint} :
    LeastOverlap types (e :: others) 0 (j + 1) a b ↔
      a = e ∧ others[j]? = some b ∧ overlaps types e b = .ok true ∧
        ∀ (k : Nat) (o : Endpoint), k < j → others[k]? = some o →
          overlaps types e o = .ok false := by
  constructor
  · intro h
    obtain rfl : e = a := by simpa using h.first
    refine ⟨rfl, by simpa using h.second, h.overlap, fun k o hk ho => ?_⟩
    exact h.least 0 (k + 1) e o (by omega) (by omega) rfl (by simpa using ho)
  · rintro ⟨rfl, hj, hoverlap, hbefore⟩
    refine ⟨by omega, rfl, by simpa using hj, hoverlap, fun i' j' a' b' hlt hbelow ha' hb' => ?_⟩
    obtain rfl : i' = 0 := by omega
    obtain rfl : a = a' := by simpa using ha'
    cases j' with
    | zero => omega
    | succ k => exact hbefore k b' (by omega) (by simpa using hb')

theorem leastOverlap_cons_succ_iff {i j : Nat} {a b : Endpoint} :
    LeastOverlap types (e :: others) (i + 1) (j + 1) a b ↔
      (∀ o ∈ others, overlaps types e o = .ok false) ∧ LeastOverlap types others i j a b := by
  constructor
  · intro h
    refine ⟨fun o ho => ?_, ?_⟩
    · obtain ⟨k, hk⟩ := List.mem_iff_getElem?.1 ho
      exact h.least 0 (k + 1) e o (by omega) (by omega) rfl (by simpa using hk)
    · refine ⟨by have := h.lt; omega, by simpa using h.first, by simpa using h.second, h.overlap,
        fun i' j' a' b' hlt hbelow ha' hb' => ?_⟩
      exact h.least (i' + 1) (j' + 1) a' b' (by omega) (by omega) (by simpa using ha')
        (by simpa using hb')
  · rintro ⟨hfirst, h⟩
    refine ⟨by have := h.lt; omega, by simpa using h.first, by simpa using h.second, h.overlap,
      fun i' j' a' b' hlt hbelow ha' hb' => ?_⟩
    cases j' with
    | zero => omega
    | succ j' =>
      have hb' : others[j']? = some b' := by simpa using hb'
      cases i' with
      | zero =>
        obtain rfl : e = a' := by simpa using ha'
        exact hfirst b' (List.mem_of_getElem? hb')
      | succ i' =>
        exact h.least i' j' a' b' (by omega) (by omega) (by simpa using ha') hb'

/-- The least pair that overlaps is one with the head, or it is the least pair of the rest. -/
theorem exists_leastOverlap_cons_iff {P : Endpoint → Endpoint → Prop} :
    (∃ i j a b, LeastOverlap types (e :: others) i j a b ∧ P a b) ↔
      (∃ (j : Nat) (b : Endpoint), others[j]? = some b ∧ overlaps types e b = .ok true ∧
        (∀ (k : Nat) (o : Endpoint), k < j → others[k]? = some o →
          overlaps types e o = .ok false) ∧ P e b) ∨
      (∀ o ∈ others, overlaps types e o = .ok false) ∧
        ∃ i j a b, LeastOverlap types others i j a b ∧ P a b := by
  constructor
  · rintro ⟨i, j, a, b, h, hP⟩
    obtain ⟨j, rfl⟩ := Nat.exists_eq_succ_of_ne_zero (Nat.ne_zero_of_lt h.lt)
    cases i with
    | zero =>
      obtain ⟨rfl, hj, hoverlap, hbefore⟩ := leastOverlap_cons_zero_iff.1 h
      exact .inl ⟨j, b, hj, hoverlap, hbefore, hP⟩
    | succ i =>
      obtain ⟨hnone, hleast⟩ := leastOverlap_cons_succ_iff.1 h
      exact .inr ⟨hnone, i, j, a, b, hleast, hP⟩
  · rintro (⟨j, b, hj, hoverlap, hbefore, hP⟩ | ⟨hnone, i, j, a, b, hleast, hP⟩)
    · exact ⟨0, j + 1, e, b, leastOverlap_cons_zero_iff.2 ⟨rfl, hj, hoverlap, hbefore⟩, hP⟩
    · exact ⟨i + 1, j + 1, a, b, leastOverlap_cons_succ_iff.2 ⟨hnone, hleast⟩, hP⟩

/-- Of several pairs of endpoints that overlap the least is reported. -/
theorem checkPairs_eq_error_iff
    (hverdict : ∀ a ∈ endpoints, ∀ b ∈ endpoints, ∃ verdict, overlaps types a b = .ok verdict) :
    checkPairs types endpoints = .error err ↔
      ∃ i j a b, LeastOverlap types endpoints i j a b ∧ err = .overlap a.title b.title := by
  induction endpoints with
  | nil =>
    constructor
    · intro h
      cases h
    · rintro ⟨i, j, a, b, h, -⟩
      simpa using h.first
  | cons e rest ih =>
    have hrest := ih fun a ha b hb =>
      hverdict a (List.mem_cons_of_mem e ha) b (List.mem_cons_of_mem e hb)
    have hhead : ∀ o ∈ rest, ∃ verdict, overlaps types e o = .ok verdict := fun o ho =>
      hverdict e (List.mem_cons_self ..) o (List.mem_cons_of_mem e ho)
    rw [exists_leastOverlap_cons_iff, ← checkAgainst_eq_error_iff hhead, ← checkAgainst_eq_ok_iff,
      ← hrest, checkPairs]
    cases checkAgainst types e rest with
    | error err' => simp
    | ok u => simp

/-- The fault that the check of a set of endpoints has to report. -/
inductive Reported (types : Registry) (endpoints : List Endpoint) : CheckError → Prop where
  | unknownType {before after : List Endpoint} {e : Endpoint} {key : String} {p : Parameter}
      (hsplit : endpoints = before ++ e :: after) (hbefore : ∀ o ∈ before, Known types o)
      (hfirst : FirstUnknown types e key p) :
      Reported types endpoints (.unknownType e.title key p.typeText)
  | overlap {i j : Nat} {a b : Endpoint} (hknown : ∀ e ∈ endpoints, Known types e)
      (hleast : LeastOverlap types endpoints i j a b) :
      Reported types endpoints (.overlap a.title b.title)

theorem findSome?_unknownType?_eq_none_iff :
    endpoints.findSome? (unknownType? types) = none ↔ ∀ e ∈ endpoints, Known types e := by
  simp only [List.findSome?_eq_none_iff, unknownType?_eq_none_iff, known_iff_parameters]

theorem findSome?_unknownType?_of_first {before after : List Endpoint} {key : String}
    {p : Parameter} (hsplit : endpoints = before ++ e :: after)
    (hbefore : ∀ o ∈ before, Known types o) (hfirst : FirstUnknown types e key p) :
    endpoints.findSome? (unknownType? types) = some (.unknownType e.title key p.typeText) := by
  refine List.findSome?_eq_some_iff.2 ⟨before, e, after, hsplit, ?_, fun o ho => ?_⟩
  · exact unknownType?_eq_some_iff.2 ⟨key, p, hfirst, rfl⟩
  · exact (unknownType?_eq_none_iff o).2 (known_iff_parameters.1 (hbefore o ho))

/-- With all types known before any comparison, the check reports what it has to. -/
theorem checkAll_eq_error_iff
    (hverdict : (∀ e ∈ endpoints, Known types e) → ∀ a ∈ endpoints, ∀ b ∈ endpoints,
      ∃ verdict, overlaps types a b = .ok verdict) :
    checkAll types endpoints = .error err ↔ Reported types endpoints err := by
  rw [checkAll]
  cases hfind : endpoints.findSome? (unknownType? types) with
  | some err' =>
    constructor
    · intro herr
      obtain rfl := Except.error.inj herr
      obtain ⟨before, e, after, hsplit, he, hbefore⟩ := List.findSome?_eq_some_iff.1 hfind
      obtain ⟨key, p, hfirst, rfl⟩ := unknownType?_eq_some_iff.1 he
      refine .unknownType hsplit (fun o ho => ?_) hfirst
      exact known_iff_parameters.2 ((unknownType?_eq_none_iff o).1 (hbefore o ho))
    · intro hreported
      cases hreported with
      | unknownType hsplit hbefore hfirst =>
        rw [findSome?_unknownType?_of_first hsplit hbefore hfirst] at hfind
        rw [Option.some.inj hfind]
      | overlap hknown hleast =>
        rw [findSome?_unknownType?_eq_none_iff.2 hknown] at hfind
        cases hfind
  | none =>
    have hknown := findSome?_unknownType?_eq_none_iff.1 hfind
    simp only [checkPairs_eq_error_iff (hverdict hknown)]
    constructor
    · rintro ⟨i, j, a, b, hleast, rfl⟩
      exact .overlap hknown hleast
    · intro hreported
      cases hreported with
      | unknownType hsplit hbefore hfirst =>
        rw [findSome?_unknownType?_of_first hsplit hbefore hfirst] at hfind
        cases hfind
      | overlap _ hleast => exact ⟨_, _, _, _, hleast, rfl⟩

theorem exists_verdict_of_known {entries : List Manifest.Entry}
    (hcompile : Manifest.compile entries = .ok endpoints)
    (hknown : ∀ e ∈ endpoints, Known types e) {a b : Endpoint} (ha : a ∈ endpoints)
    (hb : b ∈ endpoints) : ∃ verdict, overlaps types a b = .ok verdict := by
  have hsupplied : ∀ e ∈ endpoints, Supplied types e := by
    intro e he
    obtain ⟨entry, -, hentry⟩ := Manifest.exists_entry_of_compile hcompile he
    exact supplied_of_compile hentry (known_iff_parameters.1 (hknown e he))
  exact exists_verdict_of_overlaps (hsupplied a ha) (hsupplied b hb)

/-- The check of a compiled manifest passes if all types are known and no two endpoints overlap.
Otherwise it reports the first parameter of unknown type or, if there is none, the least pair that
overlaps. Comparing endpoints never reports a type. -/
theorem checkAll_reports {entries : List Manifest.Entry}
    (hcompile : Manifest.compile entries = .ok endpoints) (types : Registry) :
    (checkAll types endpoints = .ok () ↔
      (∀ e ∈ endpoints, Known types e) ∧
        ∀ (i j : Nat) (a b : Endpoint), i < j → endpoints[i]? = some a →
          endpoints[j]? = some b → overlaps types a b ≠ .ok true) ∧
      (∀ err, checkAll types endpoints = .error err ↔ Reported types endpoints err) ∧
      ((∀ e ∈ endpoints, Known types e) → ∀ endpoint param typeText,
        checkPairs types endpoints ≠ .error (.unknownType endpoint param typeText)) := by
  have hverdict : (∀ e ∈ endpoints, Known types e) → ∀ a ∈ endpoints, ∀ b ∈ endpoints,
      ∃ verdict, overlaps types a b = .ok verdict :=
    fun hknown a ha b hb => exists_verdict_of_known hcompile hknown ha hb
  refine ⟨?_, fun err => checkAll_eq_error_iff hverdict, fun hknown _ _ _ herror => ?_⟩
  · rw [checkAll_eq_ok_iff]
    simp only [← known_iff_parameters]
    refine and_congr_right fun hknown => ?_
    rw [List.pairwise_iff_getElem]
    constructor
    · intro hpairs i j a b hlt ha hb htrue
      obtain ⟨hi, rfl⟩ := List.getElem?_eq_some_iff.1 ha
      obtain ⟨hj, rfl⟩ := List.getElem?_eq_some_iff.1 hb
      rw [hpairs i j hi hj hlt] at htrue
      cases htrue
    · intro hpairs i j hi hj hlt
      obtain ⟨verdict, hab⟩ := hverdict hknown _ (List.getElem_mem hi) _ (List.getElem_mem hj)
      cases verdict with
      | false => exact hab
      | true =>
        exact absurd hab (hpairs i j _ _ hlt (List.getElem?_eq_getElem hi)
          (List.getElem?_eq_getElem hj))
  · obtain ⟨_, _, _, _, -, heq⟩ := (checkPairs_eq_error_iff (hverdict hknown)).1 herror
    cases heq

/-- Two pairs of these endpoints overlap, and two of them have a parameter. -/
def crowded : List Manifest.Entry := [
  { method := "GET", path := "/users/\x7bid\x7d",
    input := .ofList [("\x7bid\x7d", { typeText := "uint", name := some "ID" })] },
  { method := "GET", path := "/users/me" },
  { method := "GET", path := "/users/7", output := .ofList [("id", { typeText := "uint" })] },
  { method := "GET", path := "/users/me" }]

theorem checkAll_reports_crowded :
    ∃ endpoints, Manifest.compile crowded = .ok endpoints ∧
      Reported .builtin endpoints (.overlap "GET /users/\x7bid\x7d" "GET /users/7") ∧
      Reported .empty endpoints (.unknownType "GET /users/\x7bid\x7d" "\x7bid\x7d" "uint") := by
  have hrun : (Manifest.compile crowded).toOption.any (fun endpoints =>
      decide (checkAll .builtin endpoints =
          .error (.overlap "GET /users/\x7bid\x7d" "GET /users/7") ∧
        checkAll .empty endpoints =
          .error (.unknownType "GET /users/\x7bid\x7d" "\x7bid\x7d" "uint"))) = true := by
    decide +kernel
  obtain ⟨endpoints, hcompile, hfacts⟩ := exists_of_any_toOption hrun
  obtain ⟨hoverlap, hunknown⟩ := of_decide_eq_true hfacts
  exact ⟨endpoints, hcompile, ((checkAll_reports hcompile .builtin).2.1 _).1 hoverlap,
    ((checkAll_reports hcompile .empty).2.1 _).1 hunknown⟩

end Signpost.Endpoint
