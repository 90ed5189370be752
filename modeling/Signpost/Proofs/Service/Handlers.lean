import Mathlib.Data.List.Sort
import Signpost.Proofs.Dict
import Signpost.Proofs.Endpoint.Signature
import Signpost.Proofs.Outcome
import Signpost.Service.Handlers

/-!
# Bound handlers

When the handlers of a service can be bound, each registration is bound under its method and its
pattern, and no handler is bound that was not registered.
-/
namespace Signpost

variable {σ : Type}

/-- The names in order, each of them once. -/
structure Lists (inOrder names : List String) : Prop where
  ordered : inOrder.Pairwise (· < ·)
  mem_iff : ∀ name, name ∈ inOrder ↔ name ∈ names

theorem Lists.eq_iff {first second names others : List String} (h : Lists first names)
    (h' : Lists second others) : first = second ↔ ∀ name, name ∈ names ↔ name ∈ others := by
  constructor
  · rintro rfl name
    rw [← h.mem_iff, h'.mem_iff]
  · intro hsame
    have hmem : ∀ name, name ∈ first ↔ name ∈ second := fun name => by
      rw [h.mem_iff, hsame, ← h'.mem_iff]
    exact h.ordered.eq_of_mem_iff h'.ordered hmem

theorem lists_distinctNames (names : List String) : Lists (distinctNames names) names := by
  refine ⟨List.pairwise_map.2 (Dict.sorted _), fun name => ?_⟩
  rw [distinctNames, Dict.mem_keys_ofList]
  simp

namespace Registration

/-- The method and the pattern that a handler is registered for. -/
def signature (r : Registration σ) : Method × String := (r.method, r.pattern)

/-- What is said about the outputs, if anything is, holds of an endpoint. -/
def Produces (r : Registration σ) (e : Endpoint) : Prop :=
  ∀ names, r.outputs = some names → ∀ name, name ∈ names ↔ name ∈ e.outputNames

theorem produced_eq_declared_iff (r : Registration σ) (e : Endpoint) :
    (r.outputs.map distinctNames).getD (distinctNames e.outputNames) =
      distinctNames e.outputNames ↔ r.Produces e := by
  cases h : r.outputs with
  | none => simp [Produces, h]
  | some names =>
    simpa [Produces, h] using (lists_distinctNames names).eq_iff (lists_distinctNames e.outputNames)

end Registration

namespace Handlers

variable {t : RouteTable} {registrations earlier : List (Registration σ)} {r : Registration σ}
  {handlers : Handlers σ} {handler : Handler σ} {key : Method × String}

/-- A registration as it is bound. -/
def entryOf (r : Registration σ) : (Method × String) × Handler σ :=
  ((r.method, r.pattern), r.handler)

theorem exists_of_find? (h : find? (registrations.map entryOf) key = some handler) :
    ∃ r ∈ registrations, r.signature = key ∧ r.handler = handler := by
  rw [find?, List.lookup_eq_some_iff] at h
  obtain ⟨before, after, hsplit, -⟩ := h
  have hmem : (key, handler) ∈ registrations.map entryOf := by simp [hsplit]
  obtain ⟨r, hr, hentry⟩ := List.mem_map.1 hmem
  exact ⟨r, hr, congrArg Prod.fst hentry, congrArg Prod.snd hentry⟩

theorem isSome_find?_iff :
    (find? (registrations.map entryOf) key).isSome ↔
      key ∈ registrations.map Registration.signature := by
  rw [find?, List.lookup_isSome_iff]
  simp only [List.mem_map, entryOf, Registration.signature, exists_exists_and_eq_and, beq_iff_eq]
  simp [eq_comm (a := key)]

/-- Where no two registrations are for the same, each of them is found. -/
theorem find?_eq_some_iff (hdistinct : (registrations.map Registration.signature).Nodup) :
    find? (registrations.map entryOf) key = some handler ↔
      ∃ r ∈ registrations, r.signature = key ∧ r.handler = handler := by
  refine ⟨exists_of_find?, fun hright => ?_⟩
  obtain ⟨r, hr, rfl, rfl⟩ := hright
  obtain ⟨before, after, rfl⟩ := List.append_of_mem hr
  refine List.lookup_eq_some_iff.2 ⟨before.map entryOf, after.map entryOf,
    by simp [entryOf, Registration.signature], fun entry hentry => ?_⟩
  obtain ⟨r', hr', rfl⟩ := List.mem_map.1 hentry
  rw [List.map_append, List.nodup_append] at hdistinct
  have hne : r'.signature ≠ r.signature :=
    hdistinct.2.2 _ (List.mem_map_of_mem hr') _ (by simp)
  exact bne_iff_ne.2 hne.symm

/-- A handler is bound if the endpoint it is registered for is there, the outputs are those of the
endpoint, and no other handler is bound to it. -/
theorem bindOne_eq_ok_iff {next : List ((Method × String) × Handler σ)} :
    bindOne t (earlier.map entryOf) r = .ok next ↔
      (∃ e, t.get? r.method r.pattern = some e ∧ r.Produces e) ∧
        r.signature ∉ earlier.map Registration.signature ∧
        next = (earlier ++ [r]).map entryOf := by
  have hfind : (find? (earlier.map entryOf) (r.method, r.pattern)).isSome ↔
      r.signature ∈ earlier.map Registration.signature := isSome_find?_iff
  cases hget : t.get? r.method r.pattern with
  | none => simp [bindOne, hget]
  | some e =>
    by_cases hproduces : r.Produces e
    · have hsame := (r.produced_eq_declared_iff e).2 hproduces
      simp only [bindOne, hget, hsame, ne_eq, not_true_eq_false, if_false, hfind]
      by_cases hagain : r.signature ∈ earlier.map Registration.signature
      · simp only [hagain]
        simp
      · simp [hagain, hproduces, entryOf, eq_comm]
    · have hdiff := mt (r.produced_eq_declared_iff e).1 hproduces
      simp only [bindOne, hget, ne_eq, hdiff, not_false_eq_true, if_true]
      simp [hproduces]

theorem nodup_append_iff :
    ((earlier ++ [r]).map Registration.signature).Nodup ↔
      (earlier.map Registration.signature).Nodup ∧
        r.signature ∉ earlier.map Registration.signature := by
  rw [List.map_append, List.map_singleton, List.nodup_append_comm, List.singleton_append,
    List.nodup_cons, and_comm]

theorem foldlM_bindOne_eq_ok {bound : List ((Method × String) × Handler σ)}
    (h : registrations.foldlM (bindOne t) (earlier.map entryOf) = .ok bound)
    (hearlier : (earlier.map Registration.signature).Nodup) :
    bound = (earlier ++ registrations).map entryOf ∧
      ((earlier ++ registrations).map Registration.signature).Nodup ∧
      ∀ r ∈ registrations, ∃ e, t.get? r.method r.pattern = some e ∧ r.Produces e := by
  -- `earlier` are the registrations bound so far; no two of them are for the same.
  induction registrations generalizing earlier with
  | nil => simpa [pure, Except.pure, eq_comm, hearlier] using h
  | cons r rest ih =>
    rw [List.foldlM_cons] at h
    obtain ⟨next, hnext, hrest⟩ := bind_eq_ok_iff.1 h
    obtain ⟨hr, hfresh, rfl⟩ := bindOne_eq_ok_iff.1 hnext
    obtain ⟨hbound, hall, houtputs⟩ := ih hrest (nodup_append_iff.2 ⟨hearlier, hfresh⟩)
    rw [List.append_assoc] at hbound hall
    exact ⟨hbound, hall, List.forall_mem_cons.2 ⟨hr, houtputs⟩⟩

section Bound

variable (h : bind t registrations = .ok handlers)
include h

theorem foldlM_of_bind :
    registrations.foldlM (bindOne t) (([] : List (Registration σ)).map entryOf) =
      .ok handlers.bound := by
  obtain ⟨bound, hbound, rfl⟩ := map_eq_ok_iff.1 h
  exact hbound

theorem bound_of_bind : handlers.bound = registrations.map entryOf :=
  (foldlM_bindOne_eq_ok (foldlM_of_bind h) List.nodup_nil).1

theorem nodup_of_bind : (registrations.map Registration.signature).Nodup :=
  (foldlM_bindOne_eq_ok (foldlM_of_bind h) List.nodup_nil).2.1

/-- Each handler is registered for an endpoint of the table, and has the outputs of that. -/
theorem produces_of_bind (hr : r ∈ registrations) :
    ∃ e, t.get? r.method r.pattern = some e ∧ r.Produces e :=
  (foldlM_bindOne_eq_ok (foldlM_of_bind h) List.nodup_nil).2.2 r hr

/-- The handler of an endpoint is the one that was registered for its method and its pattern. -/
theorem get?_eq_some_iff_of_bind {e : Endpoint} :
    handlers.get? e = some handler ↔
      ∃ r ∈ registrations, r.signature = e.signature ∧ r.handler = handler := by
  rw [get?, bound_of_bind h]
  exact find?_eq_some_iff (nodup_of_bind h)

theorem exists_registration_of_get? {e : Endpoint} (hget : handlers.get? e = some handler) :
    ∃ r ∈ registrations, r.method = e.method ∧ r.pattern = e.pattern ∧ r.handler = handler := by
  obtain ⟨r, hr, hsignature, hhandler⟩ := (get?_eq_some_iff_of_bind h).1 hget
  obtain ⟨hmethod, hpattern⟩ := Prod.mk.inj hsignature
  exact ⟨r, hr, hmethod, hpattern, hhandler⟩

end Bound

end Handlers

end Signpost
