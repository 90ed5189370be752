import Signpost.Proofs.Parameter
import Signpost.Service.Inputs

/-!
# The outputs of a reply

The declared outputs are taken out of what a handler produces, one after another. They have
different names, so this comes to looking them up. Each of them has to be there, and a reply has
nothing else.
-/
namespace Signpost

open Json

namespace Parameter

/-- The output as it goes into a reply. -/
def output? (produced : Dict Value) (p : Parameter) : Option (String × Value) :=
  (produced.get? p.rename).map (p.rename, ·)

end Parameter

namespace Endpoint

variable {e : Endpoint} {produced fields : Dict Value}

def keep (produced kept : Dict Value) (p : Parameter) : Except Refusal (Dict Value) :=
  match produced.get? p.rename with
  | some v => .ok (kept.insert p.rename v)
  | none => .error p.missingOutput

theorem selectOutputs_eq_foldlM :
    e.selectOutputs produced = e.output.values.foldlM (keep produced) {} := rfl

theorem foldlM_keep_eq_ok_iff {ps : List Parameter} {kept fields : Dict Value} :
    ps.foldlM (keep produced) kept = .ok fields ↔
      (∀ p ∈ ps, (produced.get? p.rename).isSome) ∧
        fields = kept.insertAll (ps.filterMap (·.output? produced)) := by
  induction ps generalizing kept with
  | nil => simp [pure, Except.pure, eq_comm (a := fields)]
  | cons p rest ih =>
    rw [List.foldlM_cons]
    cases h : produced.get? p.rename with
    | none => simp [keep, h, bind, Except.bind]
    | some v => simp [keep, h, bind, Except.bind, ih, Parameter.output?]

theorem foldlM_keep_eq_error_iff {ps : List Parameter} {kept : Dict Value} {reason : Refusal} :
    ps.foldlM (keep produced) kept = .error reason ↔
      ∃ p, ps.find? (fun p => (produced.get? p.rename).isNone) = some p ∧
        reason = p.missingOutput := by
  induction ps generalizing kept with
  | nil => simp [pure, Except.pure]
  | cons p rest ih =>
    rw [List.foldlM_cons]
    cases h : produced.get? p.rename with
    | none => simp [keep, h, bind, Except.bind, eq_comm (a := reason)]
    | some v => simp [keep, h, bind, Except.bind, ih]

/-- Outputs are found if each of them has been produced. -/
theorem selectOutputs_eq_ok_iff :
    e.selectOutputs produced = .ok fields ↔
      (∀ p ∈ e.output.values, (produced.get? p.rename).isSome) ∧
        fields = ({} : Dict Value).insertAll (e.output.values.filterMap (·.output? produced)) :=
  foldlM_keep_eq_ok_iff

/-- The first output that has not been produced is reported. -/
theorem selectOutputs_eq_error_iff {reason : Refusal} :
    e.selectOutputs produced = .error reason ↔
      ∃ p, e.output.values.find? (fun p => (produced.get? p.rename).isNone) = some p ∧
        reason = p.missingOutput :=
  foldlM_keep_eq_error_iff

theorem insertAll_outputs (ps : List Parameter) (produced : Dict Value) :
    ({} : Dict Value).insertAll (ps.filterMap (·.output? produced)) =
      produced.restrict (ps.map (·.rename)) := by
  have hmem : ∀ key value, (key, value) ∈ ps.filterMap (·.output? produced) ↔
      key ∈ ps.map (·.rename) ∧ produced.get? key = some value := by
    intro key value
    simp only [List.mem_filterMap, List.mem_map, Parameter.output?, Option.map_eq_some_iff,
      Prod.mk.injEq]
    constructor
    · rintro ⟨p, hp, v, hv, rfl, rfl⟩
      exact ⟨⟨p, hp, rfl⟩, hv⟩
    · rintro ⟨⟨p, hp, rfl⟩, hvalue⟩
      exact ⟨p, hp, value, hvalue, rfl, rfl⟩
  have hone : ∀ key v w, (key, v) ∈ ps.filterMap (·.output? produced) →
      (key, w) ∈ ps.filterMap (·.output? produced) → v = w := by
    intro key v w hv hw
    exact Option.some.inj (((hmem key v).1 hv).2.symm.trans ((hmem key w).1 hw).2)
  have hempty : ∀ key, ({} : Dict Value).get? key = none := fun _ => rfl
  refine Dict.eq_of_get?_eq_some_iff fun key value => ?_
  rw [Dict.get?_insertAll_eq_some_iff hone, Dict.get?_restrict_eq_some_iff, hmem, hempty]
  simp

/-- A reply has the declared outputs of what has been produced, if all of them are there. -/
theorem selectOutputs_eq_ok_iff_restrict :
    e.selectOutputs produced = .ok fields ↔
      (∀ name ∈ e.outputNames, (produced.get? name).isSome) ∧
        fields = produced.restrict e.outputNames := by
  rw [selectOutputs_eq_ok_iff, insertAll_outputs, outputNames, List.forall_mem_map]

theorem selectOutputs_eq_error_iff_least {reason : Refusal} :
    e.selectOutputs produced = .error reason ↔
      ∃ key p, e.output.Least (fun p => produced.get? p.rename = none) key p ∧
        reason = .internal ("missing output `" ++ p.rename ++ "`") := by
  have hnone : ∀ p : Parameter, (produced.get? p.rename).isNone =
      decide (produced.get? p.rename = none) := fun p => by
    cases produced.get? p.rename <;> rfl
  have hleast : ∀ p, e.output.values.find? (fun p => (produced.get? p.rename).isNone) = some p ↔
      ∃ key, e.output.Least (fun p => produced.get? p.rename = none) key p := by
    intro p
    simp only [hnone]
    exact Dict.find?_values_eq_some_iff
  rw [selectOutputs_eq_error_iff]
  simp only [hleast]
  constructor
  · rintro ⟨p, ⟨key, hp⟩, rfl⟩
    exact ⟨key, p, hp, rfl⟩
  · rintro ⟨key, p, hp, rfl⟩
    exact ⟨p, ⟨key, hp⟩, rfl⟩

/-- Where names differ, nothing that is taken out is missed later. -/
theorem takeAll_eq_foldlM {ps : List Parameter} {left kept : Dict Value}
    (hdistinct : (ps.map (·.rename)).Nodup)
    (hleft : ∀ p ∈ ps, left.get? p.rename = produced.get? p.rename) :
    Parameter.takeAll ps left kept = ps.foldlM (keep produced) kept := by
  -- What is left answers for the names to come as it did before anything was taken out.
  induction ps generalizing left kept with
  | nil => rfl
  | cons p rest ih =>
    obtain ⟨hfirst, hrest⟩ := List.nodup_cons.1 hdistinct
    have hother : ∀ q ∈ rest, (left.erase p.rename).get? q.rename = produced.get? q.rename := by
      intro q hq
      have hne : p.rename ≠ q.rename := fun heq => hfirst (List.mem_map.2 ⟨q, hq, heq.symm⟩)
      rw [Dict.get?_erase, if_neg hne]
      exact hleft q (List.mem_cons_of_mem _ hq)
    rw [Parameter.takeAll, hleft p List.mem_cons_self, List.foldlM_cons]
    cases hvalue : produced.get? p.rename with
    | none => simp [keep, hvalue, bind, Except.bind]
    | some v => simp [keep, hvalue, bind, Except.bind, ih hrest hother]

/-- Outputs of one name outside would get in each other's way. -/
theorem nodup_outputNames (e : Endpoint) : e.outputNames.Nodup := by
  rw [outputNames, Dict.values, List.map_map]
  refine List.pairwise_map.2 (e.output.sorted.imp_of_mem fun {a b} ha hb hlt => ?_)
  have hne : a.1 ≠ b.1 := fun heq => String.lt_irrefl b.1 (heq ▸ hlt)
  exact (Parameter.firstClash_eq_none_iff.1 e.output_apart a.1 a.2 b.1 b.2
    (Dict.get?_eq_some_iff.2 ha) (Dict.get?_eq_some_iff.2 hb) hne).1

/-- Outputs have different names, so what is taken out is what would be found there at first. -/
theorem takeOutputs_eq_selectOutputs (e : Endpoint) (produced : Dict Value) :
    e.takeOutputs produced = e.selectOutputs produced := by
  rw [selectOutputs_eq_foldlM]
  exact takeAll_eq_foldlM e.nodup_outputNames fun _ _ => rfl

theorem exists_missing_of_takeOutputs {reason : Refusal}
    (h : e.takeOutputs produced = .error reason) :
    ∃ p ∈ e.output.values, produced.get? p.rename = none ∧ reason = p.missingOutput := by
  rw [takeOutputs_eq_selectOutputs] at h
  obtain ⟨p, hp, rfl⟩ := selectOutputs_eq_error_iff.1 h
  exact ⟨p, List.mem_of_find?_eq_some hp, by simpa using List.find?_some hp, rfl⟩

/-- What consists of the declared outputs is the reply as it is. -/
theorem takeOutputs_of_names (h : ∀ name, (produced.get? name).isSome ↔ name ∈ e.outputNames) :
    e.takeOutputs produced = .ok produced := by
  rw [takeOutputs_eq_selectOutputs, selectOutputs_eq_ok_iff_restrict]
  exact ⟨fun name hname => (h name).2 hname, (Dict.restrict_of_keys fun name => (h name).1).symm⟩

end Endpoint

end Signpost
