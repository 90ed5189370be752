import Mathlib.Data.List.TakeWhile
import Signpost.Proofs.Endpoint.Captured
import Signpost.Service.Inputs

/-!
# The inputs of a request

Inputs are read in order until one of them is refused, and each that is present binds its name
outside to its typed value. Names outside do not clash, so the captures of a match and the inputs
read after it stand side by side: each has the value that its own type makes of its own raw value.
-/
namespace Signpost

open Json

namespace Parameter

variable {types : Registry} {query form : Dict Value} {p : Parameter}

/-- The raw value that the source of an input has for it. Captures are not read again. -/
def rawFrom (query form : Dict Value) (p : Parameter) : Option Value :=
  match p.source with
  | .uri => none
  | .query => query.get? p.name
  | .form => form.get? p.name

/-- The binding that reading an input makes. -/
def binding? (types : Registry) (query form : Dict Value) (p : Parameter) :
    Option (String × Value) :=
  ((p.rawFrom query form).bind (p.convert types)).map (p.rename, ·)

theorem binding?_eq_some_iff {name : String} {value : Value} :
    p.binding? types query form = some (name, value) ↔
      p.rename = name ∧ ∃ raw, p.rawFrom query form = some raw ∧
        p.convert types raw = some value := by
  simp only [binding?, Option.map_eq_some_iff, Option.bind_eq_some_iff, Prod.mk.injEq]
  constructor
  · intro hleft
    obtain ⟨_, ⟨raw, hraw, hvalue⟩, hname, rfl⟩ := hleft
    exact ⟨hname, raw, hraw, hvalue⟩
  · intro hright
    obtain ⟨hname, raw, hraw, hvalue⟩ := hright
    exact ⟨value, ⟨raw, hraw, hvalue⟩, hname, rfl⟩

theorem source_ne_uri_of_rawFrom {raw : Value} (h : p.rawFrom query form = some raw) :
    p.source ≠ .uri := by
  intro hs
  simp [rawFrom, hs] at h

/-- Why reading an input ends the request, if it does. -/
def refusal? (types : Registry) (query form : Dict Value) (p : Parameter) : Option Refusal :=
  match p.read types query form with
  | .refused reason => some reason
  | _ => none

theorem readFrom_eq_value_iff {raw : Dict Value} {value : Value} :
    p.readFrom types raw = .value value ↔
      ∃ v, raw.get? p.name = some v ∧ p.convert types v = some value := by
  unfold readFrom convert
  cases raw.get? p.name with
  | none => cases p.optional <;> simp
  | some v =>
    cases p.conversion types with
    | none => simp
    | some convert => cases hv : convert v <;> simp [hv]

theorem readFrom_eq_absent_iff {raw : Dict Value} :
    p.readFrom types raw = .absent ↔ raw.get? p.name = none ∧ p.optional = true := by
  unfold readFrom
  cases raw.get? p.name with
  | none => cases p.optional <;> simp
  | some v =>
    cases p.conversion types with
    | none => simp
    | some convert => cases hv : convert v <;> simp [hv]

theorem read_eq_value_iff {value : Value} :
    p.read types query form = .value value ↔
      ∃ raw, p.rawFrom query form = some raw ∧ p.convert types raw = some value := by
  cases h : p.source with
  | uri => simp [read, rawFrom, h]
  | query => simp [read, rawFrom, h, readFrom_eq_value_iff]
  | form => simp [read, rawFrom, h, readFrom_eq_value_iff]

theorem read_eq_absent_iff :
    p.read types query form = .absent ↔
      p.rawFrom query form = none ∧ (p.source ≠ .uri → p.optional = true) := by
  cases h : p.source with
  | uri => simp [read, rawFrom, h]
  | query => simp [read, rawFrom, h, readFrom_eq_absent_iff]
  | form => simp [read, rawFrom, h, readFrom_eq_absent_iff]

/-- An input is not refused if it is there unless it may be left out, and its type accepts it. -/
theorem refusal?_eq_none_iff :
    p.refusal? types query form = none ↔
      (∀ raw, p.rawFrom query form = some raw → (p.convert types raw).isSome) ∧
        (p.rawFrom query form = none → p.source ≠ .uri → p.optional = true) := by
  have hread : p.refusal? types query form = none ↔
      p.read types query form = .absent ∨ ∃ value, p.read types query form = .value value := by
    unfold refusal?
    cases p.read types query form <;> simp
  rw [hread, read_eq_absent_iff]
  simp only [read_eq_value_iff]
  cases h : p.rawFrom query form with
  | none => simp
  | some raw => simp [Option.isSome_iff_exists]

theorem readAll_eq (ps : List Parameter) (values : Dict Value) :
    readAll types query form ps values =
      (values.insertAll ((ps.takeWhile fun p => (p.refusal? types query form).isNone).filterMap
          (binding? types query form)),
        ps.findSome? (refusal? types query form)) := by
  induction ps generalizing values with
  | nil => rfl
  | cons p rest ih =>
    have hbinding : ∀ name value, p.binding? types query form = some (name, value) ↔
        p.rename = name ∧ p.read types query form = .value value := by
      intro name value
      rw [binding?_eq_some_iff, read_eq_value_iff]
    -- Only a value adds a binding, and only a refusal ends the list of inputs that are read.
    cases h : p.read types query form with
    | absent =>
      have hnone : p.binding? types query form = none := by
        rw [Option.eq_none_iff_forall_ne_some]
        rintro ⟨name, value⟩
        simp [hbinding, h]
      simp [readAll, refusal?, h, ih, hnone]
    | value v =>
      have hsome : p.binding? types query form = some (p.rename, v) := by simp [hbinding, h]
      simp [readAll, refusal?, h, ih, hsome]
    | refused reason => simp [readAll, refusal?, h]

/-- Reading succeeds if no input is refused, and then every binding has been made. -/
theorem readAll_eq_none_iff {ps : List Parameter} {values params : Dict Value} :
    readAll types query form ps values = (params, none) ↔
      (∀ p ∈ ps, p.refusal? types query form = none) ∧
        params = values.insertAll (ps.filterMap (binding? types query form)) := by
  rw [readAll_eq, Prod.mk.injEq, List.findSome?_eq_none_iff, and_comm]
  refine and_congr_right fun hnone => ?_
  have htake : ps.takeWhile (fun p => (p.refusal? types query form).isNone) = ps :=
    List.takeWhile_eq_self_iff.2 fun p hp => by simp [hnone p hp]
  rw [htake, eq_comm]

end Parameter

namespace Endpoint

variable {types : Registry} {entry : Manifest.Entry} {e : Endpoint}

/-- Inputs that go by one name outside are the same. -/
theorem input_rename_injective (h : compile entry = .ok e) {p q : Parameter}
    (hp : p ∈ e.input.values) (hq : q ∈ e.input.values) (hr : p.rename = q.rename) : p = q := by
  obtain ⟨key, hkey⟩ := Dict.mem_values_iff.1 hp
  obtain ⟨other, hother⟩ := Dict.mem_values_iff.1 hq
  obtain rfl := input_key_injective h hkey hother hr
  exact Option.some.inj (hkey.symm.trans hother)

/-- Inputs that bind one name bind it to one value. -/
theorem binding?_unique (h : compile entry = .ok e) {query form : Dict Value} {p q : Parameter}
    (hp : p ∈ e.input.values) (hq : q ∈ e.input.values) {name : String} {v w : Value}
    (hv : p.binding? types query form = some (name, v))
    (hw : q.binding? types query form = some (name, w)) : v = w := by
  have hpname := (Parameter.binding?_eq_some_iff.1 hv).1
  have hqname := (Parameter.binding?_eq_some_iff.1 hw).1
  obtain rfl := input_rename_injective h hp hq (hpname.trans hqname.symm)
  exact congrArg Prod.snd (Option.some.inj (hv.symm.trans hw))

theorem param_mem_input (h : compile entry = .ok e) {c : Capture} (hc : c ∈ e.captures) :
    c.param ∈ e.input.values :=
  Dict.mem_values_iff.2 ⟨_, (get?_captureKey h hc).1⟩

/-- An input that is read after the match does not go by the name of a capture. -/
theorem rename_ne_of_rawFrom (h : compile entry = .ok e) {query form : Dict Value} {c : Capture}
    (hc : c ∈ e.captures) {p : Parameter} (hp : p ∈ e.input.values) {raw : Value}
    (hraw : p.rawFrom query form = some raw) : p.rename ≠ c.param.rename := by
  intro hr
  obtain rfl := input_rename_injective h hp (param_mem_input h hc) hr
  exact Parameter.source_ne_uri_of_rawFrom hraw (get?_captureKey h hc).2

/-- After a match and the reading of all inputs the values are those of the captures and those of
the inputs that are present. -/
theorem get?_of_readInputs (h : compile entry = .ok e) {segments : List String}
    {query form values params : Dict Value} (ha : e.accept types segments = some values)
    (hread : e.readInputs types query form values = (params, none)) {name : String}
    {value : Value} :
    params.get? name = some value ↔
      (∃ c ∈ e.captures, c.param.rename = name ∧
        ∃ raw, segments[c.position]? = some raw ∧
          c.param.convert types (.string raw) = some value) ∨
      ∃ p ∈ e.input.values, p.rename = name ∧
        ∃ raw, p.rawFrom query form = some raw ∧ p.convert types raw = some value := by
  obtain ⟨-, rfl⟩ := Parameter.readAll_eq_none_iff.1 hread
  have hmem : ∀ key v, (key, v) ∈ e.input.values.filterMap (Parameter.binding? types query form) ↔
      ∃ p ∈ e.input.values, p.rename = key ∧
        ∃ raw, p.rawFrom query form = some raw ∧ p.convert types raw = some v := by
    intro key v
    simp only [List.mem_filterMap, Parameter.binding?_eq_some_iff]
  have honly : ∀ key v w,
      (key, v) ∈ e.input.values.filterMap (Parameter.binding? types query form) →
      (key, w) ∈ e.input.values.filterMap (Parameter.binding? types query form) → v = w := by
    intro key v w hv hw
    obtain ⟨p, hp, hpv⟩ := List.mem_filterMap.1 hv
    obtain ⟨q, hq, hqw⟩ := List.mem_filterMap.1 hw
    exact binding?_unique h hp hq hpv hqw
  rw [Dict.get?_insertAll_eq_some_iff honly, hmem, get?_of_accept h ha, or_comm]
  -- A captured value is still there: no input that is present goes by the name of a capture.
  refine or_congr_left ⟨fun hcapture => hcapture.2, fun hcapture => ⟨?_, hcapture⟩⟩
  obtain ⟨c, hc, rfl, -⟩ := hcapture
  intro hkey
  obtain ⟨⟨key, v⟩, hv, hname⟩ := List.mem_map.1 hkey
  obtain ⟨p, hp, hpname, raw, hraw, -⟩ := (hmem key v).1 hv
  exact rename_ne_of_rawFrom h hc hp hraw (hpname.trans hname)

/-- The inputs of a request as a handler is told them: those declared and no others, each with the
value that its own type makes of its own raw value. -/
structure TypedInputs (types : Registry) (e : Endpoint) (segments : List String)
    (query form params : Dict Value) : Prop where
  /-- Captures and required inputs are always there, optional ones if their source has them. -/
  keys : ∀ name, name ∈ params.keys ↔
    (∃ c ∈ e.captures, c.param.rename = name) ∨
      ∃ p ∈ e.input.values, p.source ≠ .uri ∧ p.rename = name ∧
        (p.optional = false ∨ (p.rawFrom query form).isSome)
  captures : ∀ c ∈ e.captures, ∃ raw value, segments[c.position]? = some raw ∧
    c.param.convert types (.string raw) = some value ∧ params.get? c.param.rename = some value
  inputs : ∀ p ∈ e.input.values, p.source ≠ .uri →
    p.optional = false ∨ (p.rawFrom query form).isSome →
      ∃ raw value, p.rawFrom query form = some raw ∧ p.convert types raw = some value ∧
        params.get? p.rename = some value

theorem typedInputs_of_readInputs (h : compile entry = .ok e) {segments : List String}
    {query form values params : Dict Value} (ha : e.accept types segments = some values)
    (hread : e.readInputs types query form values = (params, none)) :
    TypedInputs types e segments query form params := by
  have hcaptures : ∀ c ∈ e.captures, ∃ raw value, segments[c.position]? = some raw ∧
      c.param.convert types (.string raw) = some value ∧
        params.get? c.param.rename = some value := by
    intro c hc
    obtain ⟨raw, value, hraw, hvalue, -⟩ := exists_value_of_accept h ha hc
    exact ⟨raw, value, hraw, hvalue,
      (get?_of_readInputs h ha hread).2 (.inl ⟨c, hc, rfl, raw, hraw, hvalue⟩)⟩
  have hinputs : ∀ p ∈ e.input.values, p.source ≠ .uri →
      p.optional = false ∨ (p.rawFrom query form).isSome →
        ∃ raw value, p.rawFrom query form = some raw ∧ p.convert types raw = some value ∧
          params.get? p.rename = some value := by
    intro p hp hs hthere
    obtain ⟨hall, -⟩ := Parameter.readAll_eq_none_iff.1 hread
    obtain ⟨haccepted, hoptional⟩ := Parameter.refusal?_eq_none_iff.1 (hall p hp)
    cases hraw : p.rawFrom query form with
    | none => simp [hraw, hoptional hraw hs] at hthere
    | some raw =>
      obtain ⟨value, hvalue⟩ := Option.isSome_iff_exists.1 (haccepted raw hraw)
      exact ⟨raw, value, rfl, hvalue,
        (get?_of_readInputs h ha hread).2 (.inr ⟨p, hp, rfl, raw, hraw, hvalue⟩)⟩
  refine ⟨fun name => ?_, hcaptures, hinputs⟩
  rw [Dict.mem_keys_iff, Option.isSome_iff_exists]
  constructor
  · intro hleft
    obtain ⟨value, hvalue⟩ := hleft
    rcases (get?_of_readInputs h ha hread).1 hvalue with
      ⟨c, hc, hname, -⟩ | ⟨p, hp, hname, raw, hraw, -⟩
    · exact .inl ⟨c, hc, hname⟩
    · have hs := Parameter.source_ne_uri_of_rawFrom hraw
      exact .inr ⟨p, hp, hs, hname, .inr (by simp [hraw])⟩
  · intro hright
    rcases hright with ⟨c, hc, rfl⟩ | ⟨p, hp, hs, rfl, hthere⟩
    · obtain ⟨raw, value, -, -, hvalue⟩ := hcaptures c hc
      exact ⟨value, hvalue⟩
    · obtain ⟨raw, value, -, -, hvalue⟩ := hinputs p hp hs hthere
      exact ⟨value, hvalue⟩

end Endpoint

end Signpost
