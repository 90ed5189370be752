import Signpost.Proofs.Service.Inputs
import Signpost.Proofs.Text.ByteOrder
import Signpost.Validator.Builtin

/-!
# Where reading the inputs stops

Inputs are read in the byte order of their keys. Reading fails if any of them is refused, and then
for the first one that is. What has been read before it stays: the values are updated with those of
the inputs that are present under smaller keys, and with nothing else.
-/
namespace Signpost

open Json Text

namespace Parameter

variable {types : Registry} {query form : Dict Value} {p : Parameter} {reason : Refusal}

/-- Why an input is refused: it has to be there and is not, its type is not known, or its type
rejects the raw value. -/
inductive Refused (types : Registry) (query form : Dict Value) (p : Parameter) :
    Refusal → Prop where
  | missing (source : p.source ≠ .uri) (absent : p.rawFrom query form = none)
      (required : p.optional = false) : Refused types query form p (.missingParam p.rename)
  | unknown {raw : Value} (present : p.rawFrom query form = some raw)
      (unknown : p.conversion types = none) :
      Refused types query form p (.internal ("no validator for `" ++ p.rename ++ "`"))
  | rejected {raw : Value} {convert : Conversion} (present : p.rawFrom query form = some raw)
      (known : p.conversion types = some convert) (rejected : convert raw = none) :
      Refused types query form p (.invalidParam p.rename)

theorem readFrom_eq_refused_iff {raw : Dict Value} (hs : p.source ≠ .uri)
    (hraw : p.rawFrom query form = raw.get? p.name) :
    p.readFrom types raw = .refused reason ↔ p.Refused types query form reason := by
  unfold readFrom
  rw [← hraw]
  constructor
  · intro hleft
    cases hvalue : p.rawFrom query form with
    | none =>
      cases hoptional : p.optional with
      | true => simp [hvalue, hoptional] at hleft
      | false =>
        obtain rfl : .missingParam p.rename = reason := by simpa [hvalue, hoptional] using hleft
        exact .missing hs hvalue hoptional
    | some v =>
      cases hconversion : p.conversion types with
      | none =>
        simp only [hvalue, hconversion, Reading.refused.injEq] at hleft
        exact hleft ▸ .unknown hvalue hconversion
      | some convert =>
        cases hconverted : convert v with
        | none =>
          simp only [hvalue, hconversion, hconverted, Reading.refused.injEq] at hleft
          exact hleft ▸ .rejected hvalue hconversion hconverted
        | some w => simp [hvalue, hconversion, hconverted] at hleft
  · intro hright
    cases hright with
    | missing _ absent required => simp [absent, required]
    | unknown present unknown => simp only [present, unknown]
    | rejected present known rejected => simp only [present, known, rejected]

theorem read_eq_refused_iff :
    p.read types query form = .refused reason ↔ p.Refused types query form reason := by
  cases hs : p.source with
  | uri =>
    -- A capture is neither missing nor there.
    have hnone : p.rawFrom query form = none := by simp [rawFrom, hs]
    simp only [read, hs, reduceCtorEq, false_iff]
    intro hrefused
    cases hrefused with
    | missing source => exact source hs
    | unknown present => simp [hnone] at present
    | rejected present => simp [hnone] at present
  | query =>
    rw [read, hs]
    exact readFrom_eq_refused_iff (by simp [hs]) (by simp [rawFrom, hs])
  | form =>
    rw [read, hs]
    exact readFrom_eq_refused_iff (by simp [hs]) (by simp [rawFrom, hs])

theorem refusal?_eq_some_iff :
    p.refusal? types query form = some reason ↔ p.Refused types query form reason := by
  rw [← read_eq_refused_iff, refusal?]
  cases p.read types query form <;> simp

/-- Reading goes past the inputs that are not refused and stops at the first one that is. -/
theorem readAll_append_cons {before after : List Parameter} {values : Dict Value}
    (hbefore : ∀ q ∈ before, q.refusal? types query form = none)
    (hp : p.refusal? types query form = some reason) :
    readAll types query form (before ++ p :: after) values =
      (values.insertAll (before.filterMap (binding? types query form)), some reason) := by
  have htake : (before ++ p :: after).takeWhile (fun q => (q.refusal? types query form).isNone) =
      before := by
    rw [List.takeWhile_append_of_pos fun q hq => by simp [hbefore q hq],
      List.takeWhile_cons_of_neg (by simp [hp]), List.append_nil]
  have hfind : (before ++ p :: after).findSome? (refusal? types query form) = some reason :=
    List.findSome?_eq_some_iff.2 ⟨before, p, after, rfl, hp, hbefore⟩
  rw [readAll_eq, htake, hfind]

end Parameter

namespace Endpoint

variable {types : Registry} {query form : Dict Value} {entry : Manifest.Entry} {e : Endpoint}

/-- The values `params` are `values` updated with those of the inputs that are present under certain
keys, each under its name outside. -/
structure Updated (types : Registry) (e : Endpoint) (query form : Dict Value)
    (keys : String → Prop) (values params : Dict Value) : Prop where
  present : ∀ key p raw, keys key → e.input.get? key = some p → p.rawFrom query form = some raw →
    ∃ value, p.convert types raw = some value ∧ params.get? p.rename = some value
  others : ∀ name, (∀ key p, keys key → e.input.get? key = some p → p.rename = name →
    p.rawFrom query form = none) → params.get? name = values.get? name

/-- What reading the inputs leaves behind, and why it stopped if it did. -/
structure ReadInOrder (types : Registry) (e : Endpoint) (query form values params : Dict Value)
    (outcome : Option Refusal) : Prop where
  fails_iff : outcome.isSome ↔ ∃ key p reason, e.input.get? key = some p ∧
    p.Refused types query form reason
  failure : ∀ reason, outcome = some reason → ∃ key p, e.input.get? key = some p ∧
    p.Refused types query form reason ∧
    (∀ other q r, e.input.get? other = some q → q.Refused types query form r →
      other = key ∨ Utf8.BytesBefore key other) ∧
    Updated types e query form (Utf8.BytesBefore · key) values params
  success : outcome = none → Updated types e query form (fun _ => True) values params
  captures : ∀ c ∈ e.captures, params.get? c.param.rename = values.get? c.param.rename

/-- The bindings of inputs none of which is refused update the values with those of the inputs. -/
theorem updated_insertAll (h : compile entry = .ok e) {keys : String → Prop} {ps : List Parameter}
    (hmem : ∀ p, p ∈ ps ↔ ∃ key, keys key ∧ e.input.get? key = some p)
    (hnone : ∀ p ∈ ps, p.refusal? types query form = none) (values : Dict Value) :
    Updated types e query form keys values
      (values.insertAll (ps.filterMap (Parameter.binding? types query form))) := by
  have hinput : ∀ p ∈ ps, p ∈ e.input.values := by
    intro p hps
    obtain ⟨key, -, hp⟩ := (hmem p).1 hps
    exact Dict.mem_values_iff.2 ⟨key, hp⟩
  constructor
  case present =>
    intro key p raw hkey hp hraw
    have hps : p ∈ ps := (hmem p).2 ⟨key, hkey, hp⟩
    obtain ⟨value, hvalue⟩ :=
      Option.isSome_iff_exists.1 ((Parameter.refusal?_eq_none_iff.1 (hnone p hps)).1 raw hraw)
    have hbinding : p.binding? types query form = some (p.rename, value) :=
      Parameter.binding?_eq_some_iff.2 ⟨rfl, raw, hraw, hvalue⟩
    refine ⟨value, hvalue,
      Dict.get?_insertAll_of_mem (List.mem_filterMap.2 ⟨p, hps, hbinding⟩) fun v hv => ?_⟩
    obtain ⟨q, hqs, hq⟩ := List.mem_filterMap.1 hv
    exact binding?_unique h (hinput q hqs) (hinput p hps) hq hbinding
  case others =>
    intro name habsent
    refine Dict.get?_insertAll_of_notMem fun hname => ?_
    obtain ⟨⟨name, v⟩, hv, rfl⟩ := List.mem_map.1 hname
    obtain ⟨p, hps, hp⟩ := List.mem_filterMap.1 hv
    obtain ⟨hrename, raw, hraw, -⟩ := Parameter.binding?_eq_some_iff.1 hp
    obtain ⟨key, hkey, hget⟩ := (hmem p).1 hps
    simp [habsent key p hkey hget hrename] at hraw

theorem Updated.get?_capture {keys : String → Prop} {values params : Dict Value}
    (hupdated : Updated types e query form keys values params) (h : compile entry = .ok e)
    {c : Capture} (hc : c ∈ e.captures) :
    params.get? c.param.rename = values.get? c.param.rename := by
  -- No input that is present goes by the name of a capture.
  refine hupdated.others _ fun key p _ hp hname => ?_
  rw [Option.eq_none_iff_forall_ne_some]
  intro raw hraw
  exact rename_ne_of_rawFrom h hc (Dict.mem_values_iff.2 ⟨key, hp⟩) hraw hname

theorem readInputs_of_accepted (h : compile entry = .ok e)
    (hall : ∀ x ∈ e.input.entries, x.2.refusal? types query form = none) (values : Dict Value) :
    ReadInOrder types e query form values (e.readInputs types query form values).1
      (e.readInputs types query form values).2 := by
  have hget : ∀ key p, e.input.get? key = some p → p.refusal? types query form = none :=
    fun key p hp => hall (key, p) (Dict.get?_eq_some_iff.1 hp)
  have hvalues : ∀ p ∈ e.input.values, p.refusal? types query form = none := fun p hp =>
    (Dict.mem_values_iff.1 hp).elim fun key => hget key p
  have hread : e.readInputs types query form values = (_, none) :=
    Parameter.readAll_eq_none_iff.2 ⟨hvalues, rfl⟩
  have hmem : ∀ p, p ∈ e.input.values ↔ ∃ key, True ∧ e.input.get? key = some p := fun p => by
    simp [Dict.mem_values_iff]
  have hupdated := updated_insertAll h hmem hvalues values
  rw [hread]
  refine { fails_iff := ?_, failure := ?_, success := fun _ => hupdated,
           captures := fun c hc => hupdated.get?_capture h hc }
  · simp only [Option.isSome_none, Bool.false_eq_true, false_iff]
    rintro ⟨key, p, reason, hp, hrefused⟩
    rw [← Parameter.refusal?_eq_some_iff, hget key p hp] at hrefused
    simp at hrefused
  · intro reason hreason
    simp at hreason

theorem readInputs_of_refused (h : compile entry = .ok e) {before after : List (String × Parameter)}
    {key : String} {p : Parameter} {reason : Refusal}
    (hsplit : e.input.entries = before ++ (key, p) :: after)
    (hp : p.refusal? types query form = some reason)
    (hbefore : ∀ x ∈ before, x.2.refusal? types query form = none) (values : Dict Value) :
    ReadInOrder types e query form values (e.readInputs types query form values).1
      (e.readInputs types query form values).2 := by
  have hget : e.input.get? key = some p := Dict.get?_eq_some_iff.2 (by simp [hsplit])
  have hrefused := Parameter.refusal?_eq_some_iff.1 hp
  have hvalues : ∀ q ∈ before.map (·.2), q.refusal? types query form = none := by
    intro q hq
    obtain ⟨x, hx, rfl⟩ := List.mem_map.1 hq
    exact hbefore x hx
  have hmem : ∀ q, q ∈ before.map (·.2) ↔
      ∃ other, Utf8.BytesBefore other key ∧ e.input.get? other = some q := by
    intro q
    simp only [List.mem_map, Prod.exists, exists_eq_right, Utf8.bytesBefore_iff,
      ← Dict.mem_before_iff hsplit]
  have hread : e.readInputs types query form values =
      (values.insertAll ((before.map (·.2)).filterMap (Parameter.binding? types query form)),
        some reason) := by
    rw [readInputs, Dict.values, hsplit, List.map_append, List.map_cons]
    exact Parameter.readAll_append_cons hvalues hp
  have hupdated := updated_insertAll h hmem hvalues values
  rw [hread]
  refine { fails_iff := ?_, failure := ?_, success := by simp,
           captures := fun c hc => hupdated.get?_capture h hc }
  · simpa using ⟨key, p, hget, reason, hrefused⟩
  · intro first hfirst
    obtain rfl := Option.some.inj hfirst
    refine ⟨key, p, hget, hrefused, fun other q r hq hr => ?_, hupdated⟩
    -- A refused input with a smaller key would stand among those that have been read.
    rw [Utf8.bytesBefore_iff]
    by_contra hnot
    rw [not_or] at hnot
    have hlt : other < key := Decidable.byContradiction fun hle =>
      hnot.1 (String.le_antisymm (String.not_lt.1 hnot.2) (String.not_lt.1 hle))
    have hnone := hbefore (other, q) ((Dict.mem_before_iff hsplit).2 ⟨hlt, hq⟩)
    rw [Parameter.refusal?_eq_some_iff.2 hr] at hnone
    simp at hnone

/-- Reading the inputs of a compiled endpoint stops at the refused one with the least key, with the
values of those before it, and it goes through all of them if none is refused. -/
theorem readInputs_in_order (h : compile entry = .ok e) (query form values : Dict Value) :
    ReadInOrder types e query form values (e.readInputs types query form values).1
      (e.readInputs types query form values).2 := by
  cases hfind : e.input.entries.findSome? fun entry => entry.2.refusal? types query form with
  | none => exact readInputs_of_accepted h (List.findSome?_eq_none_iff.1 hfind) values
  | some reason =>
    obtain ⟨before, ⟨key, p⟩, after, hsplit, hp, hbefore⟩ := List.findSome?_eq_some_iff.1 hfind
    exact readInputs_of_refused h hsplit hp hbefore values

/-- Renaming a user without the new name, which is reported under its name outside. -/
theorem readInputs_in_order_renameUser :
    ∃ e params, compile renameUser = .ok e ∧
      e.readInputs .builtin (.ofList [("notify", .string "1")]) {} (.ofList [("ID", .ofNat 7)]) =
        (params, some (.missingParam "name")) ∧
      ReadInOrder .builtin e (.ofList [("notify", .string "1")]) {} (.ofList [("ID", .ofNat 7)])
        params (some (.missingParam "name")) := by
  have hrun : (compile renameUser).toOption.any (fun e => decide
      ((e.readInputs .builtin (.ofList [("notify", .string "1")]) {}
        (.ofList [("ID", .ofNat 7)])).2 = some (.missingParam "name"))) = true := by decide +kernel
  obtain ⟨e, he, houtcome⟩ := exists_of_any_toOption hrun
  have hmissing := of_decide_eq_true houtcome
  have horder : ReadInOrder .builtin e _ _ _ _ _ := readInputs_in_order he
    (.ofList [("notify", .string "1")]) {} (.ofList [("ID", .ofNat 7)])
  rw [hmissing] at horder
  exact ⟨e, _, he, Prod.ext rfl hmissing, horder⟩

end Endpoint

end Signpost
