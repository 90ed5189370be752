import Signpost.Proofs.Endpoint.Supplied
import Signpost.Proofs.Role.Distinct

/-!
# Requests for different resources

A role of a compiled scope that refers to captures is rendered from the values that a request gives
them. Where the role tells their texts, requests that give them different texts require different
roles, so that a caller who holds the role of one resource does not hold that of another.
-/
namespace Signpost.Endpoint

open Json

/-- The role that stands at a position among those required. -/
def roleAt (required : List (List String)) (group item : Nat) : Option String :=
  (required[group]?).bind (·[item]?)

/-- A capture whose type is one of the built-in types for truth values and numbers. -/
def HasScalarType (types : Registry) (c : Capture) : Prop :=
  ∃ validator ∈ Validator.scalars, types.validators.get? c.param.validator = some validator

/-- Every capture that a role refers to has a scalar type or values that close no bracket, or the
role refers to one capture only. -/
def Separates (types : Registry) (e : Endpoint) (t : Template) (values values' : Dict Value) :
    Prop :=
  (∀ name ∈ t.captures, (∃ c ∈ e.captures, c.param.rename = name ∧ HasScalarType types c) ∨
    ∀ v, values.get? name = some v ∨ values'.get? name = some v → Unbracketed v) ∨
  ∀ name ∈ t.captures, ∀ other ∈ t.captures, name = other

section Compiled

variable {types : Registry} {entry : Manifest.Entry} {e : Endpoint}

theorem roleAt_resolve (h : compile entry = .ok e) {group item : Nat} {t : Template}
    (ht : e.scope.templateAt group item = some t) (values : Dict Value) :
    roleAt (e.scope.resolve values) group item = some (t.render values) := by
  have hscope := scope_of_compile h
  obtain ⟨roles, hroles, hitem⟩ := Option.bind_eq_some_iff.1 ht
  rw [hscope, Scope.resolve_eq_render, ← hscope, roleAt]
  simp [hroles, hitem]

theorem valued_of_accept (h : compile entry = .ok e) {segments : List String}
    {values : Dict Value} (ha : e.accept types segments = some values) {group item : Nat}
    {t : Template} (ht : e.scope.templateAt group item = some t) : t.Valued values := by
  intro name hname
  obtain ⟨roles, hroles, hitem⟩ := Option.bind_eq_some_iff.1 ht
  obtain ⟨r, hr, rfl⟩ := mem_references_of_template h (List.mem_of_getElem? hroles)
    (List.mem_of_getElem? hitem) hname
  exact exists_value_of_reference h ha hr

theorem unbracketed_of_accept (h : compile entry = .ok e) {segments : List String}
    {values : Dict Value} (ha : e.accept types segments = some values) {c : Capture}
    (hc : c ∈ e.captures) (hscalar : HasScalarType types c) {v : Value}
    (hv : values.get? c.param.rename = some v) : Unbracketed v := by
  obtain ⟨d, hd, hname, raw, -, hconvert⟩ := (get?_of_accept h ha).1 hv
  obtain rfl : d = c := capture_rename_injective h hd hc hname
  obtain ⟨validator, hscalars, hvalidator⟩ := hscalar
  obtain ⟨convert, hresolve, hconvert⟩ := Option.bind_eq_some_iff.1 hconvert
  obtain ⟨found, hfound, harguments⟩ := Option.bind_eq_some_iff.1 hresolve
  obtain rfl := Option.some.inj (hfound.symm.trans hvalidator)
  exact Validator.unbracketed_of_scalar hscalars harguments hconvert

theorem Separates.separable (h : compile entry = .ok e) {segments segments' : List String}
    {values values' : Dict Value} (ha : e.accept types segments = some values)
    (ha' : e.accept types segments' = some values') {t : Template}
    (hs : Separates types e t values values') : t.Separable values values' := by
  refine hs.imp_left fun hplain name hname v hv => ?_
  rcases hplain name hname with ⟨c, hc, rfl, hscalar⟩ | hplain
  · rcases hv with hv | hv
    · exact unbracketed_of_accept h ha hc hscalar hv
    · exact unbracketed_of_accept h ha' hc hscalar hv
  · exact hplain v hv

end Compiled

/-- A rendered role tells the texts of the captures that it refers to, provided that none of them
closes a bracket or that there is one such capture only. Truth values and numbers never close one.
So requests that give a capture different texts never require the same role for it. -/
theorem roles_tell_resources :
    (∀ (raw : String) (isCapture : String → Bool) (values values' : Dict Value),
      (Template.compile raw isCapture).Valued values →
      (Template.compile raw isCapture).Valued values' →
      (Template.compile raw isCapture).Separable values values' →
      (Template.compile raw isCapture).render values =
        (Template.compile raw isCapture).render values' →
      ∀ name ∈ (Template.compile raw isCapture).captures,
        (values.get? name).map roleText = (values'.get? name).map roleText) ∧
    (∀ validator ∈ Validator.scalars, ∀ arguments convert raw v,
      validator arguments = some convert → convert raw = some v → Unbracketed v) ∧
    ∀ types entry e segments segments' values values' group item t,
      compile entry = .ok e →
      e.accept types segments = some values → e.accept types segments' = some values' →
      e.scope.templateAt group item = some t → Separates types e t values values' →
      (∃ name ∈ t.captures,
        (values.get? name).map roleText ≠ (values'.get? name).map roleText) →
      roleAt (e.scope.resolve values) group item ≠ roleAt (e.scope.resolve values') group item := by
  refine ⟨?_, ?_, ?_⟩
  · intro raw isCapture values values' hvalued hvalued' hseparable hrender name hname
    exact Template.text_eq_of_render_eq hvalued hvalued' hseparable hrender hname
  · intro validator hscalar arguments convert raw v hconvert hv
    exact Validator.unbracketed_of_scalar hscalar hconvert hv
  · intro types entry e segments segments' values values' group item t h ha ha' ht hs hdiffer heq
    obtain ⟨name, hname, hdiffer⟩ := hdiffer
    have hvalued := valued_of_accept h ha ht
    have hvalued' := valued_of_accept h ha' ht
    have hseparable := hs.separable h ha ha'
    rw [roleAt_resolve h ht, roleAt_resolve h ht, Option.some.injEq] at heq
    rw [scope_of_compile h] at ht
    obtain ⟨role, rfl⟩ := Scope.exists_eq_compile_of_templateAt ht
    exact hdiffer (Template.text_eq_of_render_eq hvalued hvalued' hseparable heq hname)

theorem hasScalarType_uint {c : Capture} (h : c.param.validator = "uint") :
    HasScalarType .builtin c := by
  refine ⟨Validator.uint, by simp [Validator.scalars], ?_⟩
  rw [h]
  rfl

/-- The role `user[ID]` is another one for user 8 than for user 7. -/
theorem roles_tell_resources_renameUser :
    ∃ e values values', compile renameUser = .ok e ∧
      e.accept .builtin ["users", "7"] = some values ∧
      e.accept .builtin ["users", "8"] = some values' ∧
      roleAt (e.scope.resolve values) 1 0 ≠ roleAt (e.scope.resolve values') 1 0 := by
  have hrun : (compile renameUser).toOption.any (fun e =>
      (e.accept .builtin ["users", "7"]).any fun values =>
        (e.accept .builtin ["users", "8"]).any fun values' =>
          (e.scope.templateAt 1 0).any fun t => e.captures[0]?.any fun c =>
            decide (t.captures = ["ID"] ∧ c.param.rename = "ID" ∧ c.param.validator = "uint" ∧
              (values.get? "ID").map roleText = some "7" ∧
              (values'.get? "ID").map roleText = some "8")) = true := by
    decide +kernel
  obtain ⟨e, he, hrest⟩ := exists_of_any_toOption hrun
  obtain ⟨values, ha, hrest⟩ := (Option.any_eq_true _ _).1 hrest
  obtain ⟨values', ha', hrest⟩ := (Option.any_eq_true _ _).1 hrest
  obtain ⟨t, ht, hrest⟩ := (Option.any_eq_true _ _).1 hrest
  obtain ⟨c, hc, hfacts⟩ := (Option.any_eq_true _ _).1 hrest
  obtain ⟨hcaptures, hrename, hvalidator, htext, htext'⟩ := of_decide_eq_true hfacts
  have hseparates : Separates .builtin e t values values' := by
    have hscalar := hasScalarType_uint hvalidator
    refine .inl fun name hname => .inl ⟨c, List.mem_of_getElem? hc, ?_, hscalar⟩
    simp_all
  have hdiffer : (values.get? "ID").map roleText ≠ (values'.get? "ID").map roleText := by
    rw [htext, htext']
    decide
  exact ⟨e, values, values', he, ha, ha', roles_tell_resources.2.2 _ _ _ _ _ _ _ _ _ _ he ha ha' ht
    hseparates ⟨"ID", by simp [hcaptures], hdiffer⟩⟩

end Signpost.Endpoint
