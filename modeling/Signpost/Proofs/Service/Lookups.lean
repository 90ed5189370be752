import Signpost.Proofs.Endpoint.Supplied
import Signpost.Proofs.Service.Refusals

/-!
# Look-ups that cannot fail

Serving a request looks up captures by their number, types by their name, captured values by the
names that roles refer to, and roles by their position. A manifest that has been compiled and
checked leaves none of these look-ups without an answer.
-/
namespace Signpost

open Json

namespace Service

variable {σ : Type} {s : Service σ} {request : Request}

theorem exists_unknown_of_params {r : Routed} {what : String}
    (h : s.params r request = .error (.internal what)) :
    ∃ p ∈ r.found.endpoint.input.values, p.conversion s.types = none := by
  rcases refusal_of_params h with hbody | ⟨p, hp, query, form, hrefused⟩
  · simp at hbody
  · rcases Parameter.refusal_of_input hrefused with hmissing | hinvalid | ⟨hnone, -⟩
    · cases hmissing
    · cases hinvalid
    · exact ⟨p, hp, hnone⟩

/-- The preparation of a request fails internally only at an input whose type is not known. -/
theorem exists_unknown_of_prepare {what : String}
    (h : s.prepare request = .error (.internal what)) :
    ∃ routed, s.route request.method request.path = .ok routed ∧
      ∃ p ∈ routed.found.endpoint.input.values, p.conversion s.types = none := by
  rcases refusal_of_prepare h with hadmission | ⟨routed, hroute, hparams | ⟨-, hreason⟩⟩
  · simpa using admission_eq_error_iff.1 hadmission
  · exact ⟨routed, hroute, exists_unknown_of_params hparams⟩
  · cases hreason

def unknownInput (rename : String) : Refusal := .internal ("no validator for `" ++ rename ++ "`")

theorem missingOutput_ne_unknownInput (p : Parameter) (rename : String) :
    p.missingOutput ≠ unknownInput rename := by
  intro h
  have htext : "missing output `" ++ p.rename ++ "`" = "no validator for `" ++ rename ++ "`" := by
    simpa [Parameter.missingOutput, unknownInput] using h
  have hhead := congrArg (·.toList.head?) htext
  simp at hhead

/-- Once a manifest is compiled and checked, nothing that serving a request looks up is missing.
The endpoints are supplied, also where they are compared with each other. So the preparation of a
request never fails internally, and a reply about an input of unknown type is the handler's own. -/
theorem lookups_succeed {entries : List Manifest.Entry} {endpoints : List Endpoint}
    {types : Registry} (hcompile : Manifest.compile entries = .ok endpoints)
    (ok : Endpoint.checkAll types endpoints = .ok ()) :
    (∀ e ∈ endpoints, e.Supplied types) ∧
    (∀ a ∈ endpoints, ∀ b ∈ endpoints,
      ∃ verdict, Endpoint.overlaps types a b = .ok verdict) ∧
    ∀ s : Service σ, s.table = .build endpoints → s.types = types → ∀ request : Request,
      (∀ routed, s.route request.method request.path = .ok routed →
        routed.found.endpoint ∈ endpoints ∧
          routed.found.endpoint.accept types routed.segments = some routed.found.values) ∧
      (∀ what, s.prepare request ≠ .error (.internal what)) ∧
      ∀ state rename, (s.dispatch request state).1 = .error (unknownInput rename) →
        ∃ handler context, s.prepare request = .ok (handler, context) ∧
          (handler context state).1 = .error (unknownInput rename) := by
  have hknown := ((Endpoint.checkAll_eq_ok_iff endpoints).1 ok).1
  have hsupplied : ∀ e ∈ endpoints, e.Supplied types := by
    intro e he
    obtain ⟨entry, -, hentry⟩ := Manifest.exists_entry_of_compile hcompile he
    exact Endpoint.supplied_of_compile hentry (hknown e he)
  refine ⟨hsupplied, fun a ha b hb =>
    Endpoint.exists_verdict_of_overlaps (hsupplied a ha) (hsupplied b hb), ?_⟩
  rintro s htable rfl request
  have hmatch : ∀ routed, s.route request.method request.path = .ok routed →
      routed.found.endpoint ∈ endpoints ∧
        routed.found.endpoint.accept s.types routed.segments = some routed.found.values := by
    intro routed hroute
    have hfind := (route_eq_ok_iff.1 hroute).2
    rw [htable] at hfind
    obtain ⟨hmem, -, haccept⟩ := RouteTable.accept_of_find hfind
    exact ⟨hmem, haccept⟩
  have hprepare : ∀ what, s.prepare request ≠ .error (.internal what) := by
    intro what herror
    obtain ⟨routed, hroute, p, hp, hnone⟩ := exists_unknown_of_prepare herror
    obtain ⟨key, hkey⟩ := Dict.mem_values_iff.1 hp
    have hparam : (key, p) ∈ routed.found.endpoint.parameters :=
      List.mem_append_left _ (Dict.get?_eq_some_iff.1 hkey)
    have hsome := hknown _ (hmatch routed hroute).1 _ hparam
    simp [hnone] at hsome
  refine ⟨hmatch, hprepare, fun state rename hreply => ?_⟩
  cases hcall : s.prepare request with
  | error reason =>
    simp only [dispatch, hcall, Except.error.injEq] at hreply
    exact absurd (hreply ▸ hcall) (hprepare _)
  | ok found =>
    obtain ⟨handler, context⟩ := found
    refine ⟨handler, context, rfl, ?_⟩
    simp only [dispatch, hcall] at hreply
    -- The outputs are the only other place that an internal failure can come from.
    rcases bind_eq_error_iff.1 hreply with hown | ⟨fields, -, houtputs⟩
    · exact hown
    · obtain ⟨p, -, -, hreason⟩ := Endpoint.exists_missing_of_takeOutputs houtputs
      exact absurd hreason.symm (missingOutput_ne_unknownInput p rename)

/-- Updating a user without a name: the body is empty, and the input that lacks is reported. -/
theorem lookups_succeed_renameUser :
    ∃ endpoints, Manifest.compile [Endpoint.renameUser] = .ok endpoints ∧
      (∀ e ∈ endpoints, e.Supplied .builtin) ∧
      ∀ what, (renameService endpoints).prepare { renameRequest with body := .empty } ≠
        .error (.internal what) := by
  have hrun : (Manifest.compile [Endpoint.renameUser]).toOption.any (fun endpoints =>
      decide (Endpoint.checkAll .builtin endpoints = .ok ())) = true := by decide +kernel
  obtain ⟨endpoints, hcompile, hok⟩ := exists_of_any_toOption hrun
  obtain ⟨hsupplied, -, hserve⟩ := lookups_succeed (σ := Unit) hcompile (of_decide_eq_true hok)
  exact ⟨endpoints, hcompile, hsupplied,
    (hserve (renameService endpoints) rfl rfl { renameRequest with body := .empty }).2.1⟩

end Service

end Signpost
