import Signpost.Proofs.Service.Admission
import Signpost.Proofs.Service.Dispatch
import Signpost.Proofs.Service.Outputs

/-!
# Where refusals come from

Each stage of serving a request has refusals of its own, so a refusal tells which stage it is from.
-/
namespace Signpost

open Json

namespace Parameter

theorem refusal_of_readFrom {types : Registry} {raw : Dict Value} {p : Parameter}
    {reason : Refusal} (h : p.readFrom types raw = .refused reason) :
    reason = .missingParam p.rename ∨ reason = .invalidParam p.rename ∨
      p.conversion types = none ∧
        reason = .internal ("no validator for `" ++ p.rename ++ "`") := by
  unfold readFrom at h
  repeat' split at h
  all_goals simp_all

/-- An input is refused for what it lacks, or because its type is not known. -/
theorem refusal_of_input {types : Registry} {query form : Dict Value} {p : Parameter}
    {reason : Refusal} (h : p.refusal? types query form = some reason) :
    reason = .missingParam p.rename ∨ reason = .invalidParam p.rename ∨
      p.conversion types = none ∧
        reason = .internal ("no validator for `" ++ p.rename ++ "`") := by
  have hread : p.read types query form = .refused reason := by
    unfold refusal? at h
    split at h <;> simp_all
  cases hs : p.source with
  | uri => simp [read, hs] at hread
  | query =>
    have hquery : p.readFrom types query = .refused reason := by simpa only [read, hs] using hread
    exact refusal_of_readFrom hquery
  | form =>
    have hform : p.readFrom types form = .refused reason := by simpa only [read, hs] using hread
    exact refusal_of_readFrom hform

end Parameter

namespace Service

variable {σ : Type} {s : Service σ} {request : Request} {reason : Refusal}

theorem refusal_of_read {b : Body} {limit : Nat} (h : b.read limit = .error reason) :
    reason = .malformedBody ∨ reason = .tooLarge := by
  unfold Body.read Body.collect BodyError.refusal at h
  split at h
  · cases h
  · split at h <;> simp_all

theorem refusal_of_decodeBody {contentType : Option String} {bytes : List UInt8}
    (h : Form.decodeBody contentType bytes = .error reason) :
    reason = .malformedBody ∨ reason = .unsupportedMedia := by
  unfold Form.decodeBody at h
  repeat' split at h
  all_goals simp_all

/-- The inputs of a request are refused for its body, or for one of them. -/
theorem refusal_of_params {r : Routed} (h : s.params r request = .error reason) :
    reason ∈ [.malformedBody, .tooLarge, .unsupportedMedia] ∨
      ∃ p ∈ r.found.endpoint.input.values, ∃ query form,
        p.refusal? s.types query form = some reason := by
  unfold params at h
  cases hread : request.body.read s.maxBodySize with
  | error cause =>
    obtain rfl : cause = reason := by simpa [hread] using h
    rcases refusal_of_read hread with rfl | rfl <;> simp
  | ok bytes =>
    cases hform : Form.decodeBody (request.headers.textOf? "content-type") bytes with
    | error cause =>
      obtain rfl : cause = reason := by simpa [hread, hform] using h
      rcases refusal_of_decodeBody hform with rfl | rfl <;> simp
    | ok form =>
      rcases hr : r.found.endpoint.readInputs s.types (Form.decodeQuery request.query) form
        r.found.values with ⟨values, cause⟩
      cases cause with
      | none => simp [hread, hform, hr] at h
      | some cause =>
        obtain rfl : cause = reason := by simpa [hread, hform, hr] using h
        have hfirst := (Parameter.readAll_eq _ _).symm.trans hr
        obtain ⟨p, hp, hrefused⟩ := List.exists_of_findSome?_eq_some (congrArg Prod.snd hfirst)
        exact .inr ⟨p, hp, _, form, hrefused⟩

/-- A request is refused before its inputs are read, for its inputs, or for want of a handler. -/
theorem refusal_of_prepare (h : s.prepare request = .error reason) :
    s.admission request.method request.path request.headers = .error reason ∨
      ∃ routed, s.route request.method request.path = .ok routed ∧
        (s.params routed request = .error reason ∨
          s.handlers.get? routed.found.endpoint = none ∧ reason = .notImplemented) := by
  rw [prepare_eq_admission_bind, bind_eq_error_iff] at h
  rcases h with hadmission | ⟨⟨routed, grant⟩, hadmission, hrest⟩
  · exact .inl hadmission
  · obtain ⟨found, hroute, hgrant⟩ := bind_eq_ok_iff.1 hadmission
    obtain ⟨grant', -, heq⟩ := bind_eq_ok_iff.1 hgrant
    obtain ⟨rfl, rfl⟩ : found = routed ∧ grant' = grant := by simpa [pure, Except.pure] using heq
    refine .inr ⟨found, hroute, ?_⟩
    rcases bind_eq_error_iff.1 hrest with hparams | ⟨params, -, hcall⟩
    · exact .inl hparams
    · cases hh : s.handlers.get? found.found.endpoint with
      | none => exact .inr ⟨rfl, by simpa [hh, eq_comm] using hcall⟩
      | some handler => simp [hh] at hcall

/-- A request that reaches a handler is refused by it, or for an output that it lacks. -/
theorem refusal_of_dispatch {state : σ} (h : (s.dispatch request state).1 = .error reason) :
    s.prepare request = .error reason ∨
      ∃ handler context, s.prepare request = .ok (handler, context) ∧
        ((handler context state).1 = .error reason ∨
          ∃ p ∈ context.endpoint.output.values, reason = p.missingOutput) := by
  cases hcall : s.prepare request with
  | error cause =>
    simp only [dispatch, hcall, Except.error.injEq] at h
    exact .inl (congrArg Except.error h)
  | ok found =>
    obtain ⟨handler, context⟩ := found
    simp only [dispatch, hcall] at h
    refine .inr ⟨handler, context, rfl, ?_⟩
    rcases bind_eq_error_iff.1 h with hown | ⟨produced, -, houtputs⟩
    · exact .inl hown
    · obtain ⟨p, hp, -, hreason⟩ := Endpoint.exists_missing_of_takeOutputs houtputs
      exact .inr ⟨p, hp, hreason⟩

end Service

end Signpost
