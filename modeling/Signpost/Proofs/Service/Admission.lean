import Signpost.Proofs.Outcome
import Signpost.Proofs.Service.Headers
import Signpost.Service.Dispatch

/-!
# Admission

Before anything else of a request is looked at, its endpoint is found and the roles of its caller
are checked. A request that is not admitted is refused for that reason, whatever its query and its
body are and whichever handlers there are.
-/
namespace Signpost.Service

open Json

variable {σ τ : Type} {s : Service σ} {request other : Request}

/-- The endpoint of a request and what its caller may do, if the caller is admitted. -/
def admission (s : Service σ) (method path : String) (headers : Headers) :
    Except Refusal (Routed × Grant) := do
  let routed ← s.route method path
  let grant ← s.authorize routed headers
  return (routed, grant)

theorem admission_of_route_error {method path : String} {headers : Headers} {reason : Refusal}
    (h : s.route method path = .error reason) :
    s.admission method path headers = .error reason := by
  rw [admission, h]
  rfl

theorem admission_of_route_ok {method path : String} {headers : Headers} {routed : Routed}
    (h : s.route method path = .ok routed) :
    s.admission method path headers = (s.authorize routed headers).map (routed, ·) := by
  rw [admission, h]
  rfl

theorem route_eq_error_iff {method path : String} {reason : Refusal} :
    s.route method path = .error reason ↔
      reason = .unknownService ∧
        ∀ segments, Path.decode? (Path.split path) = some segments →
          s.table.find s.types method segments = none := by
  unfold route
  cases Path.decode? (Path.split path) with
  | none => simp [eq_comm]
  | some segments =>
    cases hf : s.table.find s.types method segments with
    | none => simp [hf, eq_comm]
    | some found => simp [hf]

theorem authorize_eq_error_iff {routed : Routed} {headers : Headers} {reason : Refusal} :
    s.authorize routed headers = .error reason ↔
      reason = .forbidden ∧
        (Grant.forScope routed.found.endpoint.scope routed.found.values
          (s.keys.roles headers)).granted = false := by
  simp only [authorize]
  split
  next h => simp [h]
  next h => simp [h, eq_comm]

/-- A request is not admitted if its path leads to no endpoint, or if its caller lacks the roles
that the endpoint requires. -/
theorem admission_eq_error_iff {method path : String} {headers : Headers} {reason : Refusal} :
    s.admission method path headers = .error reason ↔
      (reason = .unknownService ∧ ∀ segments, Path.decode? (Path.split path) = some segments →
        s.table.find s.types method segments = none) ∨
      (reason = .forbidden ∧ ∃ routed, s.route method path = .ok routed ∧
        (Grant.forScope routed.found.endpoint.scope routed.found.values
          (s.keys.roles headers)).granted = false) := by
  rw [← route_eq_error_iff]
  cases hroute : s.route method path with
  | error cause => simp [admission_of_route_error hroute]
  | ok routed =>
    have hmap : (s.authorize routed headers).map (routed, ·) = .error reason ↔
        s.authorize routed headers = .error reason := by
      cases s.authorize routed headers <;> simp [Except.map]
    rw [admission_of_route_ok hroute, hmap, authorize_eq_error_iff]
    simp

theorem admission_congr {method path : String} {headers headers' : Headers}
    (h : headers.valuesOf "authorization" = headers'.valuesOf "authorization") :
    s.admission method path headers = s.admission method path headers' := by
  simp only [admission, authorize, s.keys.roles_congr h]

/-- A service with other handlers, which may keep a state of their own. -/
def withHandlers (s : Service σ) (handlers : Handlers τ) : Service τ :=
  ⟨s.table, s.types, handlers, s.keys, s.maxBodySize⟩

theorem admission_withHandlers (handlers : Handlers τ) (method path : String) (headers : Headers) :
    (s.withHandlers handlers).admission method path headers = s.admission method path headers := rfl

/-- What is left of the preparation of a request once it is admitted. -/
def complete (s : Service σ) (request : Request) (admitted : Routed × Grant) :
    Except Refusal (Handler σ × Context) := do
  let (routed, grant) := admitted
  let params ← s.params routed request
  match s.handlers.get? routed.found.endpoint with
  | none => .error .notImplemented
  | some handler =>
    .ok (handler, ⟨request.requestId, routed.found.endpoint, routed.segments, params, grant⟩)

/-- Admission comes first. -/
theorem prepare_eq_admission_bind :
    s.prepare request =
      s.admission request.method request.path request.headers >>= s.complete request := by
  rw [prepare, admission]
  cases s.route request.method request.path with
  | error reason => rfl
  | ok routed =>
    simp only [bind, Except.bind]
    cases s.authorize routed request.headers <;> rfl

theorem prepare_of_admission_error {reason : Refusal}
    (h : s.admission request.method request.path request.headers = .error reason) :
    s.prepare request = .error reason := by
  rw [prepare_eq_admission_bind, h]
  rfl

theorem prepare_of_read_error {admitted : Routed × Grant} {reason : Refusal}
    (h : s.admission request.method request.path request.headers = .ok admitted)
    (hbody : request.body.read s.maxBodySize = .error reason) :
    s.prepare request = .error reason := by
  have hparams : s.params admitted.1 request = .error reason := by simp only [params, hbody]
  rw [prepare_eq_admission_bind, h]
  change s.complete request admitted = .error reason
  rw [complete, hparams]
  rfl

/-- Nothing else of a request counts than these of its parts. -/
theorem prepare_congr (hid : request.requestId = other.requestId)
    (hmethod : request.method = other.method) (hpath : request.path = other.path)
    (hquery : request.query = other.query)
    (hkeys : request.headers.valuesOf "authorization" = other.headers.valuesOf "authorization")
    (hmedia : request.headers.textOf? "content-type" = other.headers.textOf? "content-type")
    (hbody : request.body.read s.maxBodySize = other.body.read s.maxBodySize) :
    s.prepare request = s.prepare other := by
  simp only [prepare, authorize, params, hid, hmethod, hpath, hquery, hmedia, hbody,
    s.keys.roles_congr hkeys]

theorem dispatch_of_prepare_error {reason : Refusal} (h : s.prepare request = .error reason)
    (state : σ) : s.dispatch request state = (.error reason, state) := by
  simp only [dispatch, h]

theorem dispatch_congr (h : s.prepare request = s.prepare other) (state : σ) :
    s.dispatch request state = s.dispatch other state := by
  simp only [dispatch, h]

end Signpost.Service
