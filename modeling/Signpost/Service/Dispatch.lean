import Signpost.Path
import Signpost.Service.Body
import Signpost.Service.Form
import Signpost.Service.Handlers
import Signpost.Service.Headers

/-!
# Dispatching requests

A request is routed by its path, authorised against the scope of its endpoint, and only then is its
body read. Query and body are decoded and validated, the handler is called, and the declared outputs
of what it produces are the answer. The first stage that refuses ends the request.
-/
namespace Signpost

open Json

/-- A request that has reached a path. -/
structure Request where
  requestId : String
  method : String
  path : String
  query : Option String
  headers : Headers
  body : Body

/-- A table of routes with all that is needed to serve it. -/
structure Service (σ : Type) where
  table : RouteTable
  types : Registry
  handlers : Handlers σ
  keys : ApiKeys
  maxBodySize : Nat

/-- A request whose endpoint is known: its decoded segments and the match. -/
structure Routed where
  segments : List String
  found : Match

namespace Service

variable {σ : Type}

/-- Find the endpoint of a method and a path. -/
def route (s : Service σ) (method path : String) : Except Refusal Routed :=
  match Path.decode? (Path.split path) with
  | none => .error .unknownService
  | some segments =>
    match s.table.find s.types method segments with
    | none => .error .unknownService
    | some found => .ok ⟨segments, found⟩

/-- Check the roles of the caller. -/
def authorize (s : Service σ) (r : Routed) (headers : Headers) : Except Refusal Grant :=
  let grant := Grant.forScope r.found.endpoint.scope r.found.values (s.keys.roles headers)
  if grant.granted then .ok grant else .error .forbidden

/-- Read and validate the inputs. -/
def params (s : Service σ) (r : Routed) (request : Request) : Except Refusal (Dict Value) :=
  let query := Form.decodeQuery request.query
  match request.body.read s.maxBodySize with
  | .error e => .error e
  | .ok bytes =>
    match Form.decodeBody (request.headers.textOf? "content-type") bytes with
    | .error e => .error e
    | .ok form =>
      match r.found.endpoint.readInputs s.types query form r.found.values with
      | (_, some reason) => .error reason
      | (values, none) => .ok values

/-- All that comes before the handler is called: the handler and what it is told. -/
def prepare (s : Service σ) (request : Request) : Except Refusal (Handler σ × Context) := do
  let routed ← s.route request.method request.path
  let grant ← s.authorize routed request.headers
  let params ← s.params routed request
  match s.handlers.get? routed.found.endpoint with
  | none => .error .notImplemented
  | some handler =>
    .ok (handler, ⟨request.requestId, routed.found.endpoint, routed.segments, params, grant⟩)

/-- Serve a request. A request that is refused before its handler is called leaves the state. -/
def dispatch (s : Service σ) (request : Request) (state : σ) : Except Refusal (Dict Value) × σ :=
  match s.prepare request with
  | .error reason => (.error reason, state)
  | .ok (handler, context) =>
    let (produced, state) := handler context state
    (produced.bind context.endpoint.takeOutputs, state)

end Service

end Signpost
