import Signpost.RouteTable
import Signpost.Service.Inputs

/-!
# Handlers

A handler answers the requests of one endpoint. Handlers are registered for a method and a pattern,
and bound to a route table before it is served: each must name an endpoint of the table, produce the
outputs that the endpoint declares if it says what it produces, and be the only one to do so.
-/
namespace Signpost

open Json

/-- What a handler knows about its request. -/
structure Context where
  requestId : String
  endpoint : Endpoint
  segments : List String
  params : Dict Value
  grant : Grant

/-- A handler reads and writes a state of type `σ`. -/
abbrev Handler (σ : Type) := Context → σ → Except Refusal (Dict Value) × σ

structure Registration (σ : Type) where
  method : Method
  pattern : String
  /-- The names of the outputs, if the handler declares them. -/
  outputs : Option (List String) := none
  handler : Handler σ

/-- Handlers by method and pattern, and the titles of the endpoints that have none. -/
structure Handlers (σ : Type) where
  bound : List ((Method × String) × Handler σ)
  unbound : List String

inductive BindError where
  | unknownEndpoint (method : Method) (pattern : String)
  | repeated (method : Method) (pattern : String)
  | outputMismatch (method : Method) (pattern : String) (declared produced : List String)
  deriving DecidableEq, Repr

def BindError.message : BindError → String
  | .unknownEndpoint method pattern =>
    "handler registered for undeclared endpoint " ++ method.text ++ " " ++ pattern
  | .repeated method pattern =>
    "more than one handler registered for " ++ method.text ++ " " ++ pattern
  | .outputMismatch method pattern declared produced =>
    "handler for " ++ method.text ++ " " ++ pattern ++ " produces " ++ Text.quotedList produced ++
      ", endpoint declares " ++ Text.quotedList declared

/-- The different names of a list in order. -/
def distinctNames (names : List String) : List String :=
  (Dict.ofList (names.map (·, ()))).keys

namespace Handlers

variable {σ : Type}

def find? (bound : List ((Method × String) × Handler σ)) (key : Method × String) :
    Option (Handler σ) :=
  bound.lookup key

/-- Add a handler to those bound already. -/
def bindOne (t : RouteTable) (bound : List ((Method × String) × Handler σ)) (r : Registration σ) :
    Except BindError (List ((Method × String) × Handler σ)) :=
  match t.get? r.method r.pattern with
  | none => .error (.unknownEndpoint r.method r.pattern)
  | some e =>
    let declared := distinctNames e.outputNames
    let produced := (r.outputs.map distinctNames).getD declared
    if produced ≠ declared then
      .error (.outputMismatch r.method r.pattern declared produced)
    else if (find? bound (r.method, r.pattern)).isSome then
      .error (.repeated r.method r.pattern)
    else .ok (bound ++ [((r.method, r.pattern), r.handler)])

/-- Bind handlers in the order of their registration. -/
def bind (t : RouteTable) (registrations : List (Registration σ)) :
    Except BindError (Handlers σ) :=
  (registrations.foldlM (bindOne t) []).map fun bound =>
    ⟨bound, (t.endpoints.filter fun e => (find? bound (e.method, e.pattern)).isNone).map
      Endpoint.title⟩

/-- The handler of an endpoint. -/
def get? (h : Handlers σ) (e : Endpoint) : Option (Handler σ) :=
  find? h.bound (e.method, e.pattern)

/-- How many handlers are bound and which endpoints have none, as shown to people. -/
def describe (h : Handlers σ) : String :=
  "BoundHandlers \x7b bound: " ++ toString h.bound.length ++ ", unbound: " ++
    Text.quotedList h.unbound ++ " \x7d"

end Handlers

end Signpost
