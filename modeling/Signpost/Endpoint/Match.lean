import Signpost.Endpoint
import Signpost.Validator

/-!
# Matching

A request matches an endpoint if it has as many segments, the same text at each literal, and at each
capture a text that the validator of the capture accepts. The match gives the typed values under
their names outside.
-/
namespace Signpost

open Json

namespace Parameter

/-- The conversion of a parameter's type. -/
def conversion (types : Registry) (p : Parameter) : Option Conversion :=
  types.resolve p.validator p.arguments

/-- The typed form of a raw value, if the type is known and accepts it. -/
def convert (types : Registry) (p : Parameter) (raw : Value) : Option Value :=
  (p.conversion types).bind (· raw)

end Parameter

namespace Endpoint

/-- Take the next segment of a request into the captured values. -/
def take (types : Registry) (e : Endpoint) (values : Dict Value) :
    Segment × String → Option (Dict Value)
  | (.literal text, raw) => if text = raw then some values else none
  | (.capture i, raw) =>
    match e.captures[i]? with
    | some c => (c.param.convert types (.string raw)).map (values.insert c.param.rename)
    | none => none

/-- The captured values, if the endpoint accepts the segments. -/
def accept (types : Registry) (e : Endpoint) (segments : List String) : Option (Dict Value) :=
  if segments.length = e.segments.length then
    (e.segments.zip segments).foldlM (take types e) {}
  else none

end Endpoint

/-- The endpoint that serves a request, and the captured values. -/
structure Match where
  endpoint : Endpoint
  values : Dict Value

/-- The first endpoint of a list that accepts the segments. -/
def Match.first (types : Registry) (endpoints : List Endpoint) (segments : List String) :
    Option Match :=
  endpoints.findSome? fun e => (e.accept types segments).map (⟨e, ·⟩)

end Signpost
