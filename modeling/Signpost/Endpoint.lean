import Signpost.Method
import Signpost.Parameter
import Signpost.Pattern
import Signpost.Role.Scope

/-!
# Endpoints

An endpoint is a declared entry of a manifest once it has been checked by itself: its method is
known, its path is a pattern, captures and input parameters belong together, and no two parameters
get in each other's way.
-/
namespace Signpost

/-- A capture of the path, its position among the segments and the parameter that types it. -/
structure Capture where
  name : String
  position : Nat
  param : Parameter
  deriving DecidableEq, Repr

structure Endpoint where
  method : Method
  pattern : String
  info : String
  segments : List Segment
  captures : List Capture
  input : Dict Parameter
  output : Dict Parameter
  scope : Scope
  /-- No two outputs get in each other's way. -/
  output_apart : Parameter.firstClash output = none
  deriving DecidableEq, Repr

namespace Endpoint

/-- The method and the pattern as declared. -/
def title (e : Endpoint) : String := e.method.text ++ " " ++ e.pattern

/-- The number of segments. -/
def arity (e : Endpoint) : Nat := e.segments.length

/-- The capture at a position, if the segment there is one. -/
def captureAt (e : Endpoint) (position : Nat) : Option Capture :=
  match e.segments[position]? with
  | some (.capture i) => e.captures[i]?
  | _ => none

/-- All parameters under their keys, inputs first. -/
def parameters (e : Endpoint) : List (String × Parameter) := e.input.entries ++ e.output.entries

/-- The names of the outputs outside. -/
def outputNames (e : Endpoint) : List String := e.output.values.map (·.rename)

end Endpoint

end Signpost
