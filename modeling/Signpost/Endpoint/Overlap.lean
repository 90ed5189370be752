import Signpost.Endpoint.Match

/-!
# Checking a set of endpoints

Before a set of endpoints is served, every parameter has to have a type that the registry knows,
and no two endpoints may overlap: no request may be accepted by both. Two captures in one place
are taken to accept a common text, whatever their types.
-/
namespace Signpost

open Json

inductive CheckError where
  | unknownType (endpoint param typeText : String)
  | overlap (first second : String)
  deriving DecidableEq, Repr

def CheckError.message : CheckError → String
  | .unknownType endpoint param typeText =>
    endpoint ++ " [" ++ param ++ "]: unknown or misconfigured type `" ++ typeText ++ "`"
  | .overlap first second => "pattern collision between " ++ first ++ " and " ++ second

namespace Endpoint

/-- Whether the capture at a position accepts a text. -/
def admitsAt (types : Registry) (e : Endpoint) (position : Nat) (text : String) :
    Except CheckError Bool :=
  match e.captureAt position with
  | none => .error (.unknownType e.title ("#" ++ toString position) "")
  | some c =>
    match c.param.conversion types with
    | none => .error (.unknownType e.title ("\x7b" ++ c.param.name ++ "\x7d") c.param.typeText)
    | some convert => .ok (convert (.string text)).isSome

/-- Whether two endpoints may accept the same text at a position. -/
def meetAt (types : Registry) (a b : Endpoint) (position : Nat) :
    Segment × Segment → Except CheckError Bool
  | (.literal x, .literal y) => .ok (x = y)
  | (.capture _, .capture _) => .ok true
  | (.literal text, .capture _) => b.admitsAt types position text
  | (.capture _, .literal text) => a.admitsAt types position text

/-- Whether two endpoints may accept the same texts from a position on. -/
def meetFrom (types : Registry) (a b : Endpoint) :
    (position : Nat) → List (Segment × Segment) → Except CheckError Bool
  | _, [] => .ok true
  | position, pair :: rest =>
    match meetAt types a b position pair with
    | .error e => .error e
    | .ok false => .ok false
    | .ok true => meetFrom types a b (position + 1) rest

/-- Whether some request may be accepted by both endpoints. -/
def overlaps (types : Registry) (a b : Endpoint) : Except CheckError Bool :=
  if a.method ≠ b.method ∨ a.arity ≠ b.arity then .ok false
  else meetFrom types a b 0 (a.segments.zip b.segments)

/-- The first parameter whose type the registry does not know, as an error. -/
def unknownType? (types : Registry) (e : Endpoint) : Option CheckError :=
  (e.parameters.find? fun (_, p) => (p.conversion types).isNone).map fun (key, p) =>
    .unknownType e.title key p.typeText

/-- Check an endpoint against the ones declared after it. -/
def checkAgainst (types : Registry) (e : Endpoint) : List Endpoint → Except CheckError Unit
  | [] => .ok ()
  | other :: rest =>
    match overlaps types e other with
    | .error err => .error err
    | .ok true => .error (.overlap e.title other.title)
    | .ok false => checkAgainst types e rest

/-- Check every pair of endpoints. -/
def checkPairs (types : Registry) : List Endpoint → Except CheckError Unit
  | [] => .ok ()
  | e :: rest =>
    match checkAgainst types e rest with
    | .error err => .error err
    | .ok () => checkPairs types rest

/-- Check that all types are known, and then that no two endpoints overlap. -/
def checkAll (types : Registry) (endpoints : List Endpoint) : Except CheckError Unit :=
  match endpoints.findSome? (unknownType? types) with
  | some err => .error err
  | none => checkPairs types endpoints

end Endpoint

end Signpost
