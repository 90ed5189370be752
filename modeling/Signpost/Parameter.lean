import Signpost.Manifest
import Signpost.ParamType

/-!
# Parameters

The key of a declared parameter says where its value comes from: `{name}` is a capture of the path,
`GET@name` and `?name` are query keys, and any other key is a field of the body.
-/
namespace Signpost

/-- Where a parameter is read from. -/
inductive Source where
  | uri
  | query
  | form
  deriving DecidableEq, Repr

/-- A checked parameter. `name` is its name at the source, `rename` the name it goes by outside. -/
structure Parameter where
  source : Source
  name : String
  typeText : String
  validator : String
  arguments : List String
  rename : String
  optional : Bool
  info : String
  deriving DecidableEq, Repr

inductive ParameterError where
  | emptyName
  | badType (raw : String) (reason : TypeError)
  | missingRename
  | optionalCapture
  | sourceOfOutput
  | optionalOutput
  deriving DecidableEq, Repr

def ParameterError.message : ParameterError → String
  | .emptyName => "empty parameter name"
  | .badType raw reason => "invalid type `" ++ raw ++ "`: " ++ reason.message
  | .missingRename => "uri and query parameters need an explicit rename"
  | .optionalCapture => "uri parameters cannot be optional"
  | .sourceOfOutput => "output parameters cannot be uri or query parameters"
  | .optionalOutput => "output parameters cannot be optional"

namespace Source

/-- The source and the name that a key gives. -/
def ofKeyChars : List Char → Source × List Char
  | '\x7b' :: rest =>
    if rest.getLast? = some '\x7d' then (.uri, rest.dropLast) else (.form, '\x7b' :: rest)
  | 'G' :: 'E' :: 'T' :: '@' :: rest => (.query, rest)
  | '?' :: rest => (.query, rest)
  | key => (.form, key)

def ofKey (key : String) : Source × String :=
  let (source, name) := ofKeyChars key.toList
  (source, String.ofList name)

end Source

namespace Parameter

/-- The name given explicitly. An empty one counts as none. -/
def explicitName (p : Manifest.Param) : Option String := p.name.filter (· ≠ "")

/-- The name outside: the explicit one, which fields of the body may leave to their key. -/
def renameOf (source : Source) (key : String) (p : Manifest.Param) : Option String :=
  match explicitName p, source with
  | some name, _ => some name
  | none, .form => some key
  | none, _ => none

/-- Check an input parameter by itself. -/
def input (key : String) (p : Manifest.Param) : Except ParameterError Parameter :=
  let (source, name) := Source.ofKey key
  if name = "" then .error .emptyName
  else
    match ParamType.parse p.typeText with
    | .error reason => .error (.badType p.typeText reason)
    | .ok spec =>
      match renameOf source key p with
      | none => .error .missingRename
      | some rename =>
        if source = .uri ∧ spec.optional then .error .optionalCapture
        else
          .ok { source, name, typeText := p.typeText, validator := spec.name,
                arguments := spec.arguments, rename, optional := spec.optional, info := p.info }

/-- Check an output parameter, which is a field of the body and always present. -/
def output (key : String) (p : Manifest.Param) : Except ParameterError Parameter :=
  if (Source.ofKey key).1 ≠ .form then .error .sourceOfOutput
  else
    match input key p with
    | .error e => .error e
    | .ok q => if q.optional then .error .optionalOutput else .ok q

/-- Whether two parameters under different keys get in each other's way: they share a name outside,
or the key of the first is the name outside of the second. -/
def clashes (key : String) (p : Parameter) (other : String × Parameter) : Bool :=
  key ≠ other.1 && (p.rename = other.2.rename || key = other.2.rename)

/-- The first parameter that clashes with another one, and the first one it clashes with. -/
def firstClash (ps : Dict Parameter) : Option (String × String) :=
  ps.entries.findSome? fun (key, p) => (ps.entries.find? (clashes key p)).map fun o => (key, o.1)

end Parameter

end Signpost
