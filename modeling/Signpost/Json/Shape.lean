import Signpost.Json.Tree
import Signpost.Text.Quoted

/-!
# Documents of the wrong shape

What can be wrong with a well-formed document that is to be read as a value of some type, and the
readers for texts, lists and dictionaries. A tree is read in order, so of several faults the first
one is reported, be it of form or of shape.
-/
namespace Signpost.Json

/-- What stands where something else is expected. -/
inductive Found where
  | null
  | bool (b : Bool)
  | number (n : Number)
  | string (s : String)
  | sequence
  | map
  deriving DecidableEq, Repr

def Found.text : Found → String
  | .null => "null"
  | .bool b => "boolean `" ++ (if b then "true" else "false") ++ "`"
  | .number (.integer n) => "integer `" ++ String.ofList (intChars n) ++ "`"
  | .number (.float x) => "floating point `" ++ x.text ++ "`"
  | .string s => "string " ++ Text.quoted s
  | .sequence => "sequence"
  | .map => "map"

inductive ShapeError where
  | missingField (name : String)
  | unknownField (name : String) (known : List String)
  | duplicateField (name : String)
  | wrongType (found : Found) (expected : String)
  | wrongValue (found : Found) (expected : String)
  | wrongLength (length : Nat) (expected : String)
  deriving DecidableEq, Repr

/-- A name between grave accents. -/
def ticked (name : String) : String := "`" ++ name ++ "`"

def ShapeError.message : ShapeError → String
  | .missingField name => "missing field " ++ ticked name
  | .unknownField name known =>
    "unknown field " ++ ticked name ++ ", expected one of " ++ ", ".intercalate (known.map ticked)
  | .duplicateField name => "duplicate field " ++ ticked name
  | .wrongType found expected => "invalid type: " ++ found.text ++ ", expected " ++ expected
  | .wrongValue found expected => "invalid value: " ++ found.text ++ ", expected " ++ expected
  | .wrongLength length expected =>
    "invalid length " ++ toString length ++ ", expected " ++ expected

/-- The first thing wrong with a document. -/
inductive Fault where
  | malformed
  | shape (error : ShapeError)
  deriving DecidableEq, Repr

namespace Tree

/-- The fault of a tree that is not what is expected. -/
def mismatch (expected : String) : Tree → Fault
  | .null => .shape (.wrongType .null expected)
  | .bool b => .shape (.wrongType (.bool b) expected)
  | .number n => .shape (.wrongType (.number n) expected)
  | .string s => .shape (.wrongType (.string s) expected)
  | .array _ _ => .shape (.wrongType .sequence expected)
  | .object _ _ => .shape (.wrongType .map expected)
  | .broken => .malformed

def text : Tree → Except Fault String
  | .string s => .ok s
  | t => .error (t.mismatch "a string")

/-- A text, or null for none. -/
def textOrNull : Tree → Except Fault (Option String)
  | .null => .ok none
  | t => t.text.map some

/-- What was read, unless the array or object around it is broken off. -/
def closing (closed : Bool) (a : α) : Except Fault α := if closed then .ok a else .error .malformed

def list (item : Tree → Except Fault α) : Tree → Except Fault (List α)
  | .array items closed => items.mapM item >>= closing closed
  | t => .error (t.mismatch "a sequence")

/-- A dictionary. Of entries with one name the last stays. -/
def dict (value : Tree → Except Fault α) : Tree → Except Fault (Dict α)
  | .object members closed =>
    members.mapM (fun m => (value m.2).map fun a => (m.1, a)) >>= fun entries =>
      closing closed (Dict.ofList entries)
  | t => .error (t.mismatch "a map")

/-- The next element of an array that lists the fields of a record, or `absent` past its end. -/
def element (closed : Bool) (read : Tree → Except Fault α) (absent : Except ShapeError α) :
    StateT (List Tree) (Except Fault) α := fun
  | t :: rest => (read t).map fun a => (a, rest)
  | [] =>
    if closed then
      match absent with
      | .ok a => .ok (a, [])
      | .error e => .error (.shape e)
    else .error .malformed

end Tree

end Signpost.Json
