import Signpost.Text.Blank
import Signpost.Text.Pieces

/-!
# Type texts

The type of a parameter is written `?name(p1,p2)`: a mark for optional parameters, the name of a
validator and its arguments. The mark and the list of arguments may be left out, and blanks may
stand around each part.
-/
namespace Signpost

structure ParamType where
  optional : Bool
  name : String
  arguments : List String
  deriving DecidableEq, Repr

inductive TypeError where
  | empty
  | badName (name : String)
  | unbalanced
  deriving DecidableEq, Repr

def TypeError.message : TypeError → String
  | .empty => "empty type"
  | .badName name => "invalid validator name `" ++ name ++ "`"
  | .unbalanced => "unbalanced parentheses"

namespace ParamType

open Text

/-- The characters of validator names: ASCII letters and digits, and `_`. -/
def isNameChar (c : Char) : Bool := c.isAlphanum || c == '_'

def isName (cs : List Char) : Bool := !cs.isEmpty && cs.all isNameChar

def isParenthesis (c : Char) : Bool := c == '(' || c == ')'

/-- The arguments between the parentheses: none if there are only blanks. -/
def argumentsOf (inner : List Char) : List String :=
  if inner.all isBlank then [] else (cut ',' inner).map fun p => String.ofList (trim p)

/-- What stands between an opening parenthesis and the closing one that ends the text. -/
def enclosed? (afterOpen : List Char) : Option (List Char) :=
  if afterOpen.getLast? = some ')' && !afterOpen.dropLast.any isParenthesis then
    some afterOpen.dropLast
  else none

/-- The name and the arguments of a type without its mark. -/
def split (body : List Char) : Except TypeError (List Char × List String) :=
  match body.dropWhile (· ≠ '(') with
  | _ :: afterOpen =>
    match enclosed? afterOpen with
    | some inner => .ok (trimEnd (body.takeWhile (· ≠ '(')), argumentsOf inner)
    | none => .error .unbalanced
  | [] => if body.contains ')' then .error .unbalanced else .ok (body, [])

/-- Read a type that has been freed of blanks and of its mark. -/
def ofBody (optional : Bool) (body : List Char) : Except TypeError ParamType :=
  if body.isEmpty then .error .empty
  else
    match split body with
    | .error e => .error e
    | .ok (name, arguments) =>
      if isName name then .ok ⟨optional, String.ofList name, arguments⟩
      else .error (.badName (String.ofList name))

/-- Read a type text. -/
def parse (raw : String) : Except TypeError ParamType :=
  match trim raw.toList with
  | '?' :: rest => ofBody true (trimStart rest)
  | body => ofBody false body

/-- The text of a type, without blanks and without empty lists of arguments. -/
def text (t : ParamType) : String :=
  (if t.optional then "?" else "") ++ t.name ++
    if t.arguments.isEmpty then "" else "(" ++ ",".intercalate t.arguments ++ ")"

end ParamType

end Signpost
