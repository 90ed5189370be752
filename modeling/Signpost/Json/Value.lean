import Signpost.Binary64.Text
import Signpost.Dict

/-!
# JSON values

A value as programs use it, and its compact text. The fields of an object that was read are listed
in the order of a `Dict`; those of one to be written are printed as they are listed.
-/
namespace Signpost.Json

/-- An integer, or a number written with a fraction, an exponent or too many digits. -/
inductive Number where
  | integer (n : Int)
  | float (x : Binary64)
  deriving DecidableEq, Repr

inductive Value where
  | null
  | bool (b : Bool)
  | number (n : Number)
  | string (s : String)
  | array (items : List Value)
  | object (fields : List (String × Value))
  deriving Repr, Inhabited

namespace Value

def ofNat (n : Nat) : Value := .number (.integer n)

def ofInt (n : Int) : Value := .number (.integer n)

def ofFloat (x : Binary64) : Value := .number (.float x)

def ofDict (d : Dict Value) : Value := .object d.entries

def strings (texts : List String) : Value := .array (texts.map .string)

end Value

/-- A character inside a string. Quotes, backslashes and controls alone are escaped. -/
def escapeChar (c : Char) : List Char :=
  if c = '"' then ['\\', '"']
  else if c = '\\' then ['\\', '\\']
  else if c = '\n' then ['\\', 'n']
  else if c = '\r' then ['\\', 'r']
  else if c = '\t' then ['\\', 't']
  else if c.toNat = 8 then ['\\', 'b']
  else if c.toNat = 12 then ['\\', 'f']
  else if c.toNat < 0x20 then
    ['\\', 'u', '0', '0', Nat.digitChar (c.toNat / 16), Nat.digitChar (c.toNat % 16)]
  else [c]

def stringChars (s : String) : List Char := '"' :: s.toList.flatMap escapeChar ++ ['"']

def intChars (n : Int) : List Char :=
  if n < 0 then '-' :: Nat.toDigits 10 n.natAbs else Nat.toDigits 10 n.natAbs

def Number.chars : Number → List Char
  | .integer n => intChars n
  | .float x => x.chars

mutual

/-- The text of a value, without blanks. -/
def Value.chars : Value → List Char
  | .null => ['n', 'u', 'l', 'l']
  | .bool true => ['t', 'r', 'u', 'e']
  | .bool false => ['f', 'a', 'l', 's', 'e']
  | .number n => n.chars
  | .string s => stringChars s
  | .array items => '[' :: itemsChars items ++ [']']
  | .object fields => '\x7b' :: fieldsChars fields ++ ['\x7d']

/-- Values with commas between them. -/
def itemsChars : List Value → List Char
  | [] => []
  | v :: rest => v.chars ++ match rest with | [] => [] | _ :: _ => ',' :: itemsChars rest

/-- Names and values with commas between them. -/
def fieldsChars : List (String × Value) → List Char
  | [] => []
  | (k, v) :: rest =>
    stringChars k ++ ':' :: v.chars ++
      match rest with | [] => [] | _ :: _ => ',' :: fieldsChars rest

end

def Value.text (v : Value) : String := String.ofList v.chars

end Signpost.Json
