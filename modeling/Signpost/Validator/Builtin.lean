import Signpost.Text.Integer
import Signpost.Validator

/-!
# The built-in validators

`any`, `bool`, `int`, `uint` and `float` take no arguments. `string` takes the number of characters,
or the least and the greatest number.
-/
namespace Signpost.Validator

open Json Text

/-- A validator that takes no arguments. -/
def plain (convert : Conversion) : Validator := fun arguments =>
  if arguments.isEmpty then some convert else none

def any : Validator := plain some

/-- A truth value, or the text `true`, `false`, `1` or `0`. -/
def toBool : Conversion
  | .bool b => some (.bool b)
  | .string s =>
    if s = "true" ∨ s = "1" then some (.bool true)
    else if s = "false" ∨ s = "0" then some (.bool false)
    else none
  | _ => none

def bool : Validator := plain toBool

/-- An integer that 64 bits hold with a sign, or its decimal text. -/
def toInt : Conversion
  | .number (.integer n) => if -Int.pow 2 63 ≤ n ∧ n < Int.pow 2 63 then some (.ofInt n) else none
  | .string s => (Integer.signed? (Nat.pow 2 63) s.toList).map .ofInt
  | _ => none

def int : Validator := plain toInt

/-- An integer that 64 bits hold without a sign, or its decimal text. -/
def toUint : Conversion
  | .number (.integer n) => if 0 ≤ n ∧ n < Int.pow 2 64 then some (.ofInt n) else none
  | .string s => (Integer.unsigned? (Nat.pow 2 64) s.toList).map .ofNat
  | _ => none

def uint : Validator := plain toUint

/-- A number, or the decimal text of one, rounded to the nearest floating-point number. -/
def toFloat : Conversion
  | .number (.integer n) => (Binary64.ofInt n).map .ofFloat
  | .number (.float x) => some (.ofFloat x)
  | .string s => (Binary64.ofText? s.toList).map .ofFloat
  | _ => none

def float : Validator := plain toFloat

/-- The least and the greatest number of characters. -/
inductive Length where
  | unlimited
  | between (least greatest : Nat)
  deriving DecidableEq, Repr

/-- A number of characters. -/
def count? (s : String) : Option Nat := Integer.unsigned? (Nat.pow 2 64) s.toList

/-- The lengths that the arguments admit. -/
def Length.ofArguments? : List String → Option Length
  | [] => some .unlimited
  | [exact_] => (count? exact_).map fun n => .between n n
  | [least, greatest] =>
    match count? least, count? greatest with
    | some m, some n => if m ≤ n then some (.between m n) else none
    | _, _ => none
  | _ => none

def Length.admits : Length → Nat → Bool
  | .unlimited, _ => true
  | .between m n, k => m ≤ k && k ≤ n

/-- A text of an admitted length, in characters. -/
def toText (length : Length) : Conversion
  | .string s => if length.admits s.length then some (.string s) else none
  | _ => none

def string : Validator := fun arguments => (Length.ofArguments? arguments).map toText

end Signpost.Validator

namespace Signpost

/-- The registry of the built-in validators. -/
def Registry.builtin : Registry :=
  Registry.empty
    |>.register "any" Validator.any
    |>.register "bool" Validator.bool
    |>.register "int" Validator.int
    |>.register "uint" Validator.uint
    |>.register "float" Validator.float
    |>.register "string" Validator.string

end Signpost
