import Signpost.Json.Value

/-!
# Typed access to values

A value as a natural number, an integer, a number, a truth value or a text, where it is one.
-/
namespace Signpost.Json.Value

/-- A natural number below `bound`. -/
def natBelow? (bound : Nat) : Value → Option Nat
  | .number (.integer n) => if 0 ≤ n ∧ n < bound then some n.toNat else none
  | _ => none

/-- An integer from `-bound` up to but not including `bound`. -/
def intWithin? (bound : Nat) : Value → Option Int
  | .number (.integer n) => if -(bound : Int) ≤ n ∧ n < bound then some n else none
  | _ => none

/-- Any number, rounded if it is an integer beyond 53 bits. -/
def float? : Value → Option Binary64
  | .number (.integer n) => Binary64.ofInt n
  | .number (.float x) => some x
  | _ => none

def bool? : Value → Option Bool
  | .bool b => some b
  | _ => none

def text? : Value → Option String
  | .string s => some s
  | _ => none

/-- A list of texts. -/
def texts? : Value → Option (List String)
  | .array items => items.mapM text?
  | _ => none

/-- The value, or none for null. -/
def nonNull? : Value → Option Value
  | .null => none
  | v => some v

end Signpost.Json.Value
