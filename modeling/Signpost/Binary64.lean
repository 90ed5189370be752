/-!
# Binary floating-point numbers of 64 bits

The finite numbers of the binary64 format, held as a sign, a significand below 2^53 and a power of
two, and computed with exactly: a result is a ratio of natural numbers rounded to the nearest number
of the format, a tie going to the even significand. A ratio too large for the format has no value.
-/
namespace Signpost

/-- The number `± significand * 2 ^ exponent`. The exponent is the least for which the significand
fits, and never below -1074. -/
structure Binary64 where
  negative : Bool
  significand : Nat
  exponent : Int
  deriving DecidableEq, Repr

/-- `num / den` to the nearest integer, a half going to the even one. -/
def roundDiv (num den : Nat) : Nat :=
  let q := num / den
  let r := num % den
  if 2 * r < den then q else if den < 2 * r then q + 1 else q + q % 2

namespace Binary64

def zero (negative : Bool) : Binary64 := ⟨negative, 0, -1074⟩

def isZero (x : Binary64) : Bool := x.significand == 0

def neg (x : Binary64) : Binary64 := { x with negative := !x.negative }

/-- Multiply a ratio by a power of two. -/
def shiftRatio (num den : Nat) (k : Int) : Nat × Nat :=
  if 0 ≤ k then (num <<< k.toNat, den) else (num, den <<< (-k).toNat)

/-- The power of two at which the significand of `num / den` has 53 bits, or the least power. -/
def exponentOf (num den : Nat) : Int :=
  let guess : Int := (num.log2 : Int) - den.log2 - 52
  let (n, d) := shiftRatio num den (-guess)
  max (if n < d <<< 52 then guess - 1 else guess) (-1074)

/-- The nearest number to `± num / den`, unless it is out of range. -/
def ofRatio (negative : Bool) (num den : Nat) : Option Binary64 :=
  if num = 0 then some (zero negative)
  else
    let e := exponentOf num den
    let (n, d) := shiftRatio num den (-e)
    let m := roundDiv n d
    let x : Binary64 :=
      if m = Nat.pow 2 53 then ⟨negative, Nat.pow 2 52, e + 1⟩ else ⟨negative, m, e⟩
    if x.exponent ≤ 971 then some x else none

def ofInt (n : Int) : Option Binary64 := ofRatio (n < 0) n.natAbs 1

/-- The magnitude as a ratio. -/
def ratio (x : Binary64) : Nat × Nat := shiftRatio x.significand 1 x.exponent

def mul (x y : Binary64) : Option Binary64 :=
  ofRatio (x.negative != y.negative) (x.ratio.1 * y.ratio.1) (x.ratio.2 * y.ratio.2)

/-- The quotient by a number that is not zero. -/
def div (x y : Binary64) : Option Binary64 :=
  ofRatio (x.negative != y.negative) (x.ratio.1 * y.ratio.2) (x.ratio.2 * y.ratio.1)

end Binary64

end Signpost
