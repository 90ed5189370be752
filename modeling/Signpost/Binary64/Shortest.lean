import Signpost.Binary64

/-!
# The shortest decimal of a binary64 number

Of the decimals that round to a number, those with the fewest digits are its shortest ones, and the
nearest of these is how the number is written.
-/
namespace Signpost.Binary64

/-- A decimal `digits * 10 ^ exponent`. -/
structure Decimal where
  digits : Nat
  exponent : Int
  deriving DecidableEq, Repr

/-- Multiply a ratio by a power of ten. -/
def scaleTen (num den : Nat) (k : Int) : Nat × Nat :=
  if 0 ≤ k then (num * Nat.pow 10 k.toNat, den) else (num, den * Nat.pow 10 (-k).toNat)

/-- The greatest power of ten up to `num / den`, searched for upwards from `10 ^ g` by at most `fuel`
steps. -/
def raiseExponent (num den : Nat) : (fuel : Nat) → (g : Int) → Int
  | 0, g => g
  | fuel + 1, g =>
    let (n, d) := scaleTen num den (-(g + 1))
    if d ≤ n then raiseExponent num den fuel (g + 1) else g

/-- The power of ten of the first digit of `num / den`, a binary64 magnitude other than zero. It is
found from the power of two below, log 2 lying between 0.30102 and 0.30103. -/
def decimalExponent (num den : Nat) : Int :=
  let k : Int := (num.log2 : Int) - den.log2 - 1
  raiseExponent num den 3 (k * (if 0 ≤ k then 30102 else 30103) / 100000)

/-- The ends of the interval of reals that round to a number other than zero, and whether they
belong to it: all over one denominator, with the number itself between them. -/
structure Interval where
  low : Nat
  value : Nat
  high : Nat
  den : Nat
  closed : Bool

def interval (x : Binary64) : Interval :=
  let below := if x.significand = Nat.pow 2 52 ∧ -1074 < x.exponent then 1 else 2
  let k := x.exponent - 2
  let scale (n : Nat) : Nat := (shiftRatio n 1 k).1
  ⟨scale (4 * x.significand - below), scale (4 * x.significand), scale (4 * x.significand + 2),
    (shiftRatio 1 1 k).2, x.significand % 2 == 0⟩

/-- Whether `c * 10 ^ g` rounds to the number. -/
def Interval.holds (i : Interval) (c : Nat) (g : Int) : Bool :=
  let (n, d) := scaleTen c 1 g
  let at_ := n * i.den
  if i.closed then i.low * d ≤ at_ && at_ ≤ i.high * d else i.low * d < at_ && at_ < i.high * d

/-- The nearer of the two neighbours of the number on the grid of `10 ^ g`, among those that round
to it; halfway between them, the even one. -/
def Interval.onGrid (i : Interval) (g : Int) : Option Nat :=
  let (n, d) := scaleTen i.value i.den (-g)
  let lower := n / d
  match i.holds lower g, i.holds (lower + 1) g with
  | true, true => some (roundDiv n d)
  | true, false => some lower
  | false, true => some (lower + 1)
  | false, false => none

/-- The shortest decimal with at most `count` digits more than have been tried. -/
def shortestFrom (i : Interval) (g : Int) : (count : Nat) → Option Decimal
  | 0 => none
  | count + 1 =>
    match i.onGrid g with
    | some c => some ⟨c, g⟩
    | none => shortestFrom i (g - 1) count

/-- Drop the zeros at the end of the digits. -/
def Decimal.stripZeros : (fuel : Nat) → Decimal → Decimal
  | 0, d => d
  | fuel + 1, d =>
    if d.digits ≠ 0 ∧ d.digits % 10 = 0 then stripZeros fuel ⟨d.digits / 10, d.exponent + 1⟩ else d

/-- The shortest decimal that rounds to the magnitude of `x`, with no zero at its end. -/
def shortest (x : Binary64) : Decimal :=
  if x.isZero then ⟨0, 0⟩
  else
    let i := x.interval
    let first := decimalExponent i.value i.den
    ((shortestFrom i first 17).getD ⟨i.value, 0⟩).stripZeros 20

end Signpost.Binary64
