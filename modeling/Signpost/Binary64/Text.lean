import Signpost.Binary64.Shortest
import Signpost.Text.Integer

/-!
# Writing and reading binary64 numbers

A number is written with its shortest digits: positionally, with at least one digit after the point,
from 1e-5 up to 1e16, and with an exponent elsewhere. A decimal is read as the nearest number.
-/
namespace Signpost.Binary64

open Signpost.Text

/-- How a number is laid out. -/
structure Layout where
  leastPositional : Int
  leastExponential : Int

/-- Positional where the first digit stands for `10 ^ -5` to `10 ^ 15`. -/
def layout : Layout := ⟨-5, 16⟩

/-- Digits whose first one stands for `10 ^ exponent`, with a point in its place. -/
def positional (digits : List Char) (exponent : Int) : List Char :=
  if exponent < 0 then
    '0' :: '.' :: List.replicate ((-exponent).toNat - 1) '0' ++ digits
  else
    let whole := exponent.toNat + 1
    let fraction := digits.drop whole
    digits.take whole ++ List.replicate (whole - digits.length) '0' ++
      '.' :: (if fraction.isEmpty then ['0'] else fraction)

/-- Digits with a point after the first one, and the power of ten that it stands for. -/
def exponential (digits : List Char) (exponent : Int) : List Char :=
  let fraction := digits.drop 1
  digits.take 1 ++ (if fraction.isEmpty then [] else '.' :: fraction) ++
    'e' :: (if exponent < 0 then '-' else '+') :: Nat.toDigits 10 exponent.natAbs

def chars (x : Binary64) : List Char :=
  let d := x.shortest
  let digits := Nat.toDigits 10 d.digits
  let exponent := d.exponent + digits.length - 1
  (if x.negative then ['-'] else []) ++
    if layout.leastPositional ≤ exponent ∧ exponent < layout.leastExponential then
      positional digits exponent
    else exponential digits exponent

def text (x : Binary64) : String := String.ofList x.chars

/-- The nearest number to `± digits * 10 ^ exponent`. Magnitudes far beyond the format at either end
are settled by their size alone: 10^320 and more has no number, less than 10^-330 is zero. -/
def ofDecimal (negative : Bool) (digits : Nat) (exponent : Int) : Option Binary64 :=
  let places : Int := (digits.log2 : Int) * 3 / 10 + exponent
  if digits = 0 then some (zero negative)
  else if 320 < places then none
  else if digits.log2 / 3 + 1 + exponent < -330 then some (zero negative)
  else
    let (n, d) := scaleTen digits 1 exponent
    ofRatio negative n d

/-- The size of an exponent. Digits that come after it has reached 2^16 are passed over. -/
def exponentSize? (cs : List Char) : Option Nat :=
  if cs ≠ [] ∧ cs.all Integer.isDigit then
    some (cs.foldl (fun n c => if n < Nat.pow 2 16 then 10 * n + Integer.digitValue c else n) 0)
  else none

/-- The exponent after an `e`: digits after a sign that may be left out. -/
def exponent? (cs : List Char) : Option Int :=
  match cs with
  | '-' :: rest => (exponentSize? rest).map fun n => -(n : Int)
  | '+' :: rest => (exponentSize? rest).map fun n => (n : Int)
  | _ => (exponentSize? cs).map fun n => (n : Int)

/-- The digits that decide how a decimal is rounded, as a number, and how many places they leave
out. No number of the format and no midpoint of two has more than 767 digits, so of all that come
after the first 800 it only counts whether they are zeros. -/
def decisive (ds : List Char) : Nat × Nat :=
  let ds := ds.dropWhile (· = '0')
  let rest := ds.drop 800
  if rest.isEmpty then (Integer.ofDigits ds, 0)
  else
    (10 * Integer.ofDigits (ds.take 800) + (if rest.all (· = '0') then 0 else 1), rest.length - 1)

/-- Digits with a point anywhere among them, at least one digit in all. -/
def mantissa? (cs : List Char) : Option (Nat × Int) :=
  let whole := cs.takeWhile Integer.isDigit
  let fraction? : Option (List Char) :=
    match cs.dropWhile Integer.isDigit with
    | [] => some []
    | '.' :: rest => if rest.all Integer.isDigit then some rest else none
    | _ => none
  match fraction? with
  | none => none
  | some fraction =>
    if whole.isEmpty && fraction.isEmpty then none
    else
      let (digits, places) := decisive (whole ++ fraction)
      some (digits, (places : Int) - fraction.length)

/-- Read a decimal with an optional sign, point and exponent. -/
def ofText? (cs : List Char) : Option Binary64 :=
  let (negative, rest) : Bool × List Char :=
    match cs with
    | '-' :: rest => (true, rest)
    | '+' :: rest => (false, rest)
    | _ => (false, cs)
  let isMark (c : Char) : Bool := c == 'e' || c == 'E'
  let before := rest.takeWhile (!isMark ·)
  let scale? : Option Int :=
    match rest.dropWhile (!isMark ·) with
    | [] => some 0
    | _ :: after => exponent? after
  match mantissa? before, scale? with
  | some (digits, places), some scale => ofDecimal negative digits (places + scale)
  | _, _ => none

end Signpost.Binary64
