import Signpost.Text.Pieces
import Signpost.Toml.Value

/-!
# TOML scalars

Numbers, truth values, dates and times: the values that are written without quotes or brackets.
Digits may be set apart by single underscores, and a decimal number has no leading zeros.
-/
namespace Signpost.Toml

open Text Text.Integer

/-- Digits of a class with single underscores between them, freed of these. -/
def grouped? (isDigit : Char → Bool) (cs : List Char) : Option (List Char) :=
  let groups := cut '_' cs
  if groups.all fun g => !g.isEmpty && g.all isDigit then some groups.flatten else none

/-- A sign that may be left out, and what follows it. -/
def signOf : List Char → Bool × List Char
  | '-' :: rest => (true, rest)
  | '+' :: rest => (false, rest)
  | cs => (false, cs)

/-- Digits without a leading zero, or zero itself. -/
def whole? (cs : List Char) : Option (List Char) :=
  (grouped? isDigit cs).filter fun ds => ds.length = 1 || ds.head? ≠ some '0'

/-- An integer that 64 bits hold with a sign. -/
def within64? (n : Int) : Option Int :=
  if -Int.pow 2 63 ≤ n ∧ n < Int.pow 2 63 then some n else none

def hexValue (c : Char) : Nat :=
  if isDigit c then c.toNat - 48 else if 'a' ≤ c then c.toNat - 87 else c.toNat - 55

def isHexDigit (c : Char) : Bool :=
  isDigit c || ('a' ≤ c && c ≤ 'f') || ('A' ≤ c && c ≤ 'F')

/-- An unsigned integer in another base. -/
def inBase? (base : Nat) (isDigit : Char → Bool) (cs : List Char) : Option Int :=
  ((grouped? isDigit cs).map fun ds =>
    ((ds.foldl (fun n c => min (base * n + hexValue c) (Nat.pow 2 64)) 0 : Nat) : Int)).bind within64?

def integer? (cs : List Char) : Option Int :=
  match cs with
  | '0' :: 'x' :: ds => inBase? 16 isHexDigit ds
  | '0' :: 'o' :: ds => inBase? 8 (fun c => '0' ≤ c && c ≤ '7') ds
  | '0' :: 'b' :: ds => inBase? 2 (fun c => '0' ≤ c && c ≤ '1') ds
  | _ =>
    let (negative, ds) := signOf cs
    ((whole? ds).map fun ds =>
      let n : Int := ofDigitsUpTo (Nat.pow 2 64) ds
      if negative then -n else n).bind within64?

/-- A float without underscores: digits, then digits after a point or an exponent or both. -/
def floatText? (cs : List Char) : Option (List Char) :=
  let (negative, rest) := signOf cs
  let isMark (c : Char) : Bool := c == 'e' || c == 'E'
  let mantissa := rest.takeWhile (!isMark ·)
  let exponent? : Option (List Char) :=
    match rest.dropWhile (!isMark ·) with
    | [] => some []
    | _ :: after =>
      let (negative, ds) := signOf after
      (grouped? isDigit ds).map fun ds => 'e' :: (if negative then ['-'] else []) ++ ds
  let digits? : Option (List Char) :=
    match mantissa.dropWhile (· ≠ '.') with
    | [] => if rest.any isMark then whole? mantissa else none
    | _ :: fraction =>
      match whole? (mantissa.takeWhile (· ≠ '.')), grouped? isDigit fraction with
      | some ds, some fs => some (ds ++ '.' :: fs)
      | _, _ => none
  match digits?, exponent? with
  | some ds, some es => some ((if negative then ['-'] else []) ++ ds ++ es)
  | _, _ => none

/-- A float, or one of its special values. Of numbers beyond the format the negative ones are minus
infinity and the positive ones are refused. -/
def float? (cs : List Char) : Option Value :=
  let (negative, word) := signOf cs
  if word = ['i', 'n', 'f'] ∨ word = ['n', 'a', 'n'] then some (.float none)
  else
    (floatText? cs).bind fun decimal =>
      match Binary64.ofText? decimal with
      | some x => some (.float (some x))
      | none => if negative then some (.float none) else none

/-- A number of exactly `count` digits within bounds. -/
def fixed? (count least greatest : Nat) (cs : List Char) : Bool :=
  cs.length == count && cs.all isDigit && least ≤ ofDigits cs && ofDigits cs ≤ greatest

def isLeapYear (y : Nat) : Bool := y % 4 == 0 && (y % 100 != 0 || y % 400 == 0)

def daysIn (year month : Nat) : Nat :=
  if month == 2 then if isLeapYear year then 29 else 28
  else if month == 4 || month == 6 || month == 9 || month == 11 then 30
  else 31

/-- `YYYY-MM-DD` -/
def isDate (cs : List Char) : Bool :=
  match cut '-' cs with
  | [y, m, d] =>
    fixed? 4 0 9999 y && fixed? 2 1 12 m && fixed? 2 1 (daysIn (ofDigits y) (ofDigits m)) d
  | _ => false

/-- `HH:MM:SS`, perhaps with a fraction of a second. -/
def isTime (cs : List Char) : Bool :=
  match cut ':' cs with
  | [h, m, s] =>
    let fractionOk :=
      match s.drop 2 with
      | [] => true
      | '.' :: fraction => !fraction.isEmpty && fraction.all isDigit
      | _ => false
    fixed? 2 0 23 h && fixed? 2 0 59 m && fixed? 2 0 60 (s.take 2) && fractionOk
  | _ => false

/-- `Z`, or a sign and `HH:MM`. -/
def isOffset (cs : List Char) : Bool :=
  match cs with
  | ['Z'] | ['z'] => true
  | sign :: rest =>
    (sign == '+' || sign == '-') &&
      match cut ':' rest with
      | [h, m] => fixed? 2 0 23 h && fixed? 2 0 59 m
      | _ => false
  | [] => false

/-- A time, perhaps with an offset. -/
def isZonedTime (cs : List Char) : Bool :=
  let inTime (c : Char) : Bool := isDigit c || c == ':' || c == '.'
  let offset := cs.dropWhile inTime
  isTime (cs.takeWhile inTime) && (offset.isEmpty || isOffset offset)

/-- A date, a time, or a date and a time with a `T` or a space between them. -/
def isMoment (cs : List Char) : Bool :=
  isDate cs || isTime cs ||
    (isDate (cs.take 10) &&
      match cs.drop 10 with
      | mark :: time => (mark == 'T' || mark == 't' || mark == ' ') && isZonedTime time
      | [] => false)

/-- The value of an unquoted word. -/
def scalar? (cs : List Char) : Option Value :=
  if cs = ['t', 'r', 'u', 'e'] then some (.bool true)
  else if cs = ['f', 'a', 'l', 's', 'e'] then some (.bool false)
  else
    match integer? cs with
    | some n => some (.integer n)
    | none => if isMoment cs then some (.moment (String.ofList cs)) else float? cs

/-- The characters of unquoted words. -/
def isWordChar (c : Char) : Bool :=
  c.isAlphanum || c == '+' || c == '-' || c == '.' || c == '_' || c == ':'

/-- The word at the start of a text and what follows it. A date and a time may have a space between
them. -/
def word (cs : List Char) : List Char × List Char :=
  let first := cs.takeWhile isWordChar
  match cs.dropWhile isWordChar with
  | ' ' :: rest =>
    if isDate first && (rest.head?.map isDigit).getD false then
      (first ++ ' ' :: rest.takeWhile isWordChar, rest.dropWhile isWordChar)
    else (first, ' ' :: rest)
  | rest => (first, rest)

end Signpost.Toml
