import Signpost.Text.Integer

/-!
# Socket addresses

The addresses that a listener can be bound to: four decimal numbers without leading zeros, or
eight hexadecimal groups between brackets, of which one or more zero groups may be left out at
`::` and the last two may be written as four decimal numbers; a scope may follow after `%`. A
colon and a number of 16 bits come last.
-/
namespace Signpost.Settings.Address

open Text

/-- What a part of an address reads, and what is left. A part that does not fit leaves nothing
read. -/
abbrev Part (α : Type) := List Char → Option (α × List Char)

def char (c : Char) : Part Unit
  | d :: rest => if d = c then some ((), rest) else none
  | [] => none

/-- A decimal number below `bound`. -/
def decimal (bound : Nat) : Part Nat := fun cs =>
  (Integer.digits? bound (cs.takeWhile Integer.isDigit)).map
    fun n => (n, cs.dropWhile Integer.isDigit)

/-- A number up to 255, without leading zeros. -/
def octet : Part Nat := fun cs =>
  let digits := cs.takeWhile Integer.isDigit
  if digits.length ≤ 3 && (digits.length ≤ 1 || digits.head? ≠ some '0') then decimal 256 cs
  else none

def isHexDigit (c : Char) : Bool :=
  Integer.isDigit c || ('a' ≤ c && c ≤ 'f') || ('A' ≤ c && c ≤ 'F')

/-- One to four hexadecimal digits. -/
def group : Part Unit := fun cs =>
  let digits := cs.takeWhile isHexDigit
  if 1 ≤ digits.length && digits.length ≤ 4 then some ((), cs.dropWhile isHexDigit) else none

/-- One part after another. -/
def next (p : Part α) (q : Part β) : Part β := fun cs => (p cs).bind fun (_, rest) => q rest

/-- Four numbers with points between them. -/
def v4 : Part Unit :=
  next octet (next (char '.') (next octet (next (char '.') (next octet (next (char '.')
    (next octet fun rest => some ((), rest)))))))

/-- A part that follows a colon, unless it comes first. -/
def afterColon (index : Nat) (p : Part α) : Part α := if index = 0 then p else next (char ':') p

/-- Up to `limit - index` further groups: how many there are then, and whether the last two were
written as decimal numbers. -/
def groups (limit : Nat) : (fuel index : Nat) → List Char → (Nat × Bool) × List Char
  | 0, index, cs => ((index, false), cs)
  | fuel + 1, index, cs =>
    match if index + 1 < limit then afterColon index v4 cs else none with
    | some (_, rest) => ((index + 2, true), rest)
    | none =>
      match afterColon index group cs with
      | some (_, rest) => groups limit fuel (index + 1) rest
      | none => ((index, false), cs)

/-- Eight groups, or fewer with `::` for those left out. -/
def v6 : Part Unit := fun cs =>
  let ((count, decimal), rest) := groups 8 8 0 cs
  if count = 8 then some ((), rest)
  else if decimal then none
  else
    (next (char ':') (char ':') rest).map fun (_, rest) =>
      ((), (groups (7 - count) (7 - count) 0 rest).2)

/-- A scope number, if one follows. -/
def scope : Part Unit := fun cs =>
  match next (char '%') (decimal (Nat.pow 2 32)) cs with
  | some (_, rest) => some ((), rest)
  | none => some ((), cs)

def portNumber : Part Unit :=
  next (char ':') (next (decimal (Nat.pow 2 16)) fun rest => some ((), rest))

/-- An address of either form and nothing after it. -/
def isValid (address : String) : Bool :=
  let cs := address.toList
  let ends (p : Part Unit) : Bool := match p cs with | some (_, []) => true | _ => false
  ends (next v4 portNumber) ||
    ends (next (char '[') (next v6 (next scope (next (char ']') portNumber))))

end Signpost.Settings.Address
