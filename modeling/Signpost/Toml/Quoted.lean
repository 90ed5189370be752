import Signpost.Toml.Scalar

/-!
# TOML strings

A basic string stands between double quotes and may hold escapes, a literal one between single
quotes and holds none. Three quotes at either end allow line breaks inside.
-/
namespace Signpost.Toml

/-- The value of a hexadecimal number of exactly the given digits, if it is a character. -/
def unicode? (digits : List Char) (count : Nat) : Option Char :=
  if digits.length = count ∧ digits.all isHexDigit then
    let n := digits.foldl (fun n c => 16 * n + hexValue c) 0
    if n < 0xD800 ∨ 0xE000 ≤ n ∧ n < 0x110000 then some (Char.ofNat n) else none
  else none

/-- The character of a one-letter escape. -/
def escaped? (c : Char) : Option Char :=
  if c = 'b' then some (Char.ofNat 8)
  else if c = 't' then some '\t'
  else if c = 'n' then some '\n'
  else if c = 'f' then some (Char.ofNat 12)
  else if c = 'r' then some '\r'
  else if c = '"' ∨ c = '\\' then some c
  else none

/-- Characters that may stand as they are on one line: all but the controls, the tab excepted. -/
def isPlain (c : Char) : Bool := c == '\t' || (0x20 ≤ c.toNat && c.toNat != 0x7F)

/-- What follows a line break at the start of a text. -/
def afterBreak? : List Char → Option (List Char)
  | '\n' :: rest => some rest
  | '\r' :: '\n' :: rest => some rest
  | _ => none

def isSpace (c : Char) : Bool := c == ' ' || c == '\t'

/-- An escape after its backslash: the character it writes, and how many characters write it. -/
def escape? : List Char → Option (Char × Nat)
  | 'u' :: rest => (unicode? (rest.take 4) 4).map (·, 5)
  | 'U' :: rest => (unicode? (rest.take 8) 8).map (·, 9)
  | c :: _ => (escaped? c).map (·, 1)
  | [] => none

/-- The rest of a string on one line, after `done`, whose latest character comes first. The next
`skip` characters belong to an escape already read. -/
def line (quote : Char) : (skip : Nat) → (done : List Char) → List Char →
    Option (List Char × List Char)
  | _, _, [] => none
  | skip + 1, done, _ :: rest => line quote skip done rest
  | 0, done, c :: rest =>
    if c = quote then some (done.reverse, rest)
    else if c = '\\' ∧ quote = '"' then
      match escape? rest with
      | some (e, count) => line quote count (e :: done) rest
      | none => none
    else if isPlain c then line quote 0 (c :: done) rest
    else none

/-- The number of quotes at the start of a text, up to five. -/
def quotes (quote : Char) (cs : List Char) : Nat := ((cs.take 5).takeWhile (· = quote)).length

/-- Where the reader of a string on several lines stands. -/
inductive BlockMode where
  | within
  /-- In an escape with so many characters to come. -/
  | escape (left : Nat)
  /-- After a backslash at the end of a line: blanks are taken away. -/
  | blank
  deriving DecidableEq, Repr

/-- The rest of a string between three quotes. Up to two quotes may stand before the closing ones. A
backslash at the end of a line takes the blanks after it away, and a carriage return counts as part
of a line break alone. -/
def block (quote : Char) : BlockMode → (done : List Char) → List Char →
    Option (List Char × List Char)
  | _, _, [] => none
  | .escape (left + 1), done, _ :: rest => block quote (.escape left) done rest
  | mode, done, c :: rest =>
    if c = '\r' ∧ rest.head? = some '\n' then
      block quote (if mode = .blank then .blank else .within) done rest
    else if mode = .blank ∧ (isSpace c ∨ c = '\n') then block quote .blank done rest
    else if c = quote then
      let n := quotes quote (c :: rest)
      if 3 ≤ n then some (done.reverse ++ List.replicate (n - 3) quote, (c :: rest).drop n)
      else block quote .within (c :: done) rest
    else if c = '\\' ∧ quote = '"' then
      if (afterBreak? (rest.dropWhile isSpace)).isSome then block quote .blank done rest
      else
        match escape? rest with
        | some (e, count) => block quote (.escape count) (e :: done) rest
        | none => none
    else if c = '\n' ∨ isPlain c then block quote .within (c :: done) rest
    else none

/-- A string of either kind on one line, and what follows it. -/
def lineString? : List Char → Option (List Char × List Char)
  | c :: rest => if c = '"' ∨ c = '\'' then line c 0 [] rest else none
  | [] => none

/-- A string of any kind. A line break right after three opening quotes is no part of it. -/
def string? (cs : List Char) : Option (List Char × List Char) :=
  match cs with
  | a :: b :: c :: rest =>
    if a = b ∧ b = c ∧ (a = '"' ∨ a = '\'') then
      block a .within [] ((afterBreak? rest).getD rest)
    else lineString? cs
  | _ => lineString? cs

end Signpost.Toml
