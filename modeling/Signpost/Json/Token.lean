import Signpost.Json.Value
import Signpost.Text.Utf8

/-!
# JSON tokens

A text is scanned one character at a time. Scanning never fails: from the first character that no
token can hold, nothing is scanned but one `bad` token, which stands where the text stops being well
formed.
-/
namespace Signpost.Json

inductive Token where
  | openArray
  | closeArray
  | openObject
  | closeObject
  | comma
  | colon
  | null
  | bool (b : Bool)
  | number (n : Number)
  | string (s : String)
  | bad
  deriving DecidableEq, Repr

/-- How far a number has been scanned. -/
inductive NumberStage where
  /-- After the sign. -/
  | sign
  /-- After a leading zero. -/
  | zero
  | whole
  /-- After the point. -/
  | point
  | fraction
  /-- After the `e`. -/
  | mark
  /-- After the sign of the exponent. -/
  | markSign
  | exponent
  deriving DecidableEq, Repr

/-- The digits of a number, each row with the latest digit first. -/
structure NumberDraft where
  stage : NumberStage
  negative : Bool := false
  whole : List Char := []
  fraction : List Char := []
  exponentNegative : Bool := false
  exponent : List Char := []
  deriving DecidableEq, Repr

namespace NumberDraft

def digit (c : Char) : Bool := Text.Integer.isDigit c

/-- The draft with one more character, if a number can go on with it. -/
def next? (d : NumberDraft) (c : Char) : Option NumberDraft :=
  match d.stage with
  | .sign =>
    if c = '0' then some { d with stage := .zero, whole := [c] }
    else if digit c then some { d with stage := .whole, whole := [c] }
    else none
  | .zero => afterWhole c
  | .whole => if digit c then some { d with whole := c :: d.whole } else afterWhole c
  | .point | .fraction =>
    if digit c then some { d with stage := .fraction, fraction := c :: d.fraction }
    else if d.stage = .fraction ∧ (c = 'e' ∨ c = 'E') then some { d with stage := .mark }
    else none
  | .mark =>
    if c = '-' then some { d with stage := .markSign, exponentNegative := true }
    else if c = '+' then some { d with stage := .markSign }
    else if digit c then some { d with stage := .exponent, exponent := [c] }
    else none
  | .markSign | .exponent =>
    if digit c then some { d with stage := .exponent, exponent := c :: d.exponent } else none
where
  afterWhole (c : Char) : Option NumberDraft :=
    if c = '.' then some { d with stage := .point }
    else if c = 'e' ∨ c = 'E' then some { d with stage := .mark }
    else none

/-- Take digits into a significand of 64 bits, up to the first one that does not fit. Gives the
significand and how many digits are left over from there. -/
def significand (start : Nat) : List Char → Nat × Nat
  | [] => (start, 0)
  | c :: rest =>
    let n := 10 * start + Text.Integer.digitValue c
    if n < Nat.pow 2 64 then significand n rest else (start, rest.length + 1)

/-- `10 ^ n` as a number of the format, for `n` up to 308. -/
def power (n : Nat) : Binary64 := (Binary64.ofRatio false (Nat.pow 10 n) 1).getD (.zero false)

/-- Divide by `10 ^ n`, at most 308 places at a time. -/
def divPower : (fuel : Nat) → Binary64 → Nat → Option Binary64
  | 0, x, _ => some x
  | fuel + 1, x, n =>
    if n ≤ 308 then x.div (power n)
    else if x.isZero then some x
    else match x.div (power 308) with
      | some y => divPower fuel y (n - 308)
      | none => none

/-- The number that a significand and a power of ten give: the significand is rounded first, and
then multiplied or divided by the power, which is rounded as well. -/
def scaled (significand : Nat) (exponent : Int) : Option Binary64 :=
  match Binary64.ofRatio false significand 1 with
  | none => none
  | some x =>
    if 0 ≤ exponent then
      if exponent ≤ 308 then x.mul (power exponent.toNat)
      else if x.isZero then some x else none
    else divPower 4 x (-exponent).toNat

/-- The number drafted. Without fraction and exponent it is an integer where 64 bits can hold it,
signed if negative and unsigned if not, and `-0` is no integer. An exponent beyond 2^31 counts as
2^31, which is out of range as well. -/
def number? (d : NumberDraft) : Option Number :=
  let (m, left) := significand 0 d.whole.reverse
  let isFloat := !d.fraction.isEmpty || !d.exponent.isEmpty || left ≠ 0
  if !isFloat && !d.negative then some (.integer m)
  else if !isFloat && m ≠ 0 && m ≤ Nat.pow 2 63 then some (.integer (-(m : Int)))
  else
    let (m, unread) := significand m d.fraction.reverse
    let places : Int := (left : Int) - (d.fraction.length - unread : Nat)
    let power : Int := Text.Integer.ofDigitsUpTo (Nat.pow 2 31) d.exponent.reverse
    let exponent := places + if d.exponentNegative then -power else power
    (scaled m exponent).map fun x => .float (if d.negative then x.neg else x)

/-- Whether the number may end here. -/
def complete (d : NumberDraft) : Bool :=
  match d.stage with
  | .zero | .whole | .fraction | .exponent => true
  | _ => false

/-- The token of a number that ends here. -/
def token (d : NumberDraft) : Token :=
  if d.complete then
    match d.number? with
    | some n => .number n
    | none => .bad
  else .bad

end NumberDraft

/-- What the scanner is inside of. Characters of a string are held with the latest first. -/
inductive Mode where
  | between
  /-- Inside a word that has to go on with `next` and then `rest`. -/
  | word (next : Char) (rest : List Char) (token : Token)
  | number (draft : NumberDraft)
  | string (done : List Char)
  /-- After a backslash. -/
  | escape (done : List Char)
  /-- Inside a `\u` escape with `left` digits to come, perhaps after a high surrogate. -/
  | unicode (done : List Char) (high : Option Nat) (left : Nat) (code : Nat)
  /-- After a high surrogate, before the backslash of the low one. -/
  | pair (done : List Char) (high : Nat)
  /-- After that backslash. -/
  | pairEscape (done : List Char) (high : Nat)
  /-- After the text has stopped being well formed. -/
  | dead
  deriving DecidableEq, Repr

/-- The tokens scanned, the latest first, and what the scanner is inside of. -/
structure Scanner where
  tokens : List Token
  mode : Mode
  deriving DecidableEq, Repr

namespace Scanner

def start : Scanner := ⟨[], .between⟩

def emit (tokens : List Token) (t : Token) : Scanner :=
  ⟨t :: tokens, if t = .bad then .dead else .between⟩

def fail (tokens : List Token) : Scanner := ⟨.bad :: tokens, .dead⟩

/-- The four characters that may stand between tokens. -/
def isSpace (c : Char) : Bool := c = ' ' || c = '\t' || c = '\n' || c = '\r'

/-- A character outside every token. -/
def begin (tokens : List Token) (c : Char) : Scanner :=
  if isSpace c then ⟨tokens, .between⟩
  else if c = '[' then emit tokens .openArray
  else if c = ']' then emit tokens .closeArray
  else if c = '\x7b' then emit tokens .openObject
  else if c = '\x7d' then emit tokens .closeObject
  else if c = ',' then emit tokens .comma
  else if c = ':' then emit tokens .colon
  else if c = '"' then ⟨tokens, .string []⟩
  else if c = 'n' then ⟨tokens, .word 'u' ['l', 'l'] .null⟩
  else if c = 't' then ⟨tokens, .word 'r' ['u', 'e'] (.bool true)⟩
  else if c = 'f' then ⟨tokens, .word 'a' ['l', 's', 'e'] (.bool false)⟩
  else if c = '-' then ⟨tokens, .number { stage := .sign, negative := true }⟩
  else if c = '0' then ⟨tokens, .number { stage := .zero, whole := [c] }⟩
  else if NumberDraft.digit c then ⟨tokens, .number { stage := .whole, whole := [c] }⟩
  else fail tokens

/-- The character that a one-letter escape stands for. -/
def escaped? (c : Char) : Option Char :=
  if c = '"' ∨ c = '\\' ∨ c = '/' then some c
  else if c = 'b' then some (Char.ofNat 8)
  else if c = 'f' then some (Char.ofNat 12)
  else if c = 'n' then some '\n'
  else if c = 'r' then some '\r'
  else if c = 't' then some '\t'
  else none

def hexValue? (c : Char) : Option Nat :=
  if '0' ≤ c ∧ c ≤ '9' then some (c.toNat - '0'.toNat)
  else if 'a' ≤ c ∧ c ≤ 'f' then some (c.toNat - 'a'.toNat + 10)
  else if 'A' ≤ c ∧ c ≤ 'F' then some (c.toNat - 'A'.toNat + 10)
  else none

/-- The end of a `\u` escape. Surrogates have to come in pairs. -/
def unicodeEnd (tokens : List Token) (done : List Char) (high : Option Nat) (code : Nat) :
    Scanner :=
  match high with
  | some h =>
    if 0xDC00 ≤ code ∧ code < 0xE000 then
      let c := Char.ofNat (0x10000 + (h - 0xD800) * 0x400 + (code - 0xDC00))
      ⟨tokens, .string (c :: done)⟩
    else fail tokens
  | none =>
    if 0xD800 ≤ code ∧ code < 0xDC00 then ⟨tokens, .pair done code⟩
    else if 0xDC00 ≤ code ∧ code < 0xE000 then fail tokens
    else ⟨tokens, .string (Char.ofNat code :: done)⟩

def step (s : Scanner) (c : Char) : Scanner :=
  match s.mode with
  | .between => begin s.tokens c
  | .word next rest t =>
    if c = next then
      match rest with
      | [] => emit s.tokens t
      | next :: rest => ⟨s.tokens, .word next rest t⟩
    else fail s.tokens
  | .number d =>
    match d.next? c with
    | some d => ⟨s.tokens, .number d⟩
    | none =>
      if d.token = .bad ∨ d.stage = .zero ∧ NumberDraft.digit c then fail s.tokens
      else begin (d.token :: s.tokens) c
  | .string done =>
    if c = '"' then emit s.tokens (.string (String.ofList done.reverse))
    else if c = '\\' then ⟨s.tokens, .escape done⟩
    else if c.toNat < 0x20 then fail s.tokens
    else ⟨s.tokens, .string (c :: done)⟩
  | .escape done =>
    if c = 'u' then ⟨s.tokens, .unicode done none 4 0⟩
    else match escaped? c with
      | some e => ⟨s.tokens, .string (e :: done)⟩
      | none => fail s.tokens
  | .unicode done high left code =>
    match hexValue? c with
    | none => fail s.tokens
    | some v =>
      let code := 16 * code + v
      if left ≤ 1 then unicodeEnd s.tokens done high code
      else ⟨s.tokens, .unicode done high (left - 1) code⟩
  | .pair done high => if c = '\\' then ⟨s.tokens, .pairEscape done high⟩ else fail s.tokens
  | .pairEscape done high =>
    if c = 'u' then ⟨s.tokens, .unicode done (some high) 4 0⟩ else fail s.tokens
  | .dead => s

/-- The tokens in order. A token that the text breaks off is bad. -/
def finish (s : Scanner) : List Token :=
  match s.mode with
  | .between | .dead => s.tokens.reverse
  | .number d => (d.token :: s.tokens).reverse
  | _ => (.bad :: s.tokens).reverse

end Scanner

def Token.scan (cs : List Char) : List Token := (cs.foldl Scanner.step .start).finish

/-- The characters of a document. An ill-formed piece of UTF-8 reads as NUL, which no token holds.
-/
def documentChars (bytes : List UInt8) : List Char := Text.Utf8.decodeWith '\x00' bytes

end Signpost.Json
