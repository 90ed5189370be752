import Mathlib.Data.List.Forall2
import Mathlib.Tactic.SplitIfs
import Signpost.Json.Token

/-!
# Texts and their tokens

A text of tokens has blanks between them, and each character of a string is written as itself or as
an escape, of which there may be several. The scanner reads any such text as the tokens it is made
of.
-/
namespace Signpost.Json

/-- The letters of the short escapes, and what they stand for. -/
def shortEscapes : List (Char × Char) :=
  [('"', '"'), ('\\', '\\'), ('/', '/'), ('b', Char.ofNat 8), ('f', Char.ofNat 12), ('n', '\n'),
    ('r', '\r'), ('t', '\t')]

/-- The hexadecimal digit for a number below 16, a capital letter or a small one from 10 on. -/
def hexChar (capital : Bool) (n : Nat) : Char :=
  if capital then (Nat.digitChar n).toUpper else Nat.digitChar n

/-- Four hexadecimal digits for a code, each in either case. -/
def FourDigits (code : Nat) (digits : List Char) : Prop :=
  ∃ first second third fourth, digits =
    [hexChar first (code / 0x1000 % 16), hexChar second (code / 0x100 % 16),
      hexChar third (code / 0x10 % 16), hexChar fourth (code % 16)]

/-- The characters that write one character of a string. -/
inductive WritesChar : Char → List Char → Prop where
  | raw {c : Char} (quote : c ≠ '"') (backslash : c ≠ '\\') (control : 0x20 ≤ c.toNat) :
      WritesChar c [c]
  | short {c letter : Char} (mem : (letter, c) ∈ shortEscapes) : WritesChar c ['\\', letter]
  | unicode {c : Char} {digits : List Char} (upper : c.toNat < 0x10000)
      (code : FourDigits c.toNat digits) : WritesChar c ('\\' :: 'u' :: digits)
  /-- A character beyond the first plane is written as two surrogates. -/
  | pair {c : Char} {high low : List Char} (lower : 0x10000 ≤ c.toNat)
      (highCode : FourDigits (0xD800 + (c.toNat - 0x10000) / 0x400) high)
      (lowCode : FourDigits (0xDC00 + (c.toNat - 0x10000) % 0x400) low) :
      WritesChar c ('\\' :: 'u' :: high ++ '\\' :: 'u' :: low)

/-- The characters that write a token other than a number. -/
inductive WritesToken : Token → List Char → Prop where
  | openArray : WritesToken .openArray ['[']
  | closeArray : WritesToken .closeArray [']']
  | openObject : WritesToken .openObject ['\x7b']
  | closeObject : WritesToken .closeObject ['\x7d']
  | comma : WritesToken .comma [',']
  | colon : WritesToken .colon [':']
  | null : WritesToken .null ['n', 'u', 'l', 'l']
  | true : WritesToken (.bool true) ['t', 'r', 'u', 'e']
  | false : WritesToken (.bool false) ['f', 'a', 'l', 's', 'e']
  | string {s : String} {pieces : List (List Char)}
      (chars : List.Forall₂ WritesChar s.toList pieces) :
      WritesToken (.string s) ('"' :: pieces.flatten ++ ['"'])

/-- A text of tokens, with blanks around them. -/
inductive Lexes : List Token → List Char → Prop where
  | nil {blanks : List Char} (blank : ∀ c ∈ blanks, Scanner.isSpace c = true) : Lexes [] blanks
  | cons {blanks written rest : List Char} {t : Token} {tokens : List Token}
      (blank : ∀ c ∈ blanks, Scanner.isSpace c = true) (token : WritesToken t written)
      (others : Lexes tokens rest) : Lexes (t :: tokens) (blanks ++ written ++ rest)

namespace Lexes

theorem of_token {t : Token} {written : List Char} (h : WritesToken t written) :
    Lexes [t] written := by
  have hnone : ∀ c ∈ ([] : List Char), Scanner.isSpace c = true := by simp
  simpa using cons hnone h (nil hnone)

theorem blanks_append {blanks cs : List Char} {tokens : List Token} (h : Lexes tokens cs)
    (hblanks : ∀ c ∈ blanks, Scanner.isSpace c = true) : Lexes tokens (blanks ++ cs) := by
  cases h with
  | nil blank => exact .nil (List.forall_mem_append.2 ⟨hblanks, blank⟩)
  | cons blank token others =>
    rw [← List.append_assoc, ← List.append_assoc]
    exact .cons (List.forall_mem_append.2 ⟨hblanks, blank⟩) token others

theorem append {tokens tokens' : List Token} {cs ds : List Char} (h : Lexes tokens cs)
    (h' : Lexes tokens' ds) : Lexes (tokens ++ tokens') (cs ++ ds) := by
  induction h with
  | nil blank => exact h'.blanks_append blank
  | cons blank token _ ih =>
    rw [List.append_assoc]
    exact .cons blank token ih

end Lexes

namespace Scanner

theorem hexValue?_hexChar (capital : Bool) {d : Nat} (h : d < 16) :
    hexValue? (hexChar capital d) = some d := by
  revert d capital
  decide

theorem escaped?_of_mem {letter c : Char} (h : (letter, c) ∈ shortEscapes) :
    letter ≠ 'u' ∧ escaped? letter = some c := by
  have hall : ∀ p ∈ shortEscapes, p.1 ≠ 'u' ∧ escaped? p.1 = some p.2 := by decide
  exact hall _ h

theorem foldl_fourDigits {code : Nat} {digits : List Char} (h : FourDigits code digits)
    (hcode : code < 0x10000) (tokens : List Token) (done : List Char) (high : Option Nat) :
    digits.foldl step ⟨tokens, .unicode done high 4 0⟩ = unicodeEnd tokens done high code := by
  obtain ⟨first, second, third, fourth, rfl⟩ := h
  have hfirst := hexValue?_hexChar first (d := code / 0x1000 % 16) (by omega)
  have hsecond := hexValue?_hexChar second (d := code / 0x100 % 16) (by omega)
  have hthird := hexValue?_hexChar third (d := code / 0x10 % 16) (by omega)
  have hfourth := hexValue?_hexChar fourth (d := code % 16) (by omega)
  have hsum : 16 * (16 * (16 * (code / 0x1000 % 16) + code / 0x100 % 16) + code / 0x10 % 16) +
      code % 16 = code := by omega
  simp [step, hfirst, hsecond, hthird, hfourth, hsum]

theorem foldl_escape {code : Nat} {digits : List Char} (h : FourDigits code digits)
    (hcode : code < 0x10000) (tokens : List Token) (done : List Char) :
    ('\\' :: 'u' :: digits).foldl step ⟨tokens, .string done⟩ =
      unicodeEnd tokens done none code := by
  have hbegin : ['\\', 'u'].foldl step ⟨tokens, .string done⟩ =
      ⟨tokens, .unicode done none 4 0⟩ := rfl
  rw [← foldl_fourDigits h hcode, ← hbegin, ← List.foldl_append]
  rfl

theorem unicodeEnd_of_scalar {c : Char} (h : c.toNat < 0x10000) (tokens : List Token)
    (done : List Char) : unicodeEnd tokens done none c.toNat = ⟨tokens, .string (c :: done)⟩ := by
  have hvalid : c.toNat < 0xD800 ∨ 0xDFFF < c.toNat ∧ c.toNat < 0x110000 := c.valid
  have hhigh : ¬ (0xD800 ≤ c.toNat ∧ c.toNat < 0xDC00) := by omega
  have hlow : ¬ (0xDC00 ≤ c.toNat ∧ c.toNat < 0xE000) := by omega
  simp only [unicodeEnd, if_neg hhigh, if_neg hlow, Char.ofNat_toNat]

theorem foldl_surrogates {c : Char} {high low : List Char} (hlower : 0x10000 ≤ c.toNat)
    (hhigh : FourDigits (0xD800 + (c.toNat - 0x10000) / 0x400) high)
    (hlow : FourDigits (0xDC00 + (c.toNat - 0x10000) % 0x400) low) (tokens : List Token)
    (done : List Char) :
    ('\\' :: 'u' :: high ++ '\\' :: 'u' :: low).foldl step ⟨tokens, .string done⟩ =
      ⟨tokens, .string (c :: done)⟩ := by
  have hvalid : c.toNat < 0xD800 ∨ 0xDFFF < c.toNat ∧ c.toNat < 0x110000 := c.valid
  generalize hoffset : c.toNat - 0x10000 = offset at hhigh hlow
  have hfirst : unicodeEnd tokens done none (0xD800 + offset / 0x400) =
      ⟨tokens, .pair done (0xD800 + offset / 0x400)⟩ := by
    rw [unicodeEnd, if_pos (by omega)]
  have hsecond : ['\\', 'u'].foldl step ⟨tokens, .pair done (0xD800 + offset / 0x400)⟩ =
      ⟨tokens, .unicode done (some (0xD800 + offset / 0x400)) 4 0⟩ := rfl
  have hcode : 0x10000 + (0xD800 + offset / 0x400 - 0xD800) * 0x400 +
      (0xDC00 + offset % 0x400 - 0xDC00) = c.toNat := by omega
  have hsplit : '\\' :: 'u' :: low = ['\\', 'u'] ++ low := rfl
  rw [List.foldl_append, foldl_escape hhigh (by omega), hfirst, hsplit, List.foldl_append, hsecond,
    foldl_fourDigits hlow (by omega), unicodeEnd]
  simp only
  rw [if_pos (by omega), hcode, Char.ofNat_toNat]

/-- However a character is written, the scanner reads the character. -/
theorem foldl_writesChar {c : Char} {written : List Char} (h : WritesChar c written)
    (tokens : List Token) (done : List Char) :
    written.foldl step ⟨tokens, .string done⟩ = ⟨tokens, .string (c :: done)⟩ := by
  cases h with
  | raw quote backslash control =>
    have hcontrol : ¬ c.toNat < 0x20 := by omega
    simp [step, quote, backslash, hcontrol]
  | short mem =>
    obtain ⟨hu, hescaped⟩ := escaped?_of_mem mem
    simp [step, hu, hescaped]
  | unicode upper code => rw [foldl_escape code upper, unicodeEnd_of_scalar upper]
  | pair lower highCode lowCode => exact foldl_surrogates lower highCode lowCode tokens done

theorem foldl_writesChars {cs : List Char} {pieces : List (List Char)}
    (h : List.Forall₂ WritesChar cs pieces) (tokens : List Token) (done : List Char) :
    pieces.flatten.foldl step ⟨tokens, .string done⟩ = ⟨tokens, .string (cs.reverse ++ done)⟩ := by
  induction h generalizing done with
  | nil => rfl
  | cons hchar _ ih =>
    rw [List.flatten_cons, List.foldl_append, foldl_writesChar hchar, ih]
    simp

theorem foldl_writesToken {t : Token} {written : List Char} (h : WritesToken t written)
    (tokens : List Token) : written.foldl step ⟨tokens, .between⟩ = ⟨t :: tokens, .between⟩ := by
  cases h with
  | @string s pieces chars =>
    have hbegin : step ⟨tokens, .between⟩ '"' = ⟨tokens, .string []⟩ := rfl
    have hend : step ⟨tokens, .string s.toList.reverse⟩ '"' = ⟨.string s :: tokens, .between⟩ := by
      simp [step, emit]
    rw [List.cons_append, List.foldl_cons, hbegin, List.foldl_append, foldl_writesChars chars,
      List.append_nil, List.foldl_cons, hend, List.foldl_nil]
  | _ => rfl

theorem foldl_blanks {blanks : List Char} (h : ∀ c ∈ blanks, isSpace c = true)
    (tokens : List Token) : blanks.foldl step ⟨tokens, .between⟩ = ⟨tokens, .between⟩ := by
  induction blanks with
  | nil => rfl
  | cons c blanks ih =>
    obtain ⟨hc, hblanks⟩ := List.forall_mem_cons.1 h
    have hstep : step ⟨tokens, .between⟩ c = ⟨tokens, .between⟩ := by simp [step, begin, hc]
    rw [List.foldl_cons, hstep, ih hblanks]

theorem foldl_lexes {written : List Token} {cs : List Char} (h : Lexes written cs)
    (tokens : List Token) :
    cs.foldl step ⟨tokens, .between⟩ = ⟨written.reverse ++ tokens, .between⟩ := by
  induction h generalizing tokens with
  | nil blank => exact foldl_blanks blank tokens
  | cons blank token _ ih =>
    rw [List.foldl_append, List.foldl_append, foldl_blanks blank, foldl_writesToken token, ih]
    simp

end Scanner

/-- Any text of tokens is read as these. -/
theorem scan_of_lexes {tokens : List Token} {cs : List Char} (h : Lexes tokens cs) :
    Token.scan cs = tokens := by
  rw [Token.scan, Scanner.start, Scanner.foldl_lexes h]
  simp [Scanner.finish]

end Signpost.Json
