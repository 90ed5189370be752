import Mathlib.Data.List.Induction
import Signpost.Text.Integer

/-!
# Decimal texts of integers

Which texts write an integer, said without reading them: a row of digits writes a number, a sign may
stand before it, and zeros at its front change nothing. The readers accept exactly these texts, as
long as the number is within the bound, and the digits that a number is printed with are one of its
texts.
-/
namespace Signpost.Text.Integer

/-- A row of decimal digits and the number that it writes. -/
inductive Numeral : List Char → Nat → Prop where
  | digit {d : Nat} (lt : d < 10) : Numeral [Nat.digitChar d] d
  | snoc {cs : List Char} {n d : Nat} (row : Numeral cs n) (lt : d < 10) :
      Numeral (cs ++ [Nat.digitChar d]) (10 * n + d)

/-- The texts of an integer without a minus sign. -/
inductive Unsigned : List Char → Int → Prop where
  | bare {cs : List Char} {n : Nat} (row : Numeral cs n) : Unsigned cs n
  | plus {cs : List Char} {n : Nat} (row : Numeral cs n) : Unsigned ('+' :: cs) n

/-- The texts of an integer that may have a minus sign. -/
inductive Signed : List Char → Int → Prop where
  | unsigned {cs : List Char} {n : Int} (text : Unsigned cs n) : Signed cs n
  | minus {cs : List Char} {n : Nat} (row : Numeral cs n) : Signed ('-' :: cs) (-n)

theorem isDigit_digitChar {d : Nat} (h : d < 10) : isDigit (Nat.digitChar d) = true := by
  have hall : ∀ k < 10, isDigit (Nat.digitChar k) = true := by decide
  exact hall d h

theorem digitValue_digitChar {d : Nat} (h : d < 10) : digitValue (Nat.digitChar d) = d := by
  have hchar := Nat.toNat_digitChar_of_lt_ten h
  have hzero : '0'.toNat = 48 := rfl
  rw [digitValue, hchar, hzero]
  omega

theorem exists_digitChar {c : Char} (h : isDigit c = true) : ∃ d < 10, c = Nat.digitChar d := by
  have hrange : 48 ≤ c.toNat ∧ c.toNat ≤ 57 := by
    simpa [isDigit, Char.le_def, UInt32.le_iff_toNat_le] using h
  refine ⟨c.toNat - 48, by omega, Char.toNat_inj.mp ?_⟩
  rw [Nat.toNat_digitChar_of_lt_ten (by omega)]
  omega

theorem ofDigits_concat (cs : List Char) (c : Char) :
    ofDigits (cs ++ [c]) = 10 * ofDigits cs + digitValue c := by
  simp [ofDigits]

theorem numeral_iff {cs : List Char} {n : Nat} :
    Numeral cs n ↔ (cs ≠ [] ∧ cs.all isDigit) ∧ ofDigits cs = n := by
  constructor
  · intro h
    induction h with
    | digit lt => simp [isDigit_digitChar lt, ofDigits, digitValue_digitChar lt]
    | snoc _ lt ih =>
      obtain ⟨⟨-, hall⟩, hvalue⟩ := ih
      rw [ofDigits_concat, hvalue, digitValue_digitChar lt]
      simp [hall, isDigit_digitChar lt]
  · intro h
    obtain ⟨⟨hne, hall⟩, rfl⟩ := h
    induction cs using List.reverseRecOn with
    | nil => exact absurd rfl hne
    | append_singleton cs c ih =>
      rw [List.all_append, Bool.and_eq_true] at hall
      obtain ⟨d, hd, rfl⟩ := exists_digitChar (by simpa using hall.2)
      rw [ofDigits_concat, digitValue_digitChar hd]
      by_cases hempty : cs = []
      · subst hempty
        have hvalue : 10 * ofDigits [] + d = d := by simp [ofDigits]
        rw [hvalue]
        exact .digit hd
      · exact .snoc (ih hempty hall.1) hd

/-- Digits are read as the number that they write, if it is below the bound. -/
theorem digits?_eq_some_iff_numeral {bound n : Nat} {cs : List Char} :
    digits? bound cs = some n ↔ Numeral cs n ∧ n < bound := by
  rw [digits?_eq_some_iff, numeral_iff, and_assoc (c := n < bound)]

namespace Numeral

theorem all_isDigit {cs : List Char} {n : Nat} (h : Numeral cs n) : ∀ c ∈ cs, isDigit c = true :=
  List.all_eq_true.mp (numeral_iff.1 h).1.2

theorem zeros_append {cs : List Char} {n : Nat} (h : Numeral cs n) (k : Nat) :
    Numeral (List.replicate k '0' ++ cs) n := by
  have hzero : Nat.digitChar 0 = '0' := rfl
  -- Rows grow at their end, so one zero at the front goes through the whole row.
  have hcons : ∀ {cs n}, Numeral cs n → Numeral ('0' :: cs) n := by
    intro cs n h
    induction h with
    | @digit d lt =>
      have hpair := Numeral.snoc (.digit (show 0 < 10 by omega)) lt
      simpa [hzero] using hpair
    | snoc _ lt ih => exact ih.snoc lt
  induction k with
  | zero => exact h
  | succ k ih => exact hcons ih

theorem toDigits (n : Nat) : Numeral (Nat.toDigits 10 n) n := by
  induction n using Nat.strongRecOn with
  | ind n ih =>
    by_cases h : n < 10
    · rw [Nat.toDigits_of_lt_base h]
      exact .digit h
    · have hsplit : 10 * (n / 10) + n % 10 = n := by omega
      have hrow := (ih (n / 10) (by omega)).snoc (show n % 10 < 10 by omega)
      rwa [hsplit, ← Nat.toDigits_of_base_le (by omega) (by omega)] at hrow

theorem ne_cons {cs : List Char} {n : Nat} (h : Numeral cs n) {c : Char} (hc : isDigit c = false)
    (rest : List Char) : cs ≠ c :: rest := by
  rintro rfl
  have hdigit := h.all_isDigit c (by simp)
  simp [hc] at hdigit

end Numeral

theorem unsigned_iff {cs : List Char} {n : Nat} :
    Unsigned cs n ↔ Numeral cs n ∨ ∃ rest, cs = '+' :: rest ∧ Numeral rest n := by
  constructor
  · intro h
    generalize hm : (n : Int) = m at h
    cases h with
    | bare row => exact .inl (Int.ofNat.inj hm ▸ row)
    | plus row => exact .inr ⟨_, rfl, Int.ofNat.inj hm ▸ row⟩
  · rintro (row | ⟨rest, rfl, row⟩)
    · exact .bare row
    · exact .plus row

/-- An unsigned integer is read from its texts, if it is below the bound. -/
theorem unsigned?_eq_some_iff {bound n : Nat} {cs : List Char} :
    unsigned? bound cs = some n ↔ Unsigned cs n ∧ n < bound := by
  rw [unsigned_iff]
  unfold unsigned?
  split
  next rest =>
    have hplus : ¬ Numeral ('+' :: rest) n := fun row => row.ne_cons (by decide) rest rfl
    simp [digits?_eq_some_iff_numeral, hplus]
  next hplus =>
    have hrest : ¬ ∃ rest, cs = '+' :: rest ∧ Numeral rest n := by
      rintro ⟨rest, heq, -⟩
      exact hplus rest heq
    simp [digits?_eq_some_iff_numeral, hrest]

theorem signed?_minus (bound : Nat) (rest : List Char) :
    signed? bound ('-' :: rest) = (digits? (bound + 1) rest).map fun n : Nat => (-n : Int) := by
  cases h : digits? (bound + 1) rest <;> simp [signed?, h]

theorem signed?_of_ne {bound : Nat} {cs : List Char} (h : ∀ rest, cs ≠ '-' :: rest) :
    signed? bound cs = (unsigned? bound cs).map fun n : Nat => (n : Int) := by
  cases hu : unsigned? bound cs <;> simp [signed?, hu]

theorem ne_minus_of_unsigned {cs : List Char} {n : Int} (h : Unsigned cs n) (rest : List Char) :
    cs ≠ '-' :: rest := by
  cases h with
  | bare row => exact row.ne_cons (by decide) rest
  | plus row => simp

theorem signed_minus_iff {rest : List Char} {n : Int} :
    Signed ('-' :: rest) n ↔ ∃ m : Nat, Numeral rest m ∧ n = -m := by
  constructor
  · intro h
    cases h with
    | unsigned text => exact absurd rfl (ne_minus_of_unsigned text rest)
    | minus row => exact ⟨_, row, rfl⟩
  · rintro ⟨m, row, rfl⟩
    exact .minus row

theorem signed_iff_of_ne {cs : List Char} (h : ∀ rest, cs ≠ '-' :: rest) {n : Int} :
    Signed cs n ↔ ∃ m : Nat, Unsigned cs m ∧ n = m := by
  constructor
  · intro hsigned
    cases hsigned with
    | unsigned text =>
      cases text with
      | bare row => exact ⟨_, .bare row, rfl⟩
      | plus row => exact ⟨_, .plus row, rfl⟩
    | minus row => exact absurd rfl (h _)
  · rintro ⟨m, text, rfl⟩
    exact .unsigned text

/-- A signed integer is read from its texts, if it is within the bounds. -/
theorem signed?_eq_some_iff {bound : Nat} (hbound : 0 < bound) {n : Int} {cs : List Char} :
    signed? bound cs = some n ↔ Signed cs n ∧ -bound ≤ n ∧ n < bound := by
  by_cases hminus : ∃ rest, cs = '-' :: rest
  · obtain ⟨rest, rfl⟩ := hminus
    rw [signed?_minus, signed_minus_iff]
    simp only [Option.map_eq_some_iff, digits?_eq_some_iff_numeral]
    constructor
    · rintro ⟨m, ⟨row, hlt⟩, rfl⟩
      exact ⟨⟨m, row, rfl⟩, by omega⟩
    · rintro ⟨⟨m, row, rfl⟩, hbounds⟩
      exact ⟨m, ⟨row, by omega⟩, rfl⟩
  · have hne : ∀ rest, cs ≠ '-' :: rest := fun rest heq => hminus ⟨rest, heq⟩
    rw [signed?_of_ne hne, signed_iff_of_ne hne]
    simp only [Option.map_eq_some_iff, unsigned?_eq_some_iff]
    constructor
    · rintro ⟨m, ⟨text, hlt⟩, rfl⟩
      exact ⟨⟨m, text, rfl⟩, by omega⟩
    · rintro ⟨⟨m, text, rfl⟩, hbounds⟩
      exact ⟨m, ⟨text, by omega⟩, rfl⟩

theorem Signed.unique {cs : List Char} {m n : Int} (hm : Signed cs m) (hn : Signed cs n) :
    m = n := by
  have hbound : 0 < m.natAbs + n.natAbs + 1 := by omega
  have hreadm := (signed?_eq_some_iff hbound).2 ⟨hm, by omega⟩
  have hreadn := (signed?_eq_some_iff hbound).2 ⟨hn, by omega⟩
  exact Option.some.inj (hreadm.symm.trans hreadn)

theorem Unsigned.unique {cs : List Char} {m n : Int} (hm : Unsigned cs m) (hn : Unsigned cs n) :
    m = n :=
  (Signed.unsigned hm).unique (.unsigned hn)

end Signpost.Text.Integer
