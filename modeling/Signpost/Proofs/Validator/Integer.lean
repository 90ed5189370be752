import Signpost.Proofs.Text.Integer
import Signpost.Validator.Builtin

/-!
# The types of integers

`int` and `uint` take no arguments. Each accepts the JSON integers that 64 bits hold with and
without a sign, and their decimal texts, and gives the integer; it accepts nothing else.
-/
namespace Signpost.Validator

open Json Text

/-- The raw values that give an integer: the integer itself, as a JSON number, and its texts. -/
inductive Gives (Text : List Char → Int → Prop) : Value → Int → Prop where
  | number (n : Int) : Gives Text (.number (.integer n)) n
  | text {s : String} {n : Int} (written : Text s.toList n) : Gives Text (.string s) n

theorem gives_number_iff {Text : List Char → Int → Prop} {m n : Int} :
    Gives Text (.number (.integer m)) n ↔ m = n := by
  constructor
  · intro h
    cases h
    rfl
  · rintro rfl
    exact .number m

theorem gives_string_iff {Text : List Char → Int → Prop} {s : String} {n : Int} :
    Gives Text (.string s) n ↔ Text s.toList n := by
  constructor
  · intro h
    cases h with
    | text written => exact written
  · exact .text

/-- Neither a number with a fraction nor a value of another kind gives an integer. -/
theorem not_gives {Text : List Char → Int → Prop} {raw : Value} {n : Int}
    (hnumber : ∀ m, raw ≠ .number (.integer m)) (hstring : ∀ s, raw ≠ .string s) :
    ¬ Gives Text raw n := by
  intro h
  cases h with
  | number => exact hnumber n rfl
  | text => exact hstring _ rfl

/-- The conversion accepts the integers of a range, as numbers and in their texts, and gives the
integer. It accepts nothing else. -/
def AcceptsIntegers (convert : Conversion) (Text : List Char → Int → Prop) (least greatest : Int) :
    Prop :=
  ∀ raw w, convert raw = some w ↔
    ∃ n, Gives Text raw n ∧ (least ≤ n ∧ n ≤ greatest) ∧ w = .ofInt n

theorem acceptsIntegers_toInt :
    AcceptsIntegers toInt Integer.Signed (-Int.pow 2 63) (Int.pow 2 63 - 1) := by
  intro raw w
  have hbound : 0 < Nat.pow 2 63 := by decide
  have hcast : ((Nat.pow 2 63 : Nat) : Int) = Int.pow 2 63 := rfl
  have hlt : ∀ n : Int, n < Int.pow 2 63 ↔ n ≤ Int.pow 2 63 - 1 := by omega
  unfold toInt
  split
  next m =>
    simp only [gives_number_iff, exists_eq_left', hlt, Option.ite_none_right_eq_some,
      Option.some.injEq, eq_comm (a := w)]
  next s =>
    simp only [Option.map_eq_some_iff, Integer.signed?_eq_some_iff hbound, gives_string_iff, hcast,
      hlt, and_assoc, eq_comm (a := w)]
  next hnumber hstring =>
    have hnone : ∀ n, ¬ Gives Integer.Signed raw n := fun n => not_gives hnumber hstring
    simp [hnone]

theorem acceptsIntegers_toUint :
    AcceptsIntegers toUint Integer.Unsigned 0 (Int.pow 2 64 - 1) := by
  intro raw w
  have hcast : ((Nat.pow 2 64 : Nat) : Int) = Int.pow 2 64 := rfl
  have hlt : ∀ n : Int, n < Int.pow 2 64 ↔ n ≤ Int.pow 2 64 - 1 := by omega
  unfold toUint
  split
  next m =>
    simp only [gives_number_iff, exists_eq_left', hlt, Option.ite_none_right_eq_some,
      Option.some.injEq, eq_comm (a := w)]
  next s =>
    simp only [Option.map_eq_some_iff, Integer.unsigned?_eq_some_iff, gives_string_iff, ← hlt]
    constructor
    · rintro ⟨n, ⟨text, hn⟩, rfl⟩
      exact ⟨n, text, by omega, rfl⟩
    · rintro ⟨n, text, ⟨hpos, hn⟩, rfl⟩
      obtain ⟨m, rfl⟩ := Int.eq_ofNat_of_zero_le hpos
      exact ⟨m, ⟨text, by omega⟩, rfl⟩
  next hnumber hstring =>
    have hnone : ∀ n, ¬ Gives Integer.Unsigned raw n := fun n => not_gives hnumber hstring
    simp [hnone]

namespace AcceptsIntegers

variable {convert : Conversion} {Text : List Char → Int → Prop} {least greatest : Int}

/-- A text that writes one integer is read as this, if it is in the range. -/
theorem of_text (hconvert : AcceptsIntegers convert Text least greatest) {cs : List Char} {n : Int}
    (h : Text cs n) (hunique : ∀ m, Text cs m → m = n) :
    convert (.string (.ofList cs)) =
      if least ≤ n ∧ n ≤ greatest then some (.ofInt n) else none := by
  refine Option.ext fun w => ?_
  rw [hconvert]
  simp only [gives_string_iff, String.toList_ofList]
  split
  next hrange =>
    rw [Option.some.injEq]
    constructor
    · rintro ⟨m, hm, -, rfl⟩
      rw [hunique m hm]
    · rintro rfl
      exact ⟨n, h, hrange, rfl⟩
  next hrange =>
    refine ⟨?_, nofun⟩
    rintro ⟨m, hm, hmrange, -⟩
    exact absurd (hunique m hm ▸ hmrange) hrange

theorem of_notText (hconvert : AcceptsIntegers convert Text least greatest) {cs : List Char}
    (h : ∀ n, ¬ Text cs n) : convert (.string (.ofList cs)) = none := by
  rw [Option.eq_none_iff_forall_ne_some]
  intro w hw
  obtain ⟨n, hn, -⟩ := (hconvert _ w).1 hw
  rw [gives_string_iff, String.toList_ofList] at hn
  exact h n hn

end AcceptsIntegers

theorem isSome_plain_iff {convert : Conversion} {arguments : List String} :
    (plain convert arguments).isSome ↔ arguments = [] := by
  cases arguments <;> simp [plain]

/-- The digits of a number, with zeros before them. -/
def padded (zeros n : Nat) : List Char := List.replicate zeros '0' ++ Nat.toDigits 10 n

theorem numeral_padded (zeros n : Nat) : Integer.Numeral (padded zeros n) n :=
  (Integer.Numeral.toDigits n).zeros_append zeros

theorem toUint_padded (zeros n : Nat) :
    toUint (.string (.ofList (padded zeros n))) =
      if n < Nat.pow 2 64 then some (.ofNat n) else none := by
  have hcast : ((Nat.pow 2 64 : Nat) : Int) = Int.pow 2 64 := rfl
  have htext : Integer.Unsigned (padded zeros n) n := .bare (numeral_padded zeros n)
  rw [acceptsIntegers_toUint.of_text htext fun m hm => hm.unique htext]
  exact if_congr (by omega) rfl rfl

theorem toInt_padded (zeros n : Nat) :
    toInt (.string (.ofList (padded zeros n))) =
      if n < Nat.pow 2 63 then some (.ofNat n) else none := by
  have hcast : ((Nat.pow 2 63 : Nat) : Int) = Int.pow 2 63 := rfl
  have htext : Integer.Signed (padded zeros n) n := .unsigned (.bare (numeral_padded zeros n))
  rw [acceptsIntegers_toInt.of_text htext fun m hm => hm.unique htext]
  exact if_congr (by omega) rfl rfl

theorem toInt_minus_padded (zeros n : Nat) :
    toInt (.string (.ofList ('-' :: padded zeros n))) =
      if n ≤ Nat.pow 2 63 then some (.ofInt (-n)) else none := by
  have hcast : ((Nat.pow 2 63 : Nat) : Int) = Int.pow 2 63 := rfl
  have hpos : 0 < Nat.pow 2 63 := by decide
  have htext : Integer.Signed ('-' :: padded zeros n) (-n) := .minus (numeral_padded zeros n)
  rw [acceptsIntegers_toInt.of_text htext fun m hm => hm.unique htext]
  exact if_congr (by omega) rfl rfl

theorem toUint_minus (cs : List Char) : toUint (.string (.ofList ('-' :: cs))) = none :=
  acceptsIntegers_toUint.of_notText fun _ hn => Integer.ne_minus_of_unsigned hn cs rfl

/-- The types `int` and `uint` take no arguments. They accept exactly the integers of their range,
as JSON numbers or as decimal texts, and give the integer, with however many zeros its text begins.
Only `int` takes a minus sign, also before a zero. -/
theorem integers_exact :
    (∀ arguments, (Registry.builtin.resolve "int" arguments).isSome ↔ arguments = []) ∧
    (∀ arguments, (Registry.builtin.resolve "uint" arguments).isSome ↔ arguments = []) ∧
    ∃ int uint, Registry.builtin.resolve "int" [] = some int ∧
      Registry.builtin.resolve "uint" [] = some uint ∧
      AcceptsIntegers int Integer.Signed (-Int.pow 2 63) (Int.pow 2 63 - 1) ∧
      AcceptsIntegers uint Integer.Unsigned 0 (Int.pow 2 64 - 1) ∧
      (∀ zeros n, uint (.string (.ofList (padded zeros n))) =
        if n < Nat.pow 2 64 then some (.ofNat n) else none) ∧
      (∀ zeros n, int (.string (.ofList (padded zeros n))) =
        if n < Nat.pow 2 63 then some (.ofNat n) else none) ∧
      (∀ zeros n, int (.string (.ofList ('-' :: padded zeros n))) =
        if n ≤ Nat.pow 2 63 then some (.ofInt (-n)) else none) ∧
      (∀ zeros n, uint (.string (.ofList ('-' :: padded zeros n))) = none) ∧
      int (.string "-0") = some (.ofInt 0) ∧ uint (.string "-0") = none := by
  refine ⟨fun _ => isSome_plain_iff, fun _ => isSome_plain_iff, toInt, toUint, rfl, rfl,
    acceptsIntegers_toInt, acceptsIntegers_toUint, ?_, ?_, ?_, ?_, ?_, ?_⟩
  · exact toUint_padded
  · exact toInt_padded
  · exact toInt_minus_padded
  · exact fun zeros n => toUint_minus (padded zeros n)
  · exact toInt_minus_padded 0 0
  · exact toUint_minus ['0']

end Signpost.Validator
