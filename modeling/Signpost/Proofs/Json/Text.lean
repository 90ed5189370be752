import Signpost.Proofs.Json.Scan

/-!
# Texts of values

The scanner takes each character of a written string back as it was, whether it has been escaped or
not, and the digits of a number tell the number. So different strings and different numbers have
different texts.
-/
namespace Signpost.Json

theorem writesChar_escapeChar (c : Char) : WritesChar c (escapeChar c) := by
  have hnat : ∀ n, c.toNat = n → c = Char.ofNat n := fun n hn => by rw [← hn, Char.ofNat_toNat]
  unfold escapeChar
  split_ifs with hquote hbackslash hnewline hreturn htab hbell hfeed hcontrol
  · subst hquote; exact .short (by decide)
  · subst hbackslash; exact .short (by decide)
  · subst hnewline; exact .short (by decide)
  · subst hreturn; exact .short (by decide)
  · subst htab; exact .short (by decide)
  · rw [hnat 8 hbell]; exact .short (by decide)
  · rw [hnat 12 hfeed]; exact .short (by decide)
  · have hfirst : c.toNat / 0x1000 % 16 = 0 := by omega
    have hsecond : c.toNat / 0x100 % 16 = 0 := by omega
    have hthird : c.toNat / 0x10 % 16 = c.toNat / 16 := by omega
    refine .unicode (by omega) ⟨false, false, false, false, ?_⟩
    rw [hfirst, hsecond, hthird]
    rfl
  · exact .raw hquote hbackslash (by omega)

theorem writesToken_stringChars (s : String) : WritesToken (.string s) (stringChars s) := by
  have hchars : List.Forall₂ WritesChar s.toList (s.toList.map escapeChar) := by
    rw [List.forall₂_map_right_iff, List.forall₂_same]
    exact fun c _ => writesChar_escapeChar c
  rw [stringChars, List.flatMap_def]
  exact .string hchars

theorem stringChars_injective {s s' : String} (h : stringChars s = stringChars s') : s = s' := by
  have hscan := scan_of_lexes (Lexes.of_token (writesToken_stringChars s))
  rw [h, scan_of_lexes (Lexes.of_token (writesToken_stringChars s'))] at hscan
  simpa using hscan.symm

theorem toDigits_injective {m n : Nat} (h : Nat.toDigits 10 m = Nat.toDigits 10 n) : m = n := by
  rw [← Nat.ofDigitChars_ten_toDigits (n := m), h, Nat.ofDigitChars_ten_toDigits]

theorem ofNat_injective {m n : Nat} (h : Value.ofNat m = Value.ofNat n) : m = n := by
  have hcast : (m : Int) = n := by simpa [Value.ofNat] using h
  omega

theorem chars_ofNat (n : Nat) : (Value.ofNat n).chars = Nat.toDigits 10 n := by
  have hneg : ¬ (n : Int) < 0 := by omega
  simp [Value.ofNat, Value.chars, Number.chars, intChars, hneg]

theorem text_ofNat (n : Nat) : (Value.ofNat n).text = toString n := by
  rw [Value.text, chars_ofNat, Nat.toString_eq_ofList_toDigits]

end Signpost.Json
