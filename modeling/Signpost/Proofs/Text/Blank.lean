import Signpost.Proofs.Text.Ends
import Signpost.Text.Blank

/-!
# Blanks at the ends of texts

A trimmed text and the blanks taken from it make up the text, and blanks put around a text that has
none at its ends are the ones that trimming takes away.
-/
namespace Signpost.Text

variable {cs blanks : List Char}

theorem trimEnd_append (hlast : ∀ c, cs.getLast? = some c → isBlank c = false)
    (hblanks : ∀ c ∈ blanks, isBlank c = true) : trimEnd (cs ++ blanks) = cs := by
  have hhead : ∀ c, cs.reverse.head? = some c → isBlank c = false := by
    simpa only [List.head?_reverse] using hlast
  have hreverse : ∀ c ∈ blanks.reverse, isBlank c = true := by simpa using hblanks
  rw [trimEnd, dropLastWhile, List.reverse_append, List.dropWhile_append_of_pos hreverse,
    dropWhile_eq_self hhead, List.reverse_reverse]

theorem trimStart_append (hblanks : ∀ c ∈ blanks, isBlank c = true)
    (hhead : ∀ c, cs.head? = some c → isBlank c = false) : trimStart (blanks ++ cs) = cs := by
  rw [trimStart, List.dropWhile_append_of_pos hblanks, dropWhile_eq_self hhead]

theorem exists_eq_append_trimStart (cs : List Char) :
    ∃ blanks, cs = blanks ++ trimStart cs ∧ ∀ c ∈ blanks, isBlank c = true :=
  exists_eq_append_dropWhile isBlank cs

theorem exists_eq_trimEnd_append (cs : List Char) :
    ∃ blanks, cs = trimEnd cs ++ blanks ∧ ∀ c ∈ blanks, isBlank c = true :=
  exists_eq_dropWhile_reverse_append isBlank cs

/-- A text without blanks at its ends. -/
abbrev Trimmed (cs : List Char) : Prop := Bare isBlank cs

theorem trimmed_trim (cs : List Char) : Trimmed (trim cs) := bare_dropEnds isBlank cs

theorem trim_of_trimmed (h : Trimmed cs) : trim cs = cs := dropEnds_of_bare h

/-- Trimming finds the text without blanks at its ends that the text has blanks around. -/
theorem trim_eq_iff {ds : List Char} :
    trim cs = ds ↔ Trimmed ds ∧ ∃ before after, cs = before ++ ds ++ after ∧
      (∀ c ∈ before, isBlank c = true) ∧ ∀ c ∈ after, isBlank c = true :=
  dropEnds_eq_iff

theorem trim_eq_nil_iff : trim cs = [] ↔ ∀ c ∈ cs, isBlank c = true := dropEnds_eq_nil_iff

end Signpost.Text
