import Signpost.Role.Template
import Signpost.Validator.Builtin

/-!
# Truth values and numbers in roles

Truth values and numbers are written with letters, digits, signs and points. So inside a role the
text of such a value never ends the brackets that it stands in.
-/
namespace Signpost

open Json

/-- The text of a value does not close a bracket inside a role. -/
def Unbracketed (v : Value) : Prop := ']' ∉ (roleText v).toList

theorem bracket_notMem_toDigits (n : Nat) : ']' ∉ Nat.toDigits 10 n := by
  intro h
  have hdigit := Nat.isDigit_of_mem_toDigits (by decide) (by decide) h
  exact absurd hdigit (by decide)

theorem bracket_notMem_intChars (n : Int) : ']' ∉ intChars n := by
  have hdigits := bracket_notMem_toDigits n.natAbs
  unfold intChars
  split <;> simp [hdigits]

namespace Binary64

theorem bracket_notMem_positional {digits : List Char} (h : ']' ∉ digits) (exponent : Int) :
    ']' ∉ positional digits exponent := by
  have htake : ∀ n, ']' ∉ digits.take n := fun n hmem => h (List.mem_of_mem_take hmem)
  have hdrop : ∀ n, ']' ∉ digits.drop n := fun n hmem => h (List.mem_of_mem_drop hmem)
  unfold positional
  split
  · simp [h]
  · dsimp only
    split <;> simp [htake, hdrop]

theorem bracket_notMem_exponential {digits : List Char} (h : ']' ∉ digits) (exponent : Int) :
    ']' ∉ exponential digits exponent := by
  have htake : ∀ n, ']' ∉ digits.take n := fun n hmem => h (List.mem_of_mem_take hmem)
  have htail : ']' ∉ digits.tail := fun hmem => h (List.mem_of_mem_tail hmem)
  have hpower := bracket_notMem_toDigits exponent.natAbs
  unfold exponential
  dsimp only
  split <;> split <;> simp [htake, htail, hpower]

theorem bracket_notMem_chars (x : Binary64) : ']' ∉ x.chars := by
  have hdigits := bracket_notMem_toDigits x.shortest.digits
  have hpositional := bracket_notMem_positional hdigits
  have hexponential := bracket_notMem_exponential hdigits
  have hsign : ']' ∉ if x.negative then ['-'] else [] := by split <;> simp
  unfold chars
  dsimp only
  rw [List.mem_append, not_or]
  refine ⟨hsign, ?_⟩
  split
  · exact hpositional _
  · exact hexponential _

end Binary64

theorem unbracketed_bool (b : Bool) : Unbracketed (.bool b) := by
  cases b <;> simp [Unbracketed, roleText, Value.text, Value.chars]

theorem unbracketed_number (n : Number) : Unbracketed (.number n) := by
  have hchars : ']' ∉ n.chars := by
    cases n with
    | integer n => exact bracket_notMem_intChars n
    | float x => exact x.bracket_notMem_chars
  simpa [Unbracketed, roleText, Value.text, Value.chars] using hchars

namespace Validator

/-- The built-in types whose values are truth values and numbers. -/
def scalars : List Validator := [bool, int, uint, float]

theorem plain_eq_some_iff {convert convert' : Conversion} {arguments : List String} :
    plain convert arguments = some convert' ↔ arguments = [] ∧ convert = convert' := by
  simp [plain]

theorem bool_of_toBool {raw v : Value} (h : toBool raw = some v) : ∃ b, v = .bool b := by
  unfold toBool at h
  split at h
  · exact ⟨_, (Option.some.inj h).symm⟩
  · split at h
    · exact ⟨_, (Option.some.inj h).symm⟩
    · split at h
      · exact ⟨_, (Option.some.inj h).symm⟩
      · cases h
  · cases h

theorem number_of_toInt {raw v : Value} (h : toInt raw = some v) : ∃ n, v = .number n := by
  unfold toInt at h
  split at h
  · split at h
    · exact ⟨_, (Option.some.inj h).symm⟩
    · cases h
  · obtain ⟨n, -, rfl⟩ := Option.map_eq_some_iff.1 h
    exact ⟨_, rfl⟩
  · cases h

theorem number_of_toUint {raw v : Value} (h : toUint raw = some v) : ∃ n, v = .number n := by
  unfold toUint at h
  split at h
  · split at h
    · exact ⟨_, (Option.some.inj h).symm⟩
    · cases h
  · obtain ⟨n, -, rfl⟩ := Option.map_eq_some_iff.1 h
    exact ⟨_, rfl⟩
  · cases h

theorem number_of_toFloat {raw v : Value} (h : toFloat raw = some v) : ∃ n, v = .number n := by
  unfold toFloat at h
  split at h
  · obtain ⟨x, -, rfl⟩ := Option.map_eq_some_iff.1 h
    exact ⟨_, rfl⟩
  · exact ⟨_, (Option.some.inj h).symm⟩
  · obtain ⟨x, -, rfl⟩ := Option.map_eq_some_iff.1 h
    exact ⟨_, rfl⟩
  · cases h

theorem unbracketed_of_scalar {validator : Validator} (h : validator ∈ scalars)
    {arguments : List String} {convert : Conversion} (hconvert : validator arguments = some convert)
    {raw v : Value} (hv : convert raw = some v) : Unbracketed v := by
  simp only [scalars, List.mem_cons, List.not_mem_nil, or_false] at h
  rcases h with rfl | rfl | rfl | rfl
  · obtain ⟨-, rfl⟩ := plain_eq_some_iff.1 hconvert
    obtain ⟨b, rfl⟩ := bool_of_toBool hv
    exact unbracketed_bool b
  · obtain ⟨-, rfl⟩ := plain_eq_some_iff.1 hconvert
    obtain ⟨n, rfl⟩ := number_of_toInt hv
    exact unbracketed_number n
  · obtain ⟨-, rfl⟩ := plain_eq_some_iff.1 hconvert
    obtain ⟨n, rfl⟩ := number_of_toUint hv
    exact unbracketed_number n
  · obtain ⟨-, rfl⟩ := plain_eq_some_iff.1 hconvert
    obtain ⟨n, rfl⟩ := number_of_toFloat hv
    exact unbracketed_number n

end Validator

end Signpost
