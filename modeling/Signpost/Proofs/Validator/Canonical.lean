import Signpost.Endpoint.Match
import Signpost.Proofs.Validator.Integer
import Signpost.Proofs.Validator.Scalar
import Signpost.Role.Template

/-!
# Canonical texts of typed values

A typed value and the text that stands for it inside a role are accepted by the type as this very
value. So the text is canonical: truth values and integers have the same text only if they are the
same, however the raw values were written.
-/
namespace Signpost.Validator

open Json Text

theorem signed_intChars (n : Int) : Integer.Signed (intChars n) n := by
  have hrow := Integer.Numeral.toDigits n.natAbs
  unfold intChars
  split
  next hneg =>
    have habs : -(n.natAbs : Int) = n := by omega
    have htext := Integer.Signed.minus hrow
    rwa [habs] at htext
  next hpos =>
    have habs : (n.natAbs : Int) = n := by omega
    have htext := Integer.Signed.unsigned (.bare hrow)
    rwa [habs] at htext

theorem unsigned_intChars {n : Int} (h : 0 ≤ n) : Integer.Unsigned (intChars n) n := by
  have hrow := Integer.Numeral.toDigits n.natAbs
  have hneg : ¬ n < 0 := by omega
  have habs : (n.natAbs : Int) = n := by omega
  rw [intChars, if_neg hneg]
  have htext := Integer.Unsigned.bare hrow
  rwa [habs] at htext

theorem roleText_ofInt (n : Int) : roleText (.ofInt n) = .ofList (intChars n) := rfl

theorem roleText_bool (b : Bool) : roleText (.bool b) = if b then "true" else "false" := by
  cases b <;> rfl

/-- What the type accepts as a value it accepts again, from the value and from its text in a
role. -/
def Canonical (convert : Conversion) : Prop :=
  ∀ raw w, convert raw = some w → convert w = some w ∧ convert (.string (roleText w)) = some w

theorem AcceptsIntegers.canonical {convert : Conversion} {Text : List Char → Int → Prop}
    {least greatest : Int} (hconvert : AcceptsIntegers convert Text least greatest)
    (htext : ∀ n, least ≤ n → Text (intChars n) n) : Canonical convert := by
  intro raw w hw
  obtain ⟨n, -, hrange, rfl⟩ := (hconvert raw w).1 hw
  refine ⟨(hconvert _ _).2 ⟨n, .number n, hrange, rfl⟩, (hconvert _ _).2 ⟨n, ?_, hrange, rfl⟩⟩
  rw [gives_string_iff, roleText_ofInt, String.toList_ofList]
  exact htext n hrange.1

theorem canonical_toInt : Canonical toInt :=
  acceptsIntegers_toInt.canonical fun n _ => signed_intChars n

theorem canonical_toUint : Canonical toUint :=
  acceptsIntegers_toUint.canonical fun _ hn => unsigned_intChars hn

theorem canonical_toBool : Canonical toBool := by
  intro raw w hw
  obtain ⟨b, rfl⟩ := bool_of_toBool hw
  cases b with
  | true => exact ⟨rfl, rfl⟩
  | false => exact ⟨rfl, rfl⟩

theorem canonical_toText (length : Length) : Canonical (toText length) := by
  intro raw w hw
  unfold toText at hw
  split at hw
  next s =>
    split at hw
    next hadmits =>
      obtain rfl := Option.some.inj hw
      have haccept : toText length (.string s) = some (.string s) := by
        rw [toText, if_pos hadmits]
      exact ⟨haccept, haccept⟩
    next => cases hw
  next => cases hw

/-- The truth values and the integers. -/
inductive Exact : Value → Prop where
  | bool (b : Bool) : Exact (.bool b)
  | integer (n : Int) : Exact (.ofInt n)

theorem mem_intChars {c : Char} {n : Int} (h : c ∈ intChars n) :
    c = '-' ∨ Integer.isDigit c = true := by
  have hdigits := (Integer.Numeral.toDigits n.natAbs).all_isDigit
  unfold intChars at h
  split at h
  · rcases List.mem_cons.mp h with rfl | h
    · exact .inl rfl
    · exact .inr (hdigits c h)
  · exact .inr (hdigits c h)

/-- Both words have an `e`, which no integer has. -/
theorem roleText_bool_ne (b : Bool) (n : Int) : roleText (.bool b) ≠ roleText (.ofInt n) := by
  intro h
  have hmem : 'e' ∈ (roleText (.bool b)).toList := by
    rw [roleText_bool]
    cases b <;> decide
  rw [h, roleText_ofInt, String.toList_ofList] at hmem
  rcases mem_intChars hmem with h | h
  · exact absurd h (by decide)
  · exact absurd h (by decide)

theorem Exact.eq_of_roleText_eq {v w : Value} (hv : Exact v) (hw : Exact w)
    (h : roleText v = roleText w) : v = w := by
  cases hv with
  | bool b =>
    cases hw with
    | bool c => cases b <;> cases c <;> simp_all [roleText_bool]
    | integer n => exact absurd h (roleText_bool_ne b n)
  | integer m =>
    cases hw with
    | bool b => exact absurd h.symm (roleText_bool_ne b m)
    | integer n =>
      rw [roleText_ofInt, roleText_ofInt, String.ofList_inj] at h
      have htext := signed_intChars m
      rw [h] at htext
      rw [htext.unique (signed_intChars n)]

theorem AcceptsIntegers.exact {convert : Conversion} {Text : List Char → Int → Prop}
    {least greatest : Int} (hconvert : AcceptsIntegers convert Text least greatest) {raw v : Value}
    (h : convert raw = some v) : Exact v := by
  obtain ⟨n, -, -, rfl⟩ := (hconvert raw v).1 h
  exact .integer n

theorem exact_of_toBool {raw v : Value} (h : toBool raw = some v) : Exact v := by
  obtain ⟨b, rfl⟩ := bool_of_toBool h
  exact .bool b

def exactNames : List String := ["bool", "int", "uint"]

theorem exact_of_resolve {name : String} (h : name ∈ exactNames) {arguments : List String}
    {convert : Conversion} (hresolve : Registry.builtin.resolve name arguments = some convert)
    {raw v : Value} (hv : convert raw = some v) : Exact v := by
  simp only [exactNames, List.mem_cons, List.not_mem_nil, or_false] at h
  rcases h with rfl | rfl | rfl
  · obtain ⟨-, rfl⟩ := plain_eq_some_iff.1 hresolve
    exact exact_of_toBool hv
  · obtain ⟨-, rfl⟩ := plain_eq_some_iff.1 hresolve
    exact acceptsIntegers_toInt.exact hv
  · obtain ⟨-, rfl⟩ := plain_eq_some_iff.1 hresolve
    exact acceptsIntegers_toUint.exact hv

theorem canonical_of_resolve {name : String} (h : name ∈ "string" :: exactNames)
    {arguments : List String} {convert : Conversion}
    (hresolve : Registry.builtin.resolve name arguments = some convert) : Canonical convert := by
  simp only [exactNames, List.mem_cons, List.not_mem_nil, or_false] at h
  rcases h with rfl | rfl | rfl | rfl
  · obtain ⟨length, -, rfl⟩ := Option.map_eq_some_iff.1 hresolve
    exact canonical_toText length
  · obtain ⟨-, rfl⟩ := plain_eq_some_iff.1 hresolve
    exact canonical_toBool
  · obtain ⟨-, rfl⟩ := plain_eq_some_iff.1 hresolve
    exact canonical_toInt
  · obtain ⟨-, rfl⟩ := plain_eq_some_iff.1 hresolve
    exact canonical_toUint

theorem exact_of_convert {p : Parameter} (hp : p.validator ∈ exactNames) {raw v : Value}
    (hv : p.convert .builtin raw = some v) : Exact v := by
  obtain ⟨convert, hresolve, hconvert⟩ := Option.bind_eq_some_iff.1 hv
  exact exact_of_resolve hp hresolve hconvert

/-- What `bool`, `int`, `uint` and `string` make of a raw value they accept as itself, and also from
its text in a role. So the text is canonical: segments that parameters of the types `bool`, `int`
and `uint` accept have the same text in a role exactly if they denote the same value. -/
theorem role_texts_canonical :
    (∀ name ∈ ["bool", "int", "uint", "string"], ∀ arguments convert,
      Registry.builtin.resolve name arguments = some convert →
        ∀ raw w, convert raw = some w →
          convert w = some w ∧ convert (.string (roleText w)) = some w) ∧
    ∀ p q : Parameter, p.validator ∈ ["bool", "int", "uint"] →
      q.validator ∈ ["bool", "int", "uint"] →
        ∀ s t v w, p.convert .builtin (.string s) = some v →
          q.convert .builtin (.string t) = some w → (roleText v = roleText w ↔ v = w) := by
  constructor
  · intro name hname arguments convert hresolve
    refine canonical_of_resolve ?_ hresolve
    simp only [exactNames, List.mem_cons] at hname ⊢
    tauto
  · intro p q hp hq s t v w hv hw
    refine ⟨fun h => ?_, fun h => by rw [h]⟩
    exact (exact_of_convert hp hv).eq_of_roleText_eq (exact_of_convert hq hw) h

/-- A capture of a type without arguments. -/
def idOf (validator : String) : Parameter :=
  { source := .uri, name := "id", typeText := validator, validator, arguments := [],
    rename := "ID", optional := false, info := "" }

/-- What `int` makes of `+007` it makes of `7` as well, and `-7` is another resource. -/
theorem role_texts_canonical_seven :
    (∃ convert, Registry.builtin.resolve "int" [] = some convert ∧
      convert (.string "+007") = some (.ofInt 7) ∧ convert (.ofInt 7) = some (.ofInt 7) ∧
      convert (.string (roleText (.ofInt 7))) = some (.ofInt 7)) ∧
    (idOf "uint").convert .builtin (.string "007") = some (.ofInt 7) ∧
    (idOf "int").convert .builtin (.string "-7") = some (.ofInt (-7)) ∧
    roleText (.ofInt 7) ≠ roleText (.ofInt (-7)) := by
  have hplus : toInt (.string "+007") = some (.ofInt 7) := rfl
  have hunsigned : (idOf "uint").convert .builtin (.string "007") = some (.ofInt 7) := rfl
  have hminus : (idOf "int").convert .builtin (.string "-7") = some (.ofInt (-7)) := rfl
  have haccept := role_texts_canonical.1 "int" (by decide) [] toInt rfl _ _ hplus
  have htext := role_texts_canonical.2 (idOf "uint") (idOf "int") (by decide) (by decide)
    _ _ _ _ hunsigned hminus
  exact ⟨⟨toInt, rfl, hplus, haccept⟩, hunsigned, hminus, htext.not.2 (by simp [Value.ofInt])⟩

end Signpost.Validator
