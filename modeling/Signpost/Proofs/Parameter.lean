import Signpost.Parameter
import Signpost.Proofs.Dict

/-!
# Checked parameters

What a key says about the source of its parameter, what a parameter looks like once it has been
checked by itself, and when no two parameters get in each other's way.
-/
namespace Signpost

namespace Source

theorem ofKeyChars_eq_uri_iff {key name : List Char} :
    ofKeyChars key = (.uri, name) ↔ key = '\x7b' :: name ++ ['\x7d'] := by
  constructor
  · intro h
    unfold ofKeyChars at h
    split at h
    next rest =>
      split at h
      next hlast =>
        obtain rfl : rest.dropLast = name := by simpa using h
        obtain ⟨init, rfl⟩ := List.getLast?_eq_some_iff.1 hlast
        simp
      next hlast => simp at h
    next rest => simp at h
    next rest => simp at h
    next => simp at h
  · rintro rfl
    simp [ofKeyChars]

theorem ofKeyChars_eq_query_iff {key name : List Char} :
    ofKeyChars key = (.query, name) ↔
      key = 'G' :: 'E' :: 'T' :: '@' :: name ∨ key = '?' :: name := by
  constructor
  · intro h
    unfold ofKeyChars at h
    split at h
    next rest => split at h <;> simp at h
    next rest => exact .inl (by simpa using h)
    next rest => exact .inr (by simpa using h)
    next => simp at h
  · rintro (rfl | rfl)
    · rfl
    · rfl

theorem name_of_form {key : List Char} (h : (ofKeyChars key).1 = .form) :
    (ofKeyChars key).2 = key := by
  unfold ofKeyChars at h ⊢
  split at h
  next rest =>
    split at h
    · simp at h
    next hlast => simp [hlast]
  next rest => simp at h
  next rest => simp at h
  next => rfl

/-- The key of the input that types a capture: its name in braces. -/
def captureKey (name : String) : String := "\x7b" ++ name ++ "\x7d"

theorem ofKey_eq_iff_ofKeyChars {key name : String} {source : Source} :
    ofKey key = (source, name) ↔ ofKeyChars key.toList = (source, name.toList) := by
  constructor
  · intro h
    rw [ofKey, Prod.mk.injEq] at h
    rw [← h.1, ← h.2, String.toList_ofList]
  · intro h
    simp [ofKey, h]

theorem ofKey_eq_uri_iff {key name : String} :
    ofKey key = (.uri, name) ↔ key = captureKey name := by
  have hkey : key = captureKey name ↔ key.toList = '\x7b' :: name.toList ++ ['\x7d'] := by
    rw [captureKey, ← String.toList_inj]
    simp
  rw [hkey, ← ofKeyChars_eq_uri_iff, ofKey_eq_iff_ofKeyChars]

theorem ofKey_eq_query_iff {key name : String} :
    ofKey key = (.query, name) ↔ key = "GET@" ++ name ∨ key = "?" ++ name := by
  have hkey : (key = "GET@" ++ name ∨ key = "?" ++ name) ↔
      key.toList = 'G' :: 'E' :: 'T' :: '@' :: name.toList ∨ key.toList = '?' :: name.toList := by
    rw [← String.toList_inj, ← String.toList_inj]
    simp
  rw [hkey, ← ofKeyChars_eq_query_iff, ofKey_eq_iff_ofKeyChars]

theorem captureKey_injective {name other : String} (h : captureKey name = captureKey other) :
    name = other := by
  have hname := ofKey_eq_uri_iff.2 (rfl : captureKey name = captureKey name)
  have hother := ofKey_eq_uri_iff.2 h
  exact congrArg Prod.snd (hname.symm.trans hother)

theorem ofKey_of_form {key : String} (h : (ofKey key).1 = .form) : (ofKey key).2 = key := by
  simpa [ofKey] using congrArg String.ofList (name_of_form h)

/-- What a key says by its shape: a name in braces, a name after a mark, or else itself. -/
inductive Spelled : String → Source → String → Prop where
  | braces (name : String) : Spelled (captureKey name) .uri name
  | get (name : String) : Spelled ("GET@" ++ name) .query name
  | mark (name : String) : Spelled ("?" ++ name) .query name
  | plain {key : String} (braces : ∀ name, key ≠ captureKey name)
      (get : ∀ name, key ≠ "GET@" ++ name) (mark : ∀ name, key ≠ "?" ++ name) :
      Spelled key .form key

theorem ofKey_eq_iff {key name : String} {source : Source} :
    ofKey key = (source, name) ↔ Spelled key source name := by
  constructor
  · intro h
    cases source with
    | uri =>
      obtain rfl := ofKey_eq_uri_iff.1 h
      exact .braces name
    | query =>
      rcases ofKey_eq_query_iff.1 h with rfl | rfl
      · exact .get name
      · exact .mark name
    | form =>
      have hname : key = name := by
        rw [← ofKey_of_form (congrArg Prod.fst h), h]
      subst hname
      have hshape : ∀ name, ofKey key ≠ (.uri, name) ∧ ofKey key ≠ (.query, name) := by simp [h]
      simp only [ne_eq, ofKey_eq_uri_iff, ofKey_eq_query_iff, not_or] at hshape
      exact .plain (fun name => (hshape name).1) (fun name => (hshape name).2.1)
        fun name => (hshape name).2.2
  · intro h
    cases h with
    | braces name => exact ofKey_eq_uri_iff.2 rfl
    | get name => exact ofKey_eq_query_iff.2 (.inl rfl)
    | mark name => exact ofKey_eq_query_iff.2 (.inr rfl)
    | plain braces get mark =>
      rcases hkey : ofKey key with ⟨source, name⟩
      cases source with
      | uri => exact absurd (ofKey_eq_uri_iff.1 hkey) (braces name)
      | query =>
        rcases ofKey_eq_query_iff.1 hkey with heq | heq
        · exact absurd heq (get name)
        · exact absurd heq (mark name)
      | form =>
        have hname := ofKey_of_form (congrArg Prod.fst hkey)
        rw [hkey] at hname
        rw [← show name = key from hname]

end Source

namespace Parameter

/-- An input passes its own check if it has a name, a type and a name outside, and is not an
optional capture. -/
theorem input_eq_ok_iff {key : String} {raw : Manifest.Param} {p : Parameter} :
    input key raw = .ok p ↔
      (Source.ofKey key).2 ≠ "" ∧ ∃ spec rename,
        ParamType.parse raw.typeText = .ok spec ∧
        renameOf (Source.ofKey key).1 key raw = some rename ∧
        ¬ ((Source.ofKey key).1 = .uri ∧ spec.optional = true) ∧
        p = { source := (Source.ofKey key).1, name := (Source.ofKey key).2,
              typeText := raw.typeText, validator := spec.name, arguments := spec.arguments,
              rename, optional := spec.optional, info := raw.info } := by
  rcases hkey : Source.ofKey key with ⟨source, name⟩
  simp only [input, hkey]
  constructor
  · intro h
    split at h
    · cases h
    next hname =>
      split at h
      · cases h
      next spec hparse =>
        split at h
        · cases h
        next rename hrename =>
          split at h
          · cases h
          next hopt => exact ⟨hname, spec, rename, hparse, hrename, hopt, (Except.ok.inj h).symm⟩
  · intro hright
    obtain ⟨hname, spec, rename, hparse, hrename, hopt, rfl⟩ := hright
    rw [if_neg hname, hparse]
    simp only [hrename, if_neg hopt]

/-- The source and the name of a checked input are those that its key gives. -/
theorem ofKey_of_input {key : String} {raw : Manifest.Param} {p : Parameter}
    (h : input key raw = .ok p) : Source.ofKey key = (p.source, p.name) := by
  obtain ⟨-, spec, rename, -, -, -, rfl⟩ := input_eq_ok_iff.1 h
  rfl

theorem optional_of_uri {key : String} {raw : Manifest.Param} {p : Parameter}
    (h : input key raw = .ok p) (hs : p.source = .uri) : p.optional = false := by
  obtain ⟨-, spec, rename, -, -, hopt, rfl⟩ := input_eq_ok_iff.1 h
  simpa using fun ho => hopt ⟨hs, ho⟩

/-- The name outside is never empty. -/
theorem rename_ne_empty {key : String} {raw : Manifest.Param} {p : Parameter}
    (h : input key raw = .ok p) : p.rename ≠ "" := by
  obtain ⟨hname, spec, rename, -, hrename, -, rfl⟩ := input_eq_ok_iff.1 h
  unfold renameOf at hrename
  split at hrename
  next explicit hexplicit =>
    obtain rfl : explicit = rename := by simpa using hrename
    have := (Option.filter_eq_some_iff.1 hexplicit).2
    simpa using this
  next hform =>
    obtain rfl : key = rename := by simpa using hrename
    rwa [Source.ofKey_of_form hform] at hname
  next => simp at hrename

/-- An output passes its own check if it passes that of an input and is a field of the body that is
always present. -/
theorem output_eq_ok_iff {key : String} {raw : Manifest.Param} {p : Parameter} :
    output key raw = .ok p ↔ input key raw = .ok p ∧ p.source = .form ∧ p.optional = false := by
  constructor
  · intro h
    unfold output at h
    split at h
    · cases h
    next hform =>
      split at h
      · cases h
      next q hq =>
        split at h
        · cases h
        next hopt =>
          obtain rfl := Except.ok.inj h
          obtain ⟨-, spec, rename, -, -, -, rfl⟩ := input_eq_ok_iff.1 hq
          exact ⟨hq, by simpa using hform, by simpa using hopt⟩
  · intro hright
    obtain ⟨hp, hform, hopt⟩ := hright
    have hsource : (Source.ofKey key).1 = .form := by
      obtain ⟨-, spec, rename, -, -, -, rfl⟩ := input_eq_ok_iff.1 hp
      exact hform
    simp [output, hsource, hp, hopt]

/-- No two parameters clash if no two of them share a name outside and no key is the name outside
of another one. -/
theorem firstClash_eq_none_iff {ps : Dict Parameter} :
    firstClash ps = none ↔
      ∀ key p other q, ps.get? key = some p → ps.get? other = some q → key ≠ other →
        p.rename ≠ q.rename ∧ key ≠ q.rename := by
  simp only [firstClash, List.findSome?_eq_none_iff, Option.map_eq_none_iff, List.find?_eq_none,
    Dict.get?_eq_some_iff, clashes]
  constructor
  · intro h key p other q hp hq hne
    simpa [hne] using h _ hp _ hq
  · rintro h ⟨key, p⟩ hp ⟨other, q⟩ hq
    by_cases hne : key = other
    · simp [hne]
    · simpa [hne] using h key p other q hp hq hne

end Parameter

end Signpost
