import Signpost.Proofs.Dict
import Signpost.Proofs.Service.Headers
import Signpost.Proofs.Text.Blank
import Signpost.Proofs.Text.Utf8
import Signpost.Settings

/-!
# Keys that callers can present

A caller presents a key behind `Bearer `, and blanks around the key do not count. So a key of the
settings gives its roles if it has no blanks at its ends. One that has some is accepted, too, but
what the caller gets are the roles of the key without them, if there is one.
-/
namespace Signpost

open Text

namespace Headers

variable {headers : Headers} {value : List UInt8} {text : String}

theorem toNat_lt_of_isVisible {b : UInt8} (h : isVisible b = true) : b.toNat < 0x80 := by
  have hall : ∀ n < 256, isVisible (UInt8.ofNat n) = true → n < 0x80 := by decide +kernel
  exact hall b.toNat b.toNat_lt (by rwa [UInt8.ofNat_toNat])

/-- A value is the text whose bytes it has, if all of them are visible. -/
theorem text?_eq_some_iff :
    text? value = some text ↔
      (∀ b ∈ value, isVisible b = true) ∧ value = Utf8.encode text.toList := by
  simp only [text?, Option.ite_none_right_eq_some, List.all_eq_true, Option.some.injEq]
  refine and_congr_right fun hvisible => ?_
  have hencode := Utf8.encode_ascii fun b hb => toNat_lt_of_isVisible (hvisible b hb)
  constructor
  · rintro rfl
    rw [String.toList_ofList, hencode]
  · intro hvalue
    rw [hvalue] at hencode
    rw [hvalue, Utf8.encode_injective hencode, String.ofList_toList]

theorem bearer?_eq_some_iff {cs key : List Char} :
    bearer? cs = some key ↔ ∃ rest, cs = "Bearer ".toList ++ rest ∧ trim rest = key := by
  constructor
  · intro h
    unfold bearer? at h
    split at h
    next rest => exact ⟨rest, rfl, Option.some.inj h⟩
    next => cases h
  · rintro ⟨rest, rfl, rfl⟩
    rfl

/-- The first authorization header is `Bearer ` and the text, which can stand in a header. -/
structure Presents (headers : Headers) (text : String) : Prop where
  first : headers.first? "authorization" = some (Utf8.encode ("Bearer " ++ text).toList)
  visible : ∀ b ∈ Utf8.encode text.toList, isVisible b = true

theorem Presents.all_visible (h : headers.Presents text) :
    ∀ b ∈ Utf8.encode ("Bearer " ++ text).toList, isVisible b = true := by
  have hscheme : ∀ b ∈ Utf8.encode "Bearer ".toList, isVisible b = true := by decide +kernel
  rw [String.toList_append, Utf8.encode_append]
  exact List.forall_mem_append.2 ⟨hscheme, h.visible⟩

theorem Presents.unique {other : String} (h : headers.Presents text) (h' : headers.Presents other) :
    text = other := by
  have hbytes := Option.some.inj (h.first.symm.trans h'.first)
  have htexts := Utf8.encode_injective hbytes
  rw [String.toList_append, String.toList_append] at htexts
  exact String.toList_injective (List.append_cancel_left htexts)

theorem bearerKey?_eq_some_iff {key : String} :
    headers.bearerKey? = some key ↔
      ∃ text, headers.Presents text ∧ String.ofList (trim text.toList) = key := by
  simp only [bearerKey?, textOf?, Option.map_eq_some_iff, Option.bind_eq_some_iff,
    text?_eq_some_iff, bearer?_eq_some_iff]
  constructor
  · rintro ⟨_, ⟨sent, ⟨value, hfirst, hvisible, rfl⟩, rest, hsent, rfl⟩, rfl⟩
    have htext : "Bearer " ++ String.ofList rest = sent := by
      apply String.toList_injective
      simp [hsent]
    refine ⟨String.ofList rest, ⟨by rw [hfirst, htext], fun b hb => hvisible b ?_⟩, ?_⟩
    · rw [hsent, Utf8.encode_append]
      exact List.mem_append_right _ (by simpa using hb)
    · rw [String.toList_ofList]
  · rintro ⟨text, h, rfl⟩
    exact ⟨_, ⟨"Bearer " ++ text, ⟨_, h.first, h.all_visible, rfl⟩, text.toList,
      String.toList_append, rfl⟩, rfl⟩

end Headers

namespace ApiKeys

variable {keys : ApiKeys} {headers : Headers} {text : String}

theorem roles_of_presents (h : headers.Presents text) :
    keys.roles headers = (keys.get? (String.ofList (trim text.toList))).getD [] := by
  rw [roles, Headers.bearerKey?_eq_some_iff.2 ⟨text, h, rfl⟩]
  rfl

/-- Roles are given for a key that is presented and known. -/
theorem roles_eq_nil (h : ∀ text, headers.Presents text →
    keys.get? (String.ofList (trim text.toList)) = none) : keys.roles headers = [] := by
  by_cases hpresents : ∃ text, headers.Presents text
  · obtain ⟨text, htext⟩ := hpresents
    rw [roles_of_presents htext, h text htext]
    rfl
  · have hnone : headers.bearerKey? = none := by
      rw [Option.eq_none_iff_forall_ne_some]
      intro key hkey
      obtain ⟨text, htext, -⟩ := Headers.bearerKey?_eq_some_iff.1 hkey
      exact hpresents ⟨text, htext⟩
    rw [roles, hnone]
    rfl

end ApiKeys

namespace Settings

theorem validate_eq_ok_iff {s accepted : Settings} :
    s.validate = .ok accepted ↔ s.problems = [] ∧ accepted = s := by
  unfold validate
  split
  next h => simp [List.isEmpty_iff.1 h, eq_comm]
  next h => simp [List.isEmpty_iff.not.1 h]

/-- The empty text is no key of settings without problems. -/
theorem get?_empty_of_problems {s : Settings} (h : s.problems = []) :
    s.apiKeys.get? "" = none := by
  have hwhen : Problem.emptyApiKey.when (s.apiKeys.keys.any (· == "")) = [] := by
    simp only [problems, List.append_eq_nil_iff] at h
    exact h.1.1.2
  have hnot : "" ∉ s.apiKeys.keys := by simpa [Problem.when] using hwhen
  rw [Option.eq_none_iff_forall_ne_some]
  intro roles hroles
  exact hnot (Dict.mem_keys_iff.2 (by simp [hroles]))

/-- In settings that are accepted, a caller who presents a key gets its roles exactly if the key
without the blanks at its ends carries the same ones. So a key without such blanks always gives its
roles. A key of blanks alone gives none. Nor does a request without an authorization header, or
whose first one is not text, does not begin with `Bearer `, or presents what is no key. -/
theorem roles_of_key_iff {s accepted : Settings} (h : s.validate = .ok accepted) :
    (∀ key roles headers, accepted.apiKeys.get? key = some roles →
      Headers.Presents headers key →
      (accepted.apiKeys.roles headers = roles ↔
        (accepted.apiKeys.get? (String.ofList (trim key.toList))).getD [] = roles) ∧
      (Trimmed key.toList → accepted.apiKeys.roles headers = roles) ∧
      ((∀ c ∈ key.toList, isBlank c = true) → accepted.apiKeys.roles headers = [])) ∧
    ∀ headers : Headers,
      (headers.first? "authorization" = none ∨
        (∃ value, headers.first? "authorization" = some value ∧
          ∃ b ∈ value, Headers.isVisible b = false) ∨
        (∃ value, headers.first? "authorization" = some value ∧
          ¬ Utf8.encode "Bearer ".toList <+: value) ∨
        ∃ text, Headers.Presents headers text ∧
          accepted.apiKeys.get? (String.ofList (trim text.toList)) = none) →
      accepted.apiKeys.roles headers = [] := by
  obtain ⟨hproblems, rfl⟩ := validate_eq_ok_iff.1 h
  refine ⟨fun key roles headers hkey hpresents => ?_, fun headers hcases => ?_⟩
  · rw [ApiKeys.roles_of_presents hpresents]
    refine ⟨.rfl, fun htrimmed => ?_, fun hblank => ?_⟩
    · rw [trim_of_trimmed htrimmed, String.ofList_toList, hkey]
      rfl
    · rw [trim_eq_nil_iff.2 hblank, String.ofList_nil, get?_empty_of_problems hproblems]
      rfl
  · refine ApiKeys.roles_eq_nil fun text hpresents => ?_
    rcases hcases with hnone | ⟨value, hfirst, b, hb, hvisible⟩ | ⟨value, hfirst, hprefix⟩ |
      ⟨text', hpresents', hnone⟩
    · simp [hpresents.first] at hnone
    · obtain rfl := Option.some.inj (hpresents.first.symm.trans hfirst)
      rw [hpresents.all_visible b hb] at hvisible
      cases hvisible
    · obtain rfl := Option.some.inj (hpresents.first.symm.trans hfirst)
      rw [String.toList_append, Utf8.encode_append] at hprefix
      exact absurd (List.prefix_append _ _) hprefix
    · rwa [hpresents.unique hpresents']

/-- A key with a blank before it, and one without. -/
def paddedKeys : Settings := { apiKeys := .ofList [(" k", ["admin"]), ("k1", ["user[1]"])] }

def bearerOf (key : String) : Headers :=
  [("Authorization", Utf8.encode ("Bearer " ++ key).toList)]

theorem presents_bearerOf {key : String}
    (h : ∀ b ∈ Utf8.encode key.toList, Headers.isVisible b = true) :
    (bearerOf key).Presents key := by
  have hname : Headers.lowerCase "Authorization" = Headers.lowerCase "authorization" := by
    decide +kernel
  exact ⟨by simp [bearerOf, Headers.first?, hname], h⟩

theorem validate_paddedKeys : paddedKeys.validate = .ok paddedKeys :=
  validate_eq_ok_iff.2 ⟨by decide +kernel, rfl⟩

theorem roles_of_key_iff_plainKey :
    paddedKeys.validate = .ok paddedKeys ∧ (bearerOf "k1").Presents "k1" ∧
      paddedKeys.apiKeys.roles (bearerOf "k1") = ["user[1]"] := by
  have hpresents : (bearerOf "k1").Presents "k1" := presents_bearerOf (by decide +kernel)
  have htrimmed : Trimmed "k1".toList := dropEnds_eq_self_iff.1 (by decide +kernel)
  obtain ⟨hroles, -⟩ := roles_of_key_iff validate_paddedKeys
  exact ⟨validate_paddedKeys, hpresents,
    (hroles "k1" ["user[1]"] _ (by decide +kernel) hpresents).2.1 htrimmed⟩

/-- The key with a blank before it is accepted, and who presents it gets none of its roles. -/
theorem roles_paddedKey_lost :
    paddedKeys.validate = .ok paddedKeys ∧ paddedKeys.apiKeys.get? " k" = some ["admin"] ∧
      (bearerOf " k").Presents " k" ∧ paddedKeys.apiKeys.roles (bearerOf " k") = [] ∧
      paddedKeys.apiKeys.roles (bearerOf " k") ≠ ["admin"] := by
  have hroles : paddedKeys.apiKeys.roles (bearerOf " k") = [] := by decide +kernel
  exact ⟨validate_paddedKeys, by decide +kernel, presents_bearerOf (by decide +kernel), hroles,
    by simp [hroles]⟩

end Settings

end Signpost
