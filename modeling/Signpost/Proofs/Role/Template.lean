import Mathlib.Data.List.Basic
import Signpost.Role.Template

/-!
# Templates and direct substitution

`substitute` reads a role from the left and replaces its references at once, without parts and
positions. Writing the parts of a template one after another gives the same text, whatever is
written for each capture; with the names themselves it gives the role back.
-/
namespace Signpost

open Json

/-- The text of a part, with a given text for each capture. -/
def Part.write (text : String → String) : Part → String
  | .literal s => s
  | .capture name => text name

@[simp] theorem Part.write_literal (text : String → String) (s : String) :
    (Part.literal s).write text = s := rfl

@[simp] theorem Part.write_capture (text : String → String) (name : String) :
    (Part.capture name).write text = text name := rfl

@[simp] theorem Part.text_literal (s : String) : (Part.literal s).text = s := rfl

@[simp] theorem Part.text_capture (name : String) : (Part.capture name).text = name := rfl

theorem Part.text_eq_write (p : Part) : p.text = p.write id := by
  cases p <;> rfl

namespace Template

/-- What a reference to a name stands for: the text of the captured value, or the name itself. -/
def valueText (values : Dict Value) (name : String) : String :=
  ((values.get? name).map roleText).getD name

/-- The capture that an opening bracket refers to if `cs` follows it: one whose name has no `]` and
stands before the first `]`. -/
def referenced? (names : List String) (cs : List Char) : Option String :=
  names.find? fun name => ']' ∉ name.toList && (name.toList ++ [']']).isPrefixOf cs

/-- A role in which each reference is replaced by a text for the capture. What has been put in is
not read again. -/
def substitute (names : List String) (text : String → String) : List Char → List Char
  | [] => []
  | c :: rest =>
    if c = '[' then
      match referenced? names rest with
      | some name => c :: (text name).toList ++ substitute names text (rest.drop name.toList.length)
      | none => c :: substitute names text rest
    else c :: substitute names text rest
termination_by cs => cs.length
decreasing_by all_goals simp; try omega

theorem token?_append {token : List Char} (h : ']' ∉ token) (rest : List Char) :
    token? (token ++ ']' :: rest) = some token := by
  have hpos : ∀ c ∈ token, decide (c ≠ ']') = true := by
    intro c hc
    have : c ≠ ']' := fun heq => h (heq ▸ hc)
    simpa using this
  unfold token?
  rw [if_pos (by simp), List.takeWhile_append_of_pos hpos]
  simp

theorem token?_eq_some_iff {cs token : List Char} :
    token? cs = some token ↔ ']' ∉ token ∧ token ++ [']'] <+: cs := by
  constructor
  · intro h
    have hmem : ']' ∈ cs := by
      by_contra hn
      simp [token?, hn] at h
    obtain ⟨before, rest, rfl, hn⟩ := List.eq_append_cons_of_mem hmem
    rw [token?_append hn] at h
    obtain rfl := Option.some.inj h
    exact ⟨hn, rest, by simp⟩
  · intro hright
    obtain ⟨hn, rest, rfl⟩ := hright
    rw [List.append_assoc]
    exact token?_append hn rest

/-- The scan of a role and the direct reading find the same references. -/
theorem referenced?_eq_some_iff {names : List String} {cs : List Char} {name : String} :
    referenced? names cs = some name ↔ name ∈ names ∧ token? cs = some name.toList := by
  constructor
  · intro h
    have hp := List.find?_some h
    simp only [Bool.and_eq_true, decide_eq_true_eq, List.isPrefixOf_iff_prefix] at hp
    exact ⟨List.mem_of_find?_eq_some h, token?_eq_some_iff.2 hp⟩
  · intro hright
    obtain ⟨hmem, htoken⟩ := hright
    have hp := token?_eq_some_iff.1 htoken
    cases hfound : referenced? names cs with
    | none =>
      have := List.find?_eq_none.1 hfound name hmem
      simp [hp] at this
    | some other =>
      have ho := List.find?_some hfound
      simp only [Bool.and_eq_true, decide_eq_true_eq, List.isPrefixOf_iff_prefix] at ho
      have heq := (token?_eq_some_iff.2 ho).symm.trans htoken
      rw [String.toList_injective (Option.some.inj heq)]

theorem write_literalPart (text : String → String) (latest : List Char) :
    (literalPart latest).flatMap (fun p => (p.write text).toList) = latest.reverse := by
  unfold literalPart
  split
  next h => simp_all
  next h => simp

/-- The parts that are scanned after `latest`, written one after another. -/
theorem write_scan (names : List String) (text : String → String) (skip : Nat)
    (latest cs : List Char) :
    (scan names.contains skip latest cs).flatMap (fun p => (p.write text).toList) =
      latest.reverse ++ substitute names text (cs.drop skip) := by
  fun_induction scan names.contains skip latest cs with
  | case1 skip latest => simp [write_literalPart, substitute]
  | case2 skip latest c rest ih => simpa using ih
  | case3 latest rest token htoken hname ih =>
    have href : referenced? names rest = some (String.ofList token) :=
      referenced?_eq_some_iff.2 ⟨by simpa using hname, by simpa using htoken⟩
    simp [write_literalPart, substitute, href, ih]
  | case4 latest rest token htoken hname ih =>
    have href : referenced? names rest = none := by
      rw [Option.eq_none_iff_forall_ne_some]
      intro name h
      obtain ⟨hmem, ht⟩ := referenced?_eq_some_iff.1 h
      obtain rfl : token = name.toList := Option.some.inj (htoken.symm.trans ht)
      simp [hmem] at hname
    simp [substitute, href, ih]
  | case5 latest rest htoken ih =>
    have href : referenced? names rest = none := by
      rw [Option.eq_none_iff_forall_ne_some]
      intro name h
      have ht := (referenced?_eq_some_iff.1 h).2
      simp [htoken] at ht
    simp [substitute, href, ih]
  | case6 latest c rest hopen ih => simp [substitute, hopen, ih]

/-- Nothing of a role is lost: its parts, with references written as their names, make it up. -/
theorem text_scan (isCapture : String → Bool) (skip : Nat) (latest cs : List Char) :
    (scan isCapture skip latest cs).flatMap (fun p => p.text.toList) =
      latest.reverse ++ cs.drop skip := by
  have hliteral : ∀ cs, (literalPart cs).flatMap (fun p => p.text.toList) = cs.reverse :=
    fun cs => by simpa only [Part.text_eq_write] using write_literalPart id cs
  fun_induction scan isCapture skip latest cs with
  | case1 skip latest => simp [hliteral]
  | case2 skip latest c rest ih => simpa using ih
  | case3 latest rest token htoken hname ih =>
    obtain ⟨-, tail, rfl⟩ := token?_eq_some_iff.1 htoken
    rw [List.flatMap_append, List.flatMap_cons, hliteral, ih]
    simp
  | case4 latest rest token htoken hname ih => simpa using ih
  | case5 latest rest htoken ih => simpa using ih
  | case6 latest c rest hopen ih => simpa using ih

theorem fill_eq_write (values : Dict Value) (p : Part) :
    fill values p = p.write (valueText values) := by
  cases p with
  | literal s => rfl
  | capture name => cases h : values.get? name <;> simp [fill, valueText, h]

/-- The parts of a template without references do not depend on the texts of captures. -/
theorem write_of_isStatic {t : Template} (h : t.isStatic) (text other : String → String)
    {p : Part} (hp : p ∈ t.parts) : p.write text = p.write other := by
  cases p with
  | literal s => rfl
  | capture name =>
    have hcap : name ∈ t.captures := List.mem_filterMap.2 ⟨_, hp, rfl⟩
    rw [isStatic, List.isEmpty_iff] at h
    simp [h] at hcap

theorem join_text_compile (raw : String) (isCapture : String → Bool) :
    String.join ((compile raw isCapture).parts.map Part.text) = raw := by
  apply String.toList_injective
  rw [String.toList_join, List.flatMap_map]
  exact text_scan isCapture 0 [] raw.toList

/-- Every template is rendered part by part, also one without references. -/
theorem render_eq_join (raw : String) (isCapture : String → Bool) (values : Dict Value) :
    (compile raw isCapture).render values =
      String.join ((compile raw isCapture).parts.map (Part.write (valueText values))) := by
  unfold render
  split
  next h =>
    have hsame : (compile raw isCapture).parts.map (Part.write (valueText values)) =
        (compile raw isCapture).parts.map Part.text :=
      List.map_congr_left fun p hp => by rw [Part.text_eq_write, write_of_isStatic h _ id hp]
    rw [hsame, join_text_compile]
    rfl
  next h => rw [funext (fill_eq_write values)]

/-- A rendered template is the role with its references replaced by the captured values. -/
theorem render_compile (raw : String) (names : List String) (values : Dict Value) :
    (compile raw names.contains).render values =
      String.ofList (substitute names (valueText values) raw.toList) := by
  apply String.toList_injective
  rw [render_eq_join, String.toList_join, List.flatMap_map, String.toList_ofList]
  exact write_scan names (valueText values) 0 [] raw.toList

/-- A template refers to captures alone. -/
theorem mem_names_of_mem_scan {isCapture : String → Bool} {skip : Nat} {latest cs : List Char}
    {name : String} (h : .capture name ∈ scan isCapture skip latest cs) :
    isCapture name = true := by
  have hlit (cs : List Char) : Part.capture name ∉ literalPart cs := by
    unfold literalPart
    split <;> simp
  fun_induction scan isCapture skip latest cs with
  | case1 skip latest => exact absurd h (hlit latest)
  | case2 skip latest c rest ih => exact ih h
  | case3 latest rest token htoken hname ih =>
    rcases List.mem_append.1 h with h | h
    · exact absurd h (hlit _)
    · rcases List.mem_cons.1 h with heq | h
      · obtain rfl : name = String.ofList token := by simpa using heq
        exact hname
      · exact ih h
  | case4 latest rest token htoken hname ih => exact ih h
  | case5 latest rest htoken ih => exact ih h
  | case6 latest c rest hopen ih => exact ih h

theorem mem_of_mem_captures {raw : String} {names : List String} {name : String}
    (h : name ∈ (compile raw names.contains).captures) : name ∈ names := by
  obtain ⟨p, hp, hname⟩ := List.mem_filterMap.1 h
  cases p with
  | literal s => simp [Part.name?] at hname
  | capture other =>
    obtain rfl : other = name := by simpa [Part.name?] using hname
    simpa using mem_names_of_mem_scan hp

end Template

end Signpost
