import Signpost.Proofs.Role.Template

/-!
# How roles are read

A role is read from the left: plain text up to the first opening bracket that is followed by the
name of a capture and a closing one, then the reference, then the rest from the closing bracket on.
So nothing is lost, each reference stands between its brackets, and none is missed that does not
begin inside the name of an earlier one.
-/
namespace Signpost

open Json

/-- The characters of parts, references being written as their names. -/
def Part.chars (parts : List Part) : List Char := parts.flatMap fun p => p.text.toList

@[simp] theorem Part.chars_nil : Part.chars [] = [] := rfl

@[simp] theorem Part.chars_cons (p : Part) (parts : List Part) :
    Part.chars (p :: parts) = p.text.toList ++ Part.chars parts := rfl

namespace Template

variable {isCapture : String → Bool}

/-- An opening bracket refers to a capture if the text after it begins with the name of one and a
closing bracket, the first there is. -/
def Refers (isCapture : String → Bool) (after token : List Char) : Prop :=
  token? after = some token ∧ isCapture (String.ofList token) = true

/-- No bracket of a text refers to a capture when `after` follows. -/
def Plain (isCapture : String → Bool) (text after : List Char) : Prop :=
  ∀ before rest token, text = before ++ '[' :: rest → ¬ Refers isCapture (rest ++ after) token

/-- The parts that a text is read as. -/
inductive Reading (isCapture : String → Bool) : List Char → List Part → Prop where
  | plain {text : List Char} (quiet : Plain isCapture text []) :
      Reading isCapture text (literalPart text.reverse)
  | reference {before token rest : List Char} {parts : List Part}
      (quiet : Plain isCapture before ('[' :: token ++ ']' :: rest))
      (closed : ']' ∉ token) (captured : isCapture (String.ofList token) = true)
      (tail : Reading isCapture (']' :: rest) parts) :
      Reading isCapture (before ++ '[' :: token ++ ']' :: rest)
        (.literal (String.ofList (before ++ ['['])) :: .capture (String.ofList token) :: parts)

theorem plain_nil (after : List Char) : Plain isCapture [] after := by
  intro before rest token h
  simp at h

/-- Plain text goes on as long as no bracket refers to a capture. -/
theorem Plain.concat {text after : List Char} {c : Char} (h : Plain isCapture text (c :: after))
    (hc : c = '[' → ∀ token, ¬ Refers isCapture after token) :
    Plain isCapture (text ++ [c]) after := by
  intro before rest token hsplit hrefers
  rcases List.eq_nil_or_concat' rest with rfl | ⟨init, last, rfl⟩
  · obtain ⟨-, hlast⟩ := List.append_inj' hsplit rfl
    exact hc (by simpa using hlast) token hrefers
  · rw [← List.cons_append, ← List.append_assoc] at hsplit
    obtain ⟨rfl, hlast⟩ := List.append_inj' hsplit rfl
    obtain rfl : c = last := by simpa using hlast
    exact h before init token rfl (by simpa using hrefers)

/-- The scan reads a text, given that the text before it is plain. -/
theorem reading_scan (skip : Nat) (latest cs : List Char)
    (h : Plain isCapture latest.reverse (cs.drop skip)) :
    Reading isCapture (latest.reverse ++ cs.drop skip) (scan isCapture skip latest cs) := by
  fun_induction scan isCapture skip latest cs with
  | case1 skip latest =>
    rw [List.drop_nil] at h ⊢
    simpa using Reading.plain h
  | case2 skip latest c rest ih => exact ih h
  | case3 latest rest token htoken hname ih =>
    obtain ⟨hclosed, tail, rfl⟩ := token?_eq_some_iff.1 htoken
    have hdrop : (token ++ [']'] ++ tail).drop token.length = ']' :: tail := by simp
    rw [hdrop, List.reverse_nil, List.nil_append] at ih
    have hread := Reading.reference (by simpa using h) hclosed hname (ih (plain_nil _))
    simpa [literalPart] using hread
  | case4 latest rest token htoken hname ih =>
    have hnot : ∀ other, ¬ Refers isCapture rest other := by
      rintro other ⟨hother, hcaptured⟩
      obtain rfl := Option.some.inj (htoken.symm.trans hother)
      exact hname hcaptured
    simpa using ih (by simpa using Plain.concat h fun _ => hnot)
  | case5 latest rest htoken ih =>
    have hnot : ∀ other, ¬ Refers isCapture rest other := by
      rintro other ⟨hother, -⟩
      simp [htoken] at hother
    simpa using ih (by simpa using Plain.concat h fun _ => hnot)
  | case6 latest c rest hopen ih =>
    simpa using ih (by simpa using Plain.concat h fun hc => absurd hc hopen)

theorem reading_compile (raw : String) (isCapture : String → Bool) :
    Reading isCapture raw.toList (compile raw isCapture).parts :=
  reading_scan 0 [] raw.toList (plain_nil _)

theorem literal_ne_empty_of_literalPart {latest : List Char} {text : String}
    (h : Part.literal text ∈ literalPart latest) : text ≠ "" := by
  unfold literalPart at h
  split at h
  · simp at h
  next hne =>
    obtain rfl : text = String.ofList latest.reverse := by simpa using h
    simpa using hne

theorem Reading.literal_ne_empty {cs : List Char} {parts : List Part}
    (h : Reading isCapture cs parts) {text : String} (ht : Part.literal text ∈ parts) :
    text ≠ "" := by
  induction h with
  | plain quiet => exact literal_ne_empty_of_literalPart ht
  | reference quiet closed captured tail ih =>
    rcases List.mem_cons.1 ht with heq | ht
    · obtain rfl := Part.literal.inj heq
      simp
    · exact ih (by simpa using ht)

/-- A reference to `name` starts at a position. -/
def ReferenceAt (parts : List Part) (position : Nat) (name : String) : Prop :=
  ∃ before after, parts = before ++ .capture name :: after ∧ (Part.chars before).length = position

theorem referenceAt_cons_iff {p : Part} {parts : List Part} {position : Nat} {name : String} :
    ReferenceAt (p :: parts) position name ↔
      p = .capture name ∧ position = 0 ∨
        ∃ n, ReferenceAt parts n name ∧ position = p.text.toList.length + n := by
  constructor
  · intro hleft
    obtain ⟨before, after, hparts, rfl⟩ := hleft
    cases before with
    | nil => exact .inl ⟨(List.cons.inj hparts).1, rfl⟩
    | cons q before =>
      obtain ⟨rfl, rfl⟩ := List.cons.inj hparts
      exact .inr ⟨_, ⟨before, after, rfl, rfl⟩, by simp⟩
  · intro hright
    rcases hright with ⟨rfl, rfl⟩ | ⟨n, ⟨before, after, rfl, rfl⟩, rfl⟩
    · exact ⟨[], parts, rfl, rfl⟩
    · exact ⟨p :: before, after, rfl, by simp⟩

theorem not_referenceAt_literalPart {latest : List Char} {position : Nat} {name : String} :
    ¬ ReferenceAt (literalPart latest) position name := by
  rintro ⟨before, after, hparts, -⟩
  have hmem : Part.capture name ∈ literalPart latest := by simp [hparts]
  unfold literalPart at hmem
  split at hmem <;> simp at hmem

/-- Each reference stands between an opening bracket and the next closing one. -/
theorem Reading.brackets_of_referenceAt {cs : List Char} {parts : List Part}
    (h : Reading isCapture cs parts) {position : Nat} {name : String}
    (hat : ReferenceAt parts position name) :
    isCapture name = true ∧ ']' ∉ name.toList ∧ ∃ before after,
      cs = before ++ '[' :: name.toList ++ ']' :: after ∧ position = before.length + 1 := by
  induction h generalizing position with
  | plain quiet => exact absurd hat not_referenceAt_literalPart
  | @reference before token rest parts quiet closed captured tail ih =>
    rcases referenceAt_cons_iff.1 hat with ⟨hliteral, -⟩ | ⟨n, hrest, rfl⟩
    · cases hliteral
    · rcases referenceAt_cons_iff.1 hrest with ⟨hcapture, rfl⟩ | ⟨m, hparts, rfl⟩
      · obtain rfl := Part.capture.inj hcapture
        exact ⟨captured, by simpa using closed, before, rest, by simp, by simp⟩
      · obtain ⟨hname, hclosed, inner, after, hcs, rfl⟩ := ih hparts
        refine ⟨hname, hclosed, before ++ '[' :: token ++ inner, after, ?_, ?_⟩
        · rw [hcs]
          simp
        · simp only [Part.text_literal, Part.text_capture, String.toList_ofList, List.length_append,
            List.length_cons, List.length_nil]
          omega

theorem referenceAt_first (first name : List Char) (parts : List Part) :
    ReferenceAt
      (.literal (String.ofList (first ++ ['['])) :: .capture (String.ofList name) :: parts)
      (first.length + 1) (String.ofList name) := by
  refine referenceAt_cons_iff.2 (.inr ⟨0, referenceAt_cons_iff.2 (.inl ⟨rfl, rfl⟩), ?_⟩)
  simp

theorem ReferenceAt.after_first {parts : List Part} {position : Nat} {other : String}
    (h : ReferenceAt parts position other) (first name : List Char) :
    ReferenceAt
      (.literal (String.ofList (first ++ ['['])) :: .capture (String.ofList name) :: parts)
      (first.length + 1 + name.length + position) other := by
  have hname := referenceAt_cons_iff.2
    (.inr ⟨position, h, rfl⟩ : Part.capture (String.ofList name) = .capture other ∧ _ ∨ _)
  refine referenceAt_cons_iff.2 (.inr ⟨_, hname, ?_⟩)
  simp
  omega

/-- Where an opening bracket may stand in a text with a bracketed name: before it, at its opening
bracket, inside the name, or from its closing bracket on. -/
theorem bracket_cases {first name rest before after : List Char}
    (h : first ++ '[' :: name ++ ']' :: rest = before ++ '[' :: after) :
    (∃ between, first = before ++ '[' :: between ∧
        after = between ++ ('[' :: name ++ ']' :: rest)) ∨
      (before = first ∧ after = name ++ ']' :: rest) ∨
      (first.length < before.length ∧ before.length ≤ first.length + name.length) ∨
      ∃ between, before = first ++ '[' :: name ++ between ∧
        ']' :: rest = between ++ '[' :: after := by
  rw [List.append_assoc, List.append_eq_append_iff] at h
  rcases h with ⟨as, rfl, h⟩ | ⟨bs, rfl, h⟩
  · cases as with
    | nil => exact .inr (.inl (by simp_all))
    | cons c as =>
      obtain ⟨rfl, htail⟩ := List.cons.inj h
      rcases List.append_eq_append_iff.1 htail with ⟨between, rfl, hrest⟩ | ⟨inner, rfl, hinner⟩
      · exact .inr (.inr (.inr ⟨between, by simp, hrest⟩))
      · cases inner with
        | nil => simp at hinner
        | cons c inner => exact .inr (.inr (.inl ⟨by simp, by simp⟩))
  · cases bs with
    | nil => exact .inr (.inl (by simp_all))
    | cons c bs =>
      obtain ⟨rfl, htail⟩ := List.cons.inj h
      exact .inl ⟨bs, rfl, htail⟩

/-- A bracket that refers to a capture opens a reference, or stands inside the name of an earlier
one. -/
theorem Reading.referenceAt_of_refers {cs : List Char} {parts : List Part}
    (h : Reading isCapture cs parts) {before after token : List Char}
    (hcs : cs = before ++ '[' :: after) (hrefers : Refers isCapture after token) :
    ReferenceAt parts (before.length + 1) (String.ofList token) ∨
      ∃ position other, ReferenceAt parts position other ∧ position ≤ before.length ∧
        before.length < position + other.toList.length := by
  induction h generalizing before with
  | plain quiet => exact absurd (by simpa using hrefers) (quiet before after token hcs)
  | @reference first name rest parts quiet closed captured tail ih =>
    rcases bracket_cases hcs with ⟨between, hfirst, rfl⟩ | ⟨rfl, rfl⟩ | ⟨hlt, hle⟩ |
      ⟨between, rfl, hrest⟩
    · exact absurd hrefers (quiet before between token hfirst)
    · -- The first closing bracket ends both names.
      obtain rfl : name = token :=
        Option.some.inj ((token?_append closed rest).symm.trans hrefers.1)
      exact .inl (referenceAt_first before name parts)
    · refine .inr ⟨_, _, referenceAt_first first name parts, hlt, ?_⟩
      rw [String.toList_ofList]
      omega
    · have hlength : (first ++ '[' :: name ++ between).length =
          first.length + 1 + name.length + between.length := by
        simp
        omega
      rcases ih hrest with hat | ⟨position, other, hat, hle, hlt⟩
      · refine .inl ?_
        rw [hlength]
        exact hat.after_first first name
      · refine .inr ⟨_, other, hat.after_first first name, ?_, ?_⟩
        · omega
        · omega

theorem render_of_no_values (raw : String) (isCapture : String → Bool) :
    (compile raw isCapture).render {} = raw := by
  have hnames : (compile raw isCapture).parts.map (Part.write (valueText {})) =
      (compile raw isCapture).parts.map Part.text :=
    List.map_congr_left fun p hp => by cases p <;> rfl
  rw [render_eq_join, hnames, join_text_compile]

/-- Compiling a role loses nothing of it and finds every reference. Written with their names, the
parts are the role; each reference stands between an opening bracket and the next closing one; and
every bracket before the name of a capture and a closing bracket opens a reference to it, unless it
stands inside the name of an earlier one. -/
theorem compile_lossless (raw : String) (isCapture : String → Bool) :
    String.join ((compile raw isCapture).parts.map Part.text) = raw ∧
    (compile raw isCapture).render {} = raw ∧
    (∀ text, Part.literal text ∈ (compile raw isCapture).parts → text ≠ "") ∧
    (∀ position name, ReferenceAt (compile raw isCapture).parts position name →
      isCapture name = true ∧ ']' ∉ name.toList ∧ ∃ before after,
        raw = before ++ "[" ++ name ++ "]" ++ after ∧ position = before.length + 1) ∧
    ∀ before name after, raw = before ++ "[" ++ name ++ "]" ++ after →
      isCapture name = true → ']' ∉ name.toList →
        ReferenceAt (compile raw isCapture).parts (before.length + 1) name ∨
          ∃ position other, ReferenceAt (compile raw isCapture).parts position other ∧
            position ≤ before.length ∧ before.length < position + other.length := by
  have hread := reading_compile raw isCapture
  refine ⟨join_text_compile raw isCapture, render_of_no_values raw isCapture,
    fun text => hread.literal_ne_empty, fun position name hat => ?_,
    fun before name after hraw hname hclosed => ?_⟩
  · obtain ⟨hname, hclosed, before, after, hraw, rfl⟩ := hread.brackets_of_referenceAt hat
    refine ⟨hname, hclosed, String.ofList before, String.ofList after, ?_, by simp⟩
    apply String.toList_injective
    simp [hraw]
  · have hsplit : raw.toList = before.toList ++ '[' :: (name.toList ++ ']' :: after.toList) := by
      simp [hraw]
    have hrefers : Refers isCapture (name.toList ++ ']' :: after.toList) name.toList :=
      ⟨token?_append hclosed _, by simpa using hname⟩
    simpa [String.length_toList] using hread.referenceAt_of_refers hsplit hrefers

/-- Brackets that open nothing stay in the literals around the reference. -/
example : (compile "a[[ID]][ID" (· = "ID")).parts =
    [.literal "a[[", .capture "ID", .literal "]][ID"] := by
  decide

end Template

end Signpost
