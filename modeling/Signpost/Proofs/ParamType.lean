import Signpost.ParamType
import Signpost.Proofs.Text.Blank

/-!
# How types are written

The texts that are types, said without the reader: a mark, a name and a text in parentheses, of
which the mark and the text may be left out. The reader accepts these texts alone, and it tells the
mark, the name and what stands in the parentheses.
-/
namespace Signpost.ParamType

open Text

/-- The mark of optional parameters, with blanks after it. -/
inductive IsMark : Bool → List Char → Prop where
  | required : IsMark false []
  | optional {blanks : List Char} (blank : ∀ c ∈ blanks, isBlank c = true) :
      IsMark true ('?' :: blanks)

/-- A text in parentheses, with blanks before it. -/
inductive IsEnclosed : Option (List Char) → List Char → Prop where
  | nothing : IsEnclosed none []
  | text {blanks inner : List Char} (blank : ∀ c ∈ blanks, isBlank c = true)
      (free : ∀ c ∈ inner, isParenthesis c = false) :
      IsEnclosed (some inner) (blanks ++ '(' :: inner ++ [')'])

/-- A type as it is written, apart from blanks around it. -/
structure Spelled (raw : String) (optional : Bool) (name : List Char)
    (inner : Option (List Char)) : Prop where
  text_eq : ∃ mark list, IsMark optional mark ∧ IsEnclosed inner list ∧
    trim raw.toList = mark ++ (name ++ list)
  nonempty : name ≠ []
  chars : ∀ c ∈ name, isNameChar c = true

theorem isName_iff {cs : List Char} :
    isName cs = true ↔ cs ≠ [] ∧ ∀ c ∈ cs, isNameChar c = true := by
  simp [isName]

theorem toNat_of_isNameChar {c : Char} (h : isNameChar c = true) :
    48 ≤ c.toNat ∧ c.toNat ≤ 122 ∧ c.toNat ≠ 63 := by
  have hupper : c.isUpper = decide (65 ≤ c.toNat ∧ c.toNat ≤ 90) := rfl
  have hlower : c.isLower = (decide (97 ≤ c.toNat) && decide (c.toNat ≤ 122)) := rfl
  have hdigit : c.isDigit = (decide (48 ≤ c.toNat) && decide (c.toNat ≤ 57)) := rfl
  have halphanum : c.isAlphanum = (c.isUpper || c.isLower || c.isDigit) := rfl
  simp only [isNameChar, halphanum, hupper, hlower, hdigit, Bool.or_eq_true, Bool.and_eq_true,
    decide_eq_true_eq, beq_iff_eq] at h
  rcases h with ((h | h) | h) | rfl
  · omega
  · omega
  · omega
  · decide

theorem isBlank_of_isNameChar {c : Char} (h : isNameChar c = true) : isBlank c = false := by
  have hrange := toNat_of_isNameChar h
  simp only [isBlank, Bool.or_eq_false_iff, Bool.and_eq_false_iff, decide_eq_false_iff_not,
    beq_eq_false_iff_ne]
  omega

theorem isParenthesis_of_isNameChar {c : Char} (h : isNameChar c = true) :
    isParenthesis c = false := by
  have hrange := toNat_of_isNameChar h
  simp only [isParenthesis, Bool.or_eq_false_iff, beq_eq_false_iff_ne]
  constructor
  · rintro rfl
    simp at hrange
  · rintro rfl
    simp at hrange

theorem isParenthesis_of_isBlank {c : Char} (h : isBlank c = true) : isParenthesis c = false := by
  rw [← Bool.not_eq_true]
  intro hparenthesis
  rcases (by simpa [isParenthesis] using hparenthesis : c = '(' ∨ c = ')') with rfl | rfl
  · exact absurd h (by decide)
  · exact absurd h (by decide)

theorem enclosed?_eq_some_iff {afterOpen inner : List Char} :
    enclosed? afterOpen = some inner ↔
      afterOpen = inner ++ [')'] ∧ ∀ c ∈ inner, isParenthesis c = false := by
  constructor
  · intro h
    simp only [enclosed?, Option.ite_none_right_eq_some, Bool.and_eq_true, decide_eq_true_eq,
      Option.some.injEq] at h
    obtain ⟨⟨hlast, hfree⟩, rfl⟩ := h
    obtain ⟨init, rfl⟩ := List.getLast?_eq_some_iff.1 hlast
    exact ⟨by simp, by simpa using hfree⟩
  · intro hright
    obtain ⟨rfl, hfree⟩ := hright
    have hany : inner.any isParenthesis = false := by simpa using hfree
    simp [enclosed?, hany]

theorem split_of_open {before : List Char} (h : '(' ∉ before) (afterOpen : List Char) :
    split (before ++ '(' :: afterOpen) =
      match enclosed? afterOpen with
      | some inner => .ok (trimEnd before, argumentsOf inner)
      | none => .error .unbalanced := by
  have hbefore : ∀ c ∈ before, decide (c ≠ '(') = true :=
    fun c hc => decide_eq_true fun heq => h (heq ▸ hc)
  have hdrop : (before ++ '(' :: afterOpen).dropWhile (· ≠ '(') = '(' :: afterOpen := by
    rw [List.dropWhile_append_of_pos hbefore]
    simp
  have htake : (before ++ '(' :: afterOpen).takeWhile (· ≠ '(') = before := by
    rw [List.takeWhile_append_of_pos hbefore]
    simp
  cases henclosed : enclosed? afterOpen with
  | none => simp only [split, hdrop, henclosed]
  | some inner => simp only [split, hdrop, htake, henclosed]

theorem split_of_notMem {body : List Char} (h : '(' ∉ body) :
    split body = if body.contains ')' then .error .unbalanced else .ok (body, []) := by
  have hdrop : body.dropWhile (· ≠ '(') = [] :=
    List.dropWhile_eq_nil_iff.2 fun c hc => decide_eq_true fun heq => h (heq ▸ hc)
  simp only [split, hdrop]

theorem notMem_of_isParenthesis {cs : List Char} (h : ∀ c ∈ cs, isParenthesis c = false) {c : Char}
    (hc : isParenthesis c = true) : c ∉ cs := by
  intro hmem
  simp [h c hmem] at hc

/-- A type without its mark is a name, and a text in parentheses if there is one. -/
theorem split_eq_ok_iff {body name : List Char} {arguments : List String}
    (hne : name ≠ []) (hchars : ∀ c ∈ name, isNameChar c = true) :
    split body = .ok (name, arguments) ↔ ∃ inner list, IsEnclosed inner list ∧
      body = name ++ list ∧ arguments = (inner.map argumentsOf).getD [] := by
  have hname : ∀ c ∈ name, isParenthesis c = false :=
    fun c hc => isParenthesis_of_isNameChar (hchars c hc)
  constructor
  · intro h
    by_cases hopen : '(' ∈ body
    · obtain ⟨before, afterOpen, rfl, hbefore⟩ := List.eq_append_cons_of_mem hopen
      rw [split_of_open hbefore] at h
      cases henclosed : enclosed? afterOpen with
      | none => simp [henclosed] at h
      | some inner =>
        obtain ⟨rfl, hfree⟩ := enclosed?_eq_some_iff.1 henclosed
        obtain ⟨rfl, rfl⟩ : trimEnd before = name ∧ argumentsOf inner = arguments := by
          simpa [henclosed] using h
        obtain ⟨blanks, hbefore, hblank⟩ := exists_eq_trimEnd_append before
        have hbody : trimEnd before ++ (blanks ++ '(' :: inner ++ [')']) =
            (trimEnd before ++ blanks) ++ '(' :: (inner ++ [')']) := by simp
        refine ⟨some inner, _, .text hblank hfree, ?_, rfl⟩
        rw [hbody, ← hbefore]
    · rw [split_of_notMem hopen] at h
      split at h
      · cases h
      · obtain ⟨rfl, rfl⟩ : body = name ∧ [] = arguments := by simpa using h
        exact ⟨none, [], .nothing, by simp, rfl⟩
  · intro hright
    obtain ⟨inner, list, hlist, rfl, rfl⟩ := hright
    cases hlist with
    | nothing =>
      rw [List.append_nil, split_of_notMem (notMem_of_isParenthesis hname rfl)]
      have hclose : ')' ∉ name := notMem_of_isParenthesis hname rfl
      simp [hclose]
    | @text blanks inner blank free =>
      have hbefore : ∀ c ∈ name ++ blanks, isParenthesis c = false := by
        intro c hc
        rcases List.mem_append.1 hc with hc | hc
        · exact hname c hc
        · exact isParenthesis_of_isBlank (blank c hc)
      have hbody : name ++ (blanks ++ '(' :: inner ++ [')']) =
          (name ++ blanks) ++ '(' :: (inner ++ [')']) := by simp
      have hlast : ∀ c, name.getLast? = some c → isBlank c = false :=
        fun c hc => isBlank_of_isNameChar (hchars c (List.mem_of_getLast? hc))
      rw [hbody, split_of_open (notMem_of_isParenthesis hbefore rfl),
        enclosed?_eq_some_iff.2 ⟨rfl, free⟩, trimEnd_append hlast blank]
      rfl

theorem ofBody_eq_ok_iff {optional : Bool} {body : List Char} {t : ParamType} :
    ofBody optional body = .ok t ↔ t.optional = optional ∧
      ∃ name inner list, (name ≠ [] ∧ ∀ c ∈ name, isNameChar c = true) ∧
        IsEnclosed inner list ∧ body = name ++ list ∧ t.name = String.ofList name ∧
        t.arguments = (inner.map argumentsOf).getD [] := by
  constructor
  · intro h
    unfold ofBody at h
    split at h
    · cases h
    · split at h
      · cases h
      next name arguments hsplit =>
        split at h
        next hname =>
          obtain rfl := Except.ok.inj h
          obtain ⟨hne, hchars⟩ := isName_iff.1 hname
          obtain ⟨inner, list, hlist, hbody, harguments⟩ := (split_eq_ok_iff hne hchars).1 hsplit
          exact ⟨rfl, name, inner, list, ⟨hne, hchars⟩, hlist, hbody, rfl, harguments⟩
        · cases h
  · intro hright
    obtain ⟨rfl, name, inner, list, hname, hlist, rfl, htext, harguments⟩ := hright
    have hsplit := (split_eq_ok_iff hname.1 hname.2).2 ⟨inner, list, hlist, rfl, harguments⟩
    have hne : (name ++ list).isEmpty = false := by simp [hname.1]
    simp only [ofBody, hne, hsplit, isName_iff.2 hname, ← htext]
    simp

/-- A text is read as a type exactly if it is written as one. -/
theorem parse_eq_ok_iff {raw : String} {t : ParamType} :
    parse raw = .ok t ↔ ∃ name inner, Spelled raw t.optional name inner ∧
      t.name = String.ofList name ∧ t.arguments = (inner.map argumentsOf).getD [] := by
  constructor
  · intro h
    unfold parse at h
    split at h
    next rest htrim =>
      obtain ⟨hoptional, name, inner, list, hname, hlist, hbody, htext, harguments⟩ :=
        ofBody_eq_ok_iff.1 h
      obtain ⟨blanks, hrest, hblank⟩ := exists_eq_append_trimStart rest
      rw [hbody] at hrest
      rw [hoptional]
      exact ⟨name, inner, ⟨⟨_, list, .optional hblank, hlist, by rw [htrim, hrest]; rfl⟩,
        hname.1, hname.2⟩, htext, harguments⟩
    next =>
      obtain ⟨hoptional, name, inner, list, hname, hlist, hbody, htext, harguments⟩ :=
        ofBody_eq_ok_iff.1 h
      rw [hoptional]
      exact ⟨name, inner, ⟨⟨_, list, .required, hlist, hbody⟩, hname.1, hname.2⟩, htext,
        harguments⟩
  · intro hright
    obtain ⟨name, inner, ⟨⟨mark, list, hmark, hlist, htrim⟩, hne, hchars⟩, htext, harguments⟩ :=
      hright
    have hbody : ofBody t.optional (name ++ list) = .ok t :=
      ofBody_eq_ok_iff.2 ⟨rfl, name, inner, list, ⟨hne, hchars⟩, hlist, rfl, htext, harguments⟩
    obtain ⟨c, rest, rfl⟩ := List.exists_cons_of_ne_nil hne
    have hc := hchars c (by simp)
    generalize hoptional : t.optional = optional at hmark hbody
    cases hmark with
    | required =>
      have hmark : c ≠ '?' := by
        rintro rfl
        exact (toNat_of_isNameChar hc).2.2 rfl
      unfold parse
      rw [htrim]
      simpa [hmark] using hbody
    | @optional blanks blank =>
      have hhead : ∀ d, (c :: (rest ++ list)).head? = some d → isBlank d = false := by
        intro d hd
        obtain rfl : c = d := by simpa using hd
        exact isBlank_of_isNameChar hc
      have hstart := trimStart_append blank hhead
      unfold parse
      rw [htrim]
      simpa [hstart] using hbody

end Signpost.ParamType
