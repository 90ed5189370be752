import Signpost.Proofs.ParamType
import Signpost.Proofs.Text.Pieces

/-!
# Types and their texts

Of a text in parentheses the reader takes what stands between its commas. A type whose parts can be
told apart in its text is read back from it, and the types that are read are these and no others.
-/
namespace Signpost.ParamType

open Text

/-- The arguments in a text in parentheses: the pieces between its commas, without the blanks at
their ends. A text that is left out or blank has none. -/
inductive IsList : Option (List Char) → List String → Prop where
  | absent : IsList none []
  | blank {inner : List Char} (blank : ∀ c ∈ inner, isBlank c = true) : IsList (some inner) []
  | pieces {pieces : List (List Char)} (nonempty : pieces ≠ [])
      (free : ∀ piece ∈ pieces, ',' ∉ piece)
      (solid : ∃ c ∈ [','].intercalate pieces, isBlank c = false) :
      IsList (some ([','].intercalate pieces)) (pieces.map fun piece => String.ofList (trim piece))

/-- A type whose text tells its parts apart. A single empty argument would be written as no
arguments are. -/
structure Printable (t : ParamType) : Prop where
  name_ne : t.name ≠ ""
  name_chars : ∀ c ∈ t.name.toList, isNameChar c = true
  trimmed : ∀ a ∈ t.arguments, Trimmed a.toList
  free : ∀ a ∈ t.arguments, ∀ c ∈ a.toList, c ≠ ',' ∧ isParenthesis c = false
  arguments_ne : t.arguments ≠ [""]

theorem argumentsOf_of_blank {inner : List Char} (h : ∀ c ∈ inner, isBlank c = true) :
    argumentsOf inner = [] := by
  rw [argumentsOf, if_pos (List.all_eq_true.2 h)]

theorem argumentsOf_of_solid {inner : List Char} (h : ∃ c ∈ inner, isBlank c = false) :
    argumentsOf inner = (cut ',' inner).map fun piece => String.ofList (trim piece) := by
  have hall : ¬ inner.all isBlank = true := by simpa using h
  rw [argumentsOf, if_neg hall]

theorem isList_argumentsOf (inner : List Char) : IsList (some inner) (argumentsOf inner) := by
  by_cases h : ∀ c ∈ inner, isBlank c = true
  · rw [argumentsOf_of_blank h]
    exact .blank h
  · have hsolid : ∃ c ∈ inner, isBlank c = false := by simpa using h
    have hlist : IsList (some ([','].intercalate (cut ',' inner))) _ :=
      .pieces (pieces_ne_nil _ _) (fun piece => notMem_of_mem_cut)
        (by rwa [intercalate_cut])
    rwa [intercalate_cut, ← argumentsOf_of_solid hsolid] at hlist

/-- The reader finds the arguments, whether there are parentheses or not. -/
theorem isList_iff {inner : Option (List Char)} {arguments : List String} :
    IsList inner arguments ↔ (inner.map argumentsOf).getD [] = arguments := by
  constructor
  · intro h
    cases h with
    | absent => rfl
    | blank blank => exact argumentsOf_of_blank blank
    | pieces nonempty free solid =>
      rw [Option.map_some, Option.getD_some, argumentsOf_of_solid solid,
        cut_intercalate nonempty free]
  · rintro rfl
    cases inner with
    | none => exact .absent
    | some inner => exact isList_argumentsOf inner

theorem trimmed_of_isList {inner : Option (List Char)} {arguments : List String}
    (h : IsList inner arguments) : ∀ a ∈ arguments, Trimmed a.toList := by
  cases h with
  | absent => simp
  | blank => simp
  | pieces => simp [trimmed_trim]

theorem mem_of_mem_trim {cs : List Char} {c : Char} (h : c ∈ trim cs) : c ∈ cs := by
  obtain ⟨-, before, after, hcs, -⟩ := trim_eq_iff.1 (rfl : trim cs = trim cs)
  rw [hcs]
  simp [h]

/-- No comma and nothing that the text in parentheses does not have stands in an argument. -/
theorem free_of_isList {inner : List Char} {arguments : List String}
    (h : IsList (some inner) arguments) :
    ∀ a ∈ arguments, ∀ c ∈ a.toList, c ≠ ',' ∧ c ∈ inner := by
  cases h with
  | blank => simp
  | @pieces pieces nonempty free =>
    intro a ha c hc
    obtain ⟨piece, hpiece, rfl⟩ := List.mem_map.1 ha
    have hmem : c ∈ piece := mem_of_mem_trim (by simpa using hc)
    refine ⟨?_, ?_⟩
    · rintro rfl
      exact free piece hpiece hmem
    · exact mem_intercalate_of_mem hpiece hmem

theorem ne_of_isList {inner : Option (List Char)} {arguments : List String}
    (h : IsList inner arguments) : arguments ≠ [""] := by
  cases h with
  | absent => simp
  | blank => simp
  | @pieces pieces nonempty free solid =>
    intro heq
    -- The only piece is the whole text, which would be blank.
    obtain ⟨piece, rfl, hpiece⟩ := List.map_eq_singleton_iff.1 heq
    have htrim : trim piece = [] := by simpa using hpiece
    obtain ⟨c, hc, hblank⟩ := solid
    rw [List.intercalate_singleton] at hc
    rw [trim_eq_nil_iff.1 htrim c hc] at hblank
    cases hblank

theorem printable_of_parse {raw : String} {t : ParamType} (h : parse raw = .ok t) :
    Printable t := by
  obtain ⟨name, inner, ⟨⟨mark, list, -, hlist, -⟩, hne, hchars⟩, hname, harguments⟩ :=
    parse_eq_ok_iff.1 h
  have hisList : IsList inner t.arguments := isList_iff.2 harguments.symm
  refine ⟨?_, ?_, trimmed_of_isList hisList, ?_, ne_of_isList hisList⟩
  · rw [hname]
    simpa using hne
  · simpa [hname] using hchars
  · cases hlist with
    | nothing => simp [harguments]
    | text blank free =>
      intro a ha c hc
      obtain ⟨hcomma, hmem⟩ := free_of_isList hisList a ha c hc
      exact ⟨hcomma, free c hmem⟩

/-- What the text of a type has in parentheses. -/
def inner (t : ParamType) : Option (List Char) :=
  if t.arguments = [] then none else some ([','].intercalate (t.arguments.map String.toList))

/-- A list of arguments is not blank: it has a comma, or an argument that is not empty. -/
theorem exists_solid {t : ParamType} (h : Printable t) (hne : t.arguments ≠ []) :
    ∃ c ∈ [','].intercalate (t.arguments.map String.toList), isBlank c = false := by
  cases harguments : t.arguments with
  | nil => exact absurd harguments hne
  | cons a rest =>
    cases rest with
    | nil =>
      have ha : a.toList ≠ [] := by
        intro hempty
        obtain rfl : a = "" := String.toList_eq_nil_iff.1 hempty
        exact h.arguments_ne harguments
      obtain ⟨c, cs, hcs⟩ := List.exists_cons_of_ne_nil ha
      have htrimmed := h.trimmed a (by simp [harguments])
      exact ⟨c, by simp [hcs], htrimmed.head c (by simp [hcs])⟩
    | cons b rest => exact ⟨',', by simp [List.intercalate_cons_cons], by decide⟩

theorem isList_inner {t : ParamType} (h : Printable t) : IsList t.inner t.arguments := by
  unfold inner
  split
  next hnil =>
    rw [hnil]
    exact .absent
  next hne =>
    have hpieces : t.arguments.map String.toList ≠ [] := by simpa using hne
    have hfree : ∀ piece ∈ t.arguments.map String.toList, ',' ∉ piece := by
      intro piece hpiece hcomma
      obtain ⟨a, ha, rfl⟩ := List.mem_map.1 hpiece
      exact (h.free a ha ',' hcomma).1 rfl
    have htrim : ∀ a ∈ t.arguments, String.ofList (trim a.toList) = a := by
      intro a ha
      rw [trim_of_trimmed (h.trimmed a ha), String.ofList_toList]
    have hmap : (t.arguments.map String.toList).map (fun a => String.ofList (trim a)) =
        t.arguments := by
      rw [List.map_map]
      exact (List.map_congr_left htrim).trans (List.map_id _)
    have hlist := IsList.pieces hpieces hfree (exists_solid h hne)
    rwa [hmap] at hlist

theorem isEnclosed_inner {t : ParamType} (h : Printable t) :
    IsEnclosed t.inner
      (if t.arguments = [] then [] else
        '(' :: [','].intercalate (t.arguments.map String.toList) ++ [')']) := by
  unfold inner
  split
  · exact .nothing
  · have hnone : ∀ c ∈ ([] : List Char), isBlank c = true := by simp
    refine .text hnone fun c hc => ?_
    rcases mem_of_mem_intercalate hc with hc | ⟨piece, hpiece, hc⟩
    · obtain rfl : c = ',' := by simpa using hc
      rfl
    · obtain ⟨a, ha, rfl⟩ := List.mem_map.1 hpiece
      exact (h.free a ha c hc).2

theorem toList_text (t : ParamType) :
    t.text.toList = (if t.optional then ['?'] else []) ++ (t.name.toList ++
      if t.arguments = [] then [] else
        '(' :: [','].intercalate (t.arguments.map String.toList) ++ [')']) := by
  unfold text
  cases t.optional <;> cases t.arguments <;> simp [String.toList_intercalate]

theorem trimmed_text {t : ParamType} (h : Printable t) : Trimmed t.text.toList := by
  obtain ⟨first, rest, hname⟩ : ∃ first rest, t.name.toList = first :: rest :=
    List.exists_cons_of_ne_nil (by simpa using h.name_ne)
  constructor
  · intro c hc
    rw [toList_text, hname] at hc
    cases hoptional : t.optional with
    | true =>
      obtain rfl : '?' = c := by simpa [hoptional] using hc
      decide
    | false =>
      obtain rfl : first = c := by simpa [hoptional] using hc
      exact isBlank_of_isNameChar (h.name_chars first (by simp [hname]))
  · intro c hc
    rw [toList_text] at hc
    by_cases harguments : t.arguments = []
    · have hlast : t.name.toList.getLast? = some c := by
        simpa [harguments, List.getLast?_append, hname] using hc
      exact isBlank_of_isNameChar (h.name_chars c (List.mem_of_getLast? hlast))
    · obtain rfl : ')' = c := by
        simpa [harguments, List.getLast?_append, List.getLast?_cons] using hc
      decide

theorem spelled_text {t : ParamType} (h : Printable t) :
    Spelled t.text t.optional t.name.toList t.inner where
  text_eq := by
    refine ⟨_, _, ?_, isEnclosed_inner h, (trim_of_trimmed (trimmed_text h)).trans (toList_text t)⟩
    cases t.optional with
    | true => exact .optional (by simp)
    | false => exact .required
  nonempty := by simpa using h.name_ne
  chars := h.name_chars

/-- Such a type is read back from its text. -/
theorem parse_text {t : ParamType} (h : Printable t) : parse t.text = .ok t := by
  refine parse_eq_ok_iff.2 ⟨_, _, spelled_text h, by simp, ?_⟩
  exact (isList_iff.1 (isList_inner h)).symm

/-- A text is read as a type exactly if it is written as one, with the mark and the name that stand
there and the arguments that are listed. The types that are read are those whose text tells their
parts apart, and each of them is read back from its own text. -/
theorem parse_exactly_printable :
    (∀ raw, (∃ t, parse raw = .ok t) ↔ ∃ optional name inner, Spelled raw optional name inner) ∧
    (∀ raw optional name inner, Spelled raw optional name inner →
      ∃ arguments, IsList inner arguments ∧
        parse raw = .ok ⟨optional, String.ofList name, arguments⟩) ∧
    (∀ t, Printable t ↔ ∃ raw, parse raw = .ok t) ∧
    (∀ t, Printable t → parse t.text = .ok t) ∧
    (∀ raw t, parse raw = .ok t → parse t.text = .ok t) := by
  have hread : ∀ raw optional name inner, Spelled raw optional name inner →
      ∃ arguments, IsList inner arguments ∧
        parse raw = .ok ⟨optional, String.ofList name, arguments⟩ := by
    intro raw optional name inner h
    exact ⟨_, isList_iff.2 rfl, parse_eq_ok_iff.2 ⟨name, inner, h, rfl, rfl⟩⟩
  refine ⟨fun raw => ⟨?_, ?_⟩, hread, fun t => ⟨?_, ?_⟩, fun t => parse_text,
    fun raw t ht => parse_text (printable_of_parse ht)⟩
  · rintro ⟨t, ht⟩
    obtain ⟨name, inner, hspelled, -⟩ := parse_eq_ok_iff.1 ht
    exact ⟨t.optional, name, inner, hspelled⟩
  · rintro ⟨optional, name, inner, hspelled⟩
    obtain ⟨arguments, -, hparse⟩ := hread raw optional name inner hspelled
    exact ⟨_, hparse⟩
  · exact fun h => ⟨t.text, parse_text h⟩
  · rintro ⟨raw, hraw⟩
    exact printable_of_parse hraw

end Signpost.ParamType
