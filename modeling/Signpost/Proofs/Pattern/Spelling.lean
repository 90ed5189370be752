import Signpost.Proofs.Path
import Signpost.Proofs.Pattern

/-!
# How patterns are written

The texts that are patterns, said without the parser: pieces after a slash each, of which every one
is a name in braces or a text without any. The parser accepts these texts alone, and nothing is
lost: its segments, written again, are the pieces, and a request path is cut into the same ones.
-/
namespace Signpost.Pattern

open Text

/-- A capture as it is written. -/
def inBraces (name : String) : String := "\x7b" ++ name ++ "\x7d"

/-- What may stand between two slashes. -/
inductive IsPiece : String → Prop where
  | capture {name : String} (nonempty : name ≠ "")
      (chars : ∀ c ∈ name.toList, isNameChar c = true) : IsPiece (inBraces name)
  | literal {text : String} (nonempty : text ≠ "")
      (chars : ∀ c ∈ text.toList, c ≠ '/' ∧ isBrace c = false) : IsPiece text

/-- A pattern as it is written: a slash, and pieces with slashes between them. -/
structure Spelled (text : String) (pieces : List String) : Prop where
  text_eq : text = "/" ++ "/".intercalate pieces
  isPiece : ∀ piece ∈ pieces, IsPiece piece
  /-- No name is captured twice. -/
  once : ∀ name, pieces.count (inBraces name) ≤ 1

theorem toList_inBraces (name : String) :
    (inBraces name).toList = '\x7b' :: name.toList ++ ['\x7d'] := by
  simp [inBraces]

theorem inBraces_inj {name other : String} : inBraces name = inBraces other ↔ name = other := by
  rw [← String.toList_inj, toList_inBraces, toList_inBraces, ← String.toList_inj]
  simp

theorem ofList_eq_inBraces_iff {piece : List Char} {name : String} :
    String.ofList piece = inBraces name ↔ piece = '\x7b' :: name.toList ++ ['\x7d'] := by
  rw [← String.toList_inj, String.toList_ofList, toList_inBraces]

theorem isName_iff {name : String} :
    isName name.toList = true ↔ name ≠ "" ∧ ∀ c ∈ name.toList, isNameChar c = true := by
  simp [isName]

/-- A text without braces is no name in braces. -/
theorem ne_inBraces_of_chars {text : String} (h : ∀ c ∈ text.toList, c ≠ '/' ∧ isBrace c = false)
    (name : String) : text ≠ inBraces name := by
  rintro rfl
  have hbrace := (h '\x7b' (by simp [toList_inBraces])).2
  simp [isBrace] at hbrace

theorem IsPiece.ne_empty {piece : String} (h : IsPiece piece) : piece ≠ "" := by
  cases h with
  | capture =>
    intro hempty
    simpa [toList_inBraces] using congrArg String.toList hempty
  | literal nonempty => exact nonempty

theorem IsPiece.slash_notMem {piece : String} (h : IsPiece piece) : '/' ∉ piece.toList := by
  intro hmem
  cases h with
  | capture nonempty chars =>
    have hname : isNameChar '/' = false := by decide
    have hin := chars '/' (by simpa [toList_inBraces] using hmem)
    simp [hname] at hin
  | literal nonempty chars => exact (chars '/' hmem).1 rfl

/-- What the parser has made of the pieces read so far. -/
structure Reads (p : Pattern) (read : List String) : Prop extends Numbered p where
  written : p.segments.map p.segmentText = read
  captured : ∀ name, inBraces name ∈ read ↔ name ∈ p.captures.map (·.1)
  isPiece : ∀ piece ∈ read, IsPiece piece
  once : ∀ name, read.count (inBraces name) ≤ 1

theorem reads_root : Reads root [] where
  toNumbered := numbered_root
  written := rfl
  captured := by simp [root]
  isPiece := by simp
  once := by simp

/-- Captures that are listed keep their texts when another one is listed after them. -/
theorem Numbered.segmentText_concat {p : Pattern} (hp : Numbered p) {s : Segment}
    (hs : s ∈ p.segments) (segments : List Segment) (c : String × Nat) :
    segmentText ⟨segments, p.captures ++ [c]⟩ s = p.segmentText s := by
  cases s with
  | literal text => rfl
  | capture i =>
    obtain ⟨n, hn⟩ := List.mem_iff_getElem?.1 hs
    obtain ⟨name, hname⟩ := (hp.positions n i).1 hn
    have hlisted : (p.captures ++ [c])[i]? = some (name, n) :=
      getElem?_concat_eq_some_iff.2 (.inl hname)
    simp only [segmentText, hname, hlisted]

theorem Reads.add {p q : Pattern} {read : List String} {piece : List Char} (hp : Reads p read)
    (hslash : '/' ∉ piece) (h : p.add piece = .ok q) : Reads q (read ++ [String.ofList piece]) := by
  have hq := hp.toNumbered.add h
  rcases add_eq_ok_iff.1 h with ⟨name, hpiece, hname, hnew, rfl⟩ | ⟨hne, hfree, rfl⟩
  · obtain ⟨name, rfl⟩ : ∃ s : String, name = s.toList := ⟨String.ofList name, by simp⟩
    rw [String.ofList_toList] at hnew hq ⊢
    rw [ofList_eq_inBraces_iff.2 hpiece]
    refine { toNumbered := hq, written := ?_, captured := fun other => ?_, isPiece := ?_,
             once := fun other => ?_ }
    · rw [List.map_append, ← hp.written]
      congr 1
      · exact List.map_congr_left fun s hs => hp.segmentText_concat hs _ _
      · simp [segmentText, inBraces]
    · simp [hp.captured other, inBraces_inj]
    · intro other hother
      rcases List.mem_append.1 hother with hother | hother
      · exact hp.isPiece other hother
      · obtain rfl := List.mem_singleton.1 hother
        obtain ⟨nonempty, chars⟩ := isName_iff.1 hname
        exact .capture nonempty chars
    · have hfresh : read.count (inBraces name) = 0 :=
        List.count_eq_zero.2 fun hmem => hnew ((hp.captured name).1 hmem)
      by_cases hother : name = other
      · subst hother
        simp [hfresh]
      · simpa [inBraces_inj, hother] using hp.once other
  · have chars : ∀ c ∈ (String.ofList piece).toList, c ≠ '/' ∧ isBrace c = false := by
      intro c hc
      rw [String.toList_ofList] at hc
      exact ⟨fun heq => hslash (heq ▸ hc), hfree c hc⟩
    refine { toNumbered := hq, written := ?_, captured := fun other => ?_, isPiece := ?_,
             once := fun other => ?_ }
    · rw [List.map_append, ← hp.written]
      rfl
    · simp [hp.captured other, (ne_inBraces_of_chars chars other).symm]
    · intro other hother
      rcases List.mem_append.1 hother with hother | hother
      · exact hp.isPiece other hother
      · obtain rfl := List.mem_singleton.1 hother
        exact .literal (by simpa using hne) chars
    · simpa [ne_inBraces_of_chars chars other] using hp.once other

theorem Reads.foldlM_add {p q : Pattern} {read : List String} {pieces : List (List Char)}
    (hp : Reads p read) (hslash : ∀ piece ∈ pieces, '/' ∉ piece)
    (h : pieces.foldlM Pattern.add p = .ok q) : Reads q (read ++ pieces.map String.ofList) := by
  induction pieces generalizing p read with
  | nil =>
    obtain rfl : p = q := by simpa [pure, Except.pure] using h
    simpa using hp
  | cons piece rest ih =>
    rw [List.foldlM_cons] at h
    obtain ⟨next, hnext, hrest⟩ := bind_eq_ok_iff.1 h
    obtain ⟨hpiece, hslash⟩ := List.forall_mem_cons.1 hslash
    simpa using ih (hp.add hpiece hnext) hslash hrest

/-- A piece can be added unless it captures a name for the second time. -/
theorem Reads.exists_add {p : Pattern} {read : List String} {piece : String} (hp : Reads p read)
    (h : IsPiece piece) (hnew : ∀ name, (read ++ [piece]).count (inBraces name) ≤ 1) :
    ∃ q, p.add piece.toList = .ok q := by
  cases h with
  | @capture name nonempty chars =>
    have hfresh : name ∉ p.captures.map (·.1) := by
      intro hmem
      have hpos := List.count_pos_iff.2 ((hp.captured name).2 hmem)
      have hcount := hnew name
      simp only [List.count_append, List.count_singleton_self] at hcount
      omega
    refine ⟨_, add_eq_ok_iff.2 (.inl ⟨name.toList, toList_inBraces name,
      isName_iff.2 ⟨nonempty, chars⟩, ?_, rfl⟩)⟩
    rwa [String.ofList_toList]
  | literal nonempty chars =>
    have hfree : ∀ c ∈ piece.toList, isBrace c = false := fun c hc => (chars c hc).2
    exact ⟨_, add_eq_ok_iff.2 (.inr ⟨by simpa using nonempty, hfree, rfl⟩)⟩

theorem Reads.exists_foldlM_add {p : Pattern} {read pieces : List String} (hp : Reads p read)
    (hpieces : ∀ piece ∈ pieces, IsPiece piece)
    (hnew : ∀ name, (read ++ pieces).count (inBraces name) ≤ 1) :
    ∃ q, (pieces.map String.toList).foldlM Pattern.add p = .ok q := by
  induction pieces generalizing p read with
  | nil => exact ⟨p, rfl⟩
  | cons piece rest ih =>
    obtain ⟨hpiece, hrest⟩ := List.forall_mem_cons.1 hpieces
    have hfirst : ∀ name, (read ++ [piece]).count (inBraces name) ≤ 1 := by
      intro name
      have hcount := hnew name
      simp only [List.count_append, List.count_cons, List.count_nil] at hcount ⊢
      omega
    obtain ⟨next, hnext⟩ := hp.exists_add hpiece hfirst
    have hread := hp.add hpiece.slash_notMem hnext
    rw [String.ofList_toList] at hread
    obtain ⟨q, hq⟩ := ih hread hrest (by simpa using hnew)
    exact ⟨q, by rw [List.map_cons, List.foldlM_cons, hnext]; exact hq⟩

theorem toList_join (pieces : List String) :
    ("/" ++ "/".intercalate pieces).toList =
      '/' :: ['/'].intercalate (pieces.map String.toList) := by
  simp [String.toList_intercalate]

theorem Spelled.toList_eq {text : String} {pieces : List String} (h : Spelled text pieces) :
    text.toList = '/' :: ['/'].intercalate (pieces.map String.toList) := by
  rw [h.text_eq, toList_join]

/-- The pieces are found again by cutting, unless there are none. -/
theorem Spelled.cut_eq {text : String} {pieces : List String} (h : Spelled text pieces)
    (hne : pieces ≠ []) :
    cut '/' (['/'].intercalate (pieces.map String.toList)) = pieces.map String.toList := by
  refine cut_intercalate (by simpa using hne) fun piece hpiece => ?_
  obtain ⟨s, hs, rfl⟩ := List.mem_map.1 hpiece
  exact (h.isPiece s hs).slash_notMem

theorem Spelled.nil_notMem {text : String} {pieces : List String} (h : Spelled text pieces) :
    [] ∉ pieces.map String.toList := by
  intro hmem
  obtain ⟨s, hs, hempty⟩ := List.mem_map.1 hmem
  exact (h.isPiece s hs).ne_empty (String.toList_eq_nil_iff.1 hempty)

theorem Spelled.split_eq {text : String} {pieces : List String} (h : Spelled text pieces) :
    Path.split text = pieces := by
  cases pieces with
  | nil =>
    rw [h.text_eq]
    decide
  | cons first rest =>
    have hcut := h.cut_eq (by simp)
    have hsplit := Path.split_of_cut (hcut ▸ h.nil_notMem)
    rw [hcut, ← h.toList_eq, String.ofList_toList] at hsplit
    simpa [Function.comp_def] using hsplit

theorem Spelled.exists_parse {text : String} {pieces : List String} (h : Spelled text pieces) :
    ∃ p, parse text = .ok p := by
  cases pieces with
  | nil =>
    rw [h.text_eq]
    exact ⟨root, by decide⟩
  | cons first rest =>
    have hcut := h.cut_eq (by simp)
    obtain ⟨hne, -, hlast⟩ := ends_of_nil_notMem_cut (hcut ▸ h.nil_notMem)
    obtain ⟨p, hp⟩ := reads_root.exists_foldlM_add h.isPiece (by simpa using h.once)
    refine ⟨p, ?_⟩
    simp only [parse, h.toList_eq]
    rw [if_neg (by simpa using hne), if_neg hlast, hcut, hp]

/-- What has been parsed is a pattern as it is written. -/
theorem reads_of_parse {text : String} {p : Pattern} (h : parse text = .ok p) :
    ∃ pieces, Spelled text pieces ∧ Reads p pieces := by
  unfold parse at h
  split at h
  next rest htext =>
    obtain rfl : text = String.ofList ('/' :: rest) := by rw [← htext, String.ofList_toList]
    split at h
    next hempty =>
      obtain rfl : rest = [] := by simpa using hempty
      obtain rfl : root = p := by simpa using h
      exact ⟨[], ⟨rfl, by simp, by simp⟩, reads_root⟩
    next =>
      split at h
      · cases h
      · have hread := reads_root.foldlM_add (fun piece => notMem_of_mem_cut) h
        rw [List.nil_append] at hread
        refine ⟨_, ⟨?_, hread.isPiece, hread.once⟩, hread⟩
        rw [← String.toList_inj, toList_join, List.map_map]
        simp [Function.comp_def, intercalate_cut]
  next => cases h

/-- The captures of a pattern, by the name. -/
def HasCapture (text name : String) : Prop :=
  ∃ pieces, Spelled text pieces ∧ inBraces name ∈ pieces

theorem mem_captures_iff {text : String} {p : Pattern} (h : parse text = .ok p) {name : String} :
    name ∈ p.captures.map (·.1) ↔ HasCapture text name := by
  obtain ⟨pieces, hpieces, hread⟩ := reads_of_parse h
  rw [← hread.captured name]
  constructor
  · intro hmem
    exact ⟨pieces, hpieces, hmem⟩
  · intro hright
    obtain ⟨other, hother, hmem⟩ := hright
    rwa [← hpieces.split_eq, hother.split_eq]

/-- A text parses exactly if it is written as patterns are. What comes of it, written again, is the
text; each capture is listed with its position; and a request path of that text is cut into the
very segments of the pattern. -/
theorem parse_spelled (text : String) :
    ((∃ p, parse text = .ok p) ↔ ∃ pieces, Spelled text pieces) ∧
    ∀ p, parse text = .ok p →
      p.text = text ∧
      (∀ i n, p.segments[n]? = some (Segment.capture i) ↔
        ∃ name, p.captures[i]? = some (name, n)) ∧
      Path.split text = p.segments.map p.segmentText ∧
      (Path.split text).length = p.segments.length ∧
      Spelled text (Path.split text) := by
  constructor
  · constructor
    · intro hparse
      obtain ⟨p, hp⟩ := hparse
      obtain ⟨pieces, hpieces, -⟩ := reads_of_parse hp
      exact ⟨pieces, hpieces⟩
    · intro hspelled
      obtain ⟨pieces, hpieces⟩ := hspelled
      exact hpieces.exists_parse
  · intro p hp
    obtain ⟨pieces, hpieces, hread⟩ := reads_of_parse hp
    obtain rfl := hpieces.split_eq
    have hwritten := hread.written
    have htext : p.text = text := by
      rw [Pattern.text, hwritten]
      exact hpieces.text_eq.symm
    have hlength : (Path.split text).length = p.segments.length := by
      rw [← hwritten, List.length_map]
    exact ⟨htext, fun i n => hread.positions n i, hwritten.symm, hlength, hpieces⟩

end Signpost.Pattern
