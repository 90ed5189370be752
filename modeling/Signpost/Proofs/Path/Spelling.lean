import Signpost.Proofs.Outcome
import Signpost.Proofs.Path
import Signpost.Proofs.Service.Admission

/-!
# Ways of writing a path

The same segments may be written with any of their characters escaped and with more slashes at the
ends. Each of these paths is read as the same segments, so they lead to the same endpoint and
require the same roles. Only a path that begins or ends with an empty segment is not read as it was
meant.
-/
namespace Signpost.Path

open Text

def IsEscape (b : UInt8) (cs : List Char) : Prop :=
  ∃ capitalHigh capitalLow, Utf8.encode cs = Percent.escape capitalHigh capitalLow b

/-- The second text writes the first one. A character is written as itself, unless it is a slash or
a `%`, or as the escapes of its bytes. -/
inductive Spells : List Char → List Char → Prop where
  | nil : Spells [] []
  | raw {c : Char} {text written : List Char} (slash : c ≠ '/') (percent : c ≠ '%')
      (rest : Spells text written) : Spells (c :: text) (c :: written)
  | escaped {c : Char} {escapes : List (List Char)} {text written : List Char}
      (bytes : List.Forall₂ IsEscape (String.utf8EncodeChar c) escapes)
      (rest : Spells text written) : Spells (c :: text) (escapes.flatten ++ written)

/-- The path is made of slashes and of segments that write these bytes. -/
def Spelled (segments : List (List UInt8)) (path : String) : Prop :=
  ∃ before written after, path.toList = before ++ ['/'].intercalate written ++ after ∧
    (∀ c ∈ before, c = '/') ∧ (∀ c ∈ after, c = '/') ∧ List.Forall₂ SegmentOf segments written

theorem IsEscape.slash_notMem {b : UInt8} {cs : List Char} (h : IsEscape b cs) : '/' ∉ cs := by
  obtain ⟨capitalHigh, capitalLow, hencode⟩ := h
  intro hmem
  have hbyte : (47 : UInt8) ∈ Utf8.encode cs := (Utf8.mem_encode_iff (by decide)).2 hmem
  rw [hencode] at hbyte
  exact Percent.notMem_escape (by decide) (by decide) capitalHigh capitalLow b hbyte

theorem segmentOf_escapes {bytes rest : List UInt8} {escapes : List (List Char)}
    {written : List Char} (h : List.Forall₂ IsEscape bytes escapes)
    (hrest : SegmentOf rest written) :
    SegmentOf (bytes ++ rest) (escapes.flatten ++ written) := by
  induction h with
  | nil => exact hrest
  | cons hescape _ ih =>
    constructor
    · simpa [hescape.slash_notMem] using ih.1
    · obtain ⟨capitalHigh, capitalLow, hencode⟩ := hescape
      rw [List.flatten_cons, List.append_assoc, Utf8.encode_append, hencode]
      exact ih.2.escape capitalHigh capitalLow _

theorem segmentOf_of_spells {text written : List Char} (h : Spells text written) :
    SegmentOf (Utf8.encode text) written := by
  induction h with
  | nil => exact ⟨by simp, .nil⟩
  | @raw c text written slash percent _ ih =>
    have hbytes : (37 : UInt8) ∉ String.utf8EncodeChar c := by
      intro hmem
      have hc : c.toNat = 37 := (Utf8.mem_utf8EncodeChar_iff (by decide)).1 hmem
      exact percent (Char.toNat_inj.1 hc)
    exact ⟨by simp [ih.1, Ne.symm slash], ih.2.append_raw hbytes⟩
  | escaped bytes _ ih => exact segmentOf_escapes bytes ih

theorem isEmpty_eq_of_segmentOf {bytes : List UInt8} {written : List Char}
    (h : SegmentOf bytes written) : bytes.isEmpty = written.isEmpty := by
  rw [Bool.eq_iff_iff, List.isEmpty_iff, List.isEmpty_iff]
  constructor
  · rintro rfl
    exact Utf8.encode_eq_nil_iff.1 (Percent.writes_nil_left h.2)
  · rintro rfl
    exact (Percent.decode_of_writes h.2).symm

/-- What is read of a path depends on the bytes that its segments write alone. -/
theorem decode?_split_of_spelled {segments : List (List UInt8)} {path : String}
    (h : Spelled segments path) :
    decode? (split path) =
      (dropEnds List.isEmpty segments).mapM fun bytes =>
        (Utf8.decode? bytes).map String.ofList := by
  obtain ⟨before, written, after, hpath, hbefore, hafter, hwritten⟩ := h
  have hslash : ∀ segment ∈ written, '/' ∉ segment := by
    intro segment hmem
    obtain ⟨i, hi⟩ := List.mem_iff_getElem?.1 hmem
    obtain ⟨bytes, -, hsegment⟩ := exists_of_forall₂_right hwritten hi
    exact hsegment.1
  have hinner := forall₂_dropEnds hwritten fun _ _ => isEmpty_eq_of_segmentOf
  rw [split_joined hpath hbefore hafter hslash, decode?]
  generalize dropEnds List.isEmpty segments = bytes,
    dropEnds List.isEmpty written = inner at hinner ⊢
  induction hinner with
  | nil => rfl
  | cons hsegment _ ih =>
    rw [List.map_cons, List.mapM_cons, List.mapM_cons, decodeSegment?_ofList hsegment, ih]

/-- A path of texts is read as these texts, the empty ones at its ends aside. -/
theorem decode?_split_of_texts {texts : List String} {path : String}
    (h : Spelled (texts.map fun text => Utf8.encode text.toList) path) :
    decode? (split path) = some (dropEnds String.isEmpty texts) := by
  have hempty : (fun text : String => (Utf8.encode text.toList).isEmpty) = String.isEmpty := by
    funext text
    rw [Bool.eq_iff_iff, List.isEmpty_iff, Utf8.encode_eq_nil_iff, String.isEmpty_iff,
      String.toList_eq_nil_iff]
  rw [decode?_split_of_spelled h, dropEnds_map, hempty, mapM_eq_some_iff,
    List.forall₂_map_left_iff, List.forall₂_same]
  intro text _
  rw [Utf8.decode?_eq_some_iff.2 rfl, Option.map_some, String.ofList_toList]

theorem dropEnds_isEmpty_eq_self_iff {texts : List String} :
    dropEnds String.isEmpty texts = texts ↔
      texts = [] ∨ texts.head? ≠ some "" ∧ texts.getLast? ≠ some "" := by
  have hne : ∀ x : Option String, (∀ text, x = some text → text.isEmpty = false) ↔ x ≠ some "" := by
    intro x
    cases x <;> simp
  rw [dropEnds_eq_self_iff]
  constructor
  · intro h
    exact .inr ⟨(hne _).1 h.head, (hne _).1 h.last⟩
  · rintro (rfl | ⟨hhead, hlast⟩)
    · exact bare_nil
    · exact ⟨(hne _).2 hhead, (hne _).2 hlast⟩

/-- A path is read as the texts that its segments write, escaped or not, exactly if no empty one
stands at its ends. More slashes there make no difference, no segment is lost in decoding, and what
cannot be decoded is a segment whose bytes are those of no text. Two paths that write the same
segments lead to the same endpoint and admit the same callers. -/
theorem decode_spelled :
    (∀ (texts : List String) (path : String),
      (∃ written, path.toList = '/' :: ['/'].intercalate written ∧
        List.Forall₂ (fun text segment => Spells text.toList segment) texts written) →
      (decode? (split path) = some texts ↔
        texts = [] ∨ texts.head? ≠ some "" ∧ texts.getLast? ≠ some "")) ∧
    (∀ (path : String) (before after : List Char), (∀ c ∈ before, c = '/') →
      (∀ c ∈ after, c = '/') →
      split (String.ofList (before ++ path.toList ++ after)) = split path) ∧
    (∀ path texts, decode? (split path) = some texts → texts.length = (split path).length) ∧
    (∀ path, decode? (split path) = none ↔ ∃ segment ∈ split path,
      ∃ bytes, Percent.Writes bytes (Utf8.encode segment.toList) ∧
        ∀ text, bytes ≠ Utf8.encode text) ∧
    ∀ (σ : Type) (s : Service σ) (segments : List (List UInt8)) (path path' : String),
      Spelled segments path → Spelled segments path' →
      ∀ method, s.route method path = s.route method path' ∧
        ∀ headers, s.admission method path headers = s.admission method path' headers := by
  refine ⟨?_, ?_, ?_, ?_, ?_⟩
  · rintro texts path ⟨written, hpath, hwritten⟩
    have hspelled : Spelled (texts.map fun text => Utf8.encode text.toList) path := by
      refine ⟨['/'], written, [], by simp [hpath], by simp, by simp, ?_⟩
      rw [List.forall₂_map_left_iff]
      exact hwritten.imp fun _ _ => segmentOf_of_spells
    rw [decode?_split_of_texts hspelled, Option.some.injEq, dropEnds_isEmpty_eq_self_iff]
  · intro path before after hbefore hafter
    rw [split, split, String.toList_ofList, trimSlashes_eq_dropEnds,
      dropEnds_append (by simpa using hbefore) (by simpa using hafter), trimSlashes_eq_dropEnds]
  · intro path texts h
    exact (mapM_eq_some_iff.1 h).length_eq.symm
  · intro path
    rw [decode?, mapM_eq_none_iff]
    simp only [decodeSegment?_eq_none_iff]
  · intro σ s segments path path' hpath hpath' method
    have hroute : s.route method path = s.route method path' := by
      rw [Service.route, Service.route, decode?_split_of_spelled hpath,
        decode?_split_of_spelled hpath']
    refine ⟨hroute, fun headers => ?_⟩
    rw [Service.admission, Service.admission, hroute]

end Signpost.Path
