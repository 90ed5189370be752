import Mathlib.Data.List.Forall2
import Signpost.Path
import Signpost.Proofs.Text.Percent
import Signpost.Proofs.Text.Pieces
import Signpost.Proofs.Text.Utf8

/-!
# Segments of a path

A path is made of segments and of the slashes between and around them. Splitting finds the segments,
the empty ones at the ends aside, and decoding a segment depends on the bytes that it writes alone.
A slash that is written in a segment is there after decoding, too, so a text without slashes can
only have been written without them.
-/
namespace Signpost.Path

open Text

/-- A segment of a path, and the bytes it writes. -/
def SegmentOf (bytes : List UInt8) (written : List Char) : Prop :=
  '/' ∉ written ∧ Percent.Writes bytes (Utf8.encode written)

theorem trimSlashes_eq_dropEnds (cs : List Char) : trimSlashes cs = dropEnds (· == '/') cs := rfl

/-- Splitting finds the segments between the slashes, those at the ends aside that are empty. -/
theorem split_joined {path : String} {before after : List Char} {segments : List (List Char)}
    (hpath : path.toList = before ++ ['/'].intercalate segments ++ after)
    (hbefore : ∀ c ∈ before, c = '/') (hafter : ∀ c ∈ after, c = '/')
    (h : ∀ segment ∈ segments, '/' ∉ segment) :
    split path = (dropEnds List.isEmpty segments).map String.ofList := by
  have htrim : trimSlashes path.toList = ['/'].intercalate (dropEnds List.isEmpty segments) := by
    rw [trimSlashes_eq_dropEnds, hpath,
      dropEnds_append (by simpa using hbefore) (by simpa using hafter), dropEnds_intercalate h]
  have hbare := bare_dropEnds List.isEmpty segments
  have hinner : ∀ segment ∈ dropEnds List.isEmpty segments, '/' ∉ segment :=
    fun segment hmem => h segment (mem_of_mem_dropEnds hmem)
  rw [split, htrim]
  generalize dropEnds List.isEmpty segments = inner at *
  cases inner with
  | nil => rfl
  | cons first rest =>
    have hne : ['/'].intercalate (first :: rest) ≠ [] := by
      rw [ne_eq, ← List.head?_eq_none_iff]
      cases first with
      | nil => simpa using hbare.head [] rfl
      | cons c first => cases rest <;> simp [List.intercalate_cons_cons]
    simp [hne, cut_intercalate (by simp) hinner]

/-- A path without empty segments is cut at each of its slashes. -/
theorem split_of_cut {cs : List Char} (h : [] ∉ cut '/' cs) :
    split (String.ofList ('/' :: cs)) = (cut '/' cs).map String.ofList := by
  have hfull : ∀ segment ∈ cut '/' cs, List.isEmpty segment = false := by
    intro segment hmem
    rw [List.isEmpty_eq_false_iff]
    rintro rfl
    exact h hmem
  have hbare : Bare List.isEmpty (cut '/' cs) :=
    ⟨fun _ hx => hfull _ (List.mem_of_head? hx), fun _ hx => hfull _ (List.mem_of_getLast? hx)⟩
  have hpath : (String.ofList ('/' :: cs)).toList =
      ['/'] ++ ['/'].intercalate (cut '/' cs) ++ [] := by simp [intercalate_cut]
  rw [split_joined hpath (by simp) (by simp) (fun _ => notMem_of_mem_cut), dropEnds_of_bare hbare]

/-- A path of two segments is cut between them. -/
theorem split_pair {first second : List Char} (hfirst : first ≠ []) (hsecond : second ≠ [])
    (hf : '/' ∉ first) (hs : '/' ∉ second) :
    split (String.ofList ('/' :: first ++ '/' :: second)) =
      [String.ofList first, String.ofList second] := by
  have hpieces : ∀ piece ∈ [first, second], '/' ∉ piece := by simp [hf, hs]
  have hcut : cut '/' (first ++ '/' :: second) = [first, second] := by
    simpa using cut_intercalate (by simp) hpieces
  rw [List.cons_append, split_of_cut (by simp [hcut, hfirst, hsecond]), hcut]
  rfl

theorem decodeSegment?_ofList {bytes : List UInt8} {written : List Char}
    (h : SegmentOf bytes written) :
    decodeSegment? (String.ofList written) = (Utf8.decode? bytes).map String.ofList := by
  rw [decodeSegment?, String.toList_ofList, Percent.decode_of_writes h.2]

theorem decodeSegment?_eq_some_iff {segment text : String} :
    decodeSegment? segment = some text ↔
      Percent.Writes (Utf8.encode text.toList) (Utf8.encode segment.toList) := by
  simp only [decodeSegment?, Option.map_eq_some_iff, Utf8.decode?_eq_some_iff,
    Percent.decode_eq_iff]
  constructor
  · rintro ⟨cs, hcs, rfl⟩
    rwa [String.toList_ofList]
  · intro h
    exact ⟨text.toList, h, String.ofList_toList⟩

theorem decodeSegment?_eq_none_iff {segment : String} :
    decodeSegment? segment = none ↔
      ∃ bytes, Percent.Writes bytes (Utf8.encode segment.toList) ∧
        ∀ text, bytes ≠ Utf8.encode text := by
  rw [decodeSegment?, Option.map_eq_none_iff, Option.eq_none_iff_forall_ne_some]
  simp only [ne_eq, Utf8.decode?_eq_some_iff]
  constructor
  · intro h
    exact ⟨_, Percent.decode_eq_iff.1 rfl, h⟩
  · rintro ⟨bytes, hbytes, h⟩
    rwa [Percent.decode_of_writes hbytes]

theorem slash_mem_of_decodeSegment? {segment text : String}
    (h : decodeSegment? segment = some text) (hmem : '/' ∈ segment.toList) :
    '/' ∈ text.toList := by
  have hbyte : (47 : UInt8) ∈ Utf8.encode segment.toList :=
    (Utf8.mem_encode_iff (by decide)).2 hmem
  exact (Utf8.mem_encode_iff (by decide)).1
    ((decodeSegment?_eq_some_iff.1 h).mem (by decide) (by decide) hbyte)

theorem decodeSegment?_empty : decodeSegment? "" = some "" := by decide +kernel

end Signpost.Path
