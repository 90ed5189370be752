import Mathlib.Data.List.Nodup
import Signpost.Pattern
import Signpost.Proofs.Outcome

/-!
# Parsed patterns

What a piece of a pattern adds to it, and what holds of all that are parsed: captures are numbered
from the left, each is listed with the position of its segment, and their names differ.
-/
namespace Signpost

theorem getElem?_concat_eq_some_iff {α : Type u} {xs : List α} {x y : α} {n : Nat} :
    (xs ++ [x])[n]? = some y ↔ xs[n]? = some y ∨ n = xs.length ∧ x = y := by
  rw [List.getElem?_append]
  split
  next h =>
    have hne : n ≠ xs.length := by omega
    simp [hne]
  next h =>
    have hnone : xs[n]? = none := List.getElem?_eq_none_iff.2 (by omega)
    rw [hnone, List.getElem?_singleton]
    by_cases hn : n = xs.length
    · simp [hn]
    · have hpos : n - xs.length ≠ 0 := by omega
      simp [hn, hpos]

/-- The number of a capture. -/
def Segment.index? : Segment → Option Nat
  | .literal _ => none
  | .capture i => some i

namespace Pattern

theorem braced?_eq_some_iff {piece name : List Char} :
    braced? piece = some name ↔ piece = '\x7b' :: name ++ ['\x7d'] := by
  constructor
  · intro h
    unfold braced? at h
    split at h
    next rest =>
      split at h
      next hlast =>
        obtain rfl : rest.dropLast = name := by simpa using h
        obtain ⟨init, rfl⟩ := List.getLast?_eq_some_iff.1 hlast
        simp
      next hlast => simp at h
    next => simp at h
  · rintro rfl
    simp [braced?]

/-- A piece is added if it is a new capture in braces, or a text without any. -/
theorem add_eq_ok_iff {p q : Pattern} {piece : List Char} :
    p.add piece = .ok q ↔
      (∃ name, piece = '\x7b' :: name ++ ['\x7d'] ∧ isName name = true ∧
        String.ofList name ∉ p.captures.map (·.1) ∧
        q = ⟨p.segments ++ [.capture p.captures.length],
          p.captures ++ [(String.ofList name, p.segments.length)]⟩) ∨
      (piece ≠ [] ∧ (∀ c ∈ piece, isBrace c = false) ∧
        q = { p with segments := p.segments ++ [.literal (String.ofList piece)] }) := by
  constructor
  · intro h
    unfold add at h
    split at h
    · cases h
    next hne =>
      split at h
      next name hb =>
        split at h
        · cases h
        next hname =>
          split at h
          · cases h
          next hnew =>
            refine .inl ⟨name, braced?_eq_some_iff.1 hb, by simpa using hname, fun hmem => ?_,
              (Except.ok.inj h).symm⟩
            obtain ⟨c, hc, hcn⟩ := List.mem_map.1 hmem
            exact hnew (List.any_eq_true.2 ⟨c, hc, by simpa using hcn⟩)
      next hb =>
        split at h
        · cases h
        next hfree =>
          refine .inr ⟨by simpa using hne, fun c hc => ?_, (Except.ok.inj h).symm⟩
          simpa using fun hbrace => hfree (List.any_eq_true.2 ⟨c, hc, hbrace⟩)
  · intro hright
    rcases hright with ⟨name, rfl, hname, hnew, rfl⟩ | ⟨hne, hfree, rfl⟩
    · have hfresh : p.captures.any (fun c => c.1 = String.ofList name) = false := by
        rw [List.any_eq_false]
        intro c hc hcn
        exact hnew (List.mem_map.2 ⟨c, hc, by simpa using hcn⟩)
      simp only [add, braced?_eq_some_iff.2 rfl, hname, hfresh]
      simp
    · have hb : braced? piece = none := by
        rw [Option.eq_none_iff_forall_ne_some]
        intro name h
        have := hfree '\x7b' (by simp [braced?_eq_some_iff.1 h])
        simp [isBrace] at this
      have hany : piece.any isBrace = false := by
        rw [List.any_eq_false]
        intro c hc
        simp [hfree c hc]
      simp [add, hne, hb, hany]

/-- Captures are numbered from the left and listed with their positions under different names. -/
structure Numbered (p : Pattern) : Prop where
  indices : p.segments.filterMap Segment.index? = List.range p.captures.length
  positions : ∀ n i, p.segments[n]? = some (Segment.capture i) ↔
    ∃ name, p.captures[i]? = some (name, n)
  distinct : (p.captures.map (·.1)).Nodup

theorem numbered_root : Numbered root where
  indices := rfl
  positions := by simp [root]
  distinct := by simp [root]

theorem Numbered.add {p q : Pattern} {piece : List Char} (hp : Numbered p)
    (h : p.add piece = .ok q) : Numbered q := by
  rcases add_eq_ok_iff.1 h with ⟨name, -, -, hnew, rfl⟩ | ⟨-, -, rfl⟩
  · refine ⟨?_, fun n i => ?_, ?_⟩
    · simp [hp.indices, Segment.index?, List.range_succ]
    · simp only [getElem?_concat_eq_some_iff, hp.positions n i, Segment.capture.injEq,
        Prod.mk.injEq]
      constructor
      · intro hleft
        rcases hleft with ⟨other, ho⟩ | ⟨rfl, rfl⟩
        · exact ⟨other, .inl ho⟩
        · exact ⟨_, .inr ⟨rfl, rfl, rfl⟩⟩
      · intro hright
        obtain ⟨other, ho | ⟨rfl, -, rfl⟩⟩ := hright
        · exact .inl ⟨other, ho⟩
        · exact .inr ⟨rfl, rfl⟩
    · rw [List.map_append, List.nodup_append]
      refine ⟨hp.distinct, by simp, ?_⟩
      rintro a ha b hb rfl
      obtain rfl : a = String.ofList name := by simpa using hb
      exact hnew ha
  · refine ⟨?_, fun n i => ?_, hp.distinct⟩
    · simp [hp.indices, Segment.index?]
    · simp [getElem?_concat_eq_some_iff, hp.positions n i]

theorem Numbered.foldlM_add {p q : Pattern} {pieces : List (List Char)} (hp : Numbered p)
    (h : pieces.foldlM Pattern.add p = .ok q) : Numbered q := by
  induction pieces generalizing p with
  | nil =>
    obtain rfl : p = q := by simpa [pure, Except.pure] using h
    exact hp
  | cons piece rest ih =>
    rw [List.foldlM_cons] at h
    obtain ⟨next, hnext, hrest⟩ := bind_eq_ok_iff.1 h
    exact ih (hp.add hnext) hrest

theorem numbered_of_parse {text : String} {p : Pattern} (h : parse text = .ok p) :
    Numbered p := by
  unfold parse at h
  split at h
  next rest =>
    split at h
    · obtain rfl : root = p := by simpa using h
      exact numbered_root
    · split at h
      · simp at h
      · exact numbered_root.foldlM_add h
  next => simp at h

end Pattern

end Signpost
