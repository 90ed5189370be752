import Mathlib.Data.List.Basic
import Signpost.Proofs.Text.Ends
import Signpost.Text.Pieces

/-!
# Cutting and joining

Cutting at a character undoes joining with it, as long as no piece contains it, and joining undoes
cutting. A separator at either end of a text leaves an empty piece, so to drop the separators there
is to drop the empty pieces.
-/
namespace Signpost.Text

variable {α : Type u} {p : α → Bool}

theorem extendFirst_eq_modifyHead (x : α) {l : List (List α)} (h : l ≠ []) :
    extendFirst x l = l.modifyHead (x :: ·) := by
  cases l with
  | nil => exact absurd rfl h
  | cons piece rest => rfl

theorem pieces_eq_splitOnP (p : α → Bool) (xs : List α) : pieces p xs = xs.splitOnP p := by
  induction xs with
  | nil => rfl
  | cons x xs ih =>
    rw [pieces_cons, List.splitOnP_cons_eq_if_modifyHead, ← ih,
      extendFirst_eq_modifyHead x (pieces_ne_nil p xs)]

theorem eq_false_of_mem_pieces {xs piece : List α} (h : piece ∈ pieces p xs) {x : α}
    (hx : x ∈ piece) : p x = false := by
  induction xs generalizing piece with
  | nil => simp_all
  | cons y ys ih =>
    rw [pieces_cons] at h
    split at h
    · rcases List.mem_cons.1 h with rfl | h
      · simp at hx
      · exact ih h hx
    next hy =>
      cases hp : pieces p ys with
      | nil => exact absurd hp (pieces_ne_nil p ys)
      | cons first rest =>
        rw [hp] at ih h
        rcases List.mem_cons.1 h with rfl | h
        · rcases List.mem_cons.1 hx with rfl | hx
          · simpa using hy
          · exact ih List.mem_cons_self hx
        · exact ih (List.mem_cons_of_mem _ h) hx

section Separator

variable [DecidableEq α] {separator : α}

theorem pieces_eq_splitOn (separator : α) (xs : List α) :
    pieces (· = separator) xs = xs.splitOn separator := by
  rw [pieces_eq_splitOnP, List.splitOn_eq_splitOnP]
  rfl

theorem pieces_intercalate {segments : List (List α)} (hne : segments ≠ [])
    (h : ∀ segment ∈ segments, separator ∉ segment) :
    pieces (· = separator) ([separator].intercalate segments) = segments := by
  rw [pieces_eq_splitOn, List.splitOn_intercalate separator h hne]

/-- A list is cut in two at the first separator. -/
theorem cutOnce_append_cons {before : List α} (h : separator ∉ before) (after : List α) :
    cutOnce (· = separator) (before ++ separator :: after) = (before, after) := by
  have hplain : ∀ x ∈ before, (!decide (x = separator)) = true := by
    intro x hx
    have hne : x ≠ separator := fun heq => h (heq ▸ hx)
    simp [hne]
  rw [cutOnce, List.takeWhile_append_of_pos hplain, List.dropWhile_append_of_pos hplain]
  simp

end Separator

variable {separator : Char}

theorem intercalate_cut (separator : Char) (cs : List Char) :
    [separator].intercalate (cut separator cs) = cs := by
  rw [cut, pieces_eq_splitOn, List.intercalate_splitOn]

theorem cut_intercalate {pieces : List (List Char)} (hne : pieces ≠ [])
    (h : ∀ piece ∈ pieces, separator ∉ piece) :
    cut separator ([separator].intercalate pieces) = pieces :=
  pieces_intercalate hne h

theorem mem_intercalate_of_mem {pieces : List (List α)} {sep piece : List α} {x : α}
    (h : piece ∈ pieces) (hx : x ∈ piece) : x ∈ sep.intercalate pieces := by
  induction pieces with
  | nil => simp at h
  | cons first rest ih =>
    cases rest with
    | nil => simp_all
    | cons second rest =>
      rw [List.intercalate_cons_cons, List.mem_append]
      rcases List.mem_cons.1 h with rfl | h
      · exact .inl (by simp [hx])
      · exact .inr (ih h)

theorem mem_of_mem_intercalate {pieces : List (List α)} {sep : List α} {x : α}
    (h : x ∈ sep.intercalate pieces) : x ∈ sep ∨ ∃ piece ∈ pieces, x ∈ piece := by
  induction pieces with
  | nil => simp at h
  | cons first rest ih =>
    cases rest with
    | nil => exact .inr ⟨first, by simp, by simpa using h⟩
    | cons second rest =>
      rw [List.intercalate_cons_cons, List.mem_append, List.mem_append] at h
      rcases h with (h | h) | h
      · exact .inr ⟨first, by simp, h⟩
      · exact .inl h
      · obtain hsep | ⟨piece, hpiece, hx⟩ := ih h
        · exact .inl hsep
        · exact .inr ⟨piece, List.mem_cons_of_mem _ hpiece, hx⟩

theorem intercalate_append {first second : List (List α)} (sep : List α) (hfirst : first ≠ [])
    (hsecond : second ≠ []) :
    sep.intercalate (first ++ second) =
      sep.intercalate first ++ sep ++ sep.intercalate second := by
  induction first with
  | nil => exact absurd rfl hfirst
  | cons x first ih =>
    cases first with
    | nil => rw [List.singleton_append, List.intercalate_cons_of_ne_nil hsecond,
        List.intercalate_singleton]
    | cons y first =>
      rw [List.cons_append, List.intercalate_cons_of_ne_nil (by simp), ih (by simp),
        List.intercalate_cons_cons]
      simp only [List.append_assoc]

section Joined

variable [BEq α] [LawfulBEq α] {joint : α} {segments empties : List (List α)}

omit [BEq α] [LawfulBEq α] in
theorem eq_of_mem_intercalate (h : ∀ piece ∈ empties, piece = []) {x : α}
    (hx : x ∈ [joint].intercalate empties) : x = joint := by
  rcases mem_of_mem_intercalate hx with hx | ⟨piece, hpiece, hx⟩
  · simpa using hx
  · simp [h piece hpiece] at hx

/-- Empty pieces on the left are joined to separators. -/
theorem exists_intercalate_append_left (joint : α) (segments : List (List α))
    (h : ∀ piece ∈ empties, piece = []) :
    ∃ before, [joint].intercalate (empties ++ segments) = before ++ [joint].intercalate segments ∧
      ∀ x ∈ before, (x == joint) = true := by
  have hjoints : ∀ x ∈ [joint].intercalate empties, x = joint :=
    fun _ => eq_of_mem_intercalate h
  by_cases hsegments : segments = []
  · exact ⟨[joint].intercalate empties, by simp [hsegments], by simpa using hjoints⟩
  · by_cases hempties : empties = []
    · exact ⟨[], by simp [hempties]⟩
    · refine ⟨_, intercalate_append _ hempties hsegments, fun x hx => ?_⟩
      rcases List.mem_append.1 hx with hx | hx
      · simp [hjoints x hx]
      · simp_all

/-- Empty pieces on the right are joined to separators. -/
theorem exists_intercalate_append_right (joint : α) (segments : List (List α))
    (h : ∀ piece ∈ empties, piece = []) :
    ∃ after, [joint].intercalate (segments ++ empties) = [joint].intercalate segments ++ after ∧
      ∀ x ∈ after, (x == joint) = true := by
  have hjoints : ∀ x ∈ [joint].intercalate empties, x = joint :=
    fun _ => eq_of_mem_intercalate h
  by_cases hsegments : segments = []
  · exact ⟨[joint].intercalate empties, by simp [hsegments], by simpa using hjoints⟩
  · by_cases hempties : empties = []
    · exact ⟨[], by simp [hempties]⟩
    · refine ⟨[joint] ++ [joint].intercalate empties, ?_, ?_⟩
      · rw [intercalate_append _ hsegments hempties, List.append_assoc]
      · simpa using hjoints

/-- Joined pieces begin and end as the outer ones do. -/
theorem bare_intercalate (h : ∀ piece ∈ segments, joint ∉ piece)
    (hbare : Bare List.isEmpty segments) : Bare (· == joint) ([joint].intercalate segments) := by
  constructor
  · intro x hx
    cases segments with
    | nil => simp at hx
    | cons first rest =>
      have hfirst : first ≠ [] := by simpa using hbare.head first rfl
      have hhead : first.head? = some x := by
        by_cases hrest : rest = []
        · simpa [hrest] using hx
        · rw [List.intercalate_cons_of_ne_nil hrest, List.append_assoc,
            List.head?_append_of_ne_nil _ hfirst] at hx
          exact hx
      have hmem := List.mem_of_head? hhead
      exact beq_eq_false_iff_ne.2 fun heq => h first (by simp) (heq ▸ hmem)
  · intro x hx
    rcases List.eq_nil_or_concat segments with rfl | ⟨init, last, rfl⟩
    · simp at hx
    · have hlast : last ≠ [] := by simpa using hbare.last last (by simp)
      have hend : last.getLast? = some x := by
        by_cases hinit : init = []
        · simpa [hinit] using hx
        · rw [List.concat_eq_append, intercalate_append _ hinit (by simp),
            List.getLast?_append_of_ne_nil _ (by simpa using hlast)] at hx
          simpa using hx
      have hmem := List.mem_of_getLast? hend
      exact beq_eq_false_iff_ne.2 fun heq => h last (by simp) (heq ▸ hmem)

/-- To drop the separators at the ends of joined pieces is to drop the empty pieces there. -/
theorem dropEnds_intercalate (h : ∀ piece ∈ segments, joint ∉ piece) :
    dropEnds (· == joint) ([joint].intercalate segments) =
      [joint].intercalate (dropEnds List.isEmpty segments) := by
  obtain ⟨hbare, left, right, hsegments, hleft, hright⟩ :=
    dropEnds_eq_iff.1 (Eq.refl (dropEnds List.isEmpty segments))
  generalize dropEnds List.isEmpty segments = inner at *
  obtain ⟨before, hbefore, hb⟩ := exists_intercalate_append_left joint inner (by simpa using hleft)
  obtain ⟨after, hafter, ha⟩ :=
    exists_intercalate_append_right joint (left ++ inner) (by simpa using hright)
  have hinner : ∀ piece ∈ inner, joint ∉ piece :=
    fun piece hpiece => h piece (by simp [hsegments, hpiece])
  rw [hsegments, hafter, hbefore]
  exact dropEnds_surrounded hb (bare_intercalate hinner hbare) ha

end Joined

theorem notMem_of_mem_cut {cs piece : List Char} (h : piece ∈ cut separator cs) :
    separator ∉ piece := by
  intro hmem
  simpa using eq_false_of_mem_pieces h hmem

theorem cut_append_cons (separator : Char) (cs ds : List Char) :
    cut separator (cs ++ separator :: ds) = cut separator cs ++ cut separator ds := by
  simp only [cut, pieces_eq_splitOnP]
  exact List.splitOnP_append_cons cs ds (by simp)

@[simp] theorem cut_nil (separator : Char) : cut separator [] = [[]] := rfl

/-- A text without empty pieces has no separator at its ends. -/
theorem ends_of_nil_notMem_cut {cs : List Char} (h : [] ∉ cut separator cs) :
    cs ≠ [] ∧ cs.head? ≠ some separator ∧ cs.getLast? ≠ some separator := by
  refine ⟨fun hnil => ?_, fun hhead => ?_, fun hlast => ?_⟩
  · subst hnil
    exact h (by simp)
  · obtain ⟨rest, rfl⟩ := List.head?_eq_some_iff.1 hhead
    have hcut : cut separator (separator :: rest) = [[]] ++ cut separator rest :=
      cut_append_cons separator [] rest
    exact h (by simp [hcut])
  · obtain ⟨init, rfl⟩ := List.getLast?_eq_some_iff.1 hlast
    have hcut : cut separator (init ++ [separator]) = cut separator init ++ [[]] :=
      cut_append_cons separator init []
    exact h (by simp [hcut])

end Signpost.Text
