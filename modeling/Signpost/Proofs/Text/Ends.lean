import Mathlib.Data.List.Forall2
import Mathlib.Data.List.TakeWhile

/-!
# The ends of a list

What is left of a list when the elements of a class are taken from its ends is the one part of it
that has none there and is surrounded by them alone.
-/
namespace Signpost.Text

variable {α : Type u} {p : α → Bool} {xs ys before after : List α}

/-- A list without the elements of a class at its ends. -/
def dropEnds (p : α → Bool) (xs : List α) : List α :=
  ((xs.dropWhile p).reverse.dropWhile p).reverse

/-- No element of a class stands at either end of a list. -/
structure Bare (p : α → Bool) (xs : List α) : Prop where
  head : ∀ x, xs.head? = some x → p x = false
  last : ∀ x, xs.getLast? = some x → p x = false

theorem bare_nil : Bare p ([] : List α) := ⟨by simp, by simp⟩

theorem dropWhile_eq_self (h : ∀ x, xs.head? = some x → p x = false) : xs.dropWhile p = xs := by
  cases xs with
  | nil => rfl
  | cons x xs => rw [List.dropWhile_cons_of_neg (by simp [h x rfl])]

theorem exists_eq_append_dropWhile (p : α → Bool) (xs : List α) :
    ∃ before, xs = before ++ xs.dropWhile p ∧ ∀ x ∈ before, p x = true :=
  ⟨xs.takeWhile p, List.takeWhile_append_dropWhile.symm, fun _ hx => List.mem_takeWhile_imp hx⟩

theorem exists_eq_dropWhile_reverse_append (p : α → Bool) (xs : List α) :
    ∃ after, xs = (xs.reverse.dropWhile p).reverse ++ after ∧ ∀ x ∈ after, p x = true := by
  obtain ⟨before, hxs, hbefore⟩ := exists_eq_append_dropWhile p xs.reverse
  refine ⟨before.reverse, ?_, by simpa using hbefore⟩
  rw [← List.reverse_append, ← hxs, List.reverse_reverse]

theorem eq_false_of_head?_dropWhile {xs : List α} {x : α}
    (h : (xs.dropWhile p).head? = some x) : p x = false := by
  simpa [h] using List.head?_dropWhile_not p xs

theorem bare_dropEnds (p : α → Bool) (xs : List α) : Bare p (dropEnds p xs) where
  head x hx := by
    obtain ⟨after, hxs, -⟩ := exists_eq_dropWhile_reverse_append p (xs.dropWhile p)
    have hhead : (xs.dropWhile p).head? = some x := by
      rw [hxs, List.head?_append, ← dropEnds, hx]
      rfl
    exact eq_false_of_head?_dropWhile hhead
  last x hx := by
    rw [dropEnds, List.getLast?_reverse] at hx
    exact eq_false_of_head?_dropWhile hx

theorem dropEnds_of_forall (h : ∀ x ∈ xs, p x = true) : dropEnds p xs = [] := by
  rw [dropEnds, List.dropWhile_eq_nil_iff.2 h]
  rfl

theorem dropEnds_surrounded (hbefore : ∀ x ∈ before, p x = true) (hys : Bare p ys)
    (hafter : ∀ x ∈ after, p x = true) : dropEnds p (before ++ ys ++ after) = ys := by
  cases ys with
  | nil =>
    rw [List.append_nil]
    exact dropEnds_of_forall fun x hx => (List.mem_append.1 hx).elim (hbefore x) (hafter x)
  | cons y ys =>
    have hhead : ∀ x, (y :: ys ++ after).head? = some x → p x = false := by
      simpa using hys.head
    have hlast : ∀ x, (y :: ys).reverse.head? = some x → p x = false := by
      simpa only [List.head?_reverse] using hys.last
    have hafter' : ∀ x ∈ after.reverse, p x = true := by simpa using hafter
    rw [dropEnds, List.append_assoc, List.dropWhile_append_of_pos hbefore, dropWhile_eq_self hhead,
      List.reverse_append, List.dropWhile_append_of_pos hafter', dropWhile_eq_self hlast,
      List.reverse_reverse]

/-- The part of a list that is left when its ends are dropped. -/
theorem dropEnds_eq_iff :
    dropEnds p xs = ys ↔ Bare p ys ∧ ∃ before after, xs = before ++ ys ++ after ∧
      (∀ x ∈ before, p x = true) ∧ ∀ x ∈ after, p x = true := by
  constructor
  · rintro rfl
    obtain ⟨before, hbefore, hp⟩ := exists_eq_append_dropWhile p xs
    obtain ⟨after, hafter, hp'⟩ := exists_eq_dropWhile_reverse_append p (xs.dropWhile p)
    refine ⟨bare_dropEnds p xs, before, after, ?_, hp, hp'⟩
    rw [List.append_assoc, dropEnds, ← hafter, ← hbefore]
  · rintro ⟨hys, before, after, rfl, hbefore, hafter⟩
    exact dropEnds_surrounded hbefore hys hafter

theorem dropEnds_of_bare (h : Bare p xs) : dropEnds p xs = xs := by
  have hnone : ∀ x ∈ ([] : List α), p x = true := by simp
  simpa using dropEnds_surrounded hnone h hnone

theorem dropEnds_eq_self_iff : dropEnds p xs = xs ↔ Bare p xs :=
  ⟨fun h => h ▸ bare_dropEnds p xs, dropEnds_of_bare⟩

theorem dropEnds_eq_nil_iff : dropEnds p xs = [] ↔ ∀ x ∈ xs, p x = true := by
  constructor
  · intro h
    obtain ⟨-, before, after, rfl, hbefore, hafter⟩ := dropEnds_eq_iff.1 h
    simpa [or_imp, forall_and] using ⟨hbefore, hafter⟩
  · exact dropEnds_of_forall

theorem mem_of_mem_dropEnds {x : α} (h : x ∈ dropEnds p xs) : x ∈ xs := by
  obtain ⟨-, before, after, hxs, -⟩ := dropEnds_eq_iff.1 (Eq.refl (dropEnds p xs))
  rw [hxs]
  simp [h]

theorem dropEnds_map {β : Type v} (q : β → Bool) (f : α → β) (xs : List α) :
    dropEnds q (xs.map f) = (dropEnds (fun x => q (f x)) xs).map f := by
  simp only [dropEnds, List.dropWhile_map, ← List.map_reverse]
  rfl

theorem forall₂_dropWhile {β : Type v} {R : α → β → Prop} {q : β → Bool} {zs : List β}
    (h : List.Forall₂ R xs zs) (hpq : ∀ x z, R x z → p x = q z) :
    List.Forall₂ R (xs.dropWhile p) (zs.dropWhile q) := by
  induction h with
  | nil => exact .nil
  | @cons x z _ _ hr hrest ih =>
    rw [List.dropWhile_cons, List.dropWhile_cons, hpq x z hr]
    split
    · exact ih
    · exact .cons hr hrest

/-- Lists that match element by element still do when the elements of matching classes are dropped
from their ends. -/
theorem forall₂_dropEnds {β : Type v} {R : α → β → Prop} {q : β → Bool} {zs : List β}
    (h : List.Forall₂ R xs zs) (hpq : ∀ x z, R x z → p x = q z) :
    List.Forall₂ R (dropEnds p xs) (dropEnds q zs) :=
  List.rel_reverse (forall₂_dropWhile (List.rel_reverse (forall₂_dropWhile h hpq)) hpq)

/-- More elements of the class around a list make no difference. -/
theorem dropEnds_append (hbefore : ∀ x ∈ before, p x = true) (hafter : ∀ x ∈ after, p x = true) :
    dropEnds p (before ++ xs ++ after) = dropEnds p xs := by
  obtain ⟨hbare, before', after', hxs, hbefore', hafter'⟩ :=
    dropEnds_eq_iff.1 (Eq.refl (dropEnds p xs))
  have hall : before ++ xs ++ after =
      before ++ before' ++ dropEnds p xs ++ (after' ++ after) := by
    simp only [List.append_assoc] at hxs ⊢
    rw [← List.append_assoc (dropEnds p xs), ← List.append_assoc before', ← hxs]
  rw [hall]
  exact dropEnds_surrounded (List.forall_mem_append.2 ⟨hbefore, hbefore'⟩) hbare
    (List.forall_mem_append.2 ⟨hafter', hafter⟩)

end Signpost.Text
