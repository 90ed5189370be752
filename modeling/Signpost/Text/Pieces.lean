/-!
# Cutting a list at separators

`pieces p` cuts a list at every element of the class `p`; there is one piece more than there are
separators, and joining the pieces again gives the list back.
-/
namespace Signpost.Text

variable {α : Type u}

/-- Lay `x` before the first of the pieces. -/
def extendFirst (x : α) : List (List α) → List (List α)
  | [] => [[x]]
  | piece :: rest => (x :: piece) :: rest

/-- The parts of a list between the elements of a class. -/
def pieces (p : α → Bool) (xs : List α) : List (List α) :=
  xs.foldr (fun x acc => if p x then [] :: acc else extendFirst x acc) [[]]

@[simp] theorem pieces_nil (p : α → Bool) : pieces p [] = [[]] := rfl

theorem pieces_cons (p : α → Bool) (x : α) (xs : List α) :
    pieces p (x :: xs) = if p x then [] :: pieces p xs else extendFirst x (pieces p xs) := rfl

theorem pieces_ne_nil (p : α → Bool) (xs : List α) : pieces p xs ≠ [] := by
  cases xs with
  | nil => simp
  | cons x xs =>
    rw [pieces_cons]
    split
    · simp
    · cases pieces p xs <;> simp [extendFirst]

/-- Cut a text at a character. -/
def cut (separator : Char) (cs : List Char) : List (List Char) := pieces (· = separator) cs

/-- The part before the first element of the class, and the part after it if there is one. -/
def cutOnce (p : α → Bool) (xs : List α) : List α × List α :=
  (xs.takeWhile (!p ·), (xs.dropWhile (!p ·)).drop 1)

end Signpost.Text
