/-!
# Dictionaries with text keys

A `Dict` keeps its entries in strictly increasing order of keys, so it holds each key at most once
and two dictionaries that answer every look-up alike are equal. Texts are ordered by code point,
which is also the order of their UTF-8 bytes.
-/
namespace Signpost

/-- A finite map from texts, listed in increasing order of keys. -/
structure Dict (α : Type u) where
  entries : List (String × α)
  sorted : entries.Pairwise (fun a b => a.1 < b.1)
  deriving DecidableEq

namespace Dict

variable {α : Type u} {β : Type v}

instance [Repr α] : Repr (Dict α) := ⟨fun d n => reprPrec d.entries n⟩

def empty : Dict α := ⟨[], .nil⟩

instance : EmptyCollection (Dict α) := ⟨empty⟩

instance : Inhabited (Dict α) := ⟨empty⟩

def isEmpty (d : Dict α) : Bool := d.entries.isEmpty

def size (d : Dict α) : Nat := d.entries.length

def keys (d : Dict α) : List String := d.entries.map (·.1)

def values (d : Dict α) : List α := d.entries.map (·.2)

/-- The value listed under `key`. -/
def lookup (key : String) : List (String × α) → Option α
  | [] => none
  | (k, v) :: rest => if k = key then some v else lookup key rest

def get? (d : Dict α) (key : String) : Option α := lookup key d.entries

def contains (d : Dict α) (key : String) : Bool := (d.get? key).isSome

/-- Put `key` in its place, over the value it had. -/
def place (key : String) (value : α) : List (String × α) → List (String × α)
  | [] => [(key, value)]
  | (k, v) :: rest =>
    if key < k then (key, value) :: (k, v) :: rest
    else if k = key then (key, value) :: rest
    else (k, v) :: place key value rest

theorem fst_mem_place {key : String} {value : α} {l : List (String × α)} {e : String × α}
    (h : e ∈ place key value l) : e.1 = key ∨ e ∈ l := by
  induction l with
  | nil => simp_all [place]
  | cons p rest ih =>
    obtain ⟨k, v⟩ := p
    unfold place at h
    split at h
    · simp only [List.mem_cons] at h ⊢
      rcases h with rfl | h
      · exact .inl rfl
      · exact .inr h
    · split at h
      · simp only [List.mem_cons] at h ⊢
        rcases h with rfl | h
        · exact .inl rfl
        · exact .inr (.inr h)
      · simp only [List.mem_cons] at h ⊢
        rcases h with rfl | h
        · exact .inr (.inl rfl)
        · exact (ih h).imp id .inr

theorem place_sorted (key : String) (value : α) {l : List (String × α)}
    (h : l.Pairwise (fun a b => a.1 < b.1)) :
    (place key value l).Pairwise (fun a b => a.1 < b.1) := by
  induction l with
  | nil => simp [place]
  | cons p rest ih =>
    obtain ⟨k, v⟩ := p
    obtain ⟨hk, hr⟩ := List.pairwise_cons.1 h
    unfold place
    split
    next hlt =>
      refine List.pairwise_cons.2 ⟨?_, h⟩
      intro e he
      rcases List.mem_cons.1 he with rfl | he
      · exact hlt
      · exact String.lt_trans hlt (hk e he)
    next hlt =>
      split
      next heq =>
        subst heq
        exact List.pairwise_cons.2 ⟨hk, hr⟩
      next hne =>
        refine List.pairwise_cons.2 ⟨?_, ih hr⟩
        intro e he
        rcases fst_mem_place he with he | he
        · rw [he]
          exact Decidable.byContradiction fun hn =>
            hne (String.le_antisymm (String.not_lt.1 hlt) (String.not_lt.1 hn))
        · exact hk e he

def insert (d : Dict α) (key : String) (value : α) : Dict α :=
  ⟨place key value d.entries, place_sorted key value d.sorted⟩

/-- Every entry whose key is not `key`. -/
def erase (d : Dict α) (key : String) : Dict α :=
  ⟨d.entries.filter (·.1 ≠ key), d.sorted.filter _⟩

/-- Of several entries with one key the last stays. -/
def ofList (entries : List (String × α)) : Dict α :=
  entries.foldl (fun d e => d.insert e.1 e.2) empty

/-- Every value replaced by `f` of it; the keys stay. -/
def map (f : α → β) (d : Dict α) : Dict β :=
  ⟨d.entries.map fun e => (e.1, f e.2), List.pairwise_map.2 d.sorted⟩

theorem lookup_place (key other : String) (value : α) (l : List (String × α)) :
    lookup other (place key value l) = if key = other then some value else lookup other l := by
  induction l with
  | nil => simp [place, lookup]
  | cons p rest ih =>
    obtain ⟨k, v⟩ := p
    unfold place
    split
    · simp [lookup]
    · split
      next heq => subst heq; by_cases h : k = other <;> simp [lookup, h]
      next hne =>
        by_cases h : k = other
        · subst h
          simp [lookup, Ne.symm hne]
        · simp [lookup, h, ih]

@[simp] theorem get?_empty (key : String) : (empty : Dict α).get? key = none := rfl

theorem get?_insert (d : Dict α) (key other : String) (value : α) :
    (d.insert key value).get? other = if key = other then some value else d.get? other :=
  lookup_place key other value d.entries

@[simp] theorem get?_insert_self (d : Dict α) (key : String) (value : α) :
    (d.insert key value).get? key = some value := by
  simp [get?_insert]

theorem lookup_filter_ne (key other : String) (l : List (String × α)) :
    lookup other (l.filter (·.1 ≠ key)) = if key = other then none else lookup other l := by
  induction l with
  | nil => simp [lookup]
  | cons p rest ih =>
    obtain ⟨k, v⟩ := p
    by_cases hk : k = key
    · subst hk
      by_cases h : k = other <;> simp_all [lookup]
    · by_cases h : k = other
      · subst h
        simp [lookup, hk, Ne.symm hk]
      · by_cases h' : key = other <;> simp_all [lookup]

theorem get?_erase (d : Dict α) (key other : String) :
    (d.erase key).get? other = if key = other then none else d.get? other :=
  lookup_filter_ne key other d.entries

theorem get?_map (f : α → β) (d : Dict α) (key : String) :
    (d.map f).get? key = (d.get? key).map f := by
  suffices h : ∀ l : List (String × α),
      lookup key (l.map fun e => (e.1, f e.2)) = (lookup key l).map f from h d.entries
  intro l
  induction l with
  | nil => rfl
  | cons p rest ih =>
    obtain ⟨k, v⟩ := p
    by_cases h : k = key <;> simp [lookup, h, ih]

end Dict

end Signpost
