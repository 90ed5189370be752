import Mathlib.Data.List.Basic
import Signpost.Dict

/-!
# Entries and look-ups

A dictionary lists an entry exactly if the look-up of its key gives its value. Entries that are
already in order stay as they are when a dictionary is made of them. Bindings put in one after
another decide the look-up of their own keys and leave the others alone.
-/
namespace Signpost.Dict

variable {α : Type u}

theorem ext_entries {d d' : Dict α} (h : d.entries = d'.entries) : d = d' := by
  cases d
  cases d'
  simpa using h

theorem lookup_eq_some_iff {l : List (String × α)} (h : l.Pairwise (fun a b => a.1 < b.1))
    {key : String} {value : α} : lookup key l = some value ↔ (key, value) ∈ l := by
  induction l with
  | nil => simp [lookup]
  | cons e rest ih =>
    obtain ⟨k, v⟩ := e
    obtain ⟨hk, hrest⟩ := List.pairwise_cons.1 h
    by_cases hkey : k = key
    · subst hkey
      have hnot : (k, value) ∉ rest := fun hmem => String.lt_irrefl k (hk _ hmem)
      simp [lookup, hnot, eq_comm]
    · simp [lookup, hkey, Ne.symm hkey, ih hrest]

theorem get?_eq_some_iff {d : Dict α} {key : String} {value : α} :
    d.get? key = some value ↔ (key, value) ∈ d.entries :=
  lookup_eq_some_iff d.sorted

theorem mem_keys_iff {d : Dict α} {key : String} : key ∈ d.keys ↔ (d.get? key).isSome := by
  simp [keys, Option.isSome_iff_exists, get?_eq_some_iff]

theorem nodup_keys (d : Dict α) : d.keys.Nodup := by
  refine List.pairwise_map.2 (d.sorted.imp fun {a b} hlt heq => ?_)
  rw [heq] at hlt
  exact String.lt_irrefl b.1 hlt

theorem mem_values_iff {d : Dict α} {value : α} :
    value ∈ d.values ↔ ∃ key, d.get? key = some value := by
  simp [values, get?_eq_some_iff]

theorem place_of_lt {key : String} {value : α} {l : List (String × α)}
    (h : ∀ e ∈ l, e.1 < key) : place key value l = l ++ [(key, value)] := by
  induction l with
  | nil => rfl
  | cons e rest ih =>
    obtain ⟨k, v⟩ := e
    have hk : k < key := h (k, v) (by simp)
    have hne : k ≠ key := fun heq => String.lt_irrefl key (heq ▸ hk)
    rw [place, if_neg (String.lt_asymm hk), if_neg hne, ih fun e he => h e (by simp [he])]
    rfl

/-- Entries in order make up a dictionary as they are. -/
theorem entries_ofList {l : List (String × α)} (h : l.Pairwise (fun a b => a.1 < b.1)) :
    (ofList l).entries = l := by
  suffices hfold : ∀ (d : Dict α) (l : List (String × α)),
      (d.entries ++ l).Pairwise (fun a b => a.1 < b.1) →
      (l.foldl (fun d e => d.insert e.1 e.2) d).entries = d.entries ++ l from hfold empty l h
  intro d l hl
  induction l generalizing d with
  | nil => simp
  | cons e rest ih =>
    have hlast : ∀ x ∈ d.entries, x.1 < e.1 := fun x hx =>
      (List.pairwise_append.1 hl).2.2 x hx e (by simp)
    have hinsert : (d.insert e.1 e.2).entries = d.entries ++ [e] := place_of_lt hlast
    rw [List.foldl_cons, ih _ (by simpa [hinsert] using hl), hinsert]
    simp

@[simp] theorem ofList_entries (d : Dict α) : ofList d.entries = d :=
  ext_entries (entries_ofList d.sorted)

theorem ext_get? {d d' : Dict α} (h : ∀ key, d.get? key = d'.get? key) : d = d' := by
  have hmem : ∀ e, e ∈ d.entries ↔ e ∈ d'.entries := by
    rintro ⟨key, value⟩
    rw [← get?_eq_some_iff, ← get?_eq_some_iff, h key]
  have hnodup : ∀ c : Dict α, c.entries.Nodup := fun c =>
    (List.pairwise_map.1 c.nodup_keys).imp fun hne heq => hne (congrArg Prod.fst heq)
  have hperm := (List.perm_ext_iff_of_nodup (hnodup d) (hnodup d')).2 hmem
  refine ext_entries (hperm.eq_of_pairwise (fun a b _ _ hab hba => ?_) d.sorted d'.sorted)
  exact absurd hba (String.lt_asymm hab)

theorem eq_of_get?_eq_some_iff {d d' : Dict α}
    (h : ∀ key value, d.get? key = some value ↔ d'.get? key = some value) : d = d' :=
  ext_get? fun key => Option.ext (h key)

/-- The entries that are listed before one are those with smaller keys. -/
theorem mem_before_iff {d : Dict α} {before after : List (String × α)} {key other : String}
    {value v : α} (h : d.entries = before ++ (key, value) :: after) :
    (other, v) ∈ before ↔ other < key ∧ d.get? other = some v := by
  have hsorted := d.sorted
  rw [h, List.pairwise_append, List.pairwise_cons] at hsorted
  obtain ⟨-, ⟨hafter, -⟩, hbefore⟩ := hsorted
  rw [get?_eq_some_iff, h, List.mem_append, List.mem_cons]
  constructor
  · intro hmem
    exact ⟨hbefore _ hmem (key, value) (by simp), .inl hmem⟩
  · rintro ⟨hlt, hmem | hmem | hmem⟩
    · exact hmem
    · rw [Prod.mk.injEq] at hmem
      exact absurd hlt (hmem.1 ▸ String.lt_irrefl key)
    · exact absurd hlt (String.lt_asymm (hafter _ hmem))

/-- The entry with the least key among those whose values have a property. -/
structure Least (d : Dict α) (P : α → Prop) (key : String) (value : α) : Prop where
  entry : d.get? key = some value
  holds : P value
  least : ∀ other v, other < key → d.get? other = some v → ¬ P v

theorem find?_entries_eq_some_iff {d : Dict α} {P : α → Prop} [DecidablePred P] {key : String}
    {value : α} : d.entries.find? (fun e => P e.2) = some (key, value) ↔ d.Least P key value := by
  constructor
  · intro h
    obtain ⟨hholds, before, after, hsplit, hbefore⟩ := List.find?_eq_some_iff_append.1 h
    have hmem : (key, value) ∈ d.entries := by simp [hsplit]
    refine ⟨get?_eq_some_iff.2 hmem, by simpa using hholds, fun other v hlt hv => ?_⟩
    simpa using hbefore _ ((mem_before_iff hsplit).2 ⟨hlt, hv⟩)
  · intro h
    obtain ⟨before, after, hsplit⟩ := List.append_of_mem (get?_eq_some_iff.1 h.entry)
    refine List.find?_eq_some_iff_append.2 ⟨by simpa using h.holds, before, after, hsplit, ?_⟩
    rintro ⟨other, v⟩ hv
    obtain ⟨hlt, hentry⟩ := (mem_before_iff hsplit).1 hv
    simpa using h.least other v hlt hentry

theorem find?_values_eq_some_iff {d : Dict α} {P : α → Prop} [DecidablePred P] {value : α} :
    d.values.find? (fun v => P v) = some value ↔ ∃ key, d.Least P key value := by
  rw [values, List.find?_map, Option.map_eq_some_iff]
  simp only [Function.comp_def, Prod.exists, ← find?_entries_eq_some_iff]
  constructor
  · rintro ⟨key, v, hfind, rfl⟩
    exact ⟨key, hfind⟩
  · rintro ⟨key, hfind⟩
    exact ⟨key, value, hfind, rfl⟩

/-- A dictionary with bindings put in one after another. -/
def insertAll (d : Dict α) (bindings : List (String × α)) : Dict α :=
  bindings.foldl (fun d b => d.insert b.1 b.2) d

@[simp] theorem insertAll_nil (d : Dict α) : d.insertAll [] = d := rfl

@[simp] theorem insertAll_cons (d : Dict α) (b : String × α) (rest : List (String × α)) :
    d.insertAll (b :: rest) = (d.insert b.1 b.2).insertAll rest := rfl

theorem get?_insertAll_of_notMem {d : Dict α} {bindings : List (String × α)} {key : String}
    (h : key ∉ bindings.map (·.1)) : (d.insertAll bindings).get? key = d.get? key := by
  induction bindings generalizing d with
  | nil => rfl
  | cons b rest ih =>
    simp only [List.map_cons, List.mem_cons, not_or] at h
    rw [insertAll_cons, ih h.2, get?_insert, if_neg (Ne.symm h.1)]

theorem get?_insertAll_of_mem {d : Dict α} {bindings : List (String × α)} {key : String} {value : α}
    (hmem : (key, value) ∈ bindings) (honly : ∀ v, (key, v) ∈ bindings → v = value) :
    (d.insertAll bindings).get? key = some value := by
  induction bindings generalizing d with
  | nil => simp at hmem
  | cons b rest ih =>
    rw [insertAll_cons]
    -- The last binding of the key decides, which is this one if no other follows.
    by_cases hrest : (key, value) ∈ rest
    · exact ih hrest fun v hv => honly v (List.mem_cons_of_mem _ hv)
    · obtain rfl : (key, value) = b := by simpa [hrest] using hmem
      have hlast : key ∉ rest.map (·.1) := by
        intro hkey
        obtain ⟨⟨k, v⟩, hv, rfl⟩ := List.mem_map.1 hkey
        obtain rfl := honly v (List.mem_cons_of_mem _ hv)
        exact hrest hv
      rw [get?_insertAll_of_notMem hlast, get?_insert_self]

/-- Bindings that give no key two values decide the look-up of the keys they have. -/
theorem get?_insertAll_eq_some_iff {d : Dict α} {bindings : List (String × α)}
    (h : ∀ key v w, (key, v) ∈ bindings → (key, w) ∈ bindings → v = w) {key : String} {value : α} :
    (d.insertAll bindings).get? key = some value ↔
      (key, value) ∈ bindings ∨ key ∉ bindings.map (·.1) ∧ d.get? key = some value := by
  by_cases hkey : key ∈ bindings.map (·.1)
  · obtain ⟨⟨k, v⟩, hv, rfl⟩ := List.mem_map.1 hkey
    have hget : (d.insertAll bindings).get? k = some v :=
      get?_insertAll_of_mem hv fun w hw => h k w v hw hv
    constructor
    · intro hvalue
      obtain rfl : v = value := Option.some.inj (hget.symm.trans hvalue)
      exact .inl hv
    · intro hright
      rcases hright with hmem | ⟨hnot, -⟩
      · rw [hget, h k v value hv hmem]
      · exact absurd hkey hnot
  · have hnot : (key, value) ∉ bindings := fun hmem => hkey (List.mem_map_of_mem hmem)
    rw [get?_insertAll_of_notMem hkey]
    simp [hkey, hnot]

/-- Bindings that are put in bring their keys, and no other keys. -/
theorem isSome_get?_insertAll_iff {d : Dict α} {bindings : List (String × α)} {key : String} :
    ((d.insertAll bindings).get? key).isSome ↔
      key ∈ bindings.map (·.1) ∨ (d.get? key).isSome := by
  induction bindings generalizing d with
  | nil => simp
  | cons b rest ih =>
    rw [insertAll_cons, ih, get?_insert]
    by_cases hkey : b.1 = key
    · simp [hkey]
    · simp [hkey, Ne.symm hkey]

theorem mem_keys_ofList {l : List (String × α)} {key : String} :
    key ∈ (ofList l).keys ↔ key ∈ l.map (·.1) := by
  have hkeys : ((empty.insertAll l).get? key).isSome ↔ _ := isSome_get?_insertAll_iff
  rw [mem_keys_iff]
  exact hkeys.trans (by simp)

/-- The order in which the entries of a dictionary are put in makes no difference. -/
theorem ofList_of_perm {d : Dict α} {l : List (String × α)} (h : l.Perm d.entries) :
    ofList l = d := by
  have hmem : ∀ key value, (key, value) ∈ l ↔ d.get? key = some value := fun key value => by
    rw [h.mem_iff, get?_eq_some_iff]
  have hsingle : ∀ key v w, (key, v) ∈ l → (key, w) ∈ l → v = w := fun key v w hv hw =>
    Option.some.inj (((hmem key v).1 hv).symm.trans ((hmem key w).1 hw))
  refine eq_of_get?_eq_some_iff fun key value => ?_
  have hget : ((empty.insertAll l).get? key = some value) ↔ _ := get?_insertAll_eq_some_iff hsingle
  rw [← hmem]
  exact hget.trans (by simp)

/-- The entries whose keys are among some names. -/
def restrict (d : Dict α) (names : List String) : Dict α :=
  ⟨d.entries.filter (·.1 ∈ names), d.sorted.filter _⟩

theorem get?_restrict_eq_some_iff {d : Dict α} {names : List String} {key : String} {value : α} :
    (d.restrict names).get? key = some value ↔ key ∈ names ∧ d.get? key = some value := by
  rw [get?_eq_some_iff, get?_eq_some_iff, restrict, List.mem_filter]
  simp [and_comm]

theorem restrict_of_keys {d : Dict α} {names : List String}
    (h : ∀ name, (d.get? name).isSome → name ∈ names) : d.restrict names = d := by
  refine eq_of_get?_eq_some_iff fun key value => ?_
  rw [get?_restrict_eq_some_iff, and_iff_right_iff_imp]
  intro hvalue
  exact h key (by simp [hvalue])

end Signpost.Dict
