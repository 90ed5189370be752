import Signpost.Proofs.Role.Template
import Signpost.Role.Scope

/-!
# Scopes and direct substitution

The references of a scope are those of its templates, each at a position that exists, and filling
them in gives every role with its references replaced. So a caller is admitted to a compiled scope
exactly if the scope as written, after direct substitution, admits them.
-/
namespace Signpost

open Json

namespace Scope

/-- The references of a scope are those of its templates, each listed at its template's position. -/
theorem mem_allReferences_iff {groups : List (List Template)} {r : Reference} :
    r ∈ allReferences groups ↔
      ∃ roles t, groups[r.group]? = some roles ∧ roles[r.item]? = some t ∧
        r.capture ∈ t.captures := by
  simp only [allReferences, List.mem_flatten, List.mem_mapIdx]
  constructor
  · intro hleft
    obtain ⟨_, ⟨g, hg, rfl⟩, hr⟩ := hleft
    obtain ⟨_, hin, hr⟩ := List.mem_flatten.1 hr
    obtain ⟨i, hi, rfl⟩ := List.mem_mapIdx.1 hin
    obtain ⟨capture, hcap, rfl⟩ := List.mem_map.1 hr
    exact ⟨groups[g], groups[g][i], List.getElem?_eq_getElem hg, List.getElem?_eq_getElem hi, hcap⟩
  · intro hright
    obtain ⟨roles, t, hroles, ht, hcap⟩ := hright
    obtain ⟨hg, rfl⟩ := List.getElem?_eq_some_iff.1 hroles
    obtain ⟨hi, rfl⟩ := List.getElem?_eq_some_iff.1 ht
    refine ⟨_, ⟨r.group, hg, rfl⟩, List.mem_flatten.2 ⟨_, List.mem_mapIdx.2 ⟨r.item, hi, rfl⟩, ?_⟩⟩
    exact List.mem_map.2 ⟨r.capture, hcap, rfl⟩

/-- Elements that come from one index alone are found at that index. -/
theorem filter_flatten_mapIdx {α β : Type} {k : Nat} {p : β → Bool} (l : List α)
    (f : Nat → α → List β) (h : ∀ i x, i ≠ k → (f i x).filter p = []) :
    ((l.mapIdx f).flatten).filter p = ((l[k]?).map fun x => (f k x).filter p).getD [] := by
  induction l generalizing f k with
  | nil => simp
  | cons x rest ih =>
    rw [List.mapIdx_cons, List.flatten_cons, List.filter_append]
    cases k with
    | zero =>
      have hrest : ((rest.mapIdx fun i => f (i + 1)).flatten).filter p = [] := by
        rw [List.filter_flatten, List.flatten_eq_nil_iff]
        intro l hl
        obtain ⟨_, hm, rfl⟩ := List.mem_map.1 hl
        obtain ⟨i, hi, rfl⟩ := List.mem_mapIdx.1 hm
        exact h (i + 1) rest[i] (by omega)
      simp [hrest]
    | succ k =>
      rw [h 0 x (by simp), List.nil_append, ih _ fun i y hi => h (i + 1) y (by simpa using hi)]
      rfl

/-- The references listed for a position are those of the template there, in its order. -/
theorem filter_allReferences (groups : List (List Template)) (g i : Nat) :
    (allReferences groups).filter (fun r => r.group = g ∧ r.item = i) =
      (((groups[g]?).bind (·[i]?)).map (referencesOf g i)).getD [] := by
  have hroles (roles : List Template) :
      ((roles.mapIdx (referencesOf g)).flatten).filter (fun r => r.group = g ∧ r.item = i) =
        ((roles[i]?).map (referencesOf g i)).getD [] := by
    rw [filter_flatten_mapIdx (k := i)]
    · cases roles[i]? <;> simp [referencesOf]
    · intro j t hj
      simp [referencesOf, hj]
  rw [allReferences, filter_flatten_mapIdx (k := g)]
  · cases groups[g]? with
    | none => rfl
    | some roles => simpa using hroles roles
  · intro k roles hk
    simp only [List.filter_eq_nil_iff, List.mem_flatten, List.mem_mapIdx]
    rintro r ⟨_, ⟨j, hj, rfl⟩, hr⟩
    obtain ⟨capture, -, rfl⟩ := List.mem_map.1 hr
    simp [hk]

/-- References are listed in the order of groups, and of roles within a group. -/
theorem allReferences_sorted (groups : List (List Template)) :
    (allReferences groups).Pairwise fun a b =>
      a.group < b.group ∨ a.group = b.group ∧ a.item ≤ b.item := by
  have hat {g : Nat} {roles : List Template} {r : Reference}
      (hr : r ∈ (roles.mapIdx (referencesOf g)).flatten) : r.group = g := by
    obtain ⟨_, hin, hr⟩ := List.mem_flatten.1 hr
    obtain ⟨i, hi, rfl⟩ := List.mem_mapIdx.1 hin
    obtain ⟨capture, -, rfl⟩ := List.mem_map.1 hr
    rfl
  rw [allReferences, List.pairwise_flatten]
  constructor
  · intro l hl
    obtain ⟨g, hg, rfl⟩ := List.mem_mapIdx.1 hl
    rw [List.pairwise_flatten]
    constructor
    · intro l hl
      obtain ⟨i, hi, rfl⟩ := List.mem_mapIdx.1 hl
      rw [referencesOf, List.pairwise_map]
      exact List.pairwise_of_forall fun _ _ => .inr ⟨rfl, Nat.le_refl i⟩
    · rw [List.pairwise_iff_getElem]
      intro i j hi hj hij a ha b hb
      simp only [List.getElem_mapIdx, referencesOf, List.mem_map] at ha hb
      obtain ⟨_, -, rfl⟩ := ha
      obtain ⟨_, -, rfl⟩ := hb
      exact .inr ⟨rfl, Nat.le_of_lt hij⟩
  · rw [List.pairwise_iff_getElem]
    intro i j hi hj hij a ha b hb
    rw [List.getElem_mapIdx] at ha hb
    rw [hat ha, hat hb]
    exact .inl hij

theorem templateAt_of_mem_allReferences {groups : List (List Template)} {r : Reference}
    (h : r ∈ allReferences groups) :
    ∃ t, (Scope.mk groups (allReferences groups)).templateAt r.group r.item = some t := by
  obtain ⟨roles, t, hroles, ht, _⟩ := mem_allReferences_iff.1 h
  exact ⟨t, by simp [templateAt, hroles, ht]⟩

/-- The roles of a group, those at the positions in `done` rendered and the others as written. -/
def partlyRendered (values : Dict Value) (done : Nat → Bool) (roles : List Template) :
    List String :=
  roles.mapIdx fun i t => if done i then t.render values else t.raw

theorem partlyRendered_none (values : Dict Value) (roles : List Template) :
    partlyRendered values (fun _ => false) roles = roles.map (·.raw) := by
  apply List.ext_getElem <;> simp [partlyRendered]

theorem set_partlyRendered (values : Dict Value) (done : Nat → Bool) {roles : List Template}
    {item : Nat} {t : Template} (ht : roles[item]? = some t) :
    (partlyRendered values done roles).set item (t.render values) =
      partlyRendered values (fun i => done i || i = item) roles := by
  obtain ⟨_, rfl⟩ := List.getElem?_eq_some_iff.1 ht
  apply List.ext_getElem
  · simp [partlyRendered]
  · intro i _ _
    by_cases hi : i = item
    · subst hi
      simp [partlyRendered]
    · simp [partlyRendered, hi, Ne.symm hi]

/-- Filling in a reference renders the role at its position and leaves the others. -/
theorem fillReference_mapIdx (s : Scope) (values : Dict Value) (done : Nat → Nat → Bool)
    {r : Reference} {t : Template} (ht : s.templateAt r.group r.item = some t) :
    s.fillReference values (s.groups.mapIdx fun g => partlyRendered values (done g)) r =
      s.groups.mapIdx fun g =>
        partlyRendered values fun i => done g i || (g = r.group && i = r.item) := by
  obtain ⟨roles, hroles, hitem⟩ := Option.bind_eq_some_iff.1 ht
  simp only [fillReference, ht, setAt]
  apply List.ext_getElem?
  intro g
  by_cases hg : g = r.group
  · subst hg
    simp [hroles, set_partlyRendered values _ hitem]
  · simp [hg, Ne.symm hg]

theorem foldl_fillReference (s : Scope) (values : Dict Value) {references : List Reference}
    (hat : ∀ r ∈ references, ∃ t, s.templateAt r.group r.item = some t)
    (done : Nat → Nat → Bool) :
    references.foldl (s.fillReference values)
        (s.groups.mapIdx fun g => partlyRendered values (done g)) =
      s.groups.mapIdx fun g => partlyRendered values fun i =>
        done g i || references.any fun r => g = r.group && i = r.item := by
  induction references generalizing done with
  | nil => simp
  | cons r rest ih =>
    obtain ⟨t, ht⟩ := hat r (by simp)
    rw [List.foldl_cons, fillReference_mapIdx s values done ht,
      ih (fun r hr => hat r (by simp [hr]))]
    simp only [List.any_cons, Bool.or_assoc]

theorem map_raw_eq_mapIdx (groups : List (List Template)) (values : Dict Value) :
    groups.map (·.map (·.raw)) = groups.mapIdx fun _ => partlyRendered values fun _ => false := by
  apply List.ext_getElem <;> simp [partlyRendered_none]

/-- While references are filled in, a role stands at every position that has a template. -/
theorem exists_role_of_templateAt (s : Scope) (values : Dict Value) {done : List Reference}
    (hat : ∀ r ∈ done, ∃ t, s.templateAt r.group r.item = some t) {group item : Nat}
    {t : Template} (ht : s.templateAt group item = some t) :
    ∃ role, ((done.foldl (s.fillReference values) (s.groups.map (·.map (·.raw))))[group]?).bind
      (·[item]?) = some role := by
  obtain ⟨roles, hroles, hitem⟩ := Option.bind_eq_some_iff.1 ht
  rw [map_raw_eq_mapIdx s.groups values, foldl_fillReference s values hat]
  simp [hroles, partlyRendered, hitem]

/-- Rendering the roles with references alone renders them all. -/
theorem resolve_allReferences (groups : List (List Template)) (values : Dict Value) :
    (Scope.mk groups (allReferences groups)).resolve values =
      groups.map (·.map (·.render values)) := by
  unfold resolve
  rw [map_raw_eq_mapIdx groups values,
    foldl_fillReference _ values fun r hr => templateAt_of_mem_allReferences hr]
  apply List.ext_getElem
  · simp
  intro g hg _
  apply List.ext_getElem
  · simp [partlyRendered]
  intro i hi _
  simp only [List.length_mapIdx] at hg
  have hi : i < groups[g].length := by simpa [partlyRendered] using hi
  simp only [List.getElem_mapIdx, partlyRendered, Bool.false_or, List.getElem_map]
  split
  next hany => rfl
  next hany =>
    -- no reference is listed for this role, so it has none and is rendered as written
    have hstatic : groups[g][i].isStatic := by
      rw [Template.isStatic, List.isEmpty_iff]
      refine List.eq_nil_iff_forall_not_mem.2 fun capture hcap => hany ?_
      have hmem : Reference.mk capture g i ∈ allReferences groups :=
        mem_allReferences_iff.2 ⟨groups[g], groups[g][i], List.getElem?_eq_getElem hg,
          List.getElem?_eq_getElem hi, hcap⟩
      exact List.any_eq_true.2 ⟨_, hmem, by simp⟩
    simp [Template.render, hstatic]

/-- A role with its references to captures replaced by the captured values. -/
def substituteRole (captures : List String) (values : Dict Value) (role : String) : String :=
  String.ofList (Template.substitute captures (Template.valueText values) role.toList)

/-- The roles that a compiled scope requires are those written, with references replaced. -/
theorem resolve_compile (raw : List (List String)) (captures : List String)
    (values : Dict Value) :
    (compile raw captures).resolve values =
      if raw = [[]] then [] else raw.map (·.map (substituteRole captures values)) := by
  unfold compile
  split
  next h => rfl
  next h =>
    rw [resolve_allReferences]
    simp [substituteRole, Template.render_compile]

/-- A compiled scope lists the references of its own templates, whatever was written. -/
theorem references_compile (raw : List (List String)) (captures : List String) :
    (compile raw captures).references = allReferences (compile raw captures).groups := by
  unfold compile
  split <;> rfl

/-- The roles that a compiled scope requires are its templates, each rendered. -/
theorem resolve_eq_render (raw : List (List String)) (captures : List String)
    (values : Dict Value) : (compile raw captures).resolve values =
      (compile raw captures).groups.map (·.map (·.render values)) := by
  unfold compile
  split
  · rfl
  · exact resolve_allReferences _ values

theorem exists_eq_compile_of_templateAt {raw : List (List String)} {captures : List String}
    {group item : Nat} {t : Template} (h : (compile raw captures).templateAt group item = some t) :
    ∃ role, t = Template.compile role captures.contains := by
  obtain ⟨roles, hroles, ht⟩ := Option.bind_eq_some_iff.1 h
  unfold compile at hroles
  split at hroles
  · simp [unrestricted] at hroles
  · rw [List.getElem?_map] at hroles
    obtain ⟨written, -, rfl⟩ := Option.map_eq_some_iff.1 hroles
    rw [List.getElem?_map] at ht
    obtain ⟨role, -, rfl⟩ := Option.map_eq_some_iff.1 ht
    exact ⟨role, rfl⟩

/-- The roles that a compiled scope requires are its templates, written part by part. -/
theorem resolve_eq_join (raw : List (List String)) (captures : List String) (values : Dict Value) :
    (compile raw captures).resolve values = (compile raw captures).groups.map
      (·.map fun t => String.join (t.parts.map (Part.write (Template.valueText values)))) := by
  rw [resolve_eq_render]
  unfold compile
  split
  · rfl
  · simp [Template.render_eq_join]

theorem mem_captures_of_mem_references {raw : List (List String)} {captures : List String}
    {r : Reference} (h : r ∈ (compile raw captures).references) : r.capture ∈ captures := by
  rw [references_compile] at h
  obtain ⟨roles, t, hroles, ht, hcap⟩ := mem_allReferences_iff.1 h
  obtain ⟨role, rfl⟩ := exists_eq_compile_of_templateAt
    (Option.bind_eq_some_iff.2 ⟨roles, hroles, ht⟩)
  exact Template.mem_of_mem_captures hcap

end Scope

namespace Grant

theorem granted_iff (g : Grant) :
    g.granted = true ↔ g.required = [] ∨ ∃ group ∈ g.required, ∀ role ∈ group, role ∈ g.active := by
  simp [granted]

/-- A caller is admitted to a compiled scope exactly if nothing is required or the caller holds
every role of some group, as written but with the references replaced at once. Each reference that
is rewritten lies inside the scope, and more roles never turn a caller away. -/
theorem granted_compile_iff (raw : List (List String)) (captures : List String)
    (values : Dict Value) (active : List String) :
    let scope := Scope.compile raw captures
    ((forScope scope values active).granted = true ↔
      raw = [] ∨ ∃ group ∈ raw, ∀ role ∈ group,
        Scope.substituteRole captures values role ∈ active) ∧
    (∀ r ∈ scope.references, ∃ roles t, scope.groups[r.group]? = some roles ∧
      roles[r.item]? = some t ∧ r.capture ∈ t.captures) ∧
    (∀ other : List String, (∀ role, role ∈ active ↔ role ∈ other) →
      (forScope scope values active).granted = (forScope scope values other).granted) ∧
    ∀ other : List String, (∀ role ∈ active, role ∈ other) →
      (forScope scope values active).granted = true →
        (forScope scope values other).granted = true := by
  intro scope
  have hmono : ∀ active other : List String, (∀ role ∈ active, role ∈ other) →
      (forScope scope values active).granted = true →
        (forScope scope values other).granted = true := by
    intro active other hsub h
    rw [granted_iff] at h ⊢
    exact h.imp_right fun ⟨group, hgroup, hroles⟩ =>
      ⟨group, hgroup, fun role hrole => hsub role (hroles role hrole)⟩
  refine ⟨?_, ?_, fun other hiff => ?_, fun other hsub => hmono active other hsub⟩
  · rw [granted_iff]
    simp only [forScope, scope, Scope.resolve_compile]
    by_cases hraw : raw = [[]]
    · simp [hraw]
    · simp [hraw]
  · intro r hr
    rw [Scope.references_compile] at hr
    exact Scope.mem_allReferences_iff.1 hr
  · exact Bool.eq_iff_iff.2 ⟨hmono active other fun role h => (hiff role).1 h,
      hmono other active fun role h => (hiff role).2 h⟩

end Grant

end Signpost
