import Mathlib.Data.List.Basic
import Signpost.Endpoint.Match
import Signpost.Proofs.Dict

/-!
# Which requests an endpoint accepts

An endpoint accepts a request segment by segment: whether a segment fits does not depend on what has
been captured before it. The captured values are those that the segments give, each under the name
that its capture goes by outside.
-/
namespace Signpost.Endpoint

open Json

variable {types : Registry} {e : Endpoint}

/-- Whether a segment of the pattern can stand for a text. -/
def Fits (types : Registry) (e : Endpoint) : Segment → String → Prop
  | .literal text, raw => text = raw
  | .capture i, raw => ∃ c, e.captures[i]? = some c ∧ (c.param.convert types (.string raw)).isSome

/-- The binding that a segment of the pattern makes of a text. -/
def binding? (types : Registry) (e : Endpoint) : Segment × String → Option (String × Value)
  | (.literal _, _) => none
  | (.capture i, raw) =>
    e.captures[i]?.bind fun c => (c.param.convert types (.string raw)).map (c.param.rename, ·)

theorem binding?_eq_some_iff {p : Segment × String} {name : String} {value : Value} :
    binding? types e p = some (name, value) ↔
      ∃ i c, p.1 = .capture i ∧ e.captures[i]? = some c ∧ c.param.rename = name ∧
        c.param.convert types (.string p.2) = some value := by
  obtain ⟨s, raw⟩ := p
  cases s with
  | literal text => simp [binding?]
  | capture i => cases h : e.captures[i]? <;> simp [binding?, h, and_comm]

theorem take_eq_some_iff {values next : Dict Value} {p : Segment × String} :
    take types e values p = some next ↔
      Fits types e p.1 p.2 ∧ next = values.insertAll (binding? types e p).toList := by
  obtain ⟨s, raw⟩ := p
  cases s with
  | literal text => by_cases h : text = raw <;> simp [take, Fits, binding?, h, eq_comm]
  | capture i =>
    cases h : e.captures[i]? with
    | none => simp [take, Fits, h]
    | some c =>
      cases hc : c.param.convert types (.string raw) with
      | none => simp [take, Fits, h, hc]
      | some v =>
        have hfits : Fits types e (.capture i) raw := ⟨c, h, by simp [hc]⟩
        simp [take, binding?, h, hc, hfits, eq_comm (a := next)]

theorem foldlM_take_eq_some_iff {pairs : List (Segment × String)} {values next : Dict Value} :
    pairs.foldlM (take types e) values = some next ↔
      (∀ p ∈ pairs, Fits types e p.1 p.2) ∧
        next = values.insertAll (pairs.filterMap (binding? types e)) := by
  induction pairs generalizing values with
  | nil => simp [eq_comm]
  | cons p rest ih =>
    simp only [List.foldlM_cons, Option.bind_eq_bind, Option.bind_eq_some_iff, take_eq_some_iff, ih,
      List.forall_mem_cons]
    have hbindings : ∀ d : Dict Value,
        d.insertAll ((p :: rest).filterMap (binding? types e)) =
          (d.insertAll (binding? types e p).toList).insertAll
            (rest.filterMap (binding? types e)) := by
      intro d
      cases h : binding? types e p <;> simp [h]
    constructor
    · intro hleft
      obtain ⟨d, ⟨hp, rfl⟩, hrest, rfl⟩ := hleft
      exact ⟨⟨hp, hrest⟩, (hbindings values).symm⟩
    · intro hright
      obtain ⟨⟨hp, hrest⟩, rfl⟩ := hright
      exact ⟨_, ⟨hp, rfl⟩, hrest, hbindings values⟩

/-- A request is accepted if each of its segments fits, and the captured values are the bindings
that the segments make. -/
theorem accept_eq_some_iff {segments : List String} {values : Dict Value} :
    e.accept types segments = some values ↔
      segments.length = e.segments.length ∧
        (∀ p ∈ e.segments.zip segments, Fits types e p.1 p.2) ∧
          values = ({} : Dict Value).insertAll
            ((e.segments.zip segments).filterMap (binding? types e)) := by
  unfold accept
  split
  next h => simpa only [h, true_and] using foldlM_take_eq_some_iff
  next h => simp [h]

theorem accept_isSome_iff (segments : List String) :
    (e.accept types segments).isSome ↔
      segments.length = e.segments.length ∧
        ∀ p ∈ e.segments.zip segments, Fits types e p.1 p.2 := by
  simp [Option.isSome_iff_exists, accept_eq_some_iff]

theorem length_of_accept {segments : List String} (h : (e.accept types segments).isSome) :
    segments.length = e.segments.length :=
  ((accept_isSome_iff segments).1 h).1

/-- Each segment of an accepted request fits the segment of the pattern in its place. -/
theorem fits_of_accept {segments : List String} (h : (e.accept types segments).isSome)
    {n : Nat} {s : Segment} {raw : String} (hs : e.segments[n]? = some s)
    (hr : segments[n]? = some raw) : Fits types e s raw := by
  have hmem : (s, raw) ∈ e.segments.zip segments :=
    List.mem_of_getElem? (List.getElem?_zip_eq_some.2 ⟨hs, hr⟩)
  exact ((accept_isSome_iff segments).1 h).2 _ hmem

end Signpost.Endpoint
