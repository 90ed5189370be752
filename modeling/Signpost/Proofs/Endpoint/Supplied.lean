import Signpost.Proofs.Endpoint.Captured
import Signpost.Proofs.Endpoint.Overlap

/-!
# Endpoints with all that is looked up for them

Matching a request and comparing two endpoints look up captures by their number and types by their
name, and resolving a scope looks up captured values and the places of roles. For a compiled
endpoint whose types are known all of this is there.
-/
namespace Signpost.Endpoint

open Json

variable {types : Registry} {entry : Manifest.Entry} {e : Endpoint}

/-- A segment of the pattern turns a text down: it is another text, or a capture whose type rejects
the text. -/
def Rejects (types : Registry) (e : Endpoint) : Segment → String → Prop
  | .literal text, raw => text ≠ raw
  | .capture i, raw => ∃ c convert, e.captures[i]? = some c ∧
      c.param.conversion types = some convert ∧ convert (.string raw) = none

/-- Every look-up made for an endpoint finds what it looks for. -/
structure Supplied (types : Registry) (e : Endpoint) : Prop where
  capture : ∀ (n i : Nat), e.segments[n]? = some (.capture i) →
    ∃ c, e.captures[i]? = some c ∧ e.captureAt n = some c
  conversion : ∀ q ∈ e.parameters, ∃ convert, q.2.conversion types = some convert
  captureConversion : ∀ c ∈ e.captures, ∃ convert, c.param.conversion types = some convert
  admitsAt : ∀ (n i : Nat), e.segments[n]? = some (.capture i) → ∀ text,
    ∃ verdict, e.admitsAt types n text = .ok verdict
  /-- A request is passed over for the number of its segments or for a segment that is turned
  down. -/
  accept_eq_none_iff : ∀ segments, e.accept types segments = none ↔
    segments.length ≠ e.segments.length ∨
      ∃ (n : Nat) (s : Segment) (raw : String), e.segments[n]? = some s ∧
        segments[n]? = some raw ∧ Rejects types e s raw
  captured : ∀ segments values, e.accept types segments = some values →
    ∀ r ∈ e.scope.references, ∃ v, values.get? r.capture = some v
  /-- The roles required are the templates, with the text of a captured value for each reference. -/
  resolve : ∀ segments values, e.accept types segments = some values →
    e.scope.resolve values = e.scope.groups.map
        (·.map fun t => String.join (t.parts.map (Part.write (Template.valueText values)))) ∧
      ∀ roles ∈ e.scope.groups, ∀ t ∈ roles, ∀ name ∈ t.captures,
        ∃ v, values.get? name = some v ∧ Template.valueText values name = roleText v
  /-- When its turn comes, a reference has a template to render and a role in its place. -/
  position : ∀ values done r rest, e.scope.references = done ++ r :: rest →
    (∃ t, e.scope.templateAt r.group r.item = some t) ∧
      ∃ role, ((done.foldl (e.scope.fillReference values)
        (e.scope.groups.map (·.map (·.raw))))[r.group]?).bind (·[r.item]?) = some role

theorem capture_of_segment (h : compile entry = .ok e) {n i : Nat}
    (hs : e.segments[n]? = some (.capture i)) :
    ∃ c, e.captures[i]? = some c ∧ e.captureAt n = some c := by
  obtain ⟨c, hc, -⟩ := (getElem?_segments_iff h).1 hs
  exact ⟨c, hc, (captureAt_of_capture hs).trans hc⟩

theorem conversion_of_capture (h : compile entry = .ok e)
    (hknown : ∀ q ∈ e.parameters, (q.2.conversion types).isSome) {c : Capture}
    (hc : c ∈ e.captures) : ∃ convert, c.param.conversion types = some convert := by
  have hinput : (Source.captureKey c.name, c.param) ∈ e.input.entries :=
    Dict.get?_eq_some_iff.1 (get?_captureKey h hc).1
  have hsome := hknown _ (List.mem_append_left _ hinput)
  exact Option.isSome_iff_exists.1 hsome

theorem admitsAt_eq_ok {n : Nat} {c : Capture} (hc : e.captureAt n = some c)
    {convert : Conversion} (hconvert : c.param.conversion types = some convert) (text : String) :
    e.admitsAt types n text = .ok (convert (.string text)).isSome := by
  simp only [admitsAt, hc, hconvert]

theorem exists_admitsAt (h : compile entry = .ok e)
    (hknown : ∀ c ∈ e.captures, (c.param.conversion types).isSome) {n i : Nat}
    (hs : e.segments[n]? = some (.capture i)) (text : String) :
    ∃ verdict, e.admitsAt types n text = .ok verdict := by
  obtain ⟨c, hc, hat⟩ := capture_of_segment h hs
  obtain ⟨convert, hconvert⟩ := Option.isSome_iff_exists.1 (hknown c (List.mem_of_getElem? hc))
  exact ⟨_, admitsAt_eq_ok hat hconvert text⟩

theorem not_fits_iff_rejects {s : Segment}
    (hc : ∀ i, s = .capture i → ∃ c convert, e.captures[i]? = some c ∧
      c.param.conversion types = some convert) (raw : String) :
    ¬ Fits types e s raw ↔ Rejects types e s raw := by
  cases s with
  | literal text => rfl
  | capture i =>
    obtain ⟨c, convert, hi, hconvert⟩ := hc i rfl
    simp [Fits, Rejects, hi, hconvert, Parameter.convert]

theorem accept_eq_none_iff_rejects (h : compile entry = .ok e)
    (hknown : ∀ q ∈ e.parameters, (q.2.conversion types).isSome) (segments : List String) :
    e.accept types segments = none ↔ segments.length ≠ e.segments.length ∨
      ∃ (n : Nat) (s : Segment) (raw : String), e.segments[n]? = some s ∧
        segments[n]? = some raw ∧ Rejects types e s raw := by
  have hrejects : ∀ {n : Nat} {s : Segment}, e.segments[n]? = some s → ∀ raw,
      (¬ Fits types e s raw ↔ Rejects types e s raw) := by
    intro n s hs raw
    refine not_fits_iff_rejects (fun i hi => ?_) raw
    obtain ⟨c, hc, -⟩ := capture_of_segment h (hi ▸ hs)
    obtain ⟨convert, hconvert⟩ := conversion_of_capture h hknown (List.mem_of_getElem? hc)
    exact ⟨c, convert, hc, hconvert⟩
  rw [← Option.not_isSome_iff_eq_none, accept_isSome_iff, not_and_or]
  refine or_congr_right ?_
  constructor
  · intro hnot
    obtain ⟨⟨s, raw⟩, hmem, hfits⟩ : ∃ p ∈ e.segments.zip segments, ¬ Fits types e p.1 p.2 := by
      simpa only [not_forall, exists_prop] using hnot
    obtain ⟨n, hn⟩ := List.mem_iff_getElem?.1 hmem
    obtain ⟨hs, hraw⟩ := List.getElem?_zip_eq_some.1 hn
    exact ⟨n, s, raw, hs, hraw, (hrejects hs raw).1 hfits⟩
  · rintro ⟨n, s, raw, hs, hraw, hreject⟩ hall
    have hmem : (s, raw) ∈ e.segments.zip segments :=
      List.mem_of_getElem? (List.getElem?_zip_eq_some.2 ⟨hs, hraw⟩)
    exact (hrejects hs raw).2 hreject (hall _ hmem)

theorem scope_of_compile (h : compile entry = .ok e) :
    e.scope = Scope.compile entry.scope (e.captures.map (·.param.rename)) := by
  obtain ⟨pattern, -, -, -, -, -, -, -, -, -, hscope⟩ := compile_eq_ok_iff.1 h
  exact hscope

theorem exists_value_of_reference (h : compile entry = .ok e) {segments : List String}
    {values : Dict Value} (ha : e.accept types segments = some values) {r : Reference}
    (hr : r ∈ e.scope.references) : ∃ v, values.get? r.capture = some v := by
  rw [scope_of_compile h] at hr
  obtain ⟨c, hc, hname⟩ := List.mem_map.1 (Scope.mem_captures_of_mem_references hr)
  obtain ⟨raw, v, -, -, hv⟩ := exists_value_of_accept h ha hc
  exact ⟨v, hname ▸ hv⟩

theorem references_of_compile (h : compile entry = .ok e) :
    e.scope.references = Scope.allReferences e.scope.groups := by
  rw [scope_of_compile h]
  exact Scope.references_compile _ _

theorem mem_references_of_template (h : compile entry = .ok e) {roles : List Template}
    (hroles : roles ∈ e.scope.groups) {t : Template} (ht : t ∈ roles) {name : String}
    (hname : name ∈ t.captures) : ∃ r ∈ e.scope.references, r.capture = name := by
  obtain ⟨g, hg⟩ := List.mem_iff_getElem?.1 hroles
  obtain ⟨i, hi⟩ := List.mem_iff_getElem?.1 ht
  refine ⟨⟨name, g, i⟩, ?_, rfl⟩
  rw [references_of_compile h]
  exact Scope.mem_allReferences_iff.2 ⟨roles, t, hg, hi, hname⟩

theorem templateAt_of_reference (h : compile entry = .ok e) {r : Reference}
    (hr : r ∈ e.scope.references) : ∃ t, e.scope.templateAt r.group r.item = some t := by
  rw [references_of_compile h] at hr
  obtain ⟨roles, t, hroles, ht, -⟩ := Scope.mem_allReferences_iff.1 hr
  exact ⟨t, by simp [Scope.templateAt, hroles, ht]⟩

/-- A compiled endpoint whose types are known is supplied with all that is looked up for it. -/
theorem supplied_of_compile (h : compile entry = .ok e)
    (hknown : ∀ q ∈ e.parameters, (q.2.conversion types).isSome) : Supplied types e where
  capture n i hs := capture_of_segment h hs
  conversion q hq := Option.isSome_iff_exists.1 (hknown q hq)
  captureConversion c hc := conversion_of_capture h hknown hc
  admitsAt n i hs text := by
    refine exists_admitsAt h (fun c hc => ?_) hs text
    exact Option.isSome_iff_exists.2 (conversion_of_capture h hknown hc)
  accept_eq_none_iff := accept_eq_none_iff_rejects h hknown
  captured segments values ha r hr := exists_value_of_reference h ha hr
  resolve segments values ha := by
    refine ⟨?_, fun roles hroles t ht name hname => ?_⟩
    · rw [scope_of_compile h]
      exact Scope.resolve_eq_join _ _ values
    · obtain ⟨r, hr, rfl⟩ := mem_references_of_template h hroles ht hname
      obtain ⟨v, hv⟩ := exists_value_of_reference h ha hr
      exact ⟨v, hv, by simp [Template.valueText, hv]⟩
  position values done r rest heq := by
    have hat : ∀ q ∈ done ++ r :: rest, ∃ t, e.scope.templateAt q.group q.item = some t :=
      fun q hq => templateAt_of_reference h (heq ▸ hq)
    obtain ⟨t, ht⟩ := hat r (by simp)
    have hdone : ∀ q ∈ done, ∃ t, e.scope.templateAt q.group q.item = some t :=
      fun q hq => hat q (List.mem_append_left _ hq)
    exact ⟨⟨t, ht⟩, e.scope.exists_role_of_templateAt values hdone ht⟩

theorem exists_verdict_of_overlaps {a b : Endpoint} (ha : Supplied types a)
    (hb : Supplied types b) : ∃ verdict, overlaps types a b = .ok verdict :=
  exists_verdict_of_admitsAt ha.admitsAt hb.admitsAt

end Signpost.Endpoint
