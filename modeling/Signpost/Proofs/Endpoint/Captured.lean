import Signpost.Proofs.Endpoint.Compile
import Signpost.Proofs.Endpoint.Match

/-!
# What a compiled endpoint captures

A match of a compiled endpoint gives a value to each of its captures and to nothing else: no two
captures go by one name outside, so none of them takes the place of another.
-/
namespace Signpost.Endpoint

open Json

variable {types : Registry} {entry : Manifest.Entry} {e : Endpoint}

/-- The segments bind the captures, each to its own segment. -/
theorem mem_bindings_iff (h : compile entry = .ok e) {segments : List String} {name : String}
    {value : Value} :
    (name, value) ∈ (e.segments.zip segments).filterMap (binding? types e) ↔
      ∃ c ∈ e.captures, c.param.rename = name ∧
        ∃ raw, segments[c.position]? = some raw ∧
          c.param.convert types (.string raw) = some value := by
  rw [List.mem_filterMap]
  constructor
  · intro hleft
    obtain ⟨⟨s, raw⟩, hmem, hbinding⟩ := hleft
    obtain ⟨i, c, rfl, hc, hname, hvalue⟩ := binding?_eq_some_iff.1 hbinding
    obtain ⟨n, hn⟩ := List.mem_iff_getElem?.1 hmem
    obtain ⟨hs, hraw⟩ := List.getElem?_zip_eq_some.1 hn
    obtain ⟨d, hd, rfl⟩ := (getElem?_segments_iff h).1 hs
    obtain rfl := Option.some.inj (hc.symm.trans hd)
    exact ⟨c, List.mem_of_getElem? hc, hname, raw, hraw, hvalue⟩
  · intro hright
    obtain ⟨c, hc, hname, raw, hraw, hvalue⟩ := hright
    obtain ⟨i, hi⟩ := List.mem_iff_getElem?.1 hc
    have hs : e.segments[c.position]? = some (.capture i) :=
      (getElem?_segments_iff h).2 ⟨c, hi, rfl⟩
    have hmem : (Segment.capture i, raw) ∈ e.segments.zip segments :=
      List.mem_of_getElem? (List.getElem?_zip_eq_some.2 ⟨hs, hraw⟩)
    exact ⟨_, hmem, binding?_eq_some_iff.2 ⟨i, c, rfl, hi, hname, hvalue⟩⟩

/-- The values of a match are those of the captures. -/
theorem get?_of_accept (h : compile entry = .ok e) {segments : List String} {values : Dict Value}
    (ha : e.accept types segments = some values) {name : String} {value : Value} :
    values.get? name = some value ↔
      ∃ c ∈ e.captures, c.param.rename = name ∧
        ∃ raw, segments[c.position]? = some raw ∧
          c.param.convert types (.string raw) = some value := by
  obtain ⟨-, -, rfl⟩ := accept_eq_some_iff.1 ha
  -- One name belongs to one capture, one capture to one position, one position to one segment.
  have honly : ∀ key v w,
      (key, v) ∈ (e.segments.zip segments).filterMap (binding? types e) →
      (key, w) ∈ (e.segments.zip segments).filterMap (binding? types e) → v = w := by
    intro key v w hv hw
    obtain ⟨c, hc, hcname, raw, hraw, hcv⟩ := (mem_bindings_iff h).1 hv
    obtain ⟨d, hd, hdname, raw', hraw', hdw⟩ := (mem_bindings_iff h).1 hw
    obtain rfl : c = d := capture_rename_injective h hc hd (hcname.trans hdname.symm)
    obtain rfl := Option.some.inj (hraw.symm.trans hraw')
    exact Option.some.inj (hcv.symm.trans hdw)
  have hempty : ({} : Dict Value).get? name = none := rfl
  rw [Dict.get?_insertAll_eq_some_iff honly, mem_bindings_iff h, hempty]
  simp

/-- Each capture of a match has the value that its type makes of its segment. -/
theorem exists_value_of_accept (h : compile entry = .ok e) {segments : List String}
    {values : Dict Value} (ha : e.accept types segments = some values) {c : Capture}
    (hc : c ∈ e.captures) :
    ∃ raw value, segments[c.position]? = some raw ∧
      c.param.convert types (.string raw) = some value ∧
        values.get? c.param.rename = some value := by
  have hsome : (e.accept types segments).isSome := by simp [ha]
  obtain ⟨i, hi⟩ := List.mem_iff_getElem?.1 hc
  have hs : e.segments[c.position]? = some (.capture i) :=
    (getElem?_segments_iff h).2 ⟨c, hi, rfl⟩
  have hlt : c.position < segments.length := by
    rw [length_of_accept hsome]
    exact (List.getElem?_eq_some_iff.1 hs).1
  have hraw : segments[c.position]? = some segments[c.position] := List.getElem?_eq_getElem hlt
  obtain ⟨d, hd, hconvert⟩ := fits_of_accept hsome hs hraw
  obtain rfl := Option.some.inj (hi.symm.trans hd)
  obtain ⟨value, hvalue⟩ := Option.isSome_iff_exists.1 hconvert
  exact ⟨_, value, hraw, hvalue, (get?_of_accept h ha).2 ⟨c, hc, rfl, _, hraw, hvalue⟩⟩

theorem nodup_renames (h : compile entry = .ok e) : (e.captures.map (·.param.rename)).Nodup := by
  have hcaptures : e.captures.Nodup := (nodup_names h).of_map
  exact hcaptures.map_on fun c hc d hd hr => capture_rename_injective h hc hd hr

/-- A match has one value for each capture. -/
theorem size_of_accept (h : compile entry = .ok e) {segments : List String} {values : Dict Value}
    (ha : e.accept types segments = some values) : values.size = e.captures.length := by
  have hkeys : ∀ name, name ∈ values.keys ↔ name ∈ e.captures.map (·.param.rename) := by
    intro name
    rw [Dict.mem_keys_iff, Option.isSome_iff_exists, List.mem_map]
    constructor
    · intro hleft
      obtain ⟨value, hvalue⟩ := hleft
      obtain ⟨c, hc, hname, -⟩ := (get?_of_accept h ha).1 hvalue
      exact ⟨c, hc, hname⟩
    · intro hright
      obtain ⟨c, hc, rfl⟩ := hright
      obtain ⟨raw, value, -, -, hvalue⟩ := exists_value_of_accept h ha hc
      exact ⟨value, hvalue⟩
  have hperm := (List.perm_ext_iff_of_nodup values.nodup_keys (nodup_renames h)).2 hkeys
  simpa [Dict.keys, Dict.size] using hperm.length_eq

end Signpost.Endpoint
