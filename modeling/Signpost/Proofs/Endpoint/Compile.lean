import Signpost.Endpoint.Compile
import Signpost.Proofs.Parameter
import Signpost.Proofs.Pattern
import Signpost.Proofs.Role.Scope

/-!
# Compiled endpoints

An entry compiles if each stage of the compilation succeeds. What the stages establish together is
what serving an endpoint relies on: captures, segments and inputs belong together, names outside do
not clash, and the scope refers to captures alone.
-/
namespace Signpost.Endpoint

theorem bindCapture_eq_ok_iff {input : Dict Parameter} {c : String × Nat} {k : Capture} :
    bindCapture input c = .ok k ↔
      captureInput input c.1 = some k.param ∧ k.name = c.1 ∧ k.position = c.2 := by
  unfold bindCapture
  cases h : captureInput input c.1 with
  | none => simp
  | some param =>
    obtain ⟨name, position, p⟩ := k
    simp only [Except.ok.injEq, Capture.mk.injEq, Option.some.injEq]
    tauto

theorem checkClashes_of_eq_none {ps : Dict Parameter} (h : Parameter.firstClash ps = none) :
    checkClashes ps = .ok ⟨h⟩ := by
  unfold checkClashes
  revert h
  generalize Parameter.firstClash ps = clash
  rintro rfl
  rfl

theorem checkInput_eq_ok_iff {captures : List (String × Nat)} {key : String}
    {raw : Manifest.Param} {p : Parameter} :
    checkInput captures key raw = .ok p ↔
      Parameter.input key raw = .ok p ∧ (p.source = .uri → p.name ∈ captures.map (·.1)) := by
  unfold checkInput
  cases h : Parameter.input key raw with
  | error e => simp
  | ok q =>
    have hall : captures.all (·.1 ≠ q.name) = true ↔ q.name ∉ captures.map (·.1) := by
      simp only [List.all_eq_true, decide_eq_true_eq, List.mem_map, not_exists, not_and]
    by_cases hq : q.source = .uri ∧ q.name ∉ captures.map (·.1)
    · simp only [hall, hq, and_self, not_false_eq_true, if_true]
      constructor
      · intro h
        cases h
      · intro hright
        obtain ⟨hok, hmem⟩ := hright
        obtain rfl := Except.ok.inj hok
        exact absurd (hmem hq.1) hq.2
    · simp only [hall, if_neg hq]
      constructor
      · intro hok
        obtain rfl := Except.ok.inj hok
        exact ⟨rfl, fun hsource => by_contra fun hmem => hq ⟨hsource, hmem⟩⟩
      · intro hright
        obtain ⟨hok, -⟩ := hright
        rw [Except.ok.inj hok]

theorem checkOutput_eq_ok_iff {key : String} {raw : Manifest.Param} {p : Parameter} :
    checkOutput key raw = .ok p ↔ Parameter.output key raw = .ok p :=
  mapError_eq_ok_iff

/-- Parameters are checked one by one under their keys. -/
theorem checkEach_eq_ok_iff {check : String → Manifest.Param → Except Defect Parameter}
    {ps : Dict Manifest.Param} {qs : Dict Parameter} :
    checkEach check ps = .ok qs ↔
      List.Forall₂ (fun a b => a.1 = b.1 ∧ check a.1 a.2 = .ok b.2) ps.entries qs.entries := by
  have hstep : ∀ (a : String × Manifest.Param) (b : String × Parameter),
      ((check a.1 a.2).map fun q => (a.1, q)).mapError (fun d => (some a.1, d)) = .ok b ↔
        a.1 = b.1 ∧ check a.1 a.2 = .ok b.2 := by
    rintro ⟨key, raw⟩ ⟨other, q⟩
    rw [mapError_eq_ok_iff, map_eq_ok_iff]
    simp only [Prod.mk.injEq]
    constructor
    · intro hleft
      obtain ⟨r, hr, rfl, rfl⟩ := hleft
      exact ⟨rfl, hr⟩
    · intro hright
      obtain ⟨rfl, hq⟩ := hright
      exact ⟨q, hq, rfl, rfl⟩
  simp only [checkEach, map_eq_ok_iff, mapM_eq_ok_iff, hstep]
  constructor
  · intro hleft
    obtain ⟨checked, hchecked, rfl⟩ := hleft
    have hkeys : checked.map (·.1) = ps.entries.map (·.1) := by
      have hsame : List.Forall₂ (· = ·) (ps.entries.map (·.1)) (checked.map (·.1)) :=
        List.forall₂_map_left_iff.2 (List.forall₂_map_right_iff.2 (hchecked.imp fun a b h => h.1))
      rw [List.forall₂_eq_eq_eq] at hsame
      exact hsame.symm
    have hsorted : checked.Pairwise (fun a b => a.1 < b.1) := by
      have := List.pairwise_map.2 ps.sorted
      rw [← hkeys] at this
      exact List.pairwise_map.1 this
    rwa [Dict.entries_ofList hsorted]
  · intro h
    exact ⟨qs.entries, h, Dict.ofList_entries qs⟩

/-- An entry compiles if each stage succeeds. The endpoint itself says that no two outputs clash. -/
theorem compile_eq_ok_iff {entry : Manifest.Entry} {e : Endpoint} :
    compile entry = .ok e ↔ ∃ pattern,
      Method.ofText? entry.method = some e.method ∧ Pattern.parse entry.path = .ok pattern ∧
      checkEach (checkInput pattern.captures) entry.input = .ok e.input ∧
      pattern.captures.mapM (bindCapture e.input) = .ok e.captures ∧
      checkEach checkOutput entry.output = .ok e.output ∧
      Parameter.firstClash e.input = none ∧ e.pattern = entry.path ∧ e.info = entry.info ∧
      e.segments = pattern.segments ∧
      e.scope = Scope.compile entry.scope (e.captures.map (·.param.rename)) := by
  rw [compile, mapError_eq_ok_iff, assemble]
  cases hm : Method.ofText? entry.method with
  | none => simp [bind_eq_ok_iff]
  | some method =>
    simp only [bind_eq_ok_iff, mapError_eq_ok_iff, pure, Except.pure, Except.ok.injEq,
      Option.some.injEq]
    constructor
    · intro hleft
      obtain ⟨_, rfl, pattern, hpattern, input, hinput, captures, hcaptures, output, houtput,
        ⟨hin⟩, _, _, _, rfl⟩ := hleft
      exact ⟨pattern, rfl, hpattern, hinput, hcaptures, houtput, hin, rfl, rfl, rfl, rfl⟩
    · intro hright
      obtain ⟨pattern, rfl, hpattern, hinput, hcaptures, houtput, hin, hp, hi, hs, hscope⟩ := hright
      refine ⟨_, rfl, pattern, hpattern, _, hinput, _, hcaptures, _, houtput,
        _, checkClashes_of_eq_none hin, _, checkClashes_of_eq_none e.output_apart, ?_⟩
      simp only [← hp, ← hi, ← hs, ← hscope]

theorem get?_checkEach {check : String → Manifest.Param → Except Defect Parameter}
    {ps : Dict Manifest.Param} {qs : Dict Parameter} (h : checkEach check ps = .ok qs)
    {key : String} {q : Parameter} :
    qs.get? key = some q ↔ ∃ raw, ps.get? key = some raw ∧ check key raw = .ok q := by
  have hall := checkEach_eq_ok_iff.1 h
  constructor
  · intro hq
    obtain ⟨i, hi⟩ := List.mem_iff_getElem?.1 (Dict.get?_eq_some_iff.1 hq)
    obtain ⟨⟨k, raw⟩, hraw, hk, hcheck⟩ := exists_of_forall₂_right hall hi
    obtain rfl : k = key := hk
    exact ⟨raw, Dict.get?_eq_some_iff.2 (List.mem_of_getElem? hraw), hcheck⟩
  · intro hright
    obtain ⟨raw, hraw, hcheck⟩ := hright
    obtain ⟨i, hi⟩ := List.mem_iff_getElem?.1 (Dict.get?_eq_some_iff.1 hraw)
    obtain ⟨⟨k, r⟩, hr, hk, hok⟩ := exists_of_forall₂_left hall hi
    obtain rfl : key = k := hk
    obtain rfl := Except.ok.inj (hcheck.symm.trans hok)
    exact Dict.get?_eq_some_iff.2 (List.mem_of_getElem? hr)

/-- The input that types a capture is the one under the name of the capture in braces. -/
theorem get?_of_captureInput {captures : List (String × Nat)} {ps : Dict Manifest.Param}
    {input : Dict Parameter} (h : checkEach (checkInput captures) ps = .ok input) {name : String}
    {q : Parameter} (hq : captureInput input name = some q) :
    input.get? (Source.captureKey name) = some q ∧ q.source = .uri := by
  have htyped : q.source = .uri ∧ q.name = name := by simpa using List.find?_some hq
  obtain ⟨key, hkey⟩ := Dict.mem_values_iff.1 (List.mem_of_find?_eq_some hq)
  obtain ⟨p, -, hcheck⟩ := (get?_checkEach h).1 hkey
  have hof := Parameter.ofKey_of_input (checkInput_eq_ok_iff.1 hcheck).1
  rw [htyped.1, htyped.2] at hof
  obtain rfl := Source.ofKey_eq_uri_iff.1 hof
  exact ⟨hkey, htyped.1⟩

section Compiled

variable {entry : Manifest.Entry} {e : Endpoint}

/-- The path of the entry is the pattern of segments and captures that the endpoint has. -/
theorem parse_path (h : compile entry = .ok e) :
    Pattern.parse entry.path = .ok ⟨e.segments, e.captures.map fun c => (c.name, c.position)⟩ := by
  obtain ⟨pattern, -, hparse, -, hcaptures, -, -, -, -, hsegments, -⟩ := compile_eq_ok_iff.1 h
  have hsame : List.Forall₂ (· = ·) pattern.captures
      (e.captures.map fun c => (c.name, c.position)) := by
    refine List.forall₂_map_right_iff.2 ((mapM_eq_ok_iff.1 hcaptures).imp fun c k hk => ?_)
    obtain ⟨-, hname, hposition⟩ := bindCapture_eq_ok_iff.1 hk
    rw [hname, hposition]
  rw [List.forall₂_eq_eq_eq] at hsame
  rw [hparse, hsegments, ← hsame]

theorem numbered (h : compile entry = .ok e) :
    Pattern.Numbered ⟨e.segments, e.captures.map fun c => (c.name, c.position)⟩ :=
  Pattern.numbered_of_parse (parse_path h)

theorem nodup_names (h : compile entry = .ok e) : (e.captures.map (·.name)).Nodup := by
  simpa [Function.comp_def] using (numbered h).distinct

/-- A segment is a capture exactly at the position of the capture with its number. -/
theorem getElem?_segments_iff (h : compile entry = .ok e) {n i : Nat} :
    e.segments[n]? = some (.capture i) ↔ ∃ c, e.captures[i]? = some c ∧ c.position = n := by
  rw [(numbered h).positions n i]
  simp [List.getElem?_map, Option.map_eq_some_iff]

theorem captureAt_eq_some_iff (h : compile entry = .ok e) {n : Nat} {c : Capture} :
    e.captureAt n = some c ↔ c ∈ e.captures ∧ c.position = n := by
  constructor
  · intro hat
    unfold captureAt at hat
    split at hat
    next i hs =>
      obtain ⟨k, hk, hn⟩ := (getElem?_segments_iff h).1 hs
      obtain rfl := Option.some.inj (hk.symm.trans hat)
      exact ⟨List.mem_of_getElem? hk, hn⟩
    next => simp at hat
  · intro hright
    obtain ⟨hmem, hn⟩ := hright
    obtain ⟨i, hi⟩ := List.mem_iff_getElem?.1 hmem
    have hs := (getElem?_segments_iff h).2 ⟨c, hi, hn⟩
    simp [captureAt, hs, hi]

/-- Inputs have passed their own check, and those read from the path name a capture. -/
theorem input_of_compile (h : compile entry = .ok e) {key : String} {p : Parameter}
    (hp : e.input.get? key = some p) :
    (∃ raw, Parameter.input key raw = .ok p) ∧
      (p.source = .uri → ∃ c ∈ e.captures, c.name = p.name) := by
  obtain ⟨pattern, -, hparse, hinput, -⟩ := compile_eq_ok_iff.1 h
  obtain ⟨raw, -, hcheck⟩ := (get?_checkEach hinput).1 hp
  obtain ⟨hok, hname⟩ := checkInput_eq_ok_iff.1 hcheck
  obtain rfl := Except.ok.inj (hparse.symm.trans (parse_path h))
  refine ⟨⟨raw, hok⟩, fun hs => ?_⟩
  simpa using hname hs

theorem output_of_compile (h : compile entry = .ok e) {key : String} {p : Parameter}
    (hp : e.output.get? key = some p) : ∃ raw, Parameter.output key raw = .ok p := by
  obtain ⟨pattern, -, -, -, -, houtput, -⟩ := compile_eq_ok_iff.1 h
  obtain ⟨raw, -, hcheck⟩ := (get?_checkEach houtput).1 hp
  exact ⟨raw, checkOutput_eq_ok_iff.1 hcheck⟩

/-- Each capture is typed by the input under its name in braces. -/
theorem get?_captureKey (h : compile entry = .ok e) {c : Capture} (hc : c ∈ e.captures) :
    e.input.get? (Source.captureKey c.name) = some c.param ∧ c.param.source = .uri := by
  obtain ⟨pattern, -, -, hinput, hcaptures, -⟩ := compile_eq_ok_iff.1 h
  obtain ⟨i, hi⟩ := List.mem_iff_getElem?.1 hc
  obtain ⟨declared, -, hbind⟩ := exists_of_forall₂_right (mapM_eq_ok_iff.1 hcaptures) hi
  obtain ⟨hfound, hname, -⟩ := bindCapture_eq_ok_iff.1 hbind
  rw [hname]
  exact get?_of_captureInput hinput hfound

/-- The inputs read from the path are those that type the captures. -/
theorem uri_input_iff (h : compile entry = .ok e) {key : String} {p : Parameter} :
    e.input.get? key = some p ∧ p.source = .uri ↔
      ∃ c ∈ e.captures, key = Source.captureKey c.name ∧ p = c.param := by
  constructor
  · intro hleft
    obtain ⟨hp, hs⟩ := hleft
    obtain ⟨⟨raw, hok⟩, hcapture⟩ := input_of_compile h hp
    obtain ⟨c, hc, hname⟩ := hcapture hs
    have hof := Parameter.ofKey_of_input hok
    rw [hs, ← hname] at hof
    obtain rfl := Source.ofKey_eq_uri_iff.1 hof
    exact ⟨c, hc, rfl, Option.some.inj (hp.symm.trans (get?_captureKey h hc).1)⟩
  · intro hright
    obtain ⟨c, hc, rfl, rfl⟩ := hright
    exact get?_captureKey h hc

/-- Two inputs that go by one name outside are the same. -/
theorem input_key_injective (h : compile entry = .ok e) {key other : String} {p q : Parameter}
    (hp : e.input.get? key = some p) (hq : e.input.get? other = some q)
    (hr : p.rename = q.rename) : key = other := by
  obtain ⟨pattern, -, -, -, -, -, hclash, -⟩ := compile_eq_ok_iff.1 h
  by_contra hne
  exact (Parameter.firstClash_eq_none_iff.1 hclash key p other q hp hq hne).1 hr

/-- Two captures that go by one name outside are the same. -/
theorem capture_rename_injective (h : compile entry = .ok e) {c d : Capture}
    (hc : c ∈ e.captures) (hd : d ∈ e.captures) (hr : c.param.rename = d.param.rename) : c = d := by
  have hkey : Source.captureKey c.name = Source.captureKey d.name :=
    input_key_injective h (get?_captureKey h hc).1 (get?_captureKey h hd).1 hr
  exact List.inj_on_of_nodup_map (nodup_names h) hc hd (Source.captureKey_injective hkey)

end Compiled

/-- What holds of every compiled endpoint: its fields, though built one by one, fit together. -/
structure Coherent (e : Endpoint) : Prop where
  /-- Captures are numbered from the left. -/
  indices : e.segments.filterMap Segment.index? = List.range e.captures.length
  positions : ∀ (i : Nat) (c : Capture), e.captures[i]? = some c →
    e.segments[c.position]? = some (.capture i)
  captureAt : ∀ n c, e.captureAt n = some c ↔ c ∈ e.captures ∧ c.position = n
  names : (e.captures.map (·.name)).Nodup
  /-- The inputs read from the path are those of the captures, under their names in braces. -/
  uri : ∀ key p, e.input.get? key = some p ∧ p.source = .uri ↔
    ∃ c ∈ e.captures, key = Source.captureKey c.name ∧ p = c.param
  uri_required : ∀ key p, e.input.get? key = some p → p.source = .uri → p.optional = false
  output : ∀ key p, e.output.get? key = some p → p.source = .form ∧ p.optional = false
  rename_ne_empty : ∀ key p, e.input.get? key = some p ∨ e.output.get? key = some p →
    p.rename ≠ ""
  input_apart : ∀ key p other q, e.input.get? key = some p → e.input.get? other = some q →
    key ≠ other → p.rename ≠ q.rename ∧ key ≠ q.rename
  output_apart : ∀ key p other q, e.output.get? key = some p → e.output.get? other = some q →
    key ≠ other → p.rename ≠ q.rename ∧ key ≠ q.rename
  /-- References stand in the order of groups and roles, those of one role as they stand in it. -/
  references_sorted : e.scope.references.Pairwise fun a b =>
    a.group < b.group ∨ a.group = b.group ∧ a.item ≤ b.item
  references_at : ∀ g i,
    (e.scope.references.filter fun r => r.group = g ∧ r.item = i).map (·.capture) =
      ((e.scope.templateAt g i).map Template.captures).getD []
  references_captured : ∀ r ∈ e.scope.references, ∃ c ∈ e.captures, c.param.rename = r.capture

/-- Every compiled endpoint is coherent. -/
theorem coherent_of_compile {entry : Manifest.Entry} {e : Endpoint} (h : compile entry = .ok e) :
    Coherent e := by
  obtain ⟨pattern, -, -, -, -, -, hin, -, -, -, hscope⟩ := compile_eq_ok_iff.1 h
  have hreferences : e.scope.references = Scope.allReferences e.scope.groups := by
    rw [hscope]
    exact Scope.references_compile _ _
  refine {
    indices := by simpa using (numbered h).indices
    positions := fun i c hc => (getElem?_segments_iff h).2 ⟨c, hc, rfl⟩
    captureAt := fun n c => captureAt_eq_some_iff h
    names := nodup_names h
    uri := fun key p => uri_input_iff h
    uri_required := fun key p hp hs => ?_
    output := fun key p hp => ?_
    rename_ne_empty := fun key p hp => ?_
    input_apart := Parameter.firstClash_eq_none_iff.1 hin
    output_apart := Parameter.firstClash_eq_none_iff.1 e.output_apart
    references_sorted := ?_
    references_at := fun g i => ?_
    references_captured := fun r hr => ?_ }
  · obtain ⟨⟨raw, hok⟩, -⟩ := input_of_compile h hp
    exact Parameter.optional_of_uri hok hs
  · obtain ⟨raw, hok⟩ := output_of_compile h hp
    exact (Parameter.output_eq_ok_iff.1 hok).2
  · rcases hp with hp | hp
    · obtain ⟨⟨raw, hok⟩, -⟩ := input_of_compile h hp
      exact Parameter.rename_ne_empty hok
    · obtain ⟨raw, hok⟩ := output_of_compile h hp
      exact Parameter.rename_ne_empty (Parameter.output_eq_ok_iff.1 hok).1
  · rw [hreferences]
    exact Scope.allReferences_sorted _
  · rw [hreferences, Scope.filter_allReferences]
    change (((e.scope.templateAt g i).map (Scope.referencesOf g i)).getD []).map (·.capture) = _
    cases e.scope.templateAt g i <;> simp [Scope.referencesOf, Function.comp_def]
  · rw [hscope] at hr
    simpa using Scope.mem_captures_of_mem_references hr

/-- An entry with an input from each source and a scope that refers to its capture. -/
def renameUser : Manifest.Entry where
  method := "PUT"
  path := "/users/\x7bid\x7d"
  scope := [["admin"], ["user[ID]"]]
  input := .ofList [("\x7bid\x7d", { typeText := "uint", name := some "ID" }),
    ("?notify", { typeText := "?bool", name := some "Notify" }),
    ("name", { typeText := "string(1,64)" })]
  output := .ofList [("id", { typeText := "uint", name := some "ID" })]

theorem coherent_of_compile_renameUser : ∃ e, compile renameUser = .ok e ∧ Coherent e := by
  have hok : (compile renameUser).isOk = true := by decide +kernel
  obtain ⟨e, he⟩ := isOk_iff.1 hok
  exact ⟨e, he, coherent_of_compile he⟩

end Signpost.Endpoint

namespace Signpost.Manifest

/-- The endpoints of a manifest are those that its entries compile to. -/
theorem exists_entry_of_compile {entries : List Entry} {endpoints : List Endpoint}
    (h : compile entries = .ok endpoints) {e : Endpoint} (he : e ∈ endpoints) :
    ∃ entry ∈ entries, Endpoint.compile entry = .ok e := by
  obtain ⟨i, hi⟩ := List.mem_iff_getElem?.1 he
  obtain ⟨entry, hentry, hok⟩ := exists_of_forall₂_right (mapM_eq_ok_iff.1 h) hi
  exact ⟨entry, List.mem_of_getElem? hentry, hok⟩

end Signpost.Manifest
