import Signpost.Proofs.Endpoint.Compile
import Signpost.Proofs.ParamType
import Signpost.Proofs.Pattern.Spelling

/-!
# Well-formed entries

What an entry has to be, said of the texts in it: how its method, its path, its keys and its types
are written, which of its inputs need a name and may be left out, and which names may not meet. The
entries that compile are these, and a manifest compiles if it lists no others.
-/
namespace Signpost

namespace Manifest

/-- The name that a parameter goes by outside: the one it is given, or else its key. -/
def Param.outsideName (p : Param) (key : String) : String :=
  match p.name with
  | some name => if name = "" then key else name
  | none => key

/-- What an input under `key` has to be by itself. -/
structure Param.IsInput (p : Param) (key : String) (source : Source) (name : String)
    (optional : Bool) : Prop where
  key_eq : Source.Spelled key source name
  nonempty : name ≠ ""
  type : ∃ typeName inner, ParamType.Spelled p.typeText optional typeName inner
  named : source ≠ .form → ∃ given, p.name = some given ∧ given ≠ ""
  required : source = .uri → optional = false

/-- No two parameters share a name outside, and no key is the name outside of another one. -/
def Apart (ps : Dict Param) : Prop :=
  ∀ key p other q, ps.get? key = some p → ps.get? other = some q → key ≠ other →
    p.outsideName key ≠ q.outsideName other ∧ key ≠ q.outsideName other

/-- What an entry has to be. -/
structure Entry.WellFormed (entry : Entry) : Prop where
  method : entry.method ∈ ["GET", "POST", "PUT", "DELETE"]
  path : ∃ pieces, Pattern.Spelled entry.path pieces
  input : ∀ key p, entry.input.get? key = some p →
    ∃ source name optional, p.IsInput key source name optional
  captures : ∀ name, (∃ p, entry.input.get? (Source.captureKey name) = some p) ↔
    Pattern.HasCapture entry.path name
  output : ∀ key p, entry.output.get? key = some p → p.IsInput key .form key false
  input_apart : Apart entry.input
  output_apart : Apart entry.output

end Manifest

namespace Parameter

variable {key rename : String} {source : Source} {raw : Manifest.Param} {q : Parameter}

theorem renameOf_eq_some_iff :
    renameOf source key raw = some rename ↔ rename = raw.outsideName key ∧
      (source ≠ .form → ∃ given, raw.name = some given ∧ given ≠ "") := by
  unfold renameOf explicitName Manifest.Param.outsideName
  cases hname : raw.name with
  | none => cases source <;> simp [eq_comm]
  | some given =>
    by_cases hgiven : given = ""
    · cases source <;> simp [hgiven, eq_comm, Option.filter_some]
    · simp [hgiven, eq_comm, Option.filter_some]

/-- An input passes its own check exactly if it is one. -/
theorem input_iff {name : String} {optional : Bool} :
    (∃ q, input key raw = .ok q ∧ q.source = source ∧ q.name = name ∧ q.optional = optional) ↔
      raw.IsInput key source name optional := by
  constructor
  · intro h
    obtain ⟨q, hq, rfl, rfl, rfl⟩ := h
    have hkey := Source.ofKey_eq_iff.1 (ofKey_of_input hq)
    have hrequired := optional_of_uri hq
    obtain ⟨hnonempty, spec, rename, hparse, hrename, -, rfl⟩ := input_eq_ok_iff.1 hq
    obtain ⟨typeName, inner, hspelled, -⟩ := ParamType.parse_eq_ok_iff.1 hparse
    exact ⟨hkey, hnonempty, ⟨typeName, inner, hspelled⟩, (renameOf_eq_some_iff.1 hrename).2,
      hrequired⟩
  · intro h
    obtain ⟨typeName, inner, hspelled⟩ := h.type
    have hkey := Source.ofKey_eq_iff.2 h.key_eq
    have hparse : ParamType.parse raw.typeText =
        .ok ⟨optional, String.ofList typeName, (inner.map ParamType.argumentsOf).getD []⟩ :=
      ParamType.parse_eq_ok_iff.2 ⟨typeName, inner, hspelled, rfl, rfl⟩
    have hrename : renameOf source key raw = some (raw.outsideName key) :=
      renameOf_eq_some_iff.2 ⟨rfl, h.named⟩
    have hrequired : ¬ (source = .uri ∧ optional = true) := by
      rintro ⟨hsource, hoptional⟩
      simp [h.required hsource] at hoptional
    have hok : input key raw = .ok
        { source, name, typeText := raw.typeText, validator := String.ofList typeName,
          arguments := (inner.map ParamType.argumentsOf).getD [], rename := raw.outsideName key,
          optional, info := raw.info } := by
      rw [input_eq_ok_iff, hkey]
      exact ⟨h.nonempty, _, _, hparse, hrename, hrequired, rfl⟩
    exact ⟨_, hok, rfl, rfl, rfl⟩

theorem rename_of_input (h : input key raw = .ok q) : q.rename = raw.outsideName key := by
  obtain ⟨-, spec, rename, -, hrename, -, rfl⟩ := input_eq_ok_iff.1 h
  exact (renameOf_eq_some_iff.1 hrename).1

theorem output_iff : (∃ q, output key raw = .ok q) ↔ raw.IsInput key .form key false := by
  simp only [output_eq_ok_iff]
  constructor
  · intro h
    obtain ⟨q, hq, hsource, hoptional⟩ := h
    have hkey := ofKey_of_input hq
    have hname : q.name = key := by
      rw [hsource] at hkey
      simpa [hkey] using Source.ofKey_of_form (congrArg Prod.fst hkey)
    exact input_iff.1 ⟨q, hq, hsource, hname, hoptional⟩
  · intro h
    obtain ⟨q, hq, hsource, -, hoptional⟩ := input_iff.2 h
    exact ⟨q, hq, hsource, hoptional⟩

end Parameter

namespace Endpoint

variable {check : String → Manifest.Param → Except Defect Parameter} {ps : Dict Manifest.Param}
  {qs : Dict Parameter}

theorem exists_checkEach_iff :
    (∃ qs, checkEach check ps = .ok qs) ↔
      ∀ key p, ps.get? key = some p → ∃ q, check key p = .ok q := by
  simp only [checkEach, map_eq_ok_iff]
  rw [exists_comm]
  simp only [exists_and_left, exists_eq', and_true, exists_mapM_eq_ok_iff, mapError_eq_ok_iff,
    map_eq_ok_iff, Dict.get?_eq_some_iff]
  constructor
  · intro h key p hp
    obtain ⟨-, q, hq, -⟩ := h (key, p) hp
    exact ⟨q, hq⟩
  · rintro h ⟨key, p⟩ hp
    obtain ⟨q, hq⟩ := h key p hp
    exact ⟨_, q, hq, rfl⟩

/-- Parameters that go by the names declared for them clash as these do. -/
theorem firstClash_eq_none_iff_apart (h : checkEach check ps = .ok qs)
    (hrename : ∀ {key p q}, check key p = .ok q → q.rename = p.outsideName key) :
    Parameter.firstClash qs = none ↔ Manifest.Apart ps := by
  rw [Parameter.firstClash_eq_none_iff]
  constructor
  · intro hclash key p other p' hp hp' hne
    obtain ⟨q, hq⟩ := exists_checkEach_iff.1 ⟨qs, h⟩ key p hp
    obtain ⟨q', hq'⟩ := exists_checkEach_iff.1 ⟨qs, h⟩ other p' hp'
    rw [← hrename hq, ← hrename hq']
    exact hclash key q other q' ((get?_checkEach h).2 ⟨p, hp, hq⟩)
      ((get?_checkEach h).2 ⟨p', hp', hq'⟩) hne
  · intro hapart key q other q' hq hq' hne
    obtain ⟨p, hp, hcheck⟩ := (get?_checkEach h).1 hq
    obtain ⟨p', hp', hcheck'⟩ := (get?_checkEach h).1 hq'
    rw [hrename hcheck, hrename hcheck']
    exact hapart key p other p' hp hp' hne

theorem firstClash_input_iff {captures : List (String × Nat)}
    (h : checkEach (checkInput captures) ps = .ok qs) :
    Parameter.firstClash qs = none ↔ Manifest.Apart ps := by
  refine firstClash_eq_none_iff_apart h fun hcheck => ?_
  exact Parameter.rename_of_input (checkInput_eq_ok_iff.1 hcheck).1

theorem firstClash_output_iff (h : checkEach checkOutput ps = .ok qs) :
    Parameter.firstClash qs = none ↔ Manifest.Apart ps := by
  refine firstClash_eq_none_iff_apart h fun hcheck => ?_
  exact Parameter.rename_of_input (Parameter.output_eq_ok_iff.1 (checkOutput_eq_ok_iff.1 hcheck)).1

/-- A capture has an input that types it if there is one under its name in braces. -/
theorem exists_captureInput_iff {captures : List (String × Nat)} {input : Dict Parameter}
    (h : checkEach (checkInput captures) ps = .ok input) {name : String} :
    (∃ q, captureInput input name = some q) ↔ ∃ p, ps.get? (Source.captureKey name) = some p := by
  constructor
  · intro hfound
    obtain ⟨q, hq⟩ := hfound
    obtain ⟨hkey, -⟩ := get?_of_captureInput h hq
    obtain ⟨p, hp, -⟩ := (get?_checkEach h).1 hkey
    exact ⟨p, hp⟩
  · intro hdeclared
    obtain ⟨p, hp⟩ := hdeclared
    obtain ⟨q, hq⟩ := exists_checkEach_iff.1 ⟨input, h⟩ _ p hp
    have hof := Parameter.ofKey_of_input (checkInput_eq_ok_iff.1 hq).1
    rw [Source.ofKey_eq_uri_iff.2 rfl, Prod.mk.injEq] at hof
    have hmem : q ∈ input.values := Dict.mem_values_iff.2 ⟨_, (get?_checkEach h).2 ⟨p, hp, hq⟩⟩
    rw [← Option.isSome_iff_exists, captureInput, List.find?_isSome]
    exact ⟨q, hmem, by simp [← hof.1, ← hof.2]⟩

theorem exists_ofText?_iff {text : String} :
    (∃ m, Method.ofText? text = some m) ↔ text ∈ ["GET", "POST", "PUT", "DELETE"] := by
  constructor
  · intro h
    obtain ⟨m, hm⟩ := h
    rw [← Method.text_of_ofText? hm]
    cases m <;> decide
  · intro h
    simp only [List.mem_cons, List.not_mem_nil, or_false] at h
    rcases h with rfl | rfl | rfl | rfl
    · exact ⟨.get, Method.ofText?_text .get⟩
    · exact ⟨.post, Method.ofText?_text .post⟩
    · exact ⟨.put, Method.ofText?_text .put⟩
    · exact ⟨.delete, Method.ofText?_text .delete⟩

theorem exists_checkInput_iff {captures : List (String × Nat)} {key : String}
    {raw : Manifest.Param} :
    (∃ q, checkInput captures key raw = .ok q) ↔
      ∃ source name optional, raw.IsInput key source name optional ∧
        (source = .uri → name ∈ captures.map (·.1)) := by
  simp only [checkInput_eq_ok_iff, ← Parameter.input_iff]
  constructor
  · intro h
    obtain ⟨q, hq, hcapture⟩ := h
    exact ⟨_, _, _, ⟨q, hq, rfl, rfl, rfl⟩, hcapture⟩
  · intro h
    obtain ⟨_, _, _, ⟨q, hq, rfl, rfl, rfl⟩, hcapture⟩ := h
    exact ⟨q, hq, hcapture⟩

theorem wellFormed_of_compile {entry : Manifest.Entry} {e : Endpoint} (h : compile entry = .ok e) :
    entry.WellFormed := by
  obtain ⟨pattern, hmethod, hpattern, hinput, hcaptures, houtput, hin, -⟩ := compile_eq_ok_iff.1 h
  obtain ⟨pieces, hpieces, -⟩ := Pattern.reads_of_parse hpattern
  have hinputs : ∀ key p, entry.input.get? key = some p → ∃ source name optional,
      p.IsInput key source name optional ∧ (source = .uri → name ∈ pattern.captures.map (·.1)) :=
    fun key p hp => exists_checkInput_iff.1 (exists_checkEach_iff.1 ⟨_, hinput⟩ key p hp)
  refine {
    method := exists_ofText?_iff.1 ⟨_, hmethod⟩
    path := ⟨pieces, hpieces⟩
    input := fun key p hp => ?_
    captures := fun name => ?_
    output := fun key p hp => ?_
    input_apart := (firstClash_input_iff hinput).1 hin
    output_apart := (firstClash_output_iff houtput).1 e.output_apart }
  · obtain ⟨source, name, optional, hp, -⟩ := hinputs key p hp
    exact ⟨source, name, optional, hp⟩
  · rw [← Pattern.mem_captures_iff hpattern]
    constructor
    · intro hdeclared
      obtain ⟨p, hp⟩ := hdeclared
      obtain ⟨source, other, optional, hinput, hcapture⟩ := hinputs _ p hp
      have hkey := Source.ofKey_eq_iff.2 hinput.key_eq
      rw [Source.ofKey_eq_uri_iff.2 rfl, Prod.mk.injEq] at hkey
      rw [hkey.2]
      exact hcapture hkey.1.symm
    · intro hmem
      obtain ⟨c, hc, rfl⟩ := List.mem_map.1 hmem
      obtain ⟨k, hk⟩ := exists_mapM_eq_ok_iff.1 ⟨_, hcaptures⟩ c hc
      exact (exists_captureInput_iff hinput).1 ⟨_, (bindCapture_eq_ok_iff.1 hk).1⟩
  · obtain ⟨q, hq⟩ := exists_checkEach_iff.1 ⟨_, houtput⟩ key p hp
    exact Parameter.output_iff.1 ⟨q, checkOutput_eq_ok_iff.1 hq⟩

/-- The stages of the compilation succeed one after the other, each for its own part of the rules. -/
theorem exists_compile_of_wellFormed {entry : Manifest.Entry} (h : entry.WellFormed) :
    ∃ e, compile entry = .ok e := by
  obtain ⟨m, hm⟩ := exists_ofText?_iff.2 h.method
  obtain ⟨pieces, hpieces⟩ := h.path
  obtain ⟨pattern, hpattern⟩ := hpieces.exists_parse
  obtain ⟨input, hinput⟩ : ∃ input,
      checkEach (checkInput pattern.captures) entry.input = .ok input := by
    refine exists_checkEach_iff.2 fun key p hp => exists_checkInput_iff.2 ?_
    obtain ⟨source, name, optional, hinput⟩ := h.input key p hp
    refine ⟨source, name, optional, hinput, fun hsource => ?_⟩
    -- The key of such an input is its name in braces, and so is a piece of the path.
    subst hsource
    obtain rfl := Source.ofKey_eq_uri_iff.1 (Source.ofKey_eq_iff.2 hinput.key_eq)
    exact (Pattern.mem_captures_iff hpattern).2 ((h.captures name).1 ⟨p, hp⟩)
  obtain ⟨captures, hcaptures⟩ : ∃ captures,
      pattern.captures.mapM (bindCapture input) = .ok captures := by
    refine exists_mapM_eq_ok_iff.2 fun c hc => ?_
    have hcapture := (Pattern.mem_captures_iff hpattern).1 (List.mem_map_of_mem hc)
    obtain ⟨q, hq⟩ := (exists_captureInput_iff hinput).2 ((h.captures c.1).2 hcapture)
    exact ⟨⟨c.1, c.2, q⟩, bindCapture_eq_ok_iff.2 ⟨hq, rfl, rfl⟩⟩
  obtain ⟨output, houtput⟩ : ∃ output, checkEach checkOutput entry.output = .ok output := by
    refine exists_checkEach_iff.2 fun key p hp => ?_
    obtain ⟨q, hq⟩ := Parameter.output_iff.2 (h.output key p hp)
    exact ⟨q, checkOutput_eq_ok_iff.2 hq⟩
  have hin := (firstClash_input_iff hinput).2 h.input_apart
  have hout := (firstClash_output_iff houtput).2 h.output_apart
  let e : Endpoint := {
    method := m, pattern := entry.path, info := entry.info, segments := pattern.segments, captures,
    input, output, scope := Scope.compile entry.scope (captures.map (·.param.rename)),
    output_apart := hout }
  exact ⟨e, compile_eq_ok_iff.2 ⟨pattern, hm, hpattern, hinput, hcaptures, houtput, hin,
    rfl, rfl, rfl, rfl⟩⟩

/-- An entry compiles exactly if it is well formed. -/
theorem exists_compile_iff {entry : Manifest.Entry} :
    (∃ e, compile entry = .ok e) ↔ entry.WellFormed := by
  constructor
  · intro h
    obtain ⟨e, he⟩ := h
    exact wellFormed_of_compile he
  · exact exists_compile_of_wellFormed

end Endpoint

namespace Manifest

theorem compileBytes_eq_ok_iff {bytes : List UInt8} {endpoints : List Endpoint} :
    compileBytes bytes = .ok endpoints ↔
      ∃ entries, ofBytes bytes = .ok entries ∧ compile entries = .ok endpoints := by
  unfold compileBytes
  cases ofBytes bytes with
  | error fault => simp
  | ok entries => simp [mapError_eq_ok_iff]

theorem compileBytes_eq_defective_iff {bytes : List UInt8} {err : CompileError} :
    compileBytes bytes = .error (.defective err) ↔
      ∃ entries, ofBytes bytes = .ok entries ∧ compile entries = .error err := by
  unfold compileBytes
  cases ofBytes bytes with
  | error fault => simp
  | ok entries => cases hentries : compile entries <;> simp [Except.mapError, hentries]

theorem compileBytes_eq_unreadable_iff {bytes : List UInt8} {fault : Json.Fault} :
    compileBytes bytes = .error (.unreadable fault) ↔ ofBytes bytes = .error fault := by
  unfold compileBytes
  cases ofBytes bytes with
  | error fault => simp
  | ok entries => cases hentries : compile entries <;> simp [Except.mapError, hentries]

/-- An entry compiles exactly if it is well formed. So does a manifest with all of its entries, to
one endpoint for each in their order. Otherwise the error is that of the first entry that does not
compile, unless the manifest cannot be read at all. -/
theorem compile_exactly_wellFormed :
    (∀ entry, (∃ e, Endpoint.compile entry = .ok e) ↔ entry.WellFormed) ∧
    (∀ entries,
      ((∃ endpoints, compile entries = .ok endpoints) ↔ ∀ entry ∈ entries, entry.WellFormed) ∧
      (∀ endpoints, compile entries = .ok endpoints ↔
        List.Forall₂ (fun entry e => Endpoint.compile entry = .ok e) entries endpoints) ∧
      ∀ err, compile entries = .error err ↔ ∃ before entry after,
        entries = before ++ entry :: after ∧ (∀ other ∈ before, other.WellFormed) ∧
        Endpoint.compile entry = .error err) ∧
    ∀ bytes,
      (∀ endpoints, compileBytes bytes = .ok endpoints ↔
        ∃ entries, ofBytes bytes = .ok entries ∧ compile entries = .ok endpoints) ∧
      (∀ err, compileBytes bytes = .error (.defective err) ↔
        ∃ entries, ofBytes bytes = .ok entries ∧ compile entries = .error err) ∧
      ∀ fault, compileBytes bytes = .error (.unreadable fault) ↔
        ofBytes bytes = .error fault := by
  refine ⟨fun entry => Endpoint.exists_compile_iff, fun entries => ⟨?_, fun endpoints => ?_,
    fun err => ?_⟩, fun bytes => ⟨fun endpoints => compileBytes_eq_ok_iff,
    fun err => compileBytes_eq_defective_iff, fun fault => compileBytes_eq_unreadable_iff⟩⟩
  · simp only [compile, exists_mapM_eq_ok_iff, Endpoint.exists_compile_iff]
  · exact mapM_eq_ok_iff
  · simp only [compile, mapM_eq_error_iff, Endpoint.exists_compile_iff]

/-- An entry with a field of the body under the name that its capture goes by outside. -/
def nameTaken : Entry :=
  { Endpoint.renameUser with
    input := Endpoint.renameUser.input.insert "ID" { typeText := "uint" } }

theorem compile_exactly_wellFormed_renameUser :
    Endpoint.renameUser.WellFormed ∧ ¬ nameTaken.WellFormed := by
  have hok : (Endpoint.compile Endpoint.renameUser).isOk = true := by decide +kernel
  have herror : (Endpoint.compile nameTaken).isOk = false := by decide +kernel
  refine ⟨(compile_exactly_wellFormed.1 _).1 (isOk_iff.1 hok), fun h => ?_⟩
  have htaken := isOk_iff.2 ((compile_exactly_wellFormed.1 _).2 h)
  simp [herror] at htaken

end Manifest

end Signpost
