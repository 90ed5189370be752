import Signpost.Endpoint.Compile
import Signpost.Proofs.Json.Shape

/-!
# Manifests written and read again

Every field of a record is written, under the name it is read by, so a record is read back from its
object, and a manifest from its compact text or any other text with the same tokens. Writing a
manifest that has been read thus changes nothing about what it compiles to.
-/
namespace Signpost.Manifest

open Signpost.Json Signpost.Text

namespace Param

theorem readsBack : Tree.ReadsBack ofTree toValue := by
  intro p
  obtain ⟨info, typeText, name⟩ := p
  cases name with
  | none => rfl
  | some name => rfl

theorem textual_toValue (p : Param) : p.toValue.textual = true := by
  obtain ⟨info, typeText, name⟩ := p
  cases name with
  | none => rfl
  | some name => rfl

end Param

namespace Entry

theorem readsBack : Tree.ReadsBack ofTree toValue := by
  intro e
  have hscope : (Value.array (e.scope.map .strings)).tree.list (Tree.list Tree.text) =
      .ok e.scope := Tree.readsBack_text.list.list e.scope
  have hinput : (Value.ofDict (e.input.map Param.toValue)).tree.dict Param.ofTree = .ok e.input :=
    Param.readsBack.dict e.input
  have houtput : (Value.ofDict (e.output.map Param.toValue)).tree.dict Param.ofTree =
      .ok e.output := Param.readsBack.dict e.output
  rw [toValue, Value.tree, fieldsTrees_eq, ofTree]
  simp only [List.map_cons, List.map_nil, List.foldlM_cons, List.foldlM_nil, Draft.put, hscope,
    hinput, houtput]
  rfl

theorem textual_toValue (e : Entry) : e.toValue.textual = true := by
  have hscope : (Value.array (e.scope.map .strings)).textual = true := by
    refine textual_array fun v hv => ?_
    obtain ⟨group, -, rfl⟩ := List.mem_map.1 hv
    exact textual_strings group
  have hparams : ∀ ps : Dict Param, (Value.ofDict (ps.map Param.toValue)).textual = true := by
    intro ps
    refine textual_object fun f hf => ?_
    obtain ⟨p, -, rfl⟩ := List.mem_map.1 hf
    exact p.2.textual_toValue
  refine textual_object ?_
  simp only [List.forall_mem_cons]
  exact ⟨rfl, rfl, hscope, rfl, hparams _, hparams _, by simp⟩

end Entry

/-- A text with the tokens of a manifest is read as the manifest, blanks and escapes aside. -/
theorem ofBytes_of_lexes {entries : List Entry} {cs : List Char}
    (h : Lexes (Value.array (entries.map Entry.toValue)).tokens cs) :
    ofBytes (Utf8.encode cs) = .ok entries := by
  rw [ofBytes, Document.ofBytes_of_lexes h, ofDocument]
  have hread : (Value.array (entries.map Entry.toValue)).tree.list Entry.ofTree = .ok entries :=
    Entry.readsBack.list entries
  rw [hread]
  rfl

theorem lexes_text (entries : List Entry) :
    Lexes (Value.array (entries.map Entry.toValue)).tokens (text entries).toList := by
  rw [text, Value.text, String.toList_ofList]
  refine lexes_chars _ (textual_array fun v hv => ?_)
  obtain ⟨e, -, rfl⟩ := List.mem_map.1 hv
  exact e.textual_toValue

/-- A manifest is read back from its compact text, and what has been read from any document compiles
to the same endpoints, or fails with the same error, when it is written and read again. -/
theorem text_faithful :
    (∀ entries, ofBytes (Utf8.encode (text entries).toList) = .ok entries) ∧
    ∀ bytes entries, ofBytes bytes = .ok entries →
      compileBytes (Utf8.encode (text entries).toList) = compileBytes bytes := by
  have hback : ∀ entries, ofBytes (Utf8.encode (text entries).toList) = .ok entries :=
    fun entries => ofBytes_of_lexes (lexes_text entries)
  refine ⟨hback, fun bytes entries hread => ?_⟩
  rw [compileBytes, compileBytes, hback, hread]

/-- An entry with one optional query parameter and the defaults for all else. -/
def searchUsers : Entry where
  method := "GET"
  path := "/users"
  input := .ofList [("?q", { typeText := "?string", name := some "Query" })]

/-- A document of this entry with fields left out or in another order, with blanks and an escape. -/
def searchDocument : List UInt8 :=
  Utf8.encode ("[ \x7b\"path\": \"/users\",\n   \"in\": \x7b \"?q\" : \x7b\"name\":\"Query\"," ++
    "\"type\":\"?string\"\x7d \x7d, \"method\":\"\\u0047ET\"\x7d ]\n").toList

/-- The document and the compact text of what is read from it compile to one endpoint. -/
theorem text_faithful_searchUsers :
    ofBytes searchDocument = .ok [searchUsers] ∧
      compileBytes (Utf8.encode (text [searchUsers]).toList) = compileBytes searchDocument ∧
      ∃ e, compileBytes searchDocument = .ok [e] := by
  have hread : ofBytes searchDocument = .ok [searchUsers] := by decide +kernel
  have hok : (Endpoint.compile searchUsers).isOk = true := by decide +kernel
  obtain ⟨e, he⟩ := isOk_iff.1 hok
  refine ⟨hread, text_faithful.2 _ _ hread, e, ?_⟩
  rw [compileBytes, hread]
  exact mapError_eq_ok_iff.2 (mapM_eq_ok_iff.2 (.cons he .nil))

end Signpost.Manifest
