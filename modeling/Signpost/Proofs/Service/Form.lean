import Signpost.Proofs.Dict
import Signpost.Proofs.Json.Document
import Signpost.Proofs.Outcome
import Signpost.Proofs.Text.Percent
import Signpost.Proofs.Text.Pieces
import Signpost.Service.Form

/-!
# Forms and the dictionaries they write

A form lists pairs of names and values, and the values of one name need not stand together. However
the pairs are encoded, and however those of different names are mixed, reading the form gives each
name its values in their order. The reader gathers the texts of all names before it makes values of
them, and the result is that of taking in the pairs one after another. A JSON object with the same
members is read alike.
-/
namespace Signpost.Form

open Json Text

/-- What a form gives under a name: one text, or at least two of them. -/
inductive Field where
  | one (text : String)
  | several (first second : String) (rest : List String)
  deriving DecidableEq, Repr

namespace Field

def texts : Field → List String
  | one text => [text]
  | several first second rest => first :: second :: rest

def value : Field → Value
  | one text => .string text
  | several first second rest => .strings (first :: second :: rest)

end Field

/-- The texts that pairs give under a name, in order. -/
def textsOf (pairs : List (String × String)) (name : String) : List String :=
  (pairs.filter (·.1 = name)).map (·.2)

/-- The pairs give under each name what the dictionary has there, in this order. -/
def Interleaves (pairs : List (String × String)) (d : Dict Field) : Prop :=
  ∀ name, textsOf pairs name = ((d.get? name).map Field.texts).getD []

/-- The bytes that do not mean themselves in a value: `%`, `&` and `+`. -/
def valueMarks : List UInt8 := [37, 38, 43]

/-- Those that do not mean themselves in a name: `=` as well. -/
def nameMarks : List UInt8 := [37, 38, 43, 61]

/-- The second bytes write the first ones. A byte is written as itself, unless it is a mark, or as
its escape, and a space also as `+`. -/
inductive Writes (marks : List UInt8) : List UInt8 → List UInt8 → Prop where
  | nil : Writes marks [] []
  | raw {b : UInt8} {bytes written : List UInt8} (plain : b ∉ marks)
      (rest : Writes marks bytes written) : Writes marks (b :: bytes) (b :: written)
  | plus {bytes written : List UInt8} (rest : Writes marks bytes written) :
      Writes marks (32 :: bytes) (43 :: written)
  | escape {bytes written : List UInt8} (capitalHigh capitalLow : Bool) (b : UInt8)
      (rest : Writes marks bytes written) :
      Writes marks (b :: bytes) (Percent.escape capitalHigh capitalLow b ++ written)

/-- A name, `=` and a value. -/
def WritesPair (pair : String × String) (written : List UInt8) : Prop :=
  ∃ name value, written = name ++ 61 :: value ∧
    Writes nameMarks (Utf8.encode pair.1.toList) name ∧
    Writes valueMarks (Utf8.encode pair.2.toList) value

/-- Pairs with `&` between them. -/
def WritesForm (pairs : List (String × String)) (bytes : List UInt8) : Prop :=
  ∃ written, bytes = [38].intercalate written ∧ List.Forall₂ WritesPair pairs written

namespace Writes

variable {marks bytes written : List UInt8}

theorem notMem {mark : UInt8} (h : Writes marks bytes written) (hmark : mark ∈ marks)
    (hpercent : mark ≠ 37) (hplus : mark ≠ 43) (hdigit : Percent.hexDigit? mark = none) :
    mark ∉ written := by
  induction h with
  | nil => simp
  | raw plain _ ih =>
    refine List.not_mem_cons_of_ne_of_not_mem ?_ ih
    rintro rfl
    exact plain hmark
  | plus _ ih => exact List.not_mem_cons_of_ne_of_not_mem hplus ih
  | escape capitalHigh capitalLow b _ ih =>
    exact List.not_mem_append (Percent.notMem_escape hpercent hdigit capitalHigh capitalLow b) ih

theorem map_escape (capitalHigh capitalLow : Bool) (b : UInt8) :
    (Percent.escape capitalHigh capitalLow b).map (fun b => if b = 43 then 32 else b) =
      Percent.escape capitalHigh capitalLow b := by
  have hplus : (43 : UInt8) ∉ Percent.escape capitalHigh capitalLow b :=
    Percent.notMem_escape (by decide) (by decide) capitalHigh capitalLow b
  have hfix : ∀ c ∈ Percent.escape capitalHigh capitalLow b, (if c = 43 then 32 else c) = c := by
    intro c hc
    refine if_neg ?_
    rintro rfl
    exact hplus hc
  exact (List.map_congr_left hfix).trans (List.map_id _)

/-- With the spaces put back, only the escapes are left. -/
theorem percent (h : Writes marks bytes written) (hmarks : valueMarks ⊆ marks) :
    Percent.Writes bytes (written.map fun b => if b = 43 then 32 else b) := by
  induction h with
  | nil => exact .nil
  | @raw b bytes written plain _ ih =>
    have hpercent : b ≠ 37 := fun heq => plain (hmarks (by simp [heq, valueMarks]))
    have hplus : b ≠ 43 := fun heq => plain (hmarks (by simp [heq, valueMarks]))
    rw [List.map_cons, if_neg hplus]
    exact ih.raw hpercent
  | plus _ ih => exact ih.raw (by decide)
  | escape capitalHigh capitalLow b _ ih =>
    rw [List.map_append, map_escape]
    exact ih.escape capitalHigh capitalLow b

theorem decodeText {text : String} (h : Writes marks (Utf8.encode text.toList) written)
    (hmarks : valueMarks ⊆ marks) : decodeText written = text := by
  rw [Form.decodeText, Percent.decode_of_writes (h.percent hmarks), Utf8.decodeLenient_encode,
    String.ofList_toList]

end Writes

theorem WritesPair.decodePair {pair : String × String} {written : List UInt8}
    (h : WritesPair pair written) : decodePair written = pair := by
  obtain ⟨name, value, rfl, hname, hvalue⟩ := h
  have hequals : (61 : UInt8) ∉ name :=
    hname.notMem (by decide) (by decide) (by decide) (by decide)
  rw [Form.decodePair, cutOnce_append_cons hequals]
  simp only [hname.decodeText (by decide), hvalue.decodeText (by decide)]

theorem WritesPair.plain {pair : String × String} {written : List UInt8}
    (h : WritesPair pair written) : (38 : UInt8) ∉ written ∧ written ≠ [] := by
  obtain ⟨name, value, rfl, hname, hvalue⟩ := h
  have hn : (38 : UInt8) ∉ name := hname.notMem (by decide) (by decide) (by decide) (by decide)
  have hv : (38 : UInt8) ∉ value := hvalue.notMem (by decide) (by decide) (by decide) (by decide)
  simp [hn, hv]

/-- The pairs of a form are those it writes. -/
theorem pairs_of_writesForm {ps : List (String × String)} {bytes : List UInt8}
    (h : WritesForm ps bytes) : pairs bytes = ps := by
  obtain ⟨written, rfl, hwritten⟩ := h
  by_cases hnil : written = []
  · subst hnil
    cases hwritten
    rfl
  · have hplain : ∀ piece ∈ written, (38 : UInt8) ∉ piece ∧ piece ≠ [] := by
      intro piece hmem
      obtain ⟨i, hi⟩ := List.mem_iff_getElem?.1 hmem
      obtain ⟨pair, -, hpair⟩ := exists_of_forall₂_right hwritten hi
      exact hpair.plain
    have hfilter : written.filter (fun piece => !piece.isEmpty) = written :=
      List.filter_eq_self.2 fun piece hmem => by simp [(hplain piece hmem).2]
    rw [pairs, pieces_intercalate hnil fun piece hmem => (hplain piece hmem).1, hfilter]
    clear hnil hplain hfilter
    induction hwritten with
    | nil => rfl
    | cons hpair _ ih => rw [List.map_cons, hpair.decodePair, ih]

/-- What one more text makes of the value of its name: the first text stands alone, the second makes
a list of both, and every later one is put at the end of this list. -/
def extended (text : String) : Option Value → Value
  | none => .string text
  | some (.array items) => .array (items ++ [.string text])
  | some v => .array [v, .string text]

/-- Take in one more pair, which changes the value of its name alone. -/
def extend (params : Dict Value) (pair : String × String) : Dict Value :=
  params.insert pair.1 (extended pair.2 (params.get? pair.1))

/-- What the texts of one name make together. -/
def together : List String → Option Value
  | [] => none
  | [text] => some (.string text)
  | texts => some (.strings texts)

theorem textsOf_concat (pairs : List (String × String)) (name text other : String) :
    textsOf (pairs ++ [(name, text)]) other =
      textsOf pairs other ++ if name = other then [text] else [] := by
  by_cases h : name = other <;> simp [textsOf, h]

theorem together_concat (texts : List String) (text : String) :
    together (texts ++ [text]) = some (extended text (together texts)) := by
  rcases texts with - | ⟨first, - | ⟨second, rest⟩⟩
  · rfl
  · rfl
  · simp [together, extended, Value.strings]

theorem together_texts (f : Field) : together f.texts = some f.value := by
  cases f <;> rfl

/-- Taken in one after another, pairs give each name what its texts make together. -/
theorem get?_foldl_extend (ps : List (String × String)) (name : String) :
    (ps.foldl extend {}).get? name = together (textsOf ps name) := by
  induction ps using List.reverseRecOn generalizing name with
  | nil => rfl
  | append_singleton ps pair ih =>
    obtain ⟨key, text⟩ := pair
    rw [List.foldl_append, List.foldl_cons, List.foldl_nil, extend, Dict.get?_insert,
      textsOf_concat]
    by_cases h : key = name
    · rw [if_pos h, if_pos h, together_concat, h, ih name]
    · rw [if_neg h, if_neg h, List.append_nil, ih name]

theorem gather_concat (pairs : List (String × String)) (name text : String) :
    gather (pairs ++ [(name, text)]) =
      (gather pairs).insert name (text :: ((gather pairs).get? name).getD []) := by
  rw [gather, List.foldl_append]
  rfl

/-- Gathering keeps the texts under each name, the latest first. -/
theorem get?_gather (pairs : List (String × String)) (name : String) :
    (gather pairs).get? name =
      if textsOf pairs name = [] then none else some (textsOf pairs name).reverse := by
  induction pairs using List.reverseRecOn generalizing name with
  | nil => rfl
  | append_singleton pairs pair ih =>
    obtain ⟨k, text⟩ := pair
    rw [gather_concat, Dict.get?_insert, textsOf_concat]
    by_cases h : k = name
    · subst h
      by_cases hnil : textsOf pairs k = [] <;> simp [ih, hnil]
    · simp [h, ih]

theorem valueOf_reverse (first second : String) (rest : List String) :
    valueOf (first :: second :: rest).reverse = .strings (first :: second :: rest) := by
  have hlength : (first :: second :: rest).reverse.length = rest.length + 2 := by simp
  cases h : (first :: second :: rest).reverse with
  | nil => simp [h] at hlength
  | cons last before =>
    cases before with
    | nil => simp [h] at hlength
    | cons text texts =>
      change Value.strings (last :: text :: texts).reverse = _
      rw [← h, List.reverse_reverse]

theorem get?_map_gather (ps : List (String × String)) (name : String) :
    ((gather ps).map valueOf).get? name = together (textsOf ps name) := by
  rw [Dict.get?_map, get?_gather]
  generalize textsOf ps name = texts
  rcases texts with - | ⟨first, - | ⟨second, rest⟩⟩
  · rfl
  · rfl
  · rw [if_neg (List.cons_ne_nil _ _), Option.map_some, valueOf_reverse]
    rfl

/-- A form is read as if its pairs were taken in one after another. -/
theorem decode_eq_foldl (bytes : List UInt8) : decode bytes = (pairs bytes).foldl extend {} := by
  refine Dict.ext_get? fun name => ?_
  rw [decode, get?_map_gather, get?_foldl_extend]

/-- However texts are mixed, each of them is found under its name again. -/
theorem foldl_extend {ps : List (String × String)} {d : Dict Field} (h : Interleaves ps d) :
    ps.foldl extend {} = d.map Field.value := by
  refine Dict.ext_get? fun name => ?_
  rw [get?_foldl_extend, Dict.get?_map, h name]
  cases d.get? name with
  | none => rfl
  | some f => exact together_texts f

theorem value?_tree_value (f : Field) {depth : Nat} (h : 0 < depth) :
    f.value.tree.value? depth = some f.value := by
  cases f with
  | one text => simp [Field.value, Value.tree, Tree.value?]
  | several first second rest => exact value?_tree_strings _ h

theorem textual_value (f : Field) : f.value.textual = true := by
  cases f with
  | one text => rfl
  | several first second rest => exact textual_strings _

theorem decodeBody_form {contentType : String} (body : List UInt8)
    (h : mediaType contentType = "application/x-www-form-urlencoded") :
    decodeBody (some contentType) body = .ok (decode body) := by
  rw [decodeBody]
  split
  next hempty =>
    rw [List.isEmpty_iff.1 hempty]
    rfl
  next => simp [h]

/-- The members of an object may stand in any order, with any blanks and escapes in its text. -/
theorem decodeBody_json {contentType : String} {d : Dict Field} {fields : List (String × Value)}
    {cs : List Char} (h : mediaType contentType = "application/json")
    (hfields : fields.Perm (d.map Field.value).entries)
    (hcs : Lexes (Value.object fields).tokens cs) :
    decodeBody (some contentType) (Utf8.encode cs) = .ok (d.map Field.value) := by
  have hvalues : ∀ f ∈ fields, f.2.tree.value? (depthLimit - 1) = some f.2 := by
    intro f hf
    obtain ⟨e, -, rfl⟩ := List.mem_map.1 (hfields.mem_iff.1 hf)
    exact value?_tree_value e.2 (by decide)
  have hbody := Value.ofBytes?_of_lexes hcs hvalues
  have hne : Utf8.encode cs ≠ [] := by
    rw [ne_eq, Utf8.encode_eq_nil_iff]
    rintro rfl
    have hscan := scan_of_lexes hcs
    cases hscan
  simp [decodeBody, hne, h, hbody, Value.ofDict, Dict.ofList_of_perm hfields]

/-- However the pairs of a form are encoded, and however the values of different names are mixed,
reading the query or the body gives each name its values, once each and in their order. A JSON body
with the same members is read as the same dictionary. -/
theorem decode_gathers {d : Dict Field} {ps : List (String × String)} (h : Interleaves ps d) :
    (∀ query, WritesForm ps (Utf8.encode query.toList) →
      decodeQuery (some query) = d.map Field.value) ∧
    (∀ contentType body, mediaType contentType = "application/x-www-form-urlencoded" →
      WritesForm ps body → decodeBody (some contentType) body = .ok (d.map Field.value)) ∧
    (∀ contentType fields cs, mediaType contentType = "application/json" →
      fields.Perm (d.map Field.value).entries → Lexes (Value.object fields).tokens cs →
      decodeBody (some contentType) (Utf8.encode cs) = .ok (d.map Field.value)) ∧
    ∀ contentType, mediaType contentType = "application/json" →
      decodeBody (some contentType) (Utf8.encode (Value.ofDict (d.map Field.value)).text.toList) =
        .ok (d.map Field.value) := by
  have hdecode : ∀ bytes, WritesForm ps bytes → decode bytes = d.map Field.value := by
    intro bytes hbytes
    rw [decode_eq_foldl, pairs_of_writesForm hbytes, foldl_extend h]
  refine ⟨fun query => hdecode _, ?_, fun _ _ _ => decodeBody_json, ?_⟩
  · intro contentType body hmedia hbody
    rw [decodeBody_form body hmedia, hdecode body hbody]
  · intro contentType hmedia
    have htextual : (Value.ofDict (d.map Field.value)).textual = true := by
      refine textual_object fun f hf => ?_
      obtain ⟨e, -, rfl⟩ := List.mem_map.1 hf
      exact textual_value e.2
    rw [Value.text, String.toList_ofList]
    exact decodeBody_json hmedia (.refl _) (lexes_chars _ htextual)

/-- Two values of one name with that of another name between them. -/
def mixedPairs : List (String × String) := [("b", "x"), ("a", "1"), ("b", "y z")]

def mixedFields : Dict Field := .ofList [("a", .one "1"), ("b", .several "x" "y z" [])]

theorem interleaves_mixed : Interleaves mixedPairs mixedFields := by
  have hentries : mixedFields.entries = [("a", .one "1"), ("b", .several "x" "y z" [])] := by
    decide +kernel
  intro name
  rw [Dict.get?, hentries]
  by_cases ha : "a" = name
  · subst ha
    decide +kernel
  · by_cases hb : "b" = name
    · subst hb
      decide +kernel
    · simp [textsOf, mixedPairs, Dict.lookup, ha, hb]

/-- The digit is escaped and the space written as `+`. -/
theorem writesForm_mixed : WritesForm mixedPairs (Utf8.encode "b=x&a=%31&b=y+z".toList) := by
  refine ⟨[[98, 61, 120], [97, 61, 37, 51, 49], [98, 61, 121, 43, 122]], by decide +kernel,
    .cons ?_ (.cons ?_ (.cons ?_ .nil))⟩
  · exact ⟨[98], [120], rfl, .raw (by decide) .nil, .raw (by decide) .nil⟩
  · exact ⟨[97], [37, 51, 49], rfl, .raw (by decide) .nil, .escape false false 49 .nil⟩
  · exact ⟨[98], [121, 43, 122], rfl, .raw (by decide) .nil,
      .raw (by decide) (.plus (.raw (by decide) .nil))⟩

theorem decode_gathers_mixed :
    Interleaves mixedPairs mixedFields ∧
    decodeQuery (some "b=x&a=%31&b=y+z") = mixedFields.map Field.value ∧
    decodeBody (some "application/x-www-form-urlencoded") (Utf8.encode "b=x&a=%31&b=y+z".toList) =
      .ok (mixedFields.map Field.value) := by
  obtain ⟨hquery, hform, -⟩ := decode_gathers interleaves_mixed
  exact ⟨interleaves_mixed, hquery _ writesForm_mixed,
    hform _ _ (by decide +kernel) writesForm_mixed⟩

end Signpost.Form
