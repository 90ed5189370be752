import Signpost.Json.Tree
import Signpost.Proofs.Json.Text
import Signpost.Proofs.Text.Utf8

/-!
# Documents of values

The tokens of a value make up a tree that has its shape, and a text of these tokens is read as this
tree. The compact text of a value is one of them.
-/
namespace Signpost.Json

mutual

/-- The tokens that write a value. -/
def Value.tokens : Value → List Token
  | .null => [.null]
  | .bool b => [.bool b]
  | .number n => [.number n]
  | .string s => [.string s]
  | .array items => .openArray :: itemsTokens items ++ [.closeArray]
  | .object fields => .openObject :: fieldsTokens fields ++ [.closeObject]

def itemsTokens : List Value → List Token
  | [] => []
  | [v] => v.tokens
  | v :: w :: rest => v.tokens ++ .comma :: itemsTokens (w :: rest)

def fieldsTokens : List (String × Value) → List Token
  | [] => []
  | [(k, v)] => .string k :: .colon :: v.tokens
  | (k, v) :: f :: rest =>
    .string k :: .colon :: v.tokens ++ .comma :: fieldsTokens (f :: rest)

end

mutual

/-- The tree of a value. -/
def Value.tree : Value → Tree
  | .null => .null
  | .bool b => .bool b
  | .number n => .number n
  | .string s => .string s
  | .array items => .array (itemsTrees items) true
  | .object fields => .object (fieldsTrees fields) true

def itemsTrees : List Value → List Tree
  | [] => []
  | v :: rest => v.tree :: itemsTrees rest

def fieldsTrees : List (String × Value) → List (String × Tree)
  | [] => []
  | (k, v) :: rest => (k, v.tree) :: fieldsTrees rest

end

namespace Tree.Builder

/-- A value is awaited, which an object begun awaits only after a name. -/
structure AwaitsValue (b : Builder) : Prop where
  expect : b.expect = .value ∨ b.expect = .valueOrClose
  named : ∀ members rest, b.frames ≠ .object members none :: rest

theorem step_of_awaitsValue {b : Builder} (h : b.AwaitsValue) {t : Token} (ht : t ≠ .closeArray) :
    b.step t = b.value t := by
  rcases h.expect with h | h
  · simp only [step, h]
  · simp only [step, h, if_neg ht]

/-- A value goes to its place whatever else might have come next. -/
theorem push_expect {b : Builder} (h : ∀ members rest, b.frames ≠ .object members none :: rest)
    (e : Expect) (t : Tree) : { b with expect := e }.push t = b.push t := by
  obtain ⟨frames, expect, document⟩ := b
  rcases frames with - | ⟨items | ⟨members, - | key⟩, rest⟩
  · rfl
  · rfl
  · exact absurd rfl (h members rest)
  · rfl

mutual

/-- The tokens of a value that is awaited put its tree in its place. -/
theorem foldl_tokens (v : Value) {b : Builder} (h : b.AwaitsValue) :
    v.tokens.foldl step b = b.push v.tree := by
  cases v with
  | null | bool | number | string =>
    rw [Value.tokens, List.foldl_cons, step_of_awaitsValue h (by simp)]
    rfl
  | array items =>
    have hopen : b.step .openArray = ⟨.array [] :: b.frames, .valueOrClose, b.document⟩ :=
      step_of_awaitsValue h (by simp)
    rw [Value.tokens, List.cons_append, List.foldl_cons, hopen, List.foldl_append]
    cases items with
    | nil => exact push_expect h.named .valueOrClose _
    | cons v rest =>
      rw [foldl_itemsTokens (v :: rest) (by simp) ⟨.inr rfl, by simp⟩ rfl, Value.tree]
      have hclose := push_expect h.named .commaOrClose (.array (itemsTrees (v :: rest)) true)
      simpa [step, close] using hclose
  | object fields =>
    have hopen : b.step .openObject = ⟨.object [] none :: b.frames, .keyOrClose, b.document⟩ :=
      step_of_awaitsValue h (by simp)
    rw [Value.tokens, List.cons_append, List.foldl_cons, hopen, List.foldl_append]
    cases fields with
    | nil => exact push_expect h.named .keyOrClose _
    | cons f rest =>
      rw [foldl_fieldsTokens (f :: rest) (by simp) (.inr rfl) rfl, Value.tree]
      have hclose := push_expect h.named .commaOrClose (.object (fieldsTrees (f :: rest)) true)
      simpa [step, close] using hclose

/-- The values of an array are put into its frame. -/
theorem foldl_itemsTokens (items : List Value) (hne : items ≠ []) {b : Builder}
    (h : b.AwaitsValue) {done : List Tree} {frames : List Frame}
    (hframes : b.frames = .array done :: frames) :
    (itemsTokens items).foldl step b =
      ⟨.array ((itemsTrees items).reverse ++ done) :: frames, .commaOrClose, b.document⟩ := by
  cases items with
  | nil => exact absurd rfl hne
  | cons v rest =>
    have hpush : b.push v.tree =
        ⟨.array (v.tree :: done) :: frames, .commaOrClose, b.document⟩ := by
      simp only [push, hframes]
    cases rest with
    | nil =>
      rw [itemsTokens, foldl_tokens v h, hpush]
      rfl
    | cons w rest =>
      have hcomma : step ⟨.array (v.tree :: done) :: frames, .commaOrClose, b.document⟩ .comma =
          ⟨.array (v.tree :: done) :: frames, .value, b.document⟩ := rfl
      rw [itemsTokens, List.foldl_append, foldl_tokens v h, hpush, List.foldl_cons, hcomma,
        foldl_itemsTokens (w :: rest) (by simp) ⟨.inl rfl, by simp⟩ rfl]
      simp [itemsTrees]

/-- The members of an object are put into its frame. -/
theorem foldl_fieldsTokens (fields : List (String × Value)) (hne : fields ≠ []) {b : Builder}
    (h : b.expect = .key ∨ b.expect = .keyOrClose) {done : List (String × Tree)}
    {frames : List Frame} (hframes : b.frames = .object done none :: frames) :
    (fieldsTokens fields).foldl step b =
      ⟨.object ((fieldsTrees fields).reverse ++ done) none :: frames, .commaOrClose,
        b.document⟩ := by
  cases fields with
  | nil => exact absurd rfl hne
  | cons f rest =>
    obtain ⟨k, v⟩ := f
    have hkey : b.step (.string k) =
        ⟨.object done (some k) :: frames, .colon, b.document⟩ := by
      rcases h with h | h <;> simp [step, h, key, hframes]
    have hcolon : step ⟨.object done (some k) :: frames, .colon, b.document⟩ .colon =
        ⟨.object done (some k) :: frames, .value, b.document⟩ := rfl
    have hmember : (.string k :: .colon :: v.tokens).foldl step b =
        ⟨.object ((k, v.tree) :: done) none :: frames, .commaOrClose, b.document⟩ := by
      rw [List.foldl_cons, hkey, List.foldl_cons, hcolon, foldl_tokens v ⟨.inl rfl, by simp⟩]
      rfl
    cases rest with
    | nil =>
      rw [fieldsTokens, hmember]
      rfl
    | cons f rest =>
      have hcomma : step ⟨.object ((k, v.tree) :: done) none :: frames, .commaOrClose, b.document⟩
          .comma = ⟨.object ((k, v.tree) :: done) none :: frames, .key, b.document⟩ := rfl
      rw [fieldsTokens, List.foldl_append, hmember, List.foldl_cons, hcomma,
        foldl_fieldsTokens (f :: rest) (by simp) (.inl rfl) rfl]
      simp [fieldsTrees]

end

end Tree.Builder

/-- The tokens of a value make up its tree. -/
theorem Document.ofTokens_tokens (v : Value) : Document.ofTokens v.tokens = ⟨v.tree, true⟩ := by
  rw [Document.ofTokens, Tree.Builder.foldl_tokens v ⟨.inl rfl, by simp [Tree.Builder.start]⟩]
  rfl

/-- A text of the tokens of a value is read as its tree. -/
theorem Document.ofBytes_of_lexes {v : Value} {cs : List Char} (h : Lexes v.tokens cs) :
    Document.ofBytes (Text.Utf8.encode cs) = ⟨v.tree, true⟩ := by
  rw [Document.ofBytes, documentChars, Text.Utf8.decodeWith_encode, Document.ofChars,
    scan_of_lexes h, Document.ofTokens_tokens]

mutual

/-- No number occurs in the value. -/
def Value.textual : Value → Bool
  | .null | .bool _ | .string _ => true
  | .number _ => false
  | .array items => textualItems items
  | .object fields => textualFields fields

def textualItems : List Value → Bool
  | [] => true
  | v :: rest => v.textual && textualItems rest

def textualFields : List (String × Value) → Bool
  | [] => true
  | (_, v) :: rest => v.textual && textualFields rest

end

mutual

/-- The compact text of a value is a text of its tokens. -/
theorem lexes_chars (v : Value) (h : v.textual = true) : Lexes v.tokens v.chars := by
  cases v with
  | null => exact .of_token .null
  | bool b =>
    cases b with
    | true => exact .of_token .true
    | false => exact .of_token .false
  | number n => cases h
  | string s => exact .of_token (writesToken_stringChars s)
  | array items =>
    exact ((Lexes.of_token .openArray).append (lexes_itemsChars items h)).append
      (.of_token .closeArray)
  | object fields =>
    exact ((Lexes.of_token .openObject).append (lexes_fieldsChars fields h)).append
      (.of_token .closeObject)

theorem lexes_itemsChars (items : List Value) (h : textualItems items = true) :
    Lexes (itemsTokens items) (itemsChars items) := by
  cases items with
  | nil => exact .nil (by simp [itemsChars])
  | cons v rest =>
    obtain ⟨hv, hrest⟩ := (Bool.and_eq_true _ _).mp h
    have hfirst := lexes_chars v hv
    cases rest with
    | nil => simpa [itemsTokens, itemsChars] using hfirst
    | cons w rest =>
      have hothers := lexes_itemsChars (w :: rest) hrest
      exact hfirst.append ((Lexes.of_token .comma).append hothers)

theorem lexes_fieldsChars (fields : List (String × Value)) (h : textualFields fields = true) :
    Lexes (fieldsTokens fields) (fieldsChars fields) := by
  cases fields with
  | nil => exact .nil (by simp [fieldsChars])
  | cons f rest =>
    obtain ⟨k, v⟩ := f
    obtain ⟨hv, hrest⟩ := (Bool.and_eq_true _ _).mp h
    have hname := (Lexes.of_token (writesToken_stringChars k)).append (.of_token .colon)
    have hmember := hname.append (lexes_chars v hv)
    cases rest with
    | nil => simpa [fieldsTokens, fieldsChars] using hmember
    | cons f rest =>
      have hothers := lexes_fieldsChars (f :: rest) hrest
      simpa [fieldsTokens, fieldsChars] using
        hmember.append ((Lexes.of_token .comma).append hothers)

end

theorem textual_array {items : List Value} (h : ∀ v ∈ items, v.textual = true) :
    (Value.array items).textual = true := by
  change textualItems items = true
  induction items with
  | nil => rfl
  | cons v rest ih =>
    obtain ⟨hv, hrest⟩ := List.forall_mem_cons.1 h
    exact (Bool.and_eq_true _ _).mpr ⟨hv, ih hrest⟩

theorem textual_strings (texts : List String) : (Value.strings texts).textual = true := by
  refine textual_array fun v hv => ?_
  obtain ⟨text, -, rfl⟩ := List.mem_map.1 hv
  rfl

theorem textual_object {fields : List (String × Value)} (h : ∀ f ∈ fields, f.2.textual = true) :
    (Value.object fields).textual = true := by
  change textualFields fields = true
  induction fields with
  | nil => rfl
  | cons f rest ih =>
    obtain ⟨hf, hrest⟩ := List.forall_mem_cons.1 h
    exact (Bool.and_eq_true _ _).mpr ⟨hf, ih hrest⟩

theorem values?_itemsTrees {depth : Nat} {items : List Value}
    (h : ∀ v ∈ items, v.tree.value? depth = some v) :
    values? depth (itemsTrees items) = some items := by
  induction items with
  | nil => simp [itemsTrees, values?]
  | cons v rest ih =>
    obtain ⟨hv, hrest⟩ := List.forall_mem_cons.1 h
    simp [itemsTrees, values?, hv, ih hrest]

theorem fields?_fieldsTrees {depth : Nat} {fields : List (String × Value)}
    (h : ∀ f ∈ fields, f.2.tree.value? depth = some f.2) :
    fields? depth (fieldsTrees fields) = some fields := by
  induction fields with
  | nil => simp [fieldsTrees, fields?]
  | cons f rest ih =>
    obtain ⟨hf, hrest⟩ := List.forall_mem_cons.1 h
    simp [fieldsTrees, fields?, hf, ih hrest]

theorem value?_tree_strings (texts : List String) {depth : Nat} (h : 0 < depth) :
    (Value.strings texts).tree.value? depth = some (.strings texts) := by
  have hitems : ∀ v ∈ texts.map Value.string, v.tree.value? (depth - 1) = some v := by
    intro v hv
    obtain ⟨text, -, rfl⟩ := List.mem_map.1 hv
    simp [Value.tree, Tree.value?]
  simp [Value.strings, Value.tree, Tree.value?, h, values?_itemsTrees hitems]

/-- A text of an object is read as the object, its members in order. -/
theorem Value.ofBytes?_of_lexes {fields : List (String × Value)} {cs : List Char}
    (h : Lexes (Value.object fields).tokens cs)
    (hfields : ∀ f ∈ fields, f.2.tree.value? (depthLimit - 1) = some f.2) :
    Value.ofBytes? (Text.Utf8.encode cs) = some (.ofDict (.ofList fields)) := by
  have hpos : 0 < depthLimit := by decide
  rw [Value.ofBytes?, Document.ofBytes_of_lexes h]
  simp [Document.value?, Value.tree, Tree.value?, hpos, fields?_fieldsTrees hfields]

end Signpost.Json
