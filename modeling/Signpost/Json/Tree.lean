import Signpost.Json.Token

/-!
# JSON documents as trees

The tree of a text goes as far as the text is well formed. Where it stops being so there is a
`broken` node, or an array or object that is not closed, and nothing after it. Whoever reads a tree
in order thus meets the first fault of the text exactly where it stands, and a tree keeps repeated
names, so that what is done about them is up to the reader.
-/
namespace Signpost.Json

inductive Tree where
  | null
  | bool (b : Bool)
  | number (n : Number)
  | string (s : String)
  | array (items : List Tree) (closed : Bool)
  | object (members : List (String × Tree)) (closed : Bool)
  | broken
  deriving Repr, Inhabited

/-- A tree, and whether the text ends with it. -/
structure Document where
  root : Tree
  complete : Bool
  deriving Repr, Inhabited

namespace Tree

/-- An array or object begun, the latest part first. An object may have a name that waits for its
value. -/
inductive Frame where
  | array (items : List Tree)
  | object (members : List (String × Tree)) (key : Option String)
  deriving Repr

/-- What may come next. -/
inductive Expect where
  | value
  /-- A value, or the end of the array just begun. -/
  | valueOrClose
  /-- A name, or the end of the object just begun. -/
  | keyOrClose
  | key
  | colon
  | commaOrClose
  /-- The end of the text. -/
  | stop
  /-- Nothing: the text has stopped being well formed. -/
  | dead
  deriving DecidableEq, Repr

/-- The frames begun, the innermost first, what may come next, and the document once it is known. -/
structure Builder where
  frames : List Frame
  expect : Expect
  document : Document
  deriving Repr

/-- Break off all frames, with `inner` as far as the innermost value goes. -/
def breakOff : Option Tree → List Frame → Tree
  | inner, [] => inner.getD .broken
  | inner, .array items :: rest =>
    breakOff (some (.array (inner.toList ++ items).reverse false)) rest
  | inner, .object members (some key) :: rest =>
    breakOff (some (.object ((key, inner.getD .broken) :: members).reverse false)) rest
  | _, .object members none :: rest => breakOff (some (.object members.reverse false)) rest

namespace Builder

def start : Builder := ⟨[], .value, ⟨.broken, false⟩⟩

/-- The text stops being well formed here. -/
def fail (b : Builder) : Builder :=
  match b.expect with
  | .stop => { b with expect := .dead, document := ⟨b.document.root, false⟩ }
  | .dead => b
  | _ => { b with expect := .dead, document := ⟨breakOff none b.frames, false⟩ }

/-- A complete value. -/
def push (b : Builder) (t : Tree) : Builder :=
  match b.frames with
  | [] => { b with expect := .stop, document := ⟨t, true⟩ }
  | .array items :: rest =>
    { b with frames := .array (t :: items) :: rest, expect := .commaOrClose }
  | .object members (some key) :: rest =>
    { b with frames := .object ((key, t) :: members) none :: rest, expect := .commaOrClose }
  | .object _ none :: _ => b.fail

/-- The end of the innermost frame. -/
def close (b : Builder) : Builder :=
  match b.frames with
  | .array items :: rest => { b with frames := rest }.push (.array items.reverse true)
  | .object members _ :: rest => { b with frames := rest }.push (.object members.reverse true)
  | [] => b.fail

/-- The first token of a value. -/
def value (b : Builder) (t : Token) : Builder :=
  match t with
  | .null => b.push .null
  | .bool x => b.push (.bool x)
  | .number n => b.push (.number n)
  | .string s => b.push (.string s)
  | .openArray => { b with frames := .array [] :: b.frames, expect := .valueOrClose }
  | .openObject => { b with frames := .object [] none :: b.frames, expect := .keyOrClose }
  | _ => b.fail

/-- The name of the next member. -/
def key (b : Builder) (t : Token) : Builder :=
  match t, b.frames with
  | .string k, .object members _ :: rest =>
    { b with frames := .object members (some k) :: rest, expect := .colon }
  | _, _ => b.fail

def step (b : Builder) (t : Token) : Builder :=
  match b.expect with
  | .value => b.value t
  | .valueOrClose => if t = .closeArray then b.close else b.value t
  | .keyOrClose => if t = .closeObject then b.close else b.key t
  | .key => b.key t
  | .colon => if t = .colon then { b with expect := .value } else b.fail
  | .commaOrClose =>
    match t, b.frames with
    | .comma, .array _ :: _ => { b with expect := .value }
    | .comma, .object _ _ :: _ => { b with expect := .key }
    | .closeArray, .array _ :: _ => b.close
    | .closeObject, .object _ _ :: _ => b.close
    | _, _ => b.fail
  | .stop => b.fail
  | .dead => b

def finish (b : Builder) : Document :=
  match b.expect with
  | .stop | .dead => b.document
  | _ => b.fail.document

end Builder

end Tree

def Document.ofTokens (tokens : List Token) : Document :=
  (tokens.foldl Tree.Builder.step .start).finish

/-- The tree of a text. -/
def Document.ofChars (cs : List Char) : Document := .ofTokens (Token.scan cs)

/-- The tree of a text in UTF-8. -/
def Document.ofBytes (bytes : List UInt8) : Document := .ofChars (documentChars bytes)

/-- Arrays and objects may stand inside each other this deep. -/
def depthLimit : Nat := 127

mutual

/-- The value of a tree without faults that is at most `depth` deep. Of members with one name the
last one counts. -/
def Tree.value? (depth : Nat) : Tree → Option Value
  | .null => some .null
  | .bool b => some (.bool b)
  | .number n => some (.number n)
  | .string s => some (.string s)
  | .array items closed =>
    if closed && 0 < depth then (values? (depth - 1) items).map .array else none
  | .object members closed =>
    if closed && 0 < depth then
      (fields? (depth - 1) members).map fun fields => .ofDict (.ofList fields)
    else none
  | .broken => none

def values? (depth : Nat) : List Tree → Option (List Value)
  | [] => some []
  | t :: rest =>
    match t.value? depth, values? depth rest with
    | some v, some vs => some (v :: vs)
    | _, _ => none

def fields? (depth : Nat) : List (String × Tree) → Option (List (String × Value))
  | [] => some []
  | (k, t) :: rest =>
    match t.value? depth, fields? depth rest with
    | some v, some vs => some ((k, v) :: vs)
    | _, _ => none

end

/-- The value that a whole document writes. -/
def Document.value? (d : Document) : Option Value :=
  if d.complete then d.root.value? depthLimit else none

def Value.ofChars? (cs : List Char) : Option Value := (Document.ofChars cs).value?

def Value.ofBytes? (bytes : List UInt8) : Option Value := (Document.ofBytes bytes).value?

end Signpost.Json
