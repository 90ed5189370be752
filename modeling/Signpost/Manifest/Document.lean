import Signpost.Json.Shape
import Signpost.Manifest

/-!
# Manifest documents

Manifests as JSON documents. A record is written as an object of all its fields; it may be read from
an object in which some are missing, or from an array of the fields in order. Unknown and repeated
fields are refused.
-/
namespace Signpost.Manifest

open Signpost.Json

namespace Param

def fields : List String := ["info", "type", "name"]

/-- What has been read of a parameter. -/
structure Draft where
  info : Option String := none
  typeText : Option String := none
  name : Option (Option String) := none

/-- Read a member, if the field is known and not filled yet. -/
def Draft.put (d : Draft) (member : String × Tree) : Except Fault Draft :=
  let (key, t) := member
  let fresh (filled : Bool) (read : Except Fault Draft) : Except Fault Draft :=
    if filled then .error (.shape (.duplicateField key)) else read
  match key with
  | "info" => fresh d.info.isSome (t.text.map fun s => { d with info := some s })
  | "type" => fresh d.typeText.isSome (t.text.map fun s => { d with typeText := some s })
  | "name" => fresh d.name.isSome (t.textOrNull.map fun s => { d with name := some s })
  | _ => .error (.shape (.unknownField key fields))

def Draft.finish (d : Draft) : Except Fault Param :=
  match d.typeText with
  | none => .error (.shape (.missingField "type"))
  | some t => .ok { info := d.info.getD "", typeText := t, name := d.name.getD none }

def expectedLength : String := "struct ManifestParam with 3 elements"

def ofElements (closed : Bool) : StateT (List Tree) (Except Fault) Param := do
  let info ← Tree.element closed Tree.text (.ok "")
  let typeText ← Tree.element closed Tree.text (.error (.wrongLength 1 expectedLength))
  let name ← Tree.element closed Tree.textOrNull (.ok none)
  return { info, typeText, name }

def ofTree : Tree → Except Fault Param
  | .object members closed =>
    members.foldlM Draft.put {} >>= Tree.closing closed >>= Draft.finish
  | .array items closed =>
    (ofElements closed).run items >>= fun (param, rest) =>
      Tree.closing (closed && rest.isEmpty) param
  | t => .error (t.mismatch "struct ManifestParam")

def toValue (p : Param) : Value :=
  .object [("info", .string p.info), ("type", .string p.typeText),
    ("name", match p.name with | some n => .string n | none => .null)]

end Param

namespace Entry

def fields : List String := ["method", "path", "scope", "info", "in", "out"]

/-- What has been read of an endpoint. -/
structure Draft where
  method : Option String := none
  path : Option String := none
  scope : Option (List (List String)) := none
  info : Option String := none
  input : Option (Dict Param) := none
  output : Option (Dict Param) := none

/-- Read a member, if the field is known and not filled yet. -/
def Draft.put (d : Draft) (member : String × Tree) : Except Fault Draft :=
  let (key, t) := member
  let fresh (filled : Bool) (read : Except Fault Draft) : Except Fault Draft :=
    if filled then .error (.shape (.duplicateField key)) else read
  match key with
  | "method" => fresh d.method.isSome (t.text.map fun s => { d with method := some s })
  | "path" => fresh d.path.isSome (t.text.map fun s => { d with path := some s })
  | "scope" =>
    fresh d.scope.isSome (t.list (Tree.list Tree.text) |>.map fun s => { d with scope := some s })
  | "info" => fresh d.info.isSome (t.text.map fun s => { d with info := some s })
  | "in" => fresh d.input.isSome (t.dict Param.ofTree |>.map fun p => { d with input := some p })
  | "out" => fresh d.output.isSome (t.dict Param.ofTree |>.map fun p => { d with output := some p })
  | _ => .error (.shape (.unknownField key fields))

def Draft.finish (d : Draft) : Except Fault Entry :=
  match d.method, d.path with
  | none, _ => .error (.shape (.missingField "method"))
  | _, none => .error (.shape (.missingField "path"))
  | some method, some path =>
    .ok { method, path, scope := d.scope.getD [], info := d.info.getD "",
          input := d.input.getD {}, output := d.output.getD {} }

def expectedLength : String := "struct ManifestEndpoint with 6 elements"

def ofElements (closed : Bool) : StateT (List Tree) (Except Fault) Entry := do
  let method ← Tree.element closed Tree.text (.error (.wrongLength 0 expectedLength))
  let path ← Tree.element closed Tree.text (.error (.wrongLength 1 expectedLength))
  let scope ← Tree.element closed (Tree.list (Tree.list Tree.text)) (.ok [])
  let info ← Tree.element closed Tree.text (.ok "")
  let input ← Tree.element closed (Tree.dict Param.ofTree) (.ok {})
  let output ← Tree.element closed (Tree.dict Param.ofTree) (.ok {})
  return { method, path, scope, info, input, output }

def ofTree : Tree → Except Fault Entry
  | .object members closed =>
    members.foldlM Draft.put {} >>= Tree.closing closed >>= Draft.finish
  | .array items closed =>
    (ofElements closed).run items >>= fun (entry, rest) =>
      Tree.closing (closed && rest.isEmpty) entry
  | t => .error (t.mismatch "struct ManifestEndpoint")

def toValue (e : Entry) : Value :=
  .object [("method", .string e.method), ("path", .string e.path),
    ("scope", .array (e.scope.map .strings)), ("info", .string e.info),
    ("in", .ofDict (e.input.map Param.toValue)), ("out", .ofDict (e.output.map Param.toValue))]

end Entry

/-- Read a whole document as a manifest. -/
def ofDocument (d : Document) : Except Fault (List Entry) :=
  d.root.list Entry.ofTree >>= Tree.closing d.complete

def ofBytes (bytes : List UInt8) : Except Fault (List Entry) := ofDocument (.ofBytes bytes)

/-- The compact document of a manifest. -/
def text (entries : List Entry) : String := (Value.array (entries.map Entry.toValue)).text

end Signpost.Manifest
