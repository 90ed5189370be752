import Signpost.Json.Value

/-!
# Role templates

A role may refer to captured values: in `user[ID]` the token `ID` between the brackets stands for
the value captured under that name. A token that names no capture is plain text.
-/
namespace Signpost

open Json

/-- A stretch of plain text, or a reference to the capture of a name. -/
inductive Part where
  | literal (text : String)
  | capture (name : String)
  deriving DecidableEq, Repr

def Part.name? : Part → Option String
  | .literal _ => none
  | .capture name => some name

/-- The text of a part, a reference being written as its name. -/
def Part.text : Part → String
  | .literal text => text
  | .capture name => name

/-- The text of a value inside a role: that of a string as it is, and of others in JSON. -/
def roleText : Value → String
  | .string s => s
  | v => v.text

/-- A role as written and its parts. -/
structure Template where
  raw : String
  parts : List Part
  deriving DecidableEq, Repr

namespace Template

/-- Plain text as a part, unless it is empty. The latest character comes first. -/
def literalPart (latest : List Char) : List Part :=
  if latest.isEmpty then [] else [.literal (String.ofList latest.reverse)]

/-- The token that starts a text: what stands before the first `]`, if there is one. -/
def token? (cs : List Char) : Option (List Char) :=
  if cs.contains ']' then some (cs.takeWhile (· ≠ ']')) else none

/-- The parts of a text after `latest`, of which `skip` characters belong to a token already taken.
An opening bracket belongs to the text before a reference, the closing one to the text after it. -/
def scan (isCapture : String → Bool) : (skip : Nat) → (latest : List Char) → List Char → List Part
  | _, latest, [] => literalPart latest
  | skip + 1, latest, _ :: rest => scan isCapture skip latest rest
  | 0, latest, c :: rest =>
    if c = '[' then
      match token? rest with
      | some token =>
        if isCapture (String.ofList token) then
          literalPart (c :: latest) ++
            .capture (String.ofList token) :: scan isCapture token.length [] rest
        else scan isCapture 0 (c :: latest) rest
      | none => scan isCapture 0 (c :: latest) rest
    else scan isCapture 0 (c :: latest) rest

def compile (raw : String) (isCapture : String → Bool) : Template :=
  ⟨raw, scan isCapture 0 [] raw.toList⟩

/-- The captures referred to, in order. -/
def captures (t : Template) : List String := t.parts.filterMap Part.name?

def isStatic (t : Template) : Bool := t.captures.isEmpty

/-- The text of a part, a reference being replaced by the captured value if there is one. -/
def fill (values : Dict Value) : Part → String
  | .literal text => text
  | .capture name =>
    match values.get? name with
    | some v => roleText v
    | none => name

/-- The role that a template stands for. -/
def render (t : Template) (values : Dict Value) : String :=
  if t.isStatic then t.raw else String.join (t.parts.map (fill values))

end Template

end Signpost
