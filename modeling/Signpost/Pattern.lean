import Signpost.Text.Pieces

/-!
# Path patterns

A pattern is `/`, or segments after a slash each. A segment is a literal text, or a name between
braces that captures whatever stands in its place. No name is captured twice.
-/
namespace Signpost

/-- A segment of a pattern; captures are numbered from the left. -/
inductive Segment where
  | literal (text : String)
  | capture (index : Nat)
  deriving DecidableEq, Repr

/-- The segments, and the name and position of each capture. -/
structure Pattern where
  segments : List Segment
  captures : List (String × Nat)
  deriving DecidableEq, Repr

inductive PatternError where
  | noLeadingSlash
  | trailingSlash
  | emptySegment
  | strayBrace
  | badCaptureName (segment : String)
  | repeatedCapture (name : String)
  deriving DecidableEq, Repr

namespace Pattern

def root : Pattern := ⟨[], []⟩

/-- The characters of capture names: ASCII letters, `_` and `-`. -/
def isNameChar (c : Char) : Bool := c.isAlpha || c == '_' || c == '-'

def isName (cs : List Char) : Bool := !cs.isEmpty && cs.all isNameChar

/-- What stands between an opening brace at the start and a closing one at the end. -/
def braced? : List Char → Option (List Char)
  | '\x7b' :: rest => if rest.getLast? = some '\x7d' then some rest.dropLast else none
  | _ => none

def isBrace (c : Char) : Bool := c == '\x7b' || c == '\x7d'

/-- Add the next segment. -/
def add (p : Pattern) (piece : List Char) : Except PatternError Pattern :=
  if piece.isEmpty then .error .emptySegment
  else
    match braced? piece with
    | some name =>
      if !isName name then .error (.badCaptureName (String.ofList piece))
      else if p.captures.any (·.1 = String.ofList name) then
        .error (.repeatedCapture (String.ofList name))
      else
        .ok ⟨p.segments ++ [.capture p.captures.length],
          p.captures ++ [(String.ofList name, p.segments.length)]⟩
    | none =>
      if piece.any isBrace then .error .strayBrace
      else .ok { p with segments := p.segments ++ [.literal (String.ofList piece)] }

def parse (text : String) : Except PatternError Pattern :=
  match text.toList with
  | '/' :: rest =>
    if rest.isEmpty then .ok root
    else if rest.getLast? = some '/' then .error .trailingSlash
    else (Text.cut '/' rest).foldlM add root
  | _ => .error .noLeadingSlash

/-- The text of a segment. A capture that is not listed has no name. -/
def segmentText (p : Pattern) : Segment → String
  | .literal text => text
  | .capture i => "\x7b" ++ ((p.captures[i]?).map (·.1)).getD "" ++ "\x7d"

/-- The text of a pattern. -/
def text (p : Pattern) : String :=
  "/" ++ "/".intercalate (p.segments.map p.segmentText)

end Pattern

end Signpost
