import Signpost.Text.Percent
import Signpost.Text.Pieces
import Signpost.Text.Utf8

/-!
# Request paths

A path is cut at its slashes, those at its ends aside, and each segment is percent-decoded by
itself, so an encoded slash does not cut.
-/
namespace Signpost.Path

open Text

def isSlash (c : Char) : Bool := c == '/'

/-- The path without the slashes at its ends. -/
def trimSlashes (cs : List Char) : List Char :=
  ((cs.dropWhile isSlash).reverse.dropWhile isSlash).reverse

/-- The segments as written. -/
def split (path : String) : List String :=
  let inner := trimSlashes path.toList
  if inner.isEmpty then [] else (cut '/' inner).map String.ofList

/-- The text that a segment encodes, if its bytes are UTF-8. -/
def decodeSegment? (segment : String) : Option String :=
  (Utf8.decode? (Percent.decode (Utf8.encode segment.toList))).map String.ofList

def decode? (segments : List String) : Option (List String) := segments.mapM decodeSegment?

end Signpost.Path
