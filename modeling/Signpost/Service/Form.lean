import Signpost.Json.Tree
import Signpost.Service.Refusal
import Signpost.Text.Blank
import Signpost.Text.Percent
import Signpost.Text.Pieces
import Signpost.Text.Utf8

/-!
# Raw parameters

The values that a query or a body gives under each key, before any validation. Forms are read by
the rules for `application/x-www-form-urlencoded`; a key that occurs once has a text, and one that
occurs several times the list of its texts.
-/
namespace Signpost.Form

open Json Text

/-- The text that a name or a value encodes: `+` is a space, and ill-formed UTF-8 is replaced. -/
def decodeText (bytes : List UInt8) : String :=
  String.ofList (Utf8.decodeLenient (Percent.decode (bytes.map fun b => if b = 43 then 32 else b)))

/-- The name and the value of a piece, cut at its first `=`. -/
def decodePair (piece : List UInt8) : String × String :=
  let (name, value) := cutOnce (· = 61) piece
  (decodeText name, decodeText value)

/-- The pairs of a form in order. -/
def pairs (bytes : List UInt8) : List (String × String) :=
  ((pieces (· = 38) bytes).filter (!·.isEmpty)).map decodePair

/-- The texts under each key, the latest first, so that a key may occur any number of times without
its texts being gone through for each of them. -/
def gather (pairs : List (String × String)) : Dict (List String) :=
  pairs.foldl (fun d (key, value) => d.insert key (value :: (d.get? key).getD [])) {}

/-- The value of a key with these texts, the latest first. -/
def valueOf : List String → Value
  | [text] => .string text
  | latest => .strings latest.reverse

/-- The raw parameters of a form. -/
def decode (bytes : List UInt8) : Dict Value := (gather (pairs bytes)).map valueOf

def decodeQuery (query : Option String) : Dict Value :=
  match query with
  | some q => decode (Utf8.encode q.toList)
  | none => {}

/-- The media type of a content type: what stands before its parameters, in lower case. -/
def mediaType (contentType : String) : String :=
  String.ofList ((trim (contentType.toList.takeWhile (· ≠ ';'))).map Char.toLower)

/-- The raw parameters of a body. An empty body has none, whatever its content type. -/
def decodeBody (contentType : Option String) (body : List UInt8) : Except Refusal (Dict Value) :=
  if body.isEmpty then .ok {}
  else
    match contentType.map mediaType with
    | some "application/json" =>
      match Value.ofBytes? body with
      | some (.object fields) => .ok (.ofList fields)
      | _ => .error .malformedBody
    | some "application/x-www-form-urlencoded" => .ok (decode body)
    | _ => .error .unsupportedMedia

end Signpost.Form
