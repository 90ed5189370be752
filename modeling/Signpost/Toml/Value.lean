import Signpost.Json.Value

/-!
# TOML values

The values of a TOML document, and the JSON values that stand for them when a document is read into
a record.
-/
namespace Signpost.Toml

open Json

inductive Value where
  | string (s : String)
  | integer (n : Int)
  /-- Infinities and NaN have no number. -/
  | float (x : Option Binary64)
  | bool (b : Bool)
  /-- A date, a time or both, as written. -/
  | moment (text : String)
  | array (items : List Value)
  | table (entries : List (String × Value))
  deriving Repr, Inhabited

mutual

/-- The value in JSON. Numbers that JSON has no text for become null, and a moment is an object with
its text as the one field. -/
def Value.toJson : Value → Json.Value
  | .string s => .string s
  | .integer n => .ofInt n
  | .float (some x) => .ofFloat x
  | .float none => .null
  | .bool b => .bool b
  | .moment text => .object [("$moment", .string text)]
  | .array items => .array (itemsToJson items)
  | .table entries => .ofDict (.ofList (entriesToJson entries))

def itemsToJson : List Value → List Json.Value
  | [] => []
  | v :: rest => v.toJson :: itemsToJson rest

def entriesToJson : List (String × Value) → List (String × Json.Value)
  | [] => []
  | (k, v) :: rest => (k, v.toJson) :: entriesToJson rest

end

end Signpost.Toml
