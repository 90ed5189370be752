import Signpost.Dict
import Signpost.Text.Blank
import Signpost.Text.Integer

/-!
# Request headers

Headers are listed as they were sent. Their names do not distinguish capitals, and of several
headers with one name the first counts. An API key, sent as a bearer token, gives the roles of the
caller.
-/
namespace Signpost

/-- Names and values in the order sent. -/
abbrev Headers := List (String × List UInt8)

namespace Headers

open Text

def lowerCase (name : String) : String := String.ofList (name.toList.map Char.toLower)

def first? (headers : Headers) (name : String) : Option (List UInt8) :=
  (headers.find? fun h => lowerCase h.1 = lowerCase name).map (·.2)

/-- Printable ASCII, the space and the tab. -/
def isVisible (b : UInt8) : Bool := (0x20 ≤ b && b ≤ 0x7E) || b == 9

/-- A value as text, if all of its bytes are visible. -/
def text? (value : List UInt8) : Option String :=
  if value.all isVisible then some (String.ofList (value.map fun b => Char.ofNat b.toNat)) else none

/-- The text of the first header with a name. -/
def textOf? (headers : Headers) (name : String) : Option String := (headers.first? name).bind text?

/-- The length declared for the body, if it is a number at all. -/
def contentLength? (headers : Headers) : Option Nat :=
  (headers.textOf? "content-length").bind fun s => Integer.unsigned? (Nat.pow 2 64) s.toList

/-- What follows `Bearer `, without blanks around it. -/
def bearer? : List Char → Option (List Char)
  | 'B' :: 'e' :: 'a' :: 'r' :: 'e' :: 'r' :: ' ' :: key => some (trim key)
  | _ => none

def bearerKey? (headers : Headers) : Option String :=
  ((headers.textOf? "authorization").bind fun s => bearer? s.toList).map String.ofList

end Headers

/-- The roles that each API key carries. -/
abbrev ApiKeys := Dict (List String)

/-- The roles of a caller. Without a key that is known there are none. -/
def ApiKeys.roles (keys : ApiKeys) (headers : Headers) : List String :=
  (headers.bearerKey?.bind (Dict.get? keys)).getD []

end Signpost
