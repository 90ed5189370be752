import Signpost.Text.Graphic

/-!
# Quoted texts

The form in which texts are shown inside messages: between double quotes, with a backslash before
quotes and backslashes and an escape for every character that does not show as itself.
-/
namespace Signpost.Text

/-- A number in lower-case hexadecimal. -/
def hex (n : Nat) : String := String.ofList (Nat.toDigits 16 n)

def showChar (c : Char) : String :=
  if c = '"' then "\\\""
  else if c = '\\' then "\\\\"
  else if c = '\n' then "\\n"
  else if c = '\r' then "\\r"
  else if c = '\t' then "\\t"
  else if c.toNat = 0 then "\\0"
  else if isGraphic c then c.toString
  else "\\u\x7b" ++ hex c.toNat ++ "\x7d"

def quoted (s : String) : String := "\"" ++ String.join (s.toList.map showChar) ++ "\""

/-- Quoted texts between brackets. -/
def quotedList (texts : List String) : String :=
  "[" ++ ", ".intercalate (texts.map quoted) ++ "]"

end Signpost.Text
