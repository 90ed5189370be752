/-!
# Percent-encoding

A `%` before two hexadecimal digits stands for the byte they write; any other `%` stands for itself.
-/
namespace Signpost.Text.Percent

/-- The value of a hexadecimal digit in either case. -/
def hexDigit? (b : UInt8) : Option UInt8 :=
  if 48 ≤ b && b ≤ 57 then some (b - 48)
  else if 65 ≤ b && b ≤ 70 then some (b - 55)
  else if 97 ≤ b && b ≤ 102 then some (b - 87)
  else none

/-- The byte written after a `%`, if two hexadecimal digits follow. -/
def escaped? (high low : UInt8) : Option UInt8 :=
  match hexDigit? high, hexDigit? low with
  | some h, some l => some (h * 16 + l)
  | _, _ => none

/-- Decode after `done`, whose latest byte comes first. -/
def decodeOnto (done : List UInt8) : List UInt8 → List UInt8
  | [] => done.reverse
  | b :: rest =>
    if b = 37 then
      match rest with
      | high :: low :: rest' =>
        match escaped? high low with
        | some byte => decodeOnto (byte :: done) rest'
        | none => decodeOnto (b :: done) (high :: low :: rest')
      | _ => done.reverse ++ b :: rest
    else decodeOnto (b :: done) rest

def decode (bytes : List UInt8) : List UInt8 := decodeOnto [] bytes

end Signpost.Text.Percent
