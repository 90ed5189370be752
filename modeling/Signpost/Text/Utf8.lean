/-!
# UTF-8

Bytes are read one at a time. What is read is a list of characters and of ill-formed pieces, `none`
for each: a piece is a start of a character as long as it can be, or one byte that starts none.
The strict reading refuses any such piece, the lenient one puts a character in its place.
-/
namespace Signpost.Text.Utf8

/-- A character begun and not yet complete. The next byte has to lie between `lower` and `upper`. -/
structure Pending where
  needed : Nat
  lower : Nat
  upper : Nat
  code : Nat
  deriving DecidableEq, Repr

/-- What has been read, the latest first, and the character begun. -/
structure Decoder where
  read : List (Option Char)
  pending : Option Pending
  deriving DecidableEq, Repr

namespace Decoder

def start : Decoder := ⟨[], none⟩

/-- Read a byte that begins a character. -/
def first (read : List (Option Char)) (b : Nat) : Decoder :=
  if b < 0x80 then ⟨some (Char.ofNat b) :: read, none⟩
  else if 0xC2 ≤ b && b ≤ 0xDF then ⟨read, some ⟨1, 0x80, 0xBF, b % 32⟩⟩
  else if b = 0xE0 then ⟨read, some ⟨2, 0xA0, 0xBF, 0⟩⟩
  else if b = 0xED then ⟨read, some ⟨2, 0x80, 0x9F, 13⟩⟩
  else if 0xE1 ≤ b && b ≤ 0xEF then ⟨read, some ⟨2, 0x80, 0xBF, b % 16⟩⟩
  else if b = 0xF0 then ⟨read, some ⟨3, 0x90, 0xBF, 0⟩⟩
  else if 0xF1 ≤ b && b ≤ 0xF3 then ⟨read, some ⟨3, 0x80, 0xBF, b % 8⟩⟩
  else if b = 0xF4 then ⟨read, some ⟨3, 0x80, 0x8F, 4⟩⟩
  else ⟨none :: read, none⟩

/-- A byte that cannot continue the character begun ends it and is read afresh. -/
def step (d : Decoder) (byte : UInt8) : Decoder :=
  let b := byte.toNat
  match d.pending with
  | none => first d.read b
  | some p =>
    if p.lower ≤ b && b ≤ p.upper then
      let code := p.code * 64 + b % 64
      if p.needed ≤ 1 then ⟨some (Char.ofNat code) :: d.read, none⟩
      else ⟨d.read, some ⟨p.needed - 1, 0x80, 0xBF, code⟩⟩
    else first (none :: d.read) b

/-- All that was read, in order. -/
def finish (d : Decoder) : List (Option Char) :=
  match d.pending with
  | none => d.read.reverse
  | some _ => (none :: d.read).reverse

end Decoder

/-- The characters and the ill-formed pieces of a byte sequence. -/
def decode (bytes : List UInt8) : List (Option Char) :=
  (bytes.foldl Decoder.step .start).finish

/-- The characters, if every piece is well formed. -/
def decode? (bytes : List UInt8) : Option (List Char) :=
  let read := decode bytes
  if read.all Option.isSome then some (read.filterMap id) else none

/-- The characters, with `mark` for each ill-formed piece. -/
def decodeWith (mark : Char) (bytes : List UInt8) : List Char :=
  (decode bytes).map (·.getD mark)

/-- The reading of forms and of shown text: U+FFFD stands for what cannot be read. -/
def decodeLenient (bytes : List UInt8) : List Char := decodeWith '\uFFFD' bytes

def encode (cs : List Char) : List UInt8 := cs.flatMap String.utf8EncodeChar

end Signpost.Text.Utf8
