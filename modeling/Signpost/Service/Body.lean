import Signpost.Service.Refusal

/-!
# Request bodies

A body arrives in chunks of bytes, and the transport may break off before its end. A limiter lets
chunks through as long as their total length is within its limit, and ends the body at the first
chunk that is not. Whoever hands a body on wraps its errors, so the reader looks for a limiter among
all the sources of an error.
-/
namespace Signpost

/-- Why a body breaks off. -/
inductive BodyError where
  | transport
  | overLimit
  | wrapped (source : BodyError)
  deriving DecidableEq, Repr

namespace BodyError

/-- Whether an error or one of its sources is that of a limiter. -/
def isOverLimit : BodyError → Bool
  | transport => false
  | overLimit => true
  | wrapped source => source.isOverLimit

def refusal (e : BodyError) : Refusal :=
  if e.isOverLimit then .tooLarge else .malformedBody

end BodyError

/-- How a body ends. -/
inductive BodyEnd where
  | complete
  | failed (error : BodyError)
  deriving DecidableEq, Repr

namespace BodyEnd

def broken : BodyEnd := .failed .transport

def wrapped : BodyEnd → BodyEnd
  | complete => complete
  | failed error => failed error.wrapped

end BodyEnd

structure Body where
  chunks : List (List UInt8)
  ending : BodyEnd
  deriving DecidableEq, Repr

namespace Body

def empty : Body := ⟨[], .complete⟩

/-- A body that arrives at once. -/
def ofBytes (bytes : List UInt8) : Body := ⟨[bytes], .complete⟩

/-- The chunks within a limit, and whether there are more. -/
def within : (limit : Nat) → List (List UInt8) → List (List UInt8) × Bool
  | _, [] => ([], false)
  | limit, chunk :: rest =>
    if limit < chunk.length then ([], true)
    else
      let (kept, more) := within (limit - chunk.length) rest
      (chunk :: kept, more)

/-- The body as it is handed on. -/
def wrapped (b : Body) : Body := { b with ending := b.ending.wrapped }

/-- The body as a limiter lets it through and hands it on. -/
def cap (limit : Nat) (b : Body) : Body :=
  let (kept, more) := within limit b.chunks
  wrapped ⟨kept, if more then .failed .overLimit else b.ending⟩

/-- All bytes, if the body has a proper end. -/
def collect (b : Body) : Except Refusal (List UInt8) :=
  match b.ending with
  | .complete => .ok b.chunks.flatten
  | .failed e => .error e.refusal

/-- All bytes of a body that is at most `limit` bytes long. -/
def read (limit : Nat) (b : Body) : Except Refusal (List UInt8) := (b.cap limit).collect

end Body

end Signpost
