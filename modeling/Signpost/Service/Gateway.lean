import Signpost.Service.Dispatch

/-!
# The gateway

The gateway stands between the transport and the dispatcher. It gives each request an id, refuses
bodies whose declared length is over the limit, sees to it that no body is longer than declared, and
writes the replies.
-/
namespace Signpost

open Json

/-- What a request is directed at. -/
inductive Target where
  | path (path : String) (query : Option String)
  /-- No path: `*`, or a host alone. -/
  | other
  deriving DecidableEq, Repr

namespace Target

/-- A path and what follows its first `?`. -/
def ofPathChars (cs : List Char) : Target :=
  let path := cs.takeWhile (· ≠ '?')
  .path (String.ofList (if path.isEmpty then ['/'] else path))
    (((cs.dropWhile (· ≠ '?')).tail?).map String.ofList)

/-- What follows the first `://`, if there is one. -/
def afterScheme? : List Char → Option (List Char)
  | [] => none
  | ':' :: '/' :: '/' :: rest => some rest
  | _ :: rest => afterScheme? rest

/-- Read a path or an absolute address; what follows `#` is dropped. -/
def parse (uri : String) : Target :=
  let cs := uri.toList.takeWhile (· ≠ '#')
  match cs with
  | '/' :: _ => ofPathChars cs
  | _ =>
    match afterScheme? cs with
    | some rest => ofPathChars (rest.dropWhile fun c => c ≠ '/' && c ≠ '?')
    | none => .other

end Target

/-- A request as the transport delivers it. -/
structure Message where
  method : String
  target : Target
  headers : Headers
  body : Body

/-- A reply. The request id goes into its `x-request-id` header. -/
structure Reply where
  status : Nat
  contentType : Option String
  requestId : List UInt8
  body : String
  deriving DecidableEq, Repr

namespace Refusal

/-- The body of a refusal. -/
def body (r : Refusal) : Value :=
  .object [("error", .object [("code", .ofNat r.status), ("reason", .string r.message)])]

end Refusal

/-- Status and text of an answer in JSON. -/
def answer : Except Refusal (Dict Value) → Nat × String
  | .ok fields => (200, (Value.ofDict fields).text)
  | .error reason => (reason.status, reason.body.text)

namespace Service

variable {σ : Type}

/-- The id that was sent, or the fresh one. -/
def idBytes (freshId : String) (headers : Headers) : List UInt8 :=
  (headers.first? "x-request-id").getD (Text.Utf8.encode freshId.toList)

/-- The request of a message that is directed at a path. An id that is not text is not known. -/
def requestOf (s : Service σ) (freshId : String) (m : Message) (path : String)
    (query : Option String) : Request where
  requestId := (Headers.text? (idBytes freshId m.headers)).getD "unknown"
  method := m.method
  path := path
  query := query
  headers := m.headers
  body := m.body.cap ((m.headers.contentLength?.getD s.maxBodySize).min s.maxBodySize)

/-- Status, content type and body of the reply to a message, and the state after it. -/
def reply (s : Service σ) (freshId : String) (m : Message) (state : σ) :
    (Nat × Option String × String) × σ :=
  if s.maxBodySize < m.headers.contentLength?.getD 0 then
    ((413, some "text/plain; charset=utf-8", "length limit exceeded"), state)
  else
    match m.target with
    | .other => ((404, none, ""), state)
    | .path path query =>
      let (result, state) := s.dispatch (s.requestOf freshId m path query) state
      let (status, text) := answer result
      ((status, some "application/json", text), state)

/-- Serve a message. Replies to `HEAD` have no body. -/
def respond (s : Service σ) (freshId : String) (m : Message) (state : σ) : Reply × σ :=
  let ((status, contentType, text), state) := s.reply freshId m state
  (⟨status, contentType, idBytes freshId m.headers, if m.method = "HEAD" then "" else text⟩, state)

/-- Serve messages in turn. -/
def respondAll (s : Service σ) (freshId : String) : List Message → σ → List Reply × σ
  | [], state => ([], state)
  | m :: rest, state =>
    let (first, state) := s.respond freshId m state
    let (others, state) := respondAll s freshId rest state
    (first :: others, state)

end Service

end Signpost
