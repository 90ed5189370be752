import Signpost.Proofs.Service.Admission
import Signpost.Proofs.Service.Body
import Signpost.Proofs.Service.Dispatch
import Signpost.Service.Gateway

/-!
# Refusals that do not depend on the request

A caller who is not admitted learns nothing but that: the reply is the same whatever query, body and
other headers were sent, and no handler has seen the request.
-/
namespace Signpost

open Json

namespace Target

/-- The path that a target is directed at. -/
def path? : Target → Option String
  | .path text _ => some text
  | .other => none

theorem path?_eq_some_iff {t : Target} {text : String} :
    t.path? = some text ↔ ∃ query, t = .path text query := by
  cases t <;> simp [path?]

end Target

/-- The reply that refuses a message. -/
def Refusal.reply (reason : Refusal) (freshId : String) (m : Message) : Reply where
  status := reason.status
  contentType := some "application/json"
  requestId := Service.idBytes freshId m.headers
  body := if m.method = "HEAD" then "" else reason.body.text

/-- Messages from callers who cannot be told apart when they are admitted. -/
structure Message.Alike (m m' : Message) : Prop where
  method : m.method = m'.method
  path : m.target.path? = m'.target.path?
  keys : m.headers.valuesOf "authorization" = m'.headers.valuesOf "authorization"

namespace Service

variable {σ τ : Type} {s : Service σ} {m m' : Message} {path : String}

theorem respond_of_other {freshId : String}
    (hlength : m.headers.contentLength?.getD 0 ≤ s.maxBodySize) (htarget : m.target = .other)
    (state : σ) :
    s.respond freshId m state = (⟨404, none, idBytes freshId m.headers, ""⟩, state) := by
  have hreply : s.reply freshId m state = ((404, none, ""), state) := by
    rw [reply, if_neg (by omega), htarget]
  simp only [respond, hreply, ite_self]

theorem respond_of_prepare_error {query : Option String} {freshId : String} {reason : Refusal}
    (hlength : m.headers.contentLength?.getD 0 ≤ s.maxBodySize)
    (htarget : m.target = .path path query)
    (h : s.prepare (s.requestOf freshId m path query) = .error reason) (state : σ) :
    s.respond freshId m state = (reason.reply freshId m, state) := by
  have hreply : s.reply freshId m state =
      ((reason.status, some "application/json", reason.body.text), state) := by
    rw [reply, if_neg (by omega), htarget]
    simp only [dispatch_of_prepare_error h, answer]
  simp only [respond, hreply, Refusal.reply]

theorem respond_of_admission_error {freshId : String} {reason : Refusal}
    (hlength : m.headers.contentLength?.getD 0 ≤ s.maxBodySize)
    (hpath : m.target.path? = some path)
    (h : s.admission m.method path m.headers = .error reason) (state : σ) :
    s.respond freshId m state = (reason.reply freshId m, state) := by
  obtain ⟨query, htarget⟩ := Target.path?_eq_some_iff.1 hpath
  exact respond_of_prepare_error hlength htarget (prepare_of_admission_error h) state

/-- A caller who is not admitted gets the same refusal whatever else the message holds and whichever
handlers there are, and no handler is called: the state is left alone. -/
theorem refusal_independent (halike : m.Alike m') (hpath : m.target.path? = some path)
    (hlength : m.headers.contentLength?.getD 0 ≤ s.maxBodySize)
    (hlength' : m'.headers.contentLength?.getD 0 ≤ s.maxBodySize) {reason : Refusal}
    (h : s.admission m.method path m.headers = .error reason) (handlers : Handlers τ)
    (freshId freshId' : String) (state : σ) (state' : τ) :
    (reason = .unknownService ∨ reason = .forbidden) ∧
      s.respond freshId m state = (reason.reply freshId m, state) ∧
      (s.withHandlers handlers).respond freshId' m' state' = (reason.reply freshId' m', state') ∧
      (reason.reply freshId' m').status = (reason.reply freshId m).status ∧
      (reason.reply freshId' m').body = (reason.reply freshId m).body := by
  have hother : (s.withHandlers handlers).admission m'.method path m'.headers =
      .error reason := by
    rw [admission_withHandlers, ← halike.method, ← admission_congr halike.keys, h]
  have hpath' : m'.target.path? = some path := halike.path.symm.trans hpath
  refine ⟨?_, respond_of_admission_error hlength hpath h state,
    respond_of_admission_error (s := s.withHandlers handlers) hlength' hpath' hother state',
    rfl, ?_⟩
  · rcases admission_eq_error_iff.1 h with ⟨hreason, -⟩ | ⟨hreason, -⟩
    · exact .inl hreason
    · exact .inr hreason
  · simp only [Refusal.reply, halike.method]

/-- A caller who holds the role of another user, asking with a body. -/
def strangerMessage : Message where
  method := "PUT"
  target := .path "/users/8" (some "notify=1")
  headers := [("Authorization", Text.Utf8.encode "Bearer k".toList),
    ("Content-Type", Text.Utf8.encode "application/x-www-form-urlencoded".toList)]
  body := .ofBytes (Text.Utf8.encode "name=ada".toList)

/-- The same caller with another query and a body that is too long and breaks off. -/
def strangerMessage' : Message where
  method := "PUT"
  target := .path "/users/8" none
  headers := [("X-Request-Id", [0x31]), ("authorization", Text.Utf8.encode "Bearer k".toList)]
  body := ⟨[List.replicate 60 0x61, List.replicate 60 0x62], .broken⟩

/-- Handlers that count how often they are called. -/
def countingHandlers : Handlers Nat :=
  ⟨[((.put, "/users/\x7bid\x7d"), fun _ calls => (.ok {}, calls + 1))], []⟩

theorem refusal_independent_stranger :
    ∃ endpoints, Manifest.compile [Endpoint.renameUser] = .ok endpoints ∧
      ((renameService endpoints).respond "a" strangerMessage ()).1.status = 403 ∧
      (((renameService endpoints).withHandlers countingHandlers).respond "b" strangerMessage' 5) =
        (Refusal.forbidden.reply "b" strangerMessage', 5) := by
  have hrun : (Manifest.compile [Endpoint.renameUser]).toOption.any (fun endpoints =>
      decide (failure? ((renameService endpoints).admission "PUT" "/users/8"
        strangerMessage.headers) = some .forbidden)) = true := by decide +kernel
  obtain ⟨endpoints, hcompile, hadmission⟩ := exists_of_any_toOption hrun
  have hadmission := failure?_eq_some_iff.1 (of_decide_eq_true hadmission)
  have halike : strangerMessage.Alike strangerMessage' := ⟨rfl, rfl, by decide +kernel⟩
  have hlength : strangerMessage.headers.contentLength?.getD 0 ≤ 64 := by decide +kernel
  have hlength' : strangerMessage'.headers.contentLength?.getD 0 ≤ 64 := by decide +kernel
  obtain ⟨-, hfirst, hsecond, -, -⟩ :=
    refusal_independent halike rfl hlength hlength' hadmission countingHandlers "a" "b" () 5
  exact ⟨endpoints, hcompile, by rw [hfirst]; rfl, hsecond⟩

end Service

end Signpost
