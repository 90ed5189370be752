import Signpost.Proofs.Service.Gateway

/-!
# Bodies with and without a declared length

Within the limit it makes no difference whether the length of a body is declared. Beyond it the two
mechanisms that enforce the limit disagree. A body that is declared to be too long is refused by the
gateway, in plain text and before the caller is known. One that turns out to be too long is refused
by the reader, in JSON and after the caller has been admitted.
-/
namespace Signpost

open Json

/-- The message without a declared length. -/
def Message.undeclared (m : Message) : Message :=
  { m with headers := m.headers.without "content-length" }

namespace Message

@[simp] theorem method_undeclared (m : Message) : m.undeclared.method = m.method := rfl

@[simp] theorem target_undeclared (m : Message) : m.undeclared.target = m.target := rfl

@[simp] theorem contentLength?_undeclared (m : Message) :
    m.undeclared.headers.contentLength? = none :=
  Headers.contentLength?_without

theorem contentLength_undeclared_le (m : Message) (limit : Nat) :
    m.undeclared.headers.contentLength?.getD 0 ≤ limit := by
  simp

theorem valuesOf_undeclared (m : Message) (name : String)
    (h : Headers.lowerCase name ≠ Headers.lowerCase "content-length") :
    m.undeclared.headers.valuesOf name = m.headers.valuesOf name :=
  Headers.valuesOf_without_of_ne h

end Message

/-- The gateway's own reply to a body that is declared to be too long. -/
def Message.overlongReply (m : Message) (freshId : String) : Reply where
  status := 413
  contentType := some "text/plain; charset=utf-8"
  requestId := Service.idBytes freshId m.headers
  body := if m.method = "HEAD" then "" else "length limit exceeded"

namespace Service

variable {σ : Type} {s : Service σ} {m : Message} {freshId path : String} {query : Option String}

theorem idBytes_undeclared :
    idBytes freshId m.undeclared.headers = idBytes freshId m.headers := by
  have hid := m.valuesOf_undeclared "x-request-id" (by decide)
  rw [idBytes, idBytes, Headers.first?_congr hid]

theorem reply_undeclared (reason : Refusal) :
    reason.reply freshId m.undeclared = reason.reply freshId m := by
  rw [Refusal.reply, Refusal.reply, idBytes_undeclared]
  rfl

theorem admission_undeclared :
    s.admission m.undeclared.method path m.undeclared.headers =
      s.admission m.method path m.headers :=
  admission_congr (m.valuesOf_undeclared "authorization" (by decide))

/-- What is read of a body is within the limit and within the length declared. -/
theorem read_requestOf :
    (s.requestOf freshId m path query).body.read s.maxBodySize =
      m.body.read ((m.headers.contentLength?.getD s.maxBodySize).min s.maxBodySize) := by
  rw [requestOf, Body.read_cap]
  congr 1
  exact Nat.min_eq_left (Nat.min_le_right _ _)

theorem read_requestOf_undeclared :
    (s.requestOf freshId m.undeclared path query).body.read s.maxBodySize =
      m.body.read s.maxBodySize := by
  rw [read_requestOf, Message.contentLength?_undeclared]
  congr 1
  exact Nat.min_self _

theorem read_requestOf_declared (hdeclared : m.headers.contentLength? = some m.body.length)
    (hle : m.body.length ≤ s.maxBodySize) :
    (s.requestOf freshId m path query).body.read s.maxBodySize = m.body.read s.maxBodySize := by
  have hmin : m.body.length.min s.maxBodySize = m.body.length := Nat.min_eq_left hle
  rw [read_requestOf, hdeclared, Option.getD_some, hmin, Body.read_eq_ite, Body.read_eq_ite]
  simp [hle]

theorem prepare_undeclared (hdeclared : m.headers.contentLength? = some m.body.length)
    (hle : m.body.length ≤ s.maxBodySize) :
    s.prepare (s.requestOf freshId m.undeclared path query) =
      s.prepare (s.requestOf freshId m path query) := by
  have hkeys := m.valuesOf_undeclared "authorization" (by decide)
  have hmedia := m.valuesOf_undeclared "content-type" (by decide)
  refine prepare_congr ?_ rfl rfl rfl hkeys (Headers.textOf?_congr hmedia) ?_
  · simp only [requestOf, idBytes_undeclared]
  · rw [read_requestOf_undeclared, read_requestOf_declared hdeclared hle]

/-- Within the limit a message gets one reply, whether or not it declares the length of its body. -/
theorem respond_undeclared_of_le (hdeclared : m.headers.contentLength? = some m.body.length)
    (hle : m.body.length ≤ s.maxBodySize) (state : σ) :
    s.respond freshId m.undeclared state = s.respond freshId m state := by
  have hlimit : ¬ s.maxBodySize < m.headers.contentLength?.getD 0 := by
    rw [hdeclared, Option.getD_some]
    omega
  have hlimit' := m.contentLength_undeclared_le s.maxBodySize
  have hreply : s.reply freshId m.undeclared state = s.reply freshId m state := by
    rw [reply, reply, if_neg hlimit, if_neg (Nat.not_lt.2 hlimit')]
    rw [Message.target_undeclared]
    cases m.target with
    | other => rfl
    | path text query => simp only [dispatch_congr (prepare_undeclared hdeclared hle)]
  simp only [respond, hreply, idBytes_undeclared, Message.method_undeclared]

theorem respond_of_declared_lt {n : Nat} (hdeclared : m.headers.contentLength? = some n)
    (hlt : s.maxBodySize < n) (state : σ) :
    s.respond freshId m state = (m.overlongReply freshId, state) := by
  have hlimit : s.maxBodySize < m.headers.contentLength?.getD 0 := by
    rw [hdeclared, Option.getD_some]
    exact hlt
  have hreply : s.reply freshId m state =
      ((413, some "text/plain; charset=utf-8", "length limit exceeded"), state) := by
    rw [reply, if_pos hlimit]
  simp only [respond, hreply, Message.overlongReply]

/-- Why a message with too long a body of undeclared length is refused. -/
def overlongRefusal (s : Service σ) (method path : String) (headers : Headers) : Refusal :=
  match s.admission method path headers with
  | .error reason => reason
  | .ok _ => .tooLarge

/-- A body that turns out to be too long is refused after the caller has been admitted. -/
theorem respond_undeclared_of_lt (hpath : m.target.path? = some path)
    (hlt : s.maxBodySize < m.body.length) (state : σ) :
    s.respond freshId m.undeclared state =
      ((s.overlongRefusal m.method path m.headers).reply freshId m, state) := by
  have hlength := m.contentLength_undeclared_le s.maxBodySize
  obtain ⟨query, htarget⟩ := Target.path?_eq_some_iff.1 hpath
  have hread : (s.requestOf freshId m.undeclared path query).body.read s.maxBodySize =
      .error .tooLarge := by
    rw [read_requestOf_undeclared, Body.read_eq_ite, if_neg (by omega)]
  have hprepare : s.prepare (s.requestOf freshId m.undeclared path query) =
      .error (s.overlongRefusal m.method path m.headers) := by
    cases hadmission : s.admission m.method path m.headers with
    | error reason =>
      rw [overlongRefusal, hadmission]
      exact prepare_of_admission_error (admission_undeclared.trans hadmission)
    | ok admitted =>
      rw [overlongRefusal, hadmission]
      exact prepare_of_read_error (admission_undeclared.trans hadmission) hread
  rw [respond_of_prepare_error hlength htarget hprepare, reply_undeclared]

theorem method_of_admission_ok {endpoints : List Endpoint} (htable : s.table = .build endpoints)
    {method : String} {headers : Headers} {admitted : Routed × Grant}
    (h : s.admission method path headers = .ok admitted) : ∃ m : Method, m.text = method := by
  obtain ⟨routed, hroute, -⟩ := bind_eq_ok_iff.1 h
  obtain ⟨-, hfind⟩ := route_eq_ok_iff.1 hroute
  rw [htable] at hfind
  obtain ⟨-, hmethod, -⟩ := RouteTable.accept_of_find hfind
  exact ⟨_, hmethod⟩

theorem text_tooLarge_ne : Refusal.tooLarge.body.text ≠ "length limit exceeded" := by
  decide

/-- Beyond the limit the two replies never agree in both status and body. -/
theorem respond_undeclared_ne_of_lt {endpoints : List Endpoint}
    (htable : s.table = .build endpoints) (hlt : s.maxBodySize < m.body.length) (state : σ) :
    ¬ ((s.respond freshId m.undeclared state).1.status = (m.overlongReply freshId).status ∧
      (s.respond freshId m.undeclared state).1.body = (m.overlongReply freshId).body) := by
  rintro ⟨hstatus, hbody⟩
  cases htarget : m.target with
  | other =>
    rw [respond_of_other (m.contentLength_undeclared_le _) htarget] at hstatus
    simp [Message.overlongReply] at hstatus
  | path text query =>
    have hpath : m.target.path? = some text := Target.path?_eq_some_iff.2 ⟨query, htarget⟩
    rw [respond_undeclared_of_lt hpath hlt] at hstatus hbody
    cases hadmission : s.admission m.method text m.headers with
    | error reason =>
      rw [overlongRefusal, hadmission] at hstatus
      rcases admission_eq_error_iff.1 hadmission with ⟨rfl, -⟩ | ⟨rfl, -⟩
      · simp [Refusal.reply, Refusal.status, Message.overlongReply] at hstatus
      · simp [Refusal.reply, Refusal.status, Message.overlongReply] at hstatus
    | ok admitted =>
      -- The status is the same, so it takes the texts to tell the replies apart.
      obtain ⟨method, hmethod⟩ := method_of_admission_ok htable hadmission
      have hhead : m.method ≠ "HEAD" := by
        rw [← hmethod]
        cases method <;> decide
      rw [overlongRefusal, hadmission] at hbody
      simp only [Refusal.reply, Message.overlongReply, if_neg hhead] at hbody
      exact text_tooLarge_ne hbody

/-- A message with a truthful length gets the status and the body of the same message without one
exactly if the length is within the limit. Beyond the limit the gateway refuses it, and without the
length it is refused in JSON, for its path or its caller before it is for its body. -/
theorem respond_undeclared_iff {endpoints : List Endpoint} (htable : s.table = .build endpoints)
    (hdeclared : m.headers.contentLength? = some m.body.length) (freshId : String) (state : σ) :
    ((s.respond freshId m.undeclared state).1.status = (s.respond freshId m state).1.status ∧
        (s.respond freshId m.undeclared state).1.body = (s.respond freshId m state).1.body ↔
      m.body.length ≤ s.maxBodySize) ∧
    (s.maxBodySize < m.body.length →
      s.respond freshId m state = (m.overlongReply freshId, state) ∧
      ∀ path, m.target.path? = some path →
        s.respond freshId m.undeclared state =
          ((s.overlongRefusal m.method path m.headers).reply freshId m, state)) := by
  refine ⟨⟨fun hsame => ?_, fun hle => ?_⟩, fun hlt => ?_⟩
  · by_contra hlong
    have hlt : s.maxBodySize < m.body.length := by omega
    rw [respond_of_declared_lt hdeclared hlt] at hsame
    exact respond_undeclared_ne_of_lt htable hlt state hsame
  · rw [respond_undeclared_of_le hdeclared hle]
    exact ⟨rfl, rfl⟩
  · exact ⟨respond_of_declared_lt hdeclared hlt state,
      fun path hpath => respond_undeclared_of_lt hpath hlt state⟩

/-- A message of an admitted caller, with 65 bytes of body and their number. -/
def longMessage : Message where
  method := "PUT"
  target := .path "/users/7" none
  headers := [("Authorization", Text.Utf8.encode "Bearer k".toList),
    ("Content-Type", Text.Utf8.encode "application/x-www-form-urlencoded".toList),
    ("Content-Length", Text.Utf8.encode "65".toList)]
  body := .ofBytes (Text.Utf8.encode ("name=".toList ++ List.replicate 60 'a'))

theorem contentLength?_longMessage :
    longMessage.headers.contentLength? = some longMessage.body.length := by decide +kernel

/-- Where the limit is 64 bytes, that message is answered in plain text if it declares its length
and in JSON if it does not. -/
theorem respond_longMessage_disagree :
    ∃ endpoints, Manifest.compile [Endpoint.renameUser] = .ok endpoints ∧
      longMessage.headers.contentLength? = some longMessage.body.length ∧
      ((renameService endpoints).respond "a" longMessage ()).1.body = "length limit exceeded" ∧
      ((renameService endpoints).respond "a" longMessage.undeclared ()).1.body =
        "\x7b\"error\":\x7b\"code\":413,\"reason\":\"payload too large\"\x7d\x7d" := by
  have hrun : (Manifest.compile [Endpoint.renameUser]).toOption.any (fun endpoints =>
      decide (((renameService endpoints).respond "a" longMessage ()).1.body =
          "length limit exceeded" ∧
        ((renameService endpoints).respond "a" longMessage.undeclared ()).1.body =
          "\x7b\"error\":\x7b\"code\":413,\"reason\":\"payload too large\"\x7d\x7d")) = true := by
    decide +kernel
  obtain ⟨endpoints, hcompile, hreplies⟩ := exists_of_any_toOption hrun
  obtain ⟨hdeclared, hundeclared⟩ := of_decide_eq_true hreplies
  exact ⟨endpoints, hcompile, contentLength?_longMessage, hdeclared, hundeclared⟩

theorem respond_undeclared_iff_longMessage :
    ∃ endpoints, Manifest.compile [Endpoint.renameUser] = .ok endpoints ∧
      (renameService endpoints).respond "a" longMessage () =
        (longMessage.overlongReply "a", ()) := by
  have hok : (Manifest.compile [Endpoint.renameUser]).isOk = true := by decide +kernel
  obtain ⟨endpoints, hcompile⟩ := isOk_iff.1 hok
  obtain ⟨-, hover⟩ := respond_undeclared_iff (s := renameService endpoints) rfl
    contentLength?_longMessage "a" ()
  have hlt : 64 < longMessage.body.length := by decide +kernel
  exact ⟨endpoints, hcompile, (hover hlt).1⟩

end Service

end Signpost
