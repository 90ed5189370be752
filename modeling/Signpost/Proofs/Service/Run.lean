import Signpost.Proofs.Service.Gateway

/-!
# Runs of a service

A message either reaches a handler, whose result makes up the reply, or is refused without one. In
a run messages are served one after another, and each exchange keeps what was sent, what came back
and the state before and after it.
-/
namespace Signpost

open Json

theorem Refusal.status_ne_200 (reason : Refusal) : reason.status ≠ 200 := by
  cases reason <;> simp [status]

namespace Message

variable {m : Message}

/-- The method of a message and the decoded segments of its path. -/
def Asks (m : Message) (method : String) (segments : List String) : Prop :=
  m.method = method ∧ ∃ path query, m.target = .path path query ∧
    Path.decode? (Path.split path) = some segments

theorem Asks.unique {method method' : String} {segments segments' : List String}
    (h : m.Asks method segments) (h' : m.Asks method' segments') :
    method = method' ∧ segments = segments' := by
  obtain ⟨rfl, path, query, htarget, hdecode⟩ := h
  obtain ⟨rfl, path', query', htarget', hdecode'⟩ := h'
  obtain ⟨rfl, rfl⟩ := Target.path.inj (htarget.symm.trans htarget')
  exact ⟨rfl, Option.some.inj (hdecode.symm.trans hdecode')⟩

/-- The fields of the body of a message, if it can be read. -/
def form? (m : Message) : Option (Dict Value) :=
  (m.body.collect >>= Form.decodeBody (m.headers.textOf? "content-type")).toOption

theorem form?_eq_some_iff {form : Dict Value} :
    m.form? = some form ↔ ∃ bytes, m.body.collect = .ok bytes ∧
      Form.decodeBody (m.headers.textOf? "content-type") bytes = .ok form := by
  rw [form?, toOption_eq_some_iff, bind_eq_ok_iff]

end Message

theorem Body.collect_of_read {b : Body} {first second : Nat} {bytes : List UInt8}
    (h : (b.cap first).read second = .ok bytes) : b.collect = .ok bytes := by
  rw [read_cap, read_eq_ite] at h
  split at h
  · exact h
  · cases h

/-- A message that has been served, the reply to it and the states around it. -/
structure Exchange (σ : Type) where
  message : Message
  before : σ
  reply : Reply
  after : σ

namespace Service

variable {σ : Type} {s : Service σ} {m : Message} {freshId : String} {handler : Handler σ}
  {context : Context}

/-- A message reaches a handler, which is told the context. -/
def Serves (s : Service σ) (freshId : String) (m : Message) (handler : Handler σ)
    (context : Context) : Prop :=
  m.headers.contentLength?.getD 0 ≤ s.maxBodySize ∧ ∃ path query,
    m.target = .path path query ∧
      s.prepare (s.requestOf freshId m path query) = .ok (handler, context)

theorem get?_of_serves (h : s.Serves freshId m handler context) :
    s.handlers.get? context.endpoint = some handler := by
  obtain ⟨-, path, query, -, hprepare⟩ := h
  obtain ⟨routed, -, -, -, hget, -, hendpoint, -⟩ := prepare_eq_ok_iff.1 hprepare
  rw [hendpoint, hget]

theorem endpoint_mem_of_serves {endpoints : List Endpoint} (htable : s.table = .build endpoints)
    (h : s.Serves freshId m handler context) : context.endpoint ∈ endpoints := by
  obtain ⟨-, path, query, -, hprepare⟩ := h
  obtain ⟨routed, hroute, -, -, -, -, hendpoint, -⟩ := prepare_eq_ok_iff.1 hprepare
  rw [hendpoint]
  exact endpoint_mem_of_route htable hroute

/-- What a message that reaches a handler has asked for, and what the handler is told. -/
theorem exists_form_of_serves {endpoints : List Endpoint} (htable : s.table = .build endpoints)
    (h : s.Serves freshId m handler context) :
    m.Asks context.endpoint.method.text context.segments ∧
      ∃ values query form, context.endpoint.accept s.types context.segments = some values ∧
        m.form? = some form ∧
        context.endpoint.readInputs s.types (Form.decodeQuery query) form values =
          (context.params, none) := by
  obtain ⟨-, path, query, htarget, hprepare⟩ := h
  obtain ⟨routed, hroute, -, hparams, -, -, hendpoint, hsegments⟩ := prepare_eq_ok_iff.1 hprepare
  obtain ⟨hdecode, hfind⟩ := route_eq_ok_iff.1 hroute
  rw [htable] at hfind
  obtain ⟨-, hmethod, haccept⟩ := RouteTable.accept_of_find hfind
  obtain ⟨bytes, form, hread, hform, hinputs⟩ := params_eq_ok_iff.1 hparams
  rw [hendpoint, hsegments]
  exact ⟨⟨hmethod.symm, path, query, htarget, hdecode⟩, routed.found.values, query, form, haccept,
    Message.form?_eq_some_iff.2 ⟨bytes, Body.collect_of_read hread, hform⟩, hinputs⟩

/-- The reply that tells a result. -/
def resultReply (freshId : String) (m : Message) (result : Except Refusal (Dict Value)) :
    Reply where
  status := (answer result).1
  contentType := some "application/json"
  requestId := idBytes freshId m.headers
  body := if m.method = "HEAD" then "" else (answer result).2

theorem resultReply_error (reason : Refusal) :
    resultReply freshId m (.error reason) = reason.reply freshId m := rfl

theorem body_resultReply (h : m.method ≠ "HEAD") (result : Except Refusal (Dict Value)) :
    (resultReply freshId m result).body = (answer result).2 :=
  if_neg h

theorem status_resultReply_iff {result : Except Refusal (Dict Value)} :
    (resultReply freshId m result).status = 200 ↔ ∃ fields, result = .ok fields := by
  cases result with
  | error reason => simpa [resultReply, answer] using reason.status_ne_200
  | ok fields => simp [resultReply, answer]

/-- What a handler has done is the reply, as far as its outputs are declared, and the next state. -/
theorem respond_of_serves (h : s.Serves freshId m handler context) (state : σ) :
    s.respond freshId m state =
      (resultReply freshId m ((handler context state).1.bind context.endpoint.takeOutputs),
        (handler context state).2) := by
  obtain ⟨hlength, path, query, htarget, hprepare⟩ := h
  have hreply : s.reply freshId m state =
      (((answer ((handler context state).1.bind context.endpoint.takeOutputs)).1,
        some "application/json",
        (answer ((handler context state).1.bind context.endpoint.takeOutputs)).2),
        (handler context state).2) := by
    rw [reply, if_neg (by omega), htarget]
    simp only [dispatch, hprepare]
  simp only [respond, hreply, resultReply]

/-- A message that reaches no handler is refused and leaves the state alone. -/
theorem respond_of_not_serves (h : ∀ handler context, ¬ s.Serves freshId m handler context)
    (state : σ) :
    (s.respond freshId m state).1.status ≠ 200 ∧ (s.respond freshId m state).2 = state := by
  by_cases hlength : m.headers.contentLength?.getD 0 ≤ s.maxBodySize
  · cases htarget : m.target with
    | other =>
      rw [respond_of_other hlength htarget]
      exact ⟨by simp, rfl⟩
    | path path query =>
      cases hprepare : s.prepare (s.requestOf freshId m path query) with
      | ok found => exact absurd ⟨hlength, path, query, htarget, hprepare⟩ (h found.1 found.2)
      | error reason =>
        rw [respond_of_prepare_error hlength htarget hprepare]
        exact ⟨reason.status_ne_200, rfl⟩
  · have hreply : s.reply freshId m state =
        ((413, some "text/plain; charset=utf-8", "length limit exceeded"), state) := by
      rw [reply, if_pos (by omega)]
    simp [respond, hreply]

def exchange (s : Service σ) (freshId : String) (m : Message) (state : σ) : Exchange σ :=
  ⟨m, state, (s.respond freshId m state).1, (s.respond freshId m state).2⟩

theorem exchange_of_ok (h : s.Serves freshId m handler context) {state next : σ}
    {produced fields : Dict Value} (hhandler : handler context state = (.ok produced, next))
    (houtputs : context.endpoint.takeOutputs produced = .ok fields) :
    s.exchange freshId m state = ⟨m, state, resultReply freshId m (.ok fields), next⟩ := by
  have hbind : (Except.ok produced : Except Refusal (Dict Value)).bind
      context.endpoint.takeOutputs = .ok fields := houtputs
  rw [exchange, respond_of_serves h, hhandler, hbind]

theorem exchange_of_error (h : s.Serves freshId m handler context) {state next : σ}
    {reason : Refusal} (hhandler : handler context state = (.error reason, next)) :
    s.exchange freshId m state = ⟨m, state, reason.reply freshId m, next⟩ := by
  rw [exchange, respond_of_serves h, hhandler]
  rfl

/-- The exchanges that lead from a first state to another. -/
inductive Run (s : Service σ) (first : σ) : List (Exchange σ) → σ → Prop where
  | nil : Run s first [] first
  | snoc {log : List (Exchange σ)} {state : σ} (h : Run s first log state) (freshId : String)
      (m : Message) :
      Run s first (log ++ [s.exchange freshId m state]) (s.exchange freshId m state).after

theorem Run.append {first middle last : σ} {log more : List (Exchange σ)}
    (h : Run s first log middle) (hmore : Run s middle more last) :
    Run s first (log ++ more) last := by
  induction hmore with
  | nil => simpa using h
  | snoc _ freshId m ih =>
    rw [← List.append_assoc]
    exact ih.snoc freshId m

/-- Messages that are served in turn make up a run. -/
theorem run_respondAll (s : Service σ) (freshId : String) (messages : List Message) (first : σ) :
    ∃ log, s.Run first log (s.respondAll freshId messages first).2 ∧
      log.map (·.message) = messages ∧
      log.map (·.reply) = (s.respondAll freshId messages first).1 := by
  induction messages generalizing first with
  | nil => exact ⟨[], .nil, rfl, rfl⟩
  | cons m rest ih =>
    obtain ⟨log, hrun, hmessages, hreplies⟩ := ih (s.exchange freshId m first).after
    have hfirst : s.Run first [s.exchange freshId m first] (s.exchange freshId m first).after :=
      Run.nil.snoc freshId m
    refine ⟨s.exchange freshId m first :: log, hfirst.append hrun, ?_, ?_⟩
    · simp [hmessages, exchange]
    · simpa [respondAll, exchange] using hreplies

end Service

end Signpost
