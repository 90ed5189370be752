import Signpost.Proofs.Users.Routes
import Signpost.Proofs.Users.Store

/-!
# The register of users

From the messages and the replies of a run alone it can be told which users there are: those whose
creation was confirmed and whose deletion has not been confirmed since. The store holds the same
users, for no exchange writes to it without a confirmation.
-/
namespace Signpost.Users

open Json

/-- The reply to a request for a new user has confirmed it. -/
structure Created (x : Exchange Users) (id : Nat) (name : String) : Prop where
  asks : x.message.Asks "POST" ["users"]
  name : x.message.form?.bind (·.get? "name") = some (.string name)
  status : x.reply.status = 200
  body : x.reply.body = (Value.ofDict (created id)).text

/-- The reply to a request to delete a user has confirmed it. -/
structure Deleted (x : Exchange Users) (id : Nat) : Prop where
  asks : ∃ text, x.message.Asks "DELETE" ["users", text] ∧
    Validator.toUint (.string text) = some (.ofNat id)
  status : x.reply.status = 200

/-- A user was created in one of the exchanges and not deleted in any that came after it. -/
def Registered (log : List (Exchange Users)) (id : Nat) (name : String) : Prop :=
  ∃ before x after, log = before ++ x :: after ∧ Created x id name ∧ ∀ y ∈ after, ¬ Deleted y id

theorem not_registered_nil {id : Nat} {name : String} : ¬ Registered [] id name := by
  rintro ⟨before, x, after, hlog, -⟩
  simp at hlog

theorem registered_snoc_iff {log : List (Exchange Users)} {x : Exchange Users} {id : Nat}
    {name : String} :
    Registered (log ++ [x]) id name ↔
      Created x id name ∨ Registered log id name ∧ ¬ Deleted x id := by
  constructor
  · rintro ⟨before, y, after, hlog, hcreated, hkept⟩
    rcases List.eq_nil_or_concat after with rfl | ⟨init, last, rfl⟩
    · obtain ⟨-, heq⟩ := List.append_inj' hlog rfl
      obtain rfl : x = y := by simpa using heq
      exact .inl hcreated
    · have hlog' : log ++ [x] = (before ++ y :: init) ++ [last] := by simpa using hlog
      obtain ⟨rfl, heq⟩ := List.append_inj' hlog' rfl
      obtain rfl : x = last := by simpa using heq
      refine .inr ⟨⟨before, y, init, rfl, hcreated, fun z hz => hkept z ?_⟩, hkept x ?_⟩
      · simp [hz]
      · simp
  · rintro (hcreated | ⟨⟨before, y, after, rfl, hcreated, hkept⟩, hstays⟩)
    · exact ⟨log, x, [], rfl, hcreated, by simp⟩
    · refine ⟨before, y, after ++ [x], by simp, hcreated, fun z hz => ?_⟩
      rcases List.mem_append.1 hz with hz | hz
      · exact hkept z hz
      · obtain rfl := List.mem_singleton.1 hz
        exact hstays

theorem chars_created (id : Nat) :
    (Value.ofDict (created id)).chars =
      '\x7b' :: stringChars "ID" ++ ':' :: Nat.toDigits 10 id ++ ['\x7d'] := by
  have hobject : Value.ofDict (created id) = .object [("ID", .ofNat id)] := rfl
  rw [hobject]
  simp [Value.chars, fieldsChars, chars_ofNat]

theorem text_created_injective {id id' : Nat}
    (h : (Value.ofDict (created id)).text = (Value.ofDict (created id')).text) : id = id' := by
  have hchars := String.ofList_injective h
  rw [chars_created, chars_created] at hchars
  exact toDigits_injective (by simpa using hchars)

/-- What an exchange does to the store, and what the message and the reply tell of it. -/
inductive Effect (x : Exchange Users) : Prop where
  | idle (hafter : x.after = x.before) (hcreated : ∀ id name, ¬ Created x id name)
      (hdeleted : ∀ id, ¬ Deleted x id)
  | create {name : String} (hnew : x.before.hasName name = false)
      (hafter : x.after = x.before.create name)
      (hcreated : ∀ id n, Created x id n ↔ id = x.before.lastId + 1 ∧ n = name)
      (hdeleted : ∀ id, ¬ Deleted x id)
  | remove {id : Nat} (hafter : x.after = x.before.remove id)
      (hcreated : ∀ id name, ¬ Created x id name) (hdeleted : ∀ i, Deleted x i ↔ i = id)

section Exchanges

variable {keys : ApiKeys} {maxBodySize : Nat} {freshId : String} {m : Message} {u : Users}
  {handler : Handler Users} {context : Context}

theorem effect_of_status {x : Exchange Users} (hstatus : x.reply.status ≠ 200)
    (hafter : x.after = x.before) : Effect x :=
  .idle hafter (fun _ _ h => hstatus h.status) fun _ h => hstatus h.status

theorem effect_of_get {x : Exchange Users} (hmethod : x.message.method = "GET")
    (hafter : x.after = x.before) : Effect x := by
  refine .idle hafter (fun _ _ h => ?_) fun _ h => ?_
  · have hpost := h.asks.1
    simp [hmethod] at hpost
  · obtain ⟨_, ⟨hdelete, -⟩, -⟩ := h.asks
    simp [hmethod] at hdelete

theorem not_deleted_of_asks {x : Exchange Users} {segments : List String}
    (h : x.message.Asks "POST" segments) (id : Nat) : ¬ Deleted x id := by
  intro hdeleted
  obtain ⟨_, hasks, -⟩ := hdeleted.asks
  exact absurd (h.unique hasks).1 (by decide)

theorem not_created_of_asks {x : Exchange Users} {segments : List String}
    (h : x.message.Asks "DELETE" segments) (id : Nat) (name : String) : ¬ Created x id name := by
  intro hcreated
  exact absurd (h.unique hcreated.asks).1 (by decide)

theorem effect_of_create (h : (server keys maxBodySize).Serves freshId m handleCreate context)
    (hmethod : context.endpoint.method = .post) (hpattern : context.endpoint.pattern = "/users") :
    Effect ((server keys maxBodySize).exchange freshId m u) := by
  have hendpoint : context.endpoint = createUser :=
    eq_of_method_of_pattern _ (Service.endpoint_mem_of_serves rfl h) _ createUser_mem hmethod
      hpattern
  obtain ⟨hasks, values, query, form, haccept, hform, hinputs⟩ :=
    Service.exists_form_of_serves rfl h
  rw [hendpoint] at hasks haccept hinputs
  rw [segments_of_accept rfl haccept] at hasks haccept
  rcases handleCreate_cases context u with ⟨reason, hcreate⟩ | ⟨name, hname, hnew, hcreate⟩
  · rw [Service.exchange_of_error h hcreate]
    exact effect_of_status reason.status_ne_200 rfl
  · have houtputs : context.endpoint.takeOutputs (created (u.lastId + 1)) =
        .ok (created (u.lastId + 1)) := by
      rw [hendpoint, takeOutputs_createUser]
    have hhead : m.method ≠ "HEAD" := by
      rw [hasks.1]
      decide
    have hbody : (Service.resultReply freshId m (.ok (created (u.lastId + 1)))).body =
        (Value.ofDict (created (u.lastId + 1))).text := Service.body_resultReply hhead _
    have hnamed : m.form?.bind (·.get? "name") = some (.string name) := by
      rw [hform]
      exact name_of_readInputs haccept hinputs hname
    rw [Service.exchange_of_ok h hcreate houtputs]
    -- The id is told by the reply and the name by the message, so both are those of the new user.
    refine .create hnew rfl (fun id n => ⟨fun hcreated => ⟨?_, ?_⟩, ?_⟩) (not_deleted_of_asks hasks)
    · exact text_created_injective (hcreated.body.symm.trans hbody)
    · simpa using hcreated.name.symm.trans hnamed
    · rintro ⟨rfl, rfl⟩
      exact ⟨hasks, hnamed, rfl, hbody⟩

theorem effect_of_delete (h : (server keys maxBodySize).Serves freshId m handleDelete context)
    (hmethod : context.endpoint.method = .delete)
    (hpattern : context.endpoint.pattern = "/users/\x7bid\x7d") :
    Effect ((server keys maxBodySize).exchange freshId m u) := by
  have hendpoint : context.endpoint = deleteUser :=
    eq_of_method_of_pattern _ (Service.endpoint_mem_of_serves rfl h) _ deleteUser_mem hmethod
      hpattern
  obtain ⟨hasks, values, query, form, haccept, -, hinputs⟩ := Service.exists_form_of_serves rfl h
  rw [hendpoint] at hasks haccept hinputs
  obtain ⟨text, v, hsegments, htext, rfl⟩ := (accept_user_eq_some_iff rfl rfl).1 haccept
  rw [hsegments] at hasks
  rcases handleDelete_cases context u with ⟨reason, hdelete⟩ | ⟨id, hid, hthere, hdelete⟩
  · rw [Service.exchange_of_error h hdelete]
    exact effect_of_status reason.status_ne_200 rfl
  · have hparams : .ofList [("ID", v)] = context.params :=
      congrArg Prod.fst ((readInputs_user rfl _ form _).symm.trans hinputs)
    obtain rfl : v = .ofNat id := by simpa [← hparams, Dict.ofList] using hid
    have houtputs : context.endpoint.takeOutputs {} = .ok {} := by
      rw [hendpoint]
      rfl
    rw [Service.exchange_of_ok h hdelete houtputs]
    -- The path of the message writes one number only.
    refine .remove rfl (not_created_of_asks hasks) fun i => ⟨fun hdeleted => ?_, ?_⟩
    · obtain ⟨text', hasks', htext'⟩ := hdeleted.asks
      obtain rfl : text = text' := by simpa using (hasks.unique hasks').2
      exact ofNat_injective (Option.some.inj (htext'.symm.trans htext))
    · rintro rfl
      exact ⟨⟨text, hasks, htext⟩, rfl⟩

/-- Every exchange of the users service has one of the three effects. -/
theorem effect_exchange (keys : ApiKeys) (maxBodySize : Nat) (freshId : String) (m : Message)
    (u : Users) : Effect ((server keys maxBodySize).exchange freshId m u) := by
  by_cases hserves : ∃ handler context,
      (server keys maxBodySize).Serves freshId m handler context
  · obtain ⟨handler, context, h⟩ := hserves
    have hasks := (Service.exists_form_of_serves rfl h).1
    have hrespond := Service.respond_of_serves h u
    rcases handler_cases bind_registrations h with
      ⟨hmethod, -, rfl⟩ | ⟨hmethod, hpattern, rfl⟩ | ⟨hmethod, -, rfl⟩ | ⟨hmethod, hpattern, rfl⟩
    · rw [hmethod] at hasks
      exact effect_of_get hasks.1 (congrArg Prod.snd hrespond)
    · exact effect_of_create h hmethod hpattern
    · rw [hmethod] at hasks
      exact effect_of_get hasks.1 ((congrArg Prod.snd hrespond).trans (handleFetch_snd context u))
    · exact effect_of_delete h hmethod hpattern
  · have hnone := Service.respond_of_not_serves (fun handler context h =>
      hserves ⟨handler, context, h⟩) u
    exact effect_of_status hnone.1 hnone.2

end Exchanges

section Runs

variable {log : List (Exchange Users)} {u : Users} {x : Exchange Users}

theorem Ordered.name?_next (h : u.Ordered) : u.name? (u.lastId + 1) = none := by
  rw [name?, List.lookup_eq_none_iff]
  intro user huser
  have hle := h.bounded user huser
  simp only [bne_iff_ne, ne_eq]
  omega

theorem name?_create {name : String} (h : u.name? (u.lastId + 1) = none) (id : Nat) :
    (u.create name).name? id = if id = u.lastId + 1 then some name else u.name? id := by
  rw [name?, create, List.lookup_append]
  split
  next hid =>
    rw [← name?, hid, h]
    simp
  next hid => simp [name?, List.lookup_cons, beq_eq_false_iff_ne.2 hid]

theorem name?_remove (id i : Nat) :
    (u.remove id).name? i = if i = id then none else u.name? i := by
  rw [name?, remove, name?]
  induction u.names with
  | nil => simp
  | cons user rest ih =>
    obtain ⟨k, name⟩ := user
    by_cases hk : k = id
    · rw [List.filter_cons_of_neg (by simp [hk]), ih, List.lookup_cons]
      by_cases hi : i = id
      · simp [hi]
      · simp [hi, hk, beq_eq_false_iff_ne.2 hi]
    · rw [List.filter_cons_of_pos (by simpa using hk), List.lookup_cons, List.lookup_cons, ih]
      by_cases hi : i = k
      · simp [hi, hk]
      · simp [beq_eq_false_iff_ne.2 hi]

def Agrees (log : List (Exchange Users)) (u : Users) : Prop :=
  ∀ id name, u.name? id = some name ↔ Registered log id name

theorem agrees_nil : Agrees [] empty := by
  intro id name
  simp [name?, empty, not_registered_nil]

theorem Agrees.snoc (h : Agrees log x.before) (hordered : x.before.Ordered) (heffect : Effect x) :
    Agrees (log ++ [x]) x.after := by
  intro id name
  rw [registered_snoc_iff, ← h id name]
  cases heffect with
  | idle hafter hcreated hdeleted => simp [hafter, hcreated, hdeleted]
  | create hnew hafter hcreated hdeleted =>
    have hnext := hordered.name?_next
    rw [hafter, name?_create hnext, hcreated]
    split
    next hid => simp [hid, hnext, eq_comm]
    next hid => simp [hid, hdeleted]
  | remove hafter hcreated hdeleted =>
    rw [hafter, name?_remove, hdeleted]
    split
    next hid => simp [hid, hcreated]
    next hid => simp [hid, hcreated]

/-- After any run of the service the store holds the users that are registered. -/
theorem agrees_of_run {keys : ApiKeys} {maxBodySize : Nat}
    (hrun : (server keys maxBodySize).Run empty log u) : Agrees log u := by
  induction hrun with
  | nil => exact agrees_nil
  | snoc h freshId m ih =>
    exact Agrees.snoc ih (ordered_of_run rfl h) (effect_exchange keys maxBodySize freshId m _)

end Runs

end Signpost.Users
