import Signpost.Proofs.Users.Register

/-!
# Asking for one user

A request for one user is answered from the register, if the caller may be told. However the id is
written, what counts is the number: for the roles that are required and for the user that is found.
-/
namespace Signpost.Users

open Json

/-- A request for the user with an id, which is written in some way, and nothing in its body. -/
structure Fetches (m : Message) (id : Nat) : Prop where
  method : m.method = "GET"
  target : ∃ segment text query, m.target = .path ("/users/" ++ segment) query ∧
    Path.decodeSegment? segment = some text ∧
    Validator.toUint (.string text) = some (.ofNat id)
  undeclared : m.headers.first? "content-length" = none
  body : m.body.collect = .ok []

/-- The roles that admit to a user. -/
def MayFetch (roles : List String) (id : Nat) : Prop :=
  "admin" ∈ roles ∨ ("user[" ++ toString id ++ "]") ∈ roles

theorem read_of_collect_nil {b : Body} (h : b.collect = .ok []) (first second : Nat) :
    (b.cap first).read second = .ok [] := by
  obtain ⟨-, hflat⟩ := Body.collect_eq_ok_iff.1 h
  rw [Body.read_cap, Body.read_eq_ite, if_pos (by simp [Body.length, hflat]), h]

theorem id_lt_of_toUint {text : String} {id : Nat}
    (h : Validator.toUint (.string text) = some (.ofNat id)) : id < Nat.pow 2 64 := by
  obtain ⟨i, hi, heq⟩ := toUint_string_eq_some_iff.1 h
  rw [ofNat_injective heq]
  exact (Text.Integer.digits?_eq_some_iff.1 hi).2.2

section Requests

variable {keys : ApiKeys} {maxBodySize : Nat} {freshId : String} {m : Message} {id : Nat}

theorem length_of_fetches (h : Fetches m id) : m.headers.contentLength?.getD 0 ≤ maxBodySize := by
  simp [Headers.contentLength?, Headers.textOf?, h.undeclared]

theorem route_of_fetches (h : Fetches m id) (s : Service Users)
    (htable : s.table = .build endpoints) (htypes : s.types = .builtin) :
    ∃ path query routed, m.target = .path path query ∧ s.route m.method path = .ok routed ∧
      routed.found = ⟨fetchUser, .ofList [("ID", .ofNat id)]⟩ := by
  obtain ⟨segment, text, query, htarget, hdecode, hid⟩ := h.target
  have haccept : fetchUser.accept .builtin ["users", text] = some (.ofList [("ID", .ofNat id)]) :=
    (accept_user_eq_some_iff rfl rfl).2 ⟨text, _, rfl, hid, rfl⟩
  have hfind := RouteTable.find_of_accept checkAll_endpoints fetchUser_mem haccept
  refine ⟨_, query, ⟨["users", text], _⟩, htarget, ?_, rfl⟩
  rw [h.method, Service.route_eq_ok_iff, htable, htypes]
  exact ⟨decode?_userPath hdecode hid, hfind⟩

theorem granted_iff_mayFetch {r : Routed}
    (hfound : r.found = ⟨fetchUser, .ofList [("ID", .ofNat id)]⟩) (active : List String) :
    (Grant.forScope r.found.endpoint.scope r.found.values active).granted = true ↔
      MayFetch active id := by
  rw [hfound]
  exact granted_fetchUser_iff id active

theorem serves_of_fetches (h : Fetches m id) (hroles : MayFetch (keys.roles m.headers) id)
    (maxBodySize : Nat) (freshId : String) :
    ∃ context, (server keys maxBodySize).Serves freshId m handleFetch context ∧
      context.endpoint = fetchUser ∧ context.params.get? "ID" = some (.ofNat id) := by
  set s := server keys maxBodySize
  obtain ⟨path, query, routed, htarget, hroute, hfound⟩ := route_of_fetches h s rfl rfl
  have hgranted := (granted_iff_mayFetch hfound _).2 hroles
  have hauthorize : ∃ grant, s.authorize routed m.headers = .ok grant := ⟨_, if_pos hgranted⟩
  obtain ⟨grant, hgrant⟩ := hauthorize
  have hparams : s.params routed (s.requestOf freshId m path query) =
      .ok (.ofList [("ID", .ofNat id)]) := by
    refine Service.params_eq_ok_iff.2 ⟨[], {}, read_of_collect_nil h.body _ _, rfl, ?_⟩
    rw [hfound]
    exact readInputs_user rfl _ _ _
  let context : Context := ⟨(s.requestOf freshId m path query).requestId, fetchUser,
    routed.segments, .ofList [("ID", .ofNat id)], grant⟩
  refine ⟨context, ⟨length_of_fetches h, path, query, htarget, ?_⟩, rfl, by
    simp [context, Dict.ofList]⟩
  refine Service.prepare_eq_ok_iff.2 ⟨routed, hroute, hgrant, hparams, ?_, rfl, ?_, rfl⟩
  · rw [hfound]
    rfl
  · rw [hfound]

/-- What a caller who may be told is told. -/
theorem respond_of_fetches (h : Fetches m id) (hroles : MayFetch (keys.roles m.headers) id)
    (maxBodySize : Nat) (freshId : String) (u : Users) :
    ((server keys maxBodySize).respond freshId m u).1 =
      Service.resultReply freshId m (match u.name? id with
        | none => .error (notFound id)
        | some name => .ok (fetched id name)) := by
  obtain ⟨context, hserves, hendpoint, hid⟩ := serves_of_fetches h hroles maxBodySize freshId
  obtain ⟨_, _, _, -, -, htext⟩ := h.target
  rw [Service.respond_of_serves hserves u, handleFetch_of_id hid (id_lt_of_toUint htext), hendpoint]
  cases u.name? id with
  | none => rfl
  | some name => exact congrArg (Service.resultReply freshId m) (takeOutputs_fetchUser id name)

theorem respond_of_not_mayFetch (h : Fetches m id)
    (hroles : ¬ MayFetch (keys.roles m.headers) id) (maxBodySize : Nat) (freshId : String)
    (u : Users) :
    (server keys maxBodySize).respond freshId m u = (Refusal.forbidden.reply freshId m, u) := by
  set s := server keys maxBodySize
  obtain ⟨path, query, routed, htarget, hroute, hfound⟩ := route_of_fetches h s rfl rfl
  have hgranted : (Grant.forScope routed.found.endpoint.scope routed.found.values
      (keys.roles m.headers)).granted = false := by
    rw [← Bool.not_eq_true, granted_iff_mayFetch hfound]
    exact hroles
  have hadmission : s.admission m.method path m.headers = .error .forbidden :=
    Service.admission_eq_error_iff.2 (.inr ⟨rfl, routed, hroute, hgranted⟩)
  exact Service.respond_of_admission_error (length_of_fetches h)
    (Target.path?_eq_some_iff.2 ⟨query, htarget⟩) hadmission u

end Requests

theorem chars_fetched (id : Nat) (name : String) :
    (Value.ofDict (fetched id name)).chars =
      '\x7b' :: stringChars "ID" ++ ':' :: Nat.toDigits 10 id ++ ',' :: stringChars "Name" ++
        ':' :: stringChars name ++ ['\x7d'] := by
  have hlt : "ID" < "Name" := by decide
  have hobject : Value.ofDict (fetched id name) =
      .object [("ID", .ofNat id), ("Name", .string name)] :=
    congrArg Value.object (Dict.entries_ofList (List.pairwise_pair.2 hlt))
  rw [hobject]
  simp [Value.chars, fieldsChars, chars_ofNat]

theorem text_fetched_injective {id : Nat} {name name' : String}
    (h : (Value.ofDict (fetched id name)).text = (Value.ofDict (fetched id name')).text) :
    name = name' := by
  have hchars := String.ofList_injective h
  rw [chars_fetched, chars_fetched] at hchars
  exact stringChars_injective (by simpa using hchars)

/-- A reply about a user tells the status and, in full, who the user is. -/
def Tells (reply : Reply) (id : Nat) (name : String) : Prop :=
  reply.status = 200 ∧ reply.body = (Value.ofDict (fetched id name)).text

/-- In the service that the declared interface is compiled to, a user is told after any run exactly
if the run has confirmed the creation of the user and not the deletion since, and otherwise it is
told that there is none. Callers who may not be told are refused whatever the store holds. -/
theorem fetch_of_run :
    Manifest.compile entries = .ok endpoints ∧
    Endpoint.checkAll .builtin endpoints = .ok () ∧
    Handlers.bind (.build endpoints) registrations = .ok handlers ∧
    ∀ (keys : ApiKeys) (maxBodySize : Nat) (freshId : String) (m : Message) (id : Nat),
      Fetches m id →
      (MayFetch (keys.roles m.headers) id → ∀ log u, (server keys maxBodySize).Run empty log u →
        (∀ name, Tells ((server keys maxBodySize).respond freshId m u).1 id name ↔
          Registered log id name) ∧
        ((∀ name, ¬ Registered log id name) →
          ((server keys maxBodySize).respond freshId m u).1 =
            (Refusal.notFound ("user " ++ toString id)).reply freshId m)) ∧
      (¬ MayFetch (keys.roles m.headers) id → ∀ u,
        ((server keys maxBodySize).respond freshId m u).1 = Refusal.forbidden.reply freshId m) := by
  refine ⟨compile_entries, checkAll_endpoints, bind_registrations, ?_⟩
  intro keys maxBodySize freshId m id h
  refine ⟨fun hroles log u hrun => ?_, fun hroles u =>
    congrArg Prod.fst (respond_of_not_mayFetch h hroles maxBodySize freshId u)⟩
  have hagrees := agrees_of_run hrun
  rw [respond_of_fetches h hroles]
  have hhead : m.method ≠ "HEAD" := by rw [h.method]; decide
  cases hname : u.name? id with
  | none =>
    have hnone : ∀ name, ¬ Registered log id name := fun name hregistered => by
      simp [(hagrees id name).2 hregistered] at hname
    refine ⟨fun name => ⟨fun htells => ?_, fun hregistered => (hnone name hregistered).elim⟩,
      fun _ => rfl⟩
    exact absurd htells.1 (notFound id).status_ne_200
  | some found =>
    have hfound : Registered log id found := (hagrees id found).1 hname
    refine ⟨fun name => ⟨fun htells => ?_, fun hregistered => ?_⟩, fun hnone =>
      (hnone found hfound).elim⟩
    · have htext := (Service.body_resultReply hhead _).symm.trans htells.2
      rwa [← text_fetched_injective htext]
    · have hsame := hname.symm.trans ((hagrees id name).2 hregistered)
      rw [Option.some.inj hsame]
      exact ⟨rfl, Service.body_resultReply hhead _⟩

def asking (key path : String) : Message where
  method := "GET"
  target := .path path none
  headers := [("Authorization", Text.Utf8.encode ("Bearer " ++ key).toList)]
  body := .empty

theorem fetches_asking {key segment text : String} {id : Nat}
    (hdecode : Path.decodeSegment? segment = some text)
    (hid : Validator.toUint (.string text) = some (.ofNat id)) :
    Fetches (asking key ("/users/" ++ segment)) id where
  method := rfl
  target := ⟨segment, text, none, rfl, hdecode, hid⟩
  undeclared := by simp [asking, Headers.first?, Headers.lowerCase]
  body := rfl

/-- Two users are created, and the first of them is deleted. The second asks for both. -/
theorem fetch_of_run_second :
    let keys : ApiKeys := .ofList [("k", ["admin"]), ("t", ["user[2]"])]
    ∃ log u, (server keys 64).Run empty log u ∧
      Tells ((server keys 64).respond "r" (asking "t" "/users/%2B02") u).1 2 "bob" ∧
      Registered log 2 "bob" ∧
      ((server keys 64).respond "r" (asking "k" "/users/1") u).1.status = 404 ∧
      (∀ name, ¬ Registered log 1 name) ∧
      ((server keys 64).respond "r" (asking "t" "/users/1") u).1.status = 403 := by
  intro keys
  let u : Users := ⟨2, [(2, "bob")]⟩
  have hlast : ((server keys 64).respondAll "r" [sent "POST" "/users" none "name=ada",
      sent "POST" "/users" none "name=bob", sent "DELETE" "/users/1" none ""] empty).2 = u := by
    decide +kernel
  obtain ⟨log, hrun, -⟩ := Service.run_respondAll (server keys 64) "r" _ empty
  rw [hlast] at hrun
  have htwo : Path.decodeSegment? "%2B02" = some "+02" := by decide +kernel
  have hone : Path.decodeSegment? "1" = some "1" := by decide +kernel
  have hbob : Fetches (asking "t" "/users/%2B02") 2 := fetches_asking htwo rfl
  have hada (key : String) : Fetches (asking key "/users/1") 1 := fetches_asking hone rfl
  have hroles : MayFetch (keys.roles (asking "t" "/users/%2B02").headers) 2 :=
    .inr (by decide +kernel)
  have hadmin : MayFetch (keys.roles (asking "k" "/users/1").headers) 1 := .inl (by decide +kernel)
  have hnot : ¬ MayFetch (keys.roles (asking "t" "/users/1").headers) 1 := by
    unfold MayFetch
    decide +kernel
  have htells : Tells ((server keys 64).respond "r" (asking "t" "/users/%2B02") u).1 2 "bob" :=
    ⟨by decide +kernel, by decide +kernel⟩
  have hgone : ((server keys 64).respond "r" (asking "k" "/users/1") u).1.status = 404 := by
    decide +kernel
  have hfetch := fetch_of_run.2.2.2 keys 64 "r"
  have htold := (((hfetch _ 2 hbob).1 hroles log u hrun).1 "bob").1 htells
  have hada_gone : ∀ name, ¬ Registered log 1 name := by
    intro name hregistered
    have hstill := (((hfetch _ 1 (hada "k")).1 hadmin log u hrun).1 name).2 hregistered
    exact absurd (hgone.symm.trans hstill.1) (by decide)
  exact ⟨log, u, hrun, htells, htold, hgone, hada_gone,
    congrArg Reply.status ((hfetch _ 1 (hada "t")).2 hnot u)⟩

end Signpost.Users
