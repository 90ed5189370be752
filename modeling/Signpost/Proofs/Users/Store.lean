import Signpost.Proofs.Users.Handlers
import Signpost.Proofs.Users.Server

/-!
# The store over a run

Over a run the users that ever entered the store have the ids 1, 2, 3 and so on, and what the store
holds is those of them that have not left it, in the order in which they entered. This is the order
of their ids, too.
-/
namespace Signpost.Users

open Json

/-- The users who are there after an exchange and were not before. -/
def entrants (x : Exchange Users) : List (Nat × String) :=
  x.after.names.filter (· ∉ x.before.names)

def leavers (x : Exchange Users) : List (Nat × String) :=
  x.before.names.filter (· ∉ x.after.names)

/-- The users who ever entered, in the order in which they did. -/
def entered (log : List (Exchange Users)) : List (Nat × String) := log.flatMap entrants

def departed (log : List (Exchange Users)) : List (Nat × String) := log.flatMap leavers

/-- The users who entered and have not left again. -/
def live (log : List (Exchange Users)) : List (Nat × String) :=
  (entered log).filter (· ∉ departed log)

@[simp] theorem entered_snoc (log : List (Exchange Users)) (x : Exchange Users) :
    entered (log ++ [x]) = entered log ++ entrants x := by
  simp [entered]

@[simp] theorem departed_snoc (log : List (Exchange Users)) (x : Exchange Users) :
    departed (log ++ [x]) = departed log ++ leavers x := by
  simp [departed]

/-- Users stand in the order of their ids, and the next id is greater than all of these. So a new
user belongs at the end. -/
structure Ordered (u : Users) : Prop where
  increasing : (u.names.map (·.1)).Pairwise (· < ·)
  bounded : ∀ user ∈ u.names, user.1 ≤ u.lastId

/-- What the exchanges so far tell about the store. -/
structure Recorded (log : List (Exchange Users)) (u : Users) : Prop where
  ids : (entered log).map (·.1) = List.range' 1 u.lastId
  names : u.names = live log
  departed_subset : departed log ⊆ entered log
  distinct : (u.names.map (·.2)).Nodup

section Store

variable {log : List (Exchange Users)} {u : Users} {x : Exchange Users} {name : String} {id : Nat}

theorem hasName_eq_false_iff : u.hasName name = false ↔ name ∉ u.names.map (·.2) := by
  simp only [hasName, List.any_eq_false, decide_eq_true_eq, List.mem_map, not_exists, not_and]

theorem entrants_of_after_eq (h : x.after = x.before) : entrants x = [] := by
  simp [entrants, h]

theorem leavers_of_after_eq (h : x.after = x.before) : leavers x = [] := by
  simp [leavers, h]

theorem entrants_of_remove (h : x.after = x.before.remove id) : entrants x = [] := by
  rw [entrants, h, List.filter_eq_nil_iff]
  intro user huser
  simpa using (List.mem_filter.1 huser).1

theorem leavers_of_create (h : x.after = x.before.create name) : leavers x = [] := by
  rw [leavers, h, List.filter_eq_nil_iff]
  intro user huser
  simp [create, huser]

theorem mem_leavers_of_remove (h : x.after = x.before.remove id) {user : Nat × String}
    (huser : user ∈ x.before.names) : user ∈ leavers x ↔ user.1 = id := by
  simp [leavers, h, remove, huser]

theorem Recorded.id_mem_of_entered (h : Recorded log u) {user : Nat × String}
    (huser : user ∈ entered log) : 1 ≤ user.1 ∧ user.1 ≤ u.lastId := by
  have hid : user.1 ∈ (entered log).map (·.1) := List.mem_map_of_mem huser
  rw [h.ids, List.mem_range'_1] at hid
  omega

theorem Recorded.mem_entered (h : Recorded log u) {user : Nat × String} (huser : user ∈ u.names) :
    user ∈ entered log := by
  rw [h.names, live] at huser
  exact (List.mem_filter.1 huser).1

theorem Recorded.entered_increasing (h : Recorded log u) :
    ((entered log).map (·.1)).Pairwise (· < ·) := by
  rw [h.ids]
  exact List.pairwise_lt_range'

/-- The order is that in which the users have entered, and those who leave do not disturb it. -/
theorem Recorded.ordered (h : Recorded log u) : u.Ordered where
  increasing := by
    rw [h.names, live]
    exact h.entered_increasing.sublist (List.filter_sublist.map _)
  bounded := fun _ huser => (h.id_mem_of_entered (h.mem_entered huser)).2

theorem Recorded.next_notMem_entered (h : Recorded log u) (name : String) :
    (u.lastId + 1, name) ∉ entered log := by
  intro hmem
  have hle := (h.id_mem_of_entered hmem).2
  omega

theorem Recorded.entrants_of_create (h : Recorded log x.before)
    (hafter : x.after = x.before.create name) :
    entrants x = [(x.before.lastId + 1, name)] := by
  have hnew : (x.before.lastId + 1, name) ∉ x.before.names := fun hmem =>
    h.next_notMem_entered name (h.mem_entered hmem)
  simp [entrants, hafter, create, List.filter_append, hnew]

theorem recorded_nil : Recorded [] empty where
  ids := rfl
  names := rfl
  departed_subset := List.nil_subset _
  distinct := List.nodup_nil

theorem Recorded.snoc_idle (h : Recorded log x.before) (hafter : x.after = x.before) :
    Recorded (log ++ [x]) x.after := by
  have hin := entrants_of_after_eq hafter
  have hout := leavers_of_after_eq hafter
  rw [hafter]
  exact ⟨by simpa [hin] using h.ids, by simpa [live, hin, hout] using h.names,
    by simpa [hin, hout] using h.departed_subset, h.distinct⟩

theorem Recorded.snoc_create (h : Recorded log x.before) (hnew : x.before.hasName name = false)
    (hafter : x.after = x.before.create name) : Recorded (log ++ [x]) x.after := by
  have hin := h.entrants_of_create hafter
  have hout := leavers_of_create hafter
  -- Whoever has left had entered before, and the id of the new user is none of theirs.
  have hstays : (x.before.lastId + 1, name) ∉ departed log := fun hmem =>
    h.next_notMem_entered name (h.departed_subset hmem)
  constructor
  case ids => simp [hin, h.ids, hafter, create, List.range'_concat, Nat.add_comm 1]
  case names => simp [live, hin, hout, hafter, create, List.filter_append, hstays, h.names]
  case departed_subset =>
    rw [departed_snoc, hout, List.append_nil, entered_snoc]
    exact List.Subset.trans h.departed_subset (List.subset_append_left _ _)
  case distinct =>
    rw [hafter, create, List.map_append, List.nodup_append']
    exact ⟨h.distinct, List.nodup_singleton _, by simpa using hasName_eq_false_iff.1 hnew⟩

theorem Recorded.snoc_remove (h : Recorded log x.before) (hafter : x.after = x.before.remove id) :
    Recorded (log ++ [x]) x.after := by
  have hin := entrants_of_remove hafter
  constructor
  case ids => simpa [hin, hafter, remove] using h.ids
  case names =>
    have hlive : live (log ++ [x]) = x.before.names.filter (· ∉ leavers x) := by
      rw [h.names, live, live, List.filter_filter, entered_snoc, hin, List.append_nil]
      refine List.filter_congr fun user _ => ?_
      simp [Bool.and_comm]
    rw [hlive, hafter, remove]
    refine List.filter_congr fun user huser => ?_
    simp [mem_leavers_of_remove hafter huser]
  case departed_subset =>
    rw [departed_snoc, entered_snoc, hin, List.append_nil]
    refine List.append_subset.2 ⟨h.departed_subset, fun user huser => ?_⟩
    exact h.mem_entered (List.mem_filter.1 huser).1
  case distinct =>
    rw [hafter]
    exact h.distinct.sublist (List.filter_sublist.map _)

end Store

section Runs

variable {s : Service Users} {log : List (Exchange Users)} {u : Users}

theorem Recorded.exchange (hbind : Handlers.bind s.table registrations = .ok s.handlers)
    (h : Recorded log u) (freshId : String) (m : Message) :
    Recorded (log ++ [s.exchange freshId m u]) (s.exchange freshId m u).after := by
  rcases respond_cases hbind freshId m u with
    hidle | ⟨_, name, -, -, -, -, hnew, hcreate⟩ | ⟨_, id, -, -, -, -, -, hremove⟩
  · exact Recorded.snoc_idle (x := s.exchange freshId m u) h hidle
  · exact Recorded.snoc_create (x := s.exchange freshId m u) h hnew (congrArg Prod.snd hcreate)
  · exact Recorded.snoc_remove (x := s.exchange freshId m u) h (congrArg Prod.snd hremove)

theorem recorded_of_run (hbind : Handlers.bind s.table registrations = .ok s.handlers)
    (hrun : s.Run empty log u) : Recorded log u := by
  induction hrun with
  | nil => exact recorded_nil
  | snoc _ freshId m ih => exact ih.exchange hbind freshId m

/-- After any run the users stand in the order of their ids. -/
theorem ordered_of_run (hbind : Handlers.bind s.table registrations = .ok s.handlers)
    (hrun : s.Run empty log u) : u.Ordered :=
  (recorded_of_run hbind hrun).ordered

theorem Recorded.lastId_eq (h : Recorded log u) : u.lastId = (entered log).length := by
  simpa using (congrArg List.length h.ids).symm

theorem Recorded.length_le (h : Recorded log u) : u.names.length ≤ (entered log).length := by
  rw [h.names]
  exact List.length_filter_le _ _

theorem handleList_of_serves (hbind : Handlers.bind s.table registrations = .ok s.handlers)
    {freshId : String} {m : Message} {handler : Handler Users} {context : Context}
    (h : s.Serves freshId m handler context) (hmethod : context.endpoint.method = .get)
    (hpattern : context.endpoint.pattern = "/users") : handler = handleList := by
  rcases handler_cases hbind h with
    ⟨-, -, rfl⟩ | ⟨hother, -⟩ | ⟨-, hother, -⟩ | ⟨hother, -⟩
  · rfl
  · simp [hmethod] at hother
  · simp [hpattern] at hother
  · simp [hmethod] at hother

/-- After any run ids have been given out from 1 to the last one, each of them once, names differ
and the store holds the users who entered and have not left. Whoever asks for the users is told
them in the order of their creation, cut to the limit if there is one. -/
theorem store_of_run (hbind : Handlers.bind s.table registrations = .ok s.handlers)
    (hrun : s.Run empty log u) (hfew : (entered log).length < Nat.pow 2 64) :
    (∀ user ∈ u.names, 1 ≤ user.1 ∧ user.1 ≤ u.lastId) ∧
    (u.names.map (·.2)).Nodup ∧
    u.lastId = (entered log).length ∧
    ((entered log).map (·.1)).Pairwise (· < ·) ∧
    u.names = live log ∧
    ∀ freshId m handler context, s.Serves freshId m handler context →
      context.endpoint.method = .get → context.endpoint.pattern = "/users" →
        (∀ n < Nat.pow 2 64, context.params.get? "Limit" = some (.ofNat n) →
          handler context u = (.ok (.ofList [("Users", listing ((live log).take n))]), u)) ∧
        ((∀ n < Nat.pow 2 64, context.params.get? "Limit" ≠ some (.ofNat n)) →
          handler context u = (.ok (.ofList [("Users", listing (live log))]), u)) := by
  have hrec := recorded_of_run hbind hrun
  refine ⟨fun user huser => hrec.id_mem_of_entered (hrec.mem_entered huser), hrec.distinct,
    hrec.lastId_eq, hrec.entered_increasing, hrec.names, ?_⟩
  intro freshId m handler context hserves hmethod hpattern
  obtain rfl := handleList_of_serves hbind hserves hmethod hpattern
  rw [← hrec.names]
  have hlength := hrec.length_le
  exact ⟨fun n hlt hlimit => handleList_of_limit hlimit hlt u,
    fun hlimit => handleList_of_no_limit hlimit (by omega)⟩

/-- Three users are created and the first of them is deleted. -/
theorem store_of_run_delete :
    let s := server (.ofList [("k", ["admin"])]) 64
    let u : Users := ⟨3, [(2, "bob"), (3, "cyd")]⟩
    ∃ log handler context, s.Run empty log u ∧ u.lastId = (entered log).length ∧
      u.names = live log ∧
      s.Serves "r" (sent "GET" "/users" (some "limit=1") "") handler context ∧
      handler context u = (.ok (.ofList [("Users", listing ((live log).take 1))]), u) := by
  intro s u
  have hlast : (s.respondAll "r" [sent "POST" "/users" none "name=ada",
      sent "POST" "/users" none "name=bob", sent "DELETE" "/users/1" none "",
      sent "POST" "/users" none "name=cyd"] empty).2 = u := by
    decide +kernel
  obtain ⟨log, hrun, -⟩ := Service.run_respondAll s "r" _ empty
  rw [hlast] at hrun
  have hcount : u.lastId = (entered log).length := (recorded_of_run rfl hrun).lastId_eq
  have hprepare : (s.prepare (s.requestOf "r" (sent "GET" "/users" (some "limit=1") "") "/users"
      (some "limit=1"))).toOption.any (fun found =>
        found.2.endpoint.method = .get && (found.2.endpoint.pattern = "/users" &&
          (found.2.params.get? "Limit").bind nat64? = some 1)) = true := by
    decide +kernel
  obtain ⟨⟨handler, context⟩, hok, htold⟩ := exists_of_any_toOption hprepare
  simp only [Bool.and_eq_true, decide_eq_true_eq] at htold
  obtain ⟨hmethod, hpattern, hlimit⟩ := htold
  obtain ⟨v, hv, hread⟩ := Option.bind_eq_some_iff.1 hlimit
  obtain ⟨rfl, hlt⟩ := nat64?_eq_some_iff.1 hread
  have hserves : s.Serves "r" (sent "GET" "/users" (some "limit=1") "") handler context :=
    ⟨by decide +kernel, "/users", some "limit=1", rfl, hok⟩
  obtain ⟨-, -, -, -, hlive, hlist⟩ := store_of_run (s := s) rfl hrun (by rw [← hcount]; decide)
  exact ⟨log, handler, context, hrun, hcount, hlive, hserves,
    (hlist "r" _ handler context hserves hmethod hpattern).1 1 hlt hv⟩

end Runs

end Signpost.Users
