import Signpost.Proofs.Service.Handlers
import Signpost.Proofs.Service.Run
import Signpost.Users

/-!
# What the handlers of the users service do

A handler answers from the store as it finds it. Two of them write to it: one adds a user with the
next id, the other removes one, and both write only when they succeed.
-/
namespace Signpost.Users

open Json

variable {c : Context} {u : Users}

theorem text?_eq_some_iff {v : Value} {text : String} : v.text? = some text ↔ v = .string text := by
  cases v <;> simp [Value.text?]

theorem nat64?_eq_some_iff {v : Value} {n : Nat} :
    nat64? v = some n ↔ v = .ofNat n ∧ n < Nat.pow 2 64 := by
  rw [nat64?]
  cases v with
  | number k =>
    cases k with
    | integer z =>
      simp only [Value.natBelow?, Value.ofNat, Option.ite_none_right_eq_some, Option.some.injEq,
        Value.number.injEq, Number.integer.injEq]
      constructor
      · rintro ⟨⟨hpos, hlt⟩, rfl⟩
        exact ⟨(Int.toNat_of_nonneg hpos).symm, by omega⟩
      · rintro ⟨rfl, hlt⟩
        exact ⟨⟨by omega, by omega⟩, Int.toNat_natCast n⟩
    | float x => simp [Value.natBelow?, Value.ofNat]
  | _ => simp [Value.natBelow?, Value.ofNat]

theorem required_eq_ok_iff {α : Type} {name : String} {read : Value → Option α} {a : α} :
    required c name read = .ok a ↔ ∃ v, c.params.get? name = some v ∧ read v = some a := by
  rw [← Option.bind_eq_some_iff, required]
  cases (c.params.get? name).bind read <;> simp

def created (id : Nat) : Dict Value := .ofList [("ID", .ofNat id)]

def fetched (id : Nat) (name : String) : Dict Value :=
  .ofList [("ID", .ofNat id), ("Name", .string name)]

theorem handleCreate_cases (c : Context) (u : Users) :
    (∃ reason, handleCreate c u = (.error reason, u)) ∨
      ∃ name, c.params.get? "Name" = some (.string name) ∧ u.hasName name = false ∧
        handleCreate c u = (.ok (created (u.lastId + 1)), u.create name) := by
  unfold handleCreate
  cases hname : required c "Name" Value.text? with
  | error reason => exact .inl ⟨reason, rfl⟩
  | ok name =>
    obtain ⟨v, hv, htext⟩ := required_eq_ok_iff.1 hname
    obtain rfl := text?_eq_some_iff.1 htext
    cases hhas : u.hasName name with
    | true => exact .inl ⟨_, if_pos hhas⟩
    | false => exact .inr ⟨name, hv, hhas, if_neg (by simp [hhas])⟩

theorem handleFetch_of_id {id : Nat} (h : c.params.get? "ID" = some (.ofNat id))
    (hlt : id < Nat.pow 2 64) (u : Users) :
    handleFetch c u =
      ((match u.name? id with
        | none => .error (notFound id)
        | some name => .ok (fetched id name)), u) := by
  have hid : required c "ID" nat64? = .ok id :=
    required_eq_ok_iff.2 ⟨_, h, nat64?_eq_some_iff.2 ⟨rfl, hlt⟩⟩
  simp only [handleFetch, hid]
  cases u.name? id with
  | none => rfl
  | some name => rfl

theorem handleFetch_snd (c : Context) (u : Users) : (handleFetch c u).2 = u := by
  unfold handleFetch
  repeat' split
  all_goals rfl

theorem handleDelete_cases (c : Context) (u : Users) :
    (∃ reason, handleDelete c u = (.error reason, u)) ∨
      ∃ id, c.params.get? "ID" = some (.ofNat id) ∧ (u.name? id).isSome ∧
        handleDelete c u = (.ok {}, u.remove id) := by
  unfold handleDelete
  cases hid : required c "ID" nat64? with
  | error reason => exact .inl ⟨reason, rfl⟩
  | ok id =>
    obtain ⟨v, hv, hread⟩ := required_eq_ok_iff.1 hid
    obtain ⟨rfl, -⟩ := nat64?_eq_some_iff.1 hread
    by_cases hthere : (u.name? id).isSome = true
    · exact .inr ⟨id, hv, hthere, if_pos hthere⟩
    · exact .inl ⟨notFound id, if_neg hthere⟩

def listing (users : List (Nat × String)) : Value :=
  .array (users.map fun user => .object [("id", .ofNat user.1), ("name", .string user.2)])

theorem list_eq_listing (u : Users) (limit : Nat) : u.list limit = listing (u.names.take limit) :=
  rfl

theorem handleList_of_limit {n : Nat} (h : c.params.get? "Limit" = some (.ofNat n))
    (hlt : n < Nat.pow 2 64) (u : Users) :
    handleList c u = (.ok (.ofList [("Users", listing (u.names.take n))]), u) := by
  have hlimit : (c.params.get? "Limit").bind nat64? = some n :=
    Option.bind_eq_some_iff.2 ⟨_, h, nat64?_eq_some_iff.2 ⟨rfl, hlt⟩⟩
  simp only [handleList, hlimit, Option.getD_some, list_eq_listing]

/-- Without a limit the list is cut only where 64 bits cannot count further. -/
theorem handleList_of_no_limit
    (h : ∀ n < Nat.pow 2 64, c.params.get? "Limit" ≠ some (.ofNat n)) {u : Users}
    (hfew : u.names.length < Nat.pow 2 64) :
    handleList c u = (.ok (.ofList [("Users", listing u.names)]), u) := by
  have hlimit : (c.params.get? "Limit").bind nat64? = none := by
    rw [Option.eq_none_iff_forall_ne_some]
    intro n hn
    obtain ⟨v, hv, hread⟩ := Option.bind_eq_some_iff.1 hn
    obtain ⟨rfl, hlt⟩ := nat64?_eq_some_iff.1 hread
    exact h n hlt hv
  simp only [handleList, hlimit, Option.getD_none, list_eq_listing]
  rw [List.take_of_length_le (by omega)]

section Bound

variable {s : Service Users} {freshId : String} {m : Message} {handler : Handler Users}
  {context : Context}

/-- A message that is served has reached the handler that is registered for its endpoint. -/
theorem handler_cases (hbind : Handlers.bind s.table registrations = .ok s.handlers)
    (h : s.Serves freshId m handler context) :
    context.endpoint.method = .get ∧ context.endpoint.pattern = "/users" ∧
        handler = handleList ∨
      context.endpoint.method = .post ∧ context.endpoint.pattern = "/users" ∧
        handler = handleCreate ∨
      context.endpoint.method = .get ∧ context.endpoint.pattern = "/users/\x7bid\x7d" ∧
        handler = handleFetch ∨
      context.endpoint.method = .delete ∧ context.endpoint.pattern = "/users/\x7bid\x7d" ∧
        handler = handleDelete := by
  obtain ⟨r, hr, hmethod, hpattern, rfl⟩ :=
    Handlers.exists_registration_of_get? hbind (Service.get?_of_serves h)
  rw [← hmethod, ← hpattern]
  simp only [registrations, List.mem_cons, List.not_mem_nil, or_false] at hr
  rcases hr with rfl | rfl | rfl | rfl
  · exact .inl ⟨rfl, rfl, rfl⟩
  · exact .inr (.inl ⟨rfl, rfl, rfl⟩)
  · exact .inr (.inr (.inl ⟨rfl, rfl, rfl⟩))
  · exact .inr (.inr (.inr ⟨rfl, rfl, rfl⟩))

/-- Serving a message leaves the store alone, adds a user or removes one. A handler that writes has
succeeded, and its endpoint is the one it is registered for. -/
theorem respond_cases (hbind : Handlers.bind s.table registrations = .ok s.handlers)
    (freshId : String) (m : Message) (u : Users) :
    (s.respond freshId m u).2 = u ∨
      (∃ context name, s.Serves freshId m handleCreate context ∧
        context.endpoint.method = .post ∧ context.endpoint.pattern = "/users" ∧
        context.params.get? "Name" = some (.string name) ∧ u.hasName name = false ∧
        s.respond freshId m u =
          (Service.resultReply freshId m
            (context.endpoint.takeOutputs (created (u.lastId + 1))), u.create name)) ∨
      ∃ context id, s.Serves freshId m handleDelete context ∧
        context.endpoint.method = .delete ∧ context.endpoint.pattern = "/users/\x7bid\x7d" ∧
        context.params.get? "ID" = some (.ofNat id) ∧ (u.name? id).isSome ∧
        s.respond freshId m u =
          (Service.resultReply freshId m (context.endpoint.takeOutputs {}), u.remove id) := by
  by_cases hserves : ∃ handler context, s.Serves freshId m handler context
  · obtain ⟨handler, context, hserves⟩ := hserves
    have hrespond := Service.respond_of_serves hserves u
    rcases handler_cases hbind hserves with
      ⟨-, -, rfl⟩ | ⟨hmethod, hpattern, rfl⟩ | ⟨-, -, rfl⟩ | ⟨hmethod, hpattern, rfl⟩
    · exact .inl (by rw [hrespond]; rfl)
    · rcases handleCreate_cases context u with ⟨reason, hcreate⟩ | ⟨name, hname, hnew, hcreate⟩
      · exact .inl (by rw [hrespond, hcreate])
      · refine .inr (.inl ⟨context, name, hserves, hmethod, hpattern, hname, hnew, ?_⟩)
        rw [hrespond, hcreate]
        rfl
    · exact .inl (by rw [hrespond]; exact handleFetch_snd context u)
    · rcases handleDelete_cases context u with ⟨reason, hdelete⟩ | ⟨id, hid, hthere, hdelete⟩
      · exact .inl (by rw [hrespond, hdelete])
      · refine .inr (.inr ⟨context, id, hserves, hmethod, hpattern, hid, hthere, ?_⟩)
        rw [hrespond, hdelete]
        rfl
  · refine .inl (Service.respond_of_not_serves (fun handler context h => ?_) u).2
    exact hserves ⟨handler, context, h⟩

end Bound

end Signpost.Users
