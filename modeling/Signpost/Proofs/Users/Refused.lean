import Signpost.Proofs.Service.Outputs
import Signpost.Proofs.Users.Handlers
import Signpost.Proofs.Users.Server

/-!
# The store after a refusal

The handlers of the users service write last, and only if nothing is wrong. But the outputs of a
reply are taken afterwards, so a declared output that a handler does not produce turns its
success into a failure that has already been written down.
-/
namespace Signpost.Users

open Json

/-- Creating a user has the id alone for an output, and deleting one has none. -/
def OutputsProduced (endpoints : List Endpoint) : Prop :=
  ∀ e ∈ endpoints, ∀ p ∈ e.output.values,
    (e.method = .post → e.pattern = "/users" → p.rename = "ID") ∧
      (e.method = .delete → e.pattern ≠ "/users/\x7bid\x7d")

instance (endpoints : List Endpoint) : Decidable (OutputsProduced endpoints) :=
  inferInstanceAs (Decidable (∀ e ∈ endpoints, ∀ p ∈ e.output.values, _))

/-- A success of which an output is missing: the store has changed all the same. -/
inductive HalfDone (endpoints : List Endpoint) (u : Users) (reason : Refusal) : Users → Prop where
  | created {e : Endpoint} {p : Parameter} {name : String} (he : e ∈ endpoints)
      (hmethod : e.method = .post) (hpattern : e.pattern = "/users") (hp : p ∈ e.output.values)
      (hname : p.rename ≠ "ID") (hreason : reason = p.missingOutput)
      (hnew : u.hasName name = false) : HalfDone endpoints u reason (u.create name)
  | deleted {e : Endpoint} {p : Parameter} {id : Nat} (he : e ∈ endpoints)
      (hmethod : e.method = .delete) (hpattern : e.pattern = "/users/\x7bid\x7d")
      (hp : p ∈ e.output.values) (hreason : reason = p.missingOutput)
      (hthere : (u.name? id).isSome) : HalfDone endpoints u reason (u.remove id)

theorem not_halfDone {endpoints : List Endpoint} (h : OutputsProduced endpoints) {u u' : Users}
    {reason : Refusal} : ¬ HalfDone endpoints u reason u' := by
  intro hhalf
  cases hhalf with
  | created he hmethod hpattern hp hname => exact hname ((h _ he _ hp).1 hmethod hpattern)
  | deleted he hmethod hpattern hp => exact (h _ he _ hp).2 hmethod hpattern

theorem get?_created_of_ne {id : Nat} {name : String} (h : (created id).get? name = none) :
    name ≠ "ID" := by
  rintro rfl
  simp [created, Dict.ofList] at h

section Refused

variable {s : Service Users} {endpoints : List Endpoint} {freshId : String} {m : Message}

theorem exists_missing_of_status {e : Endpoint} {produced : Dict Value}
    (h : (Service.resultReply freshId m (e.takeOutputs produced)).status ≠ 200) :
    ∃ p ∈ e.output.values, produced.get? p.rename = none ∧
      Service.resultReply freshId m (e.takeOutputs produced) =
        p.missingOutput.reply freshId m := by
  cases hout : e.takeOutputs produced with
  | ok fields => exact absurd (Service.status_resultReply_iff.2 ⟨fields, hout⟩) h
  | error reason =>
    obtain ⟨p, hp, hmissing, rfl⟩ := Endpoint.exists_missing_of_takeOutputs hout
    exact ⟨p, hp, hmissing, Service.resultReply_error _⟩

theorem eq_or_halfDone_of_status_ne (htable : s.table = .build endpoints)
    (hbind : Handlers.bind s.table registrations = .ok s.handlers) (u : Users)
    (hstatus : (s.respond freshId m u).1.status ≠ 200) :
    (s.respond freshId m u).2 = u ∨
      ∃ reason, (s.respond freshId m u).1 = reason.reply freshId m ∧
        HalfDone endpoints u reason (s.respond freshId m u).2 := by
  rcases respond_cases hbind freshId m u with
    hidle | ⟨context, name, hserves, hmethod, hpattern, -, hnew, hcreate⟩ |
      ⟨context, id, hserves, hmethod, hpattern, -, hthere, hremove⟩
  · exact .inl hidle
  · have he := Service.endpoint_mem_of_serves htable hserves
    rw [hcreate] at hstatus ⊢
    obtain ⟨p, hp, hmissing, hreply⟩ := exists_missing_of_status hstatus
    have hname := get?_created_of_ne hmissing
    exact .inr ⟨_, hreply, .created he hmethod hpattern hp hname rfl hnew⟩
  · have he := Service.endpoint_mem_of_serves htable hserves
    rw [hremove] at hstatus ⊢
    obtain ⟨p, hp, -, hreply⟩ := exists_missing_of_status hstatus
    exact .inr ⟨_, hreply, .deleted he hmethod hpattern hp rfl hthere⟩

/-- A reply other than 200 leaves the store as it was, unless a handler has succeeded and an output
declared for its endpoint is not among those it produces. A service whose endpoints declare no such
output never changes its store under a reply other than 200. -/
theorem store_of_status_ne (htable : s.table = .build endpoints)
    (hbind : Handlers.bind s.table registrations = .ok s.handlers) (u : Users)
    (hstatus : (s.respond freshId m u).1.status ≠ 200) :
    ((s.respond freshId m u).2 = u ∨
      ∃ reason, (s.respond freshId m u).1 = reason.reply freshId m ∧
        HalfDone endpoints u reason (s.respond freshId m u).2) ∧
    (OutputsProduced endpoints → (s.respond freshId m u).2 = u) := by
  have hcases := eq_or_halfDone_of_status_ne htable hbind u hstatus
  refine ⟨hcases, fun hproduced => hcases.resolve_right ?_⟩
  rintro ⟨reason, -, hhalf⟩
  exact not_halfDone hproduced hhalf

end Refused

/-- A name that is taken is refused. -/
theorem store_of_status_ne_conflict :
    let s := server (.ofList [("k", ["admin"])]) 64
    let m := sent "POST" "/users" none "name=ada"
    let u : Users := ⟨1, [(1, "ada")]⟩
    (s.respond "r" m u).1.status = 409 ∧ (s.respond "r" m u).2 = u := by
  intro s m u
  have hstatus : (s.respond "r" m u).1.status = 409 := by decide +kernel
  have hproduced : OutputsProduced endpoints := by decide +kernel
  have htable : s.table = .build endpoints := rfl
  exact ⟨hstatus, (store_of_status_ne htable rfl u (by rw [hstatus]; decide)).2 hproduced⟩

/-- The interface with the id of a new user left under the name of its field. -/
def misnamed : List Manifest.Entry :=
  entries.map fun e =>
    if e.method = "POST" then { e with output := .ofList [("id", { typeText := "uint" })] } else e

def misnamedEndpoints : List Endpoint :=
  [listUsers,
    { createUser with
      output := .ofList [("id", { idOutput with rename := "id" })]
      output_apart := by decide +kernel },
    fetchUser, deleteUser]

/-- A user is created under a reply that tells of a failure. -/
theorem store_changes_misnamed :
    Manifest.compile misnamed = .ok misnamedEndpoints ∧
      Endpoint.checkAll .builtin misnamedEndpoints = .ok () ∧
      Handlers.bind (.build misnamedEndpoints) registrations = .ok handlers ∧
      let s : Service Users :=
        ⟨.build misnamedEndpoints, .builtin, handlers, .ofList [("k", ["admin"])], 64⟩
      let m := sent "POST" "/users" none "name=ada"
      s.Run empty [] empty ∧ (s.respond "r" m empty).1.status = 500 ∧
        (s.respond "r" m empty).2 = ⟨1, [(1, "ada")]⟩ := by
  refine ⟨by decide +kernel, by decide +kernel, rfl, .nil, ?_⟩
  decide +kernel

end Signpost.Users
