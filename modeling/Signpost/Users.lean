import Signpost.Json.Access
import Signpost.Service.Handlers

/-!
# A users service

Handlers that keep a list of named users. Ids are given out in turn and never again, and no two
users have the same name at one time.
-/
namespace Signpost

open Json

/-- The last id given out, and the users by id in increasing order. -/
structure Users where
  lastId : Nat
  names : List (Nat × String)
  deriving DecidableEq, Repr

namespace Users

def empty : Users := ⟨0, []⟩

def name? (u : Users) (id : Nat) : Option String := u.names.lookup id

def hasName (u : Users) (name : String) : Bool := u.names.any (·.2 = name)

/-- Add a user with the next id. -/
def create (u : Users) (name : String) : Users :=
  ⟨u.lastId + 1, u.names ++ [(u.lastId + 1, name)]⟩

def remove (u : Users) (id : Nat) : Users := { u with names := u.names.filter (·.1 ≠ id) }

/-- The first `limit` users as values. -/
def list (u : Users) (limit : Nat) : Value :=
  .array ((u.names.take limit).map fun (id, name) =>
    .object [("id", .ofNat id), ("name", .string name)])

/-- A parameter that the service cannot do without. -/
def required (c : Context) (name : String) (read : Value → Option α) : Except Refusal α :=
  match (c.params.get? name).bind read with
  | some a => .ok a
  | none => .error (.internal ("`" ++ name ++ "` not extracted"))

/-- Ids and limits are natural numbers of 64 bits. -/
def nat64? : Value → Option Nat := Value.natBelow? (Nat.pow 2 64)

def notFound (id : Nat) : Refusal := .notFound ("user " ++ toString id)

/-- List the users, as many as `Limit` says if it is given. -/
def handleList : Handler Users := fun c u =>
  let limit := ((c.params.get? "Limit").bind nat64?).getD (Nat.pow 2 64 - 1)
  (.ok (Dict.ofList [("Users", u.list limit)]), u)

def handleCreate : Handler Users := fun c u =>
  match required c "Name" Value.text? with
  | .error e => (.error e, u)
  | .ok name =>
    if u.hasName name then (.error (.conflict ("user `" ++ name ++ "` exists")), u)
    else
      let u := u.create name
      (.ok (Dict.ofList [("ID", .ofNat u.lastId)]), u)

def handleFetch : Handler Users := fun c u =>
  match required c "ID" nat64? with
  | .error e => (.error e, u)
  | .ok id =>
    match u.name? id with
    | none => (.error (notFound id), u)
    | some name => (.ok (Dict.ofList [("ID", .ofNat id), ("Name", .string name)]), u)

def handleDelete : Handler Users := fun c u =>
  match required c "ID" nat64? with
  | .error e => (.error e, u)
  | .ok id => if (u.name? id).isSome then (.ok {}, u.remove id) else (.error (notFound id), u)

/-- The interface of the service: what its manifest declares. -/
def entries : List Manifest.Entry := [
  { method := "GET", path := "/users", info := "List users",
    input := .ofList [("GET@limit",
      { typeText := "?uint", name := some "Limit", info := "maximum number of users" })],
    output := .ofList [("users", { typeText := "any", name := some "Users" })] },
  { method := "POST", path := "/users", info := "Create a user", scope := [["admin"]],
    input := .ofList [("name", { typeText := "string(1,64)", name := some "Name" }),
      ("age", { typeText := "?uint", name := some "Age" })],
    output := .ofList [("id", { typeText := "uint", name := some "ID" })] },
  { method := "GET", path := "/users/\x7bid\x7d", info := "Fetch one user",
    scope := [["admin"], ["user[ID]"]],
    input := .ofList [("\x7bid\x7d", { typeText := "uint", name := some "ID" })],
    output := .ofList [("id", { typeText := "uint", name := some "ID" }),
      ("name", { typeText := "string", name := some "Name" })] },
  { method := "DELETE", path := "/users/\x7bid\x7d", info := "Delete a user", scope := [["admin"]],
    input := .ofList [("\x7bid\x7d", { typeText := "uint", name := some "ID" })] }]

/-- The handlers of the service. -/
def registrations : List (Registration Users) := [
  { method := .get, pattern := "/users", handler := handleList },
  { method := .post, pattern := "/users", handler := handleCreate },
  { method := .get, pattern := "/users/\x7bid\x7d", handler := handleFetch },
  { method := .delete, pattern := "/users/\x7bid\x7d", handler := handleDelete }]

end Users

end Signpost
