import Signpost.Endpoint.Compile
import Signpost.Endpoint.Overlap
import Signpost.Proofs.Service.Handlers
import Signpost.Service.Gateway
import Signpost.Users
import Signpost.Validator.Builtin

/-!
# The users service as it is served

What the declared interface of the users service compiles to, with its handlers bound to it.
-/
namespace Signpost.Users

def idCapture : Capture where
  name := "id"
  position := 1
  param :=
    { source := .uri, name := "id", typeText := "uint", validator := "uint", arguments := [],
      rename := "ID", optional := false, info := "" }

def idOutput : Parameter :=
  { source := .form, name := "id", typeText := "uint", validator := "uint", arguments := [],
    rename := "ID", optional := false, info := "" }

def nameOutput : Parameter :=
  { source := .form, name := "name", typeText := "string", validator := "string", arguments := [],
    rename := "Name", optional := false, info := "" }

def nameInput : Parameter :=
  { source := .form, name := "name", typeText := "string(1,64)", validator := "string",
    arguments := ["1", "64"], rename := "Name", optional := false, info := "" }

def ageInput : Parameter :=
  { source := .form, name := "age", typeText := "?uint", validator := "uint", arguments := [],
    rename := "Age", optional := true, info := "" }

def listUsers : Endpoint where
  method := .get
  pattern := "/users"
  info := "List users"
  segments := [.literal "users"]
  captures := []
  input := .ofList [("GET@limit",
    { source := .query, name := "limit", typeText := "?uint", validator := "uint", arguments := [],
      rename := "Limit", optional := true, info := "maximum number of users" })]
  output := .ofList [("users",
    { source := .form, name := "users", typeText := "any", validator := "any", arguments := [],
      rename := "Users", optional := false, info := "" })]
  scope := .unrestricted
  output_apart := by decide +kernel

def createUser : Endpoint where
  method := .post
  pattern := "/users"
  info := "Create a user"
  segments := [.literal "users"]
  captures := []
  input := .ofList [("name", nameInput), ("age", ageInput)]
  output := .ofList [("id", idOutput)]
  scope := .compile [["admin"]] []
  output_apart := by decide +kernel

def fetchUser : Endpoint where
  method := .get
  pattern := "/users/\x7bid\x7d"
  info := "Fetch one user"
  segments := [.literal "users", .capture 0]
  captures := [idCapture]
  input := .ofList [("\x7bid\x7d", idCapture.param)]
  output := .ofList [("id", idOutput), ("name", nameOutput)]
  scope := .compile [["admin"], ["user[ID]"]] ["ID"]
  output_apart := by decide +kernel

def deleteUser : Endpoint where
  method := .delete
  pattern := "/users/\x7bid\x7d"
  info := "Delete a user"
  segments := [.literal "users", .capture 0]
  captures := [idCapture]
  input := .ofList [("\x7bid\x7d", idCapture.param)]
  output := {}
  scope := .compile [["admin"]] ["ID"]
  output_apart := by decide +kernel

def endpoints : List Endpoint := [listUsers, createUser, fetchUser, deleteUser]

theorem compile_entries : Manifest.compile entries = .ok endpoints := by decide +kernel

theorem checkAll_endpoints : Endpoint.checkAll .builtin endpoints = .ok () := by decide +kernel

def handlers : Handlers Users := ⟨registrations.map Handlers.entryOf, []⟩

theorem bind_registrations : Handlers.bind (.build endpoints) registrations = .ok handlers := by
  rfl

/-- The users service with the keys that it admits. -/
def server (keys : ApiKeys) (maxBodySize : Nat) : Service Users where
  table := .build endpoints
  types := .builtin
  handlers := handlers
  keys := keys
  maxBodySize := maxBodySize

/-- A form sent by a caller with the key `k`. -/
def sent (method path : String) (query : Option String) (form : String) : Message where
  method := method
  target := .path path query
  headers := [("Authorization", Text.Utf8.encode "Bearer k".toList),
    ("Content-Type", Text.Utf8.encode "application/x-www-form-urlencoded".toList)]
  body := .ofBytes (Text.Utf8.encode form.toList)

end Signpost.Users
