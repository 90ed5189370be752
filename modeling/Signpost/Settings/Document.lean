import Signpost.Json.Shape
import Signpost.Settings
import Signpost.Toml.Document

/-!
# Settings documents

Settings are written in sections, as tables of a TOML document. Whatever is missing has its default,
and unknown keys are ignored. A section may also be an array of its values in order.
-/
namespace Signpost.Settings

open Json

/-- What a value is, when something else is expected. -/
def found : Value → Found
  | .null => .null
  | .bool b => .bool b
  | .number n => .number n
  | .string s => .string s
  | .array _ => .sequence
  | .object _ => .map

def mismatch (v : Value) (expected : String) : ShapeError := .wrongType (found v) expected

def readText : Value → Except ShapeError String
  | .string s => .ok s
  | v => .error (mismatch v "a string")

def readBool : Value → Except ShapeError Bool
  | .bool b => .ok b
  | v => .error (mismatch v "a boolean")

/-- A natural number of 64 bits. -/
def readNat (expected : String) : Value → Except ShapeError Nat
  | .number (.integer n) =>
    if 0 ≤ n ∧ n < Int.pow 2 64 then .ok n.toNat
    else .error (.wrongValue (.number (.integer n)) expected)
  | v => .error (mismatch v expected)

def readTexts : Value → Except ShapeError (List String)
  | .array items => items.mapM readText
  | v => .error (mismatch v "a sequence")

def readKeys : Value → Except ShapeError ApiKeys
  | .object fields =>
    (fields.mapM fun (m : String × Value) => (readTexts m.2).map fun roles => (m.1, roles)).map
      Dict.ofList
  | v => .error (mismatch v "a map")

/-- A key, and how its value changes the settings. -/
abbrev Field := String × (Value → Settings → Except ShapeError Settings)

/-- Whether an array that is longer than its section is refused, or read as far as it goes. -/
inductive Surplus where
  | refused
  | ignored
  deriving DecidableEq, Repr

/-- Read a section into the settings. -/
def readSection (surplus : Surplus) (name : String) (fields : List Field) (v : Value)
    (s : Settings) : Except ShapeError Settings :=
  match v with
  | .object members =>
    members.foldlM (fun s (key, v) =>
      match fields.lookup key with
      | some read => read v s
      | none => .ok s) s
  | .array items =>
    (fields.zip items).foldlM (fun s ((_, read), v) => read v s) s >>= fun s =>
      if surplus = .refused ∧ fields.length < items.length then
        .error (.wrongLength items.length "fewer elements in array")
      else .ok s
  | _ => .error (mismatch v ("struct " ++ name))

def listenerFields : List Field := [
  ("bind_address", fun v s => (readText v).map fun a => { s with bindAddress := a })]

def manifestFields : List Field := [
  ("path", fun v s => (readText v).map fun p => { s with manifestPath := p })]

def timeoutFields : List Field := [
  ("request_secs", fun v s => (readNat "u64" v).map fun n => { s with requestSeconds := n })]

def securityFields : List Field := [
  ("max_body_size", fun v s => (readNat "usize" v).map fun n => { s with maxBodySize := n })]

def authFields : List Field := [
  ("api_keys", fun v s => (readKeys v).map fun keys => { s with apiKeys := keys })]

def observabilityFields : List Field := [
  ("log_level", fun v s => (readText v).map fun l => { s with logLevel := l }),
  ("metrics_enabled", fun v s => (readBool v).map fun b => { s with metricsEnabled := b }),
  ("metrics_address", fun v s => (readText v).map fun a => { s with metricsAddress := a })]

/-- The sections of a document, in order. -/
def sections (surplus : Surplus) : List Field := [
  ("listener", readSection surplus "ListenerConfig" listenerFields),
  ("manifest", readSection surplus "ManifestConfig" manifestFields),
  ("timeouts", readSection surplus "TimeoutConfig" timeoutFields),
  ("security", readSection surplus "SecurityConfig" securityFields),
  ("auth", readSection surplus "AuthConfig" authFields),
  ("observability", readSection surplus "ObservabilityConfig" observabilityFields)]

/-- Read settings over their defaults. -/
def ofValue (surplus : Surplus) (v : Value) : Except ShapeError Settings :=
  readSection surplus "ServerConfig" (sections surplus) v {}

/-- What keeps a settings document from being used. -/
inductive SettingsError where
  | unreadable
  | unfit (problems : List Problem)
  deriving DecidableEq, Repr

def SettingsError.message : SettingsError → String
  | unreadable => "Parse error"
  | unfit problems =>
    "Validation failed: " ++ ", ".intercalate (problems.map Problem.message)

/-- Read and check a TOML document. -/
def parse (text : String) : Except SettingsError Settings :=
  match Toml.parse? text with
  | none => .error .unreadable
  | some entries =>
    match ofValue .ignored (Toml.Value.table entries).toJson with
    | .error _ => .error .unreadable
    | .ok s => s.validate.mapError .unfit

/-- The settings as a document in sections. -/
def toValue (s : Settings) : Value :=
  .object [
    ("auth", .object [("api_keys", .ofDict (s.apiKeys.map .strings))]),
    ("listener", .object [("bind_address", .string s.bindAddress)]),
    ("manifest", .object [("path", .string s.manifestPath)]),
    ("observability", .object [
      ("log_level", .string s.logLevel),
      ("metrics_address", .string s.metricsAddress),
      ("metrics_enabled", .bool s.metricsEnabled)]),
    ("security", .object [("max_body_size", .ofNat s.maxBodySize)]),
    ("timeouts", .object [("request_secs", .ofNat s.requestSeconds)])]

end Signpost.Settings
