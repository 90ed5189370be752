import Signpost.Endpoint
import Signpost.Manifest.Document

/-!
# Compiling manifests

Each entry is checked in a fixed order, method, path, inputs, captures, outputs and clashes of
names, and the first defect found is reported. A manifest compiles if each of its entries does.
-/
namespace Signpost

inductive Defect where
  | unknownMethod
  | pattern (error : PatternError)
  | parameter (error : ParameterError)
  /-- The pattern has a capture that no input gives a type. -/
  | untypedCapture (name : String)
  /-- An input names a capture that the pattern does not have. -/
  | unknownCapture (name : String)
  | nameConflict (other : String)
  deriving DecidableEq, Repr

def PatternError.message : PatternError → String
  | .noLeadingSlash => "invalid pattern: must start with `/`"
  | .trailingSlash => "invalid pattern: must not end with `/`"
  | .emptySegment => "invalid pattern: empty fragment"
  | .strayBrace => "invalid pattern: braces must enclose a whole fragment"
  | .badCaptureName segment => "invalid capture fragment `" ++ segment ++ "`"
  | .repeatedCapture name => "capture `" ++ name ++ "` appears twice in the pattern"

def Defect.message : Defect → String
  | .unknownMethod => "unknown method, expected GET, POST, PUT or DELETE"
  | .pattern error => error.message
  | .parameter error => error.message
  | .untypedCapture name => "capture `" ++ name ++ "` has no matching input parameter"
  | .unknownCapture name =>
    "input refers to capture `" ++ name ++ "` which the pattern does not declare"
  | .nameConflict other => "name conflicts with parameter `" ++ other ++ "`"

/-- A defect of the entry declared as `method path`, at the key `field` if it belongs to one. -/
structure CompileError where
  method : String
  path : String
  field : Option String
  defect : Defect
  deriving DecidableEq, Repr

def CompileError.message (e : CompileError) : String :=
  let field := match e.field with | some f => " [" ++ f ++ "]" | none => ""
  e.method ++ " " ++ e.path ++ field ++ ": " ++ e.defect.message

/-- What keeps a manifest from being used. -/
inductive ManifestError where
  | unreadable (fault : Json.Fault)
  | defective (error : CompileError)
  deriving DecidableEq, Repr

namespace Endpoint

/-- A defect and the key it belongs to. -/
abbrev Located := Option String × Defect

/-- Check each parameter under its key, in order. -/
def checkEach (check : String → Manifest.Param → Except Defect Parameter)
    (ps : Dict Manifest.Param) : Except Located (Dict Parameter) :=
  (ps.entries.mapM fun (key, p) =>
    ((check key p).map fun q => (key, q)).mapError fun d => (some key, d)).map Dict.ofList

/-- An input that is read from the path has to name one of its captures. -/
def checkInput (captures : List (String × Nat)) (key : String) (p : Manifest.Param) :
    Except Defect Parameter :=
  match Parameter.input key p with
  | .error e => .error (.parameter e)
  | .ok q =>
    if q.source = .uri ∧ captures.all (·.1 ≠ q.name) then .error (.unknownCapture q.name) else .ok q

def checkOutput (key : String) (p : Manifest.Param) : Except Defect Parameter :=
  (Parameter.output key p).mapError .parameter

/-- The input that gives a capture its type. -/
def captureInput (input : Dict Parameter) (name : String) : Option Parameter :=
  input.values.find? fun p => p.source = .uri && p.name = name

def bindCapture (input : Dict Parameter) (c : String × Nat) : Except Located Capture :=
  match captureInput input c.1 with
  | some param => .ok ⟨c.1, c.2, param⟩
  | none => .error (none, .untypedCapture c.1)

/-- No two of the parameters may get in each other's way. -/
def checkClashes (ps : Dict Parameter) : Except Located (PLift (Parameter.firstClash ps = none)) :=
  match Parameter.firstClash ps with
  | some (key, other) => .error (some key, .nameConflict other)
  | none => .ok ⟨rfl⟩

def assemble (entry : Manifest.Entry) : Except Located Endpoint := do
  let method ← match Method.ofText? entry.method with
    | some m => .ok m
    | none => .error (none, .unknownMethod)
  let pattern ← (Pattern.parse entry.path).mapError fun e => (none, .pattern e)
  let input ← checkEach (checkInput pattern.captures) entry.input
  let captures ← pattern.captures.mapM (bindCapture input)
  let output ← checkEach checkOutput entry.output
  let _ ← checkClashes input
  let apart ← checkClashes output
  return {
    method, pattern := entry.path, info := entry.info, segments := pattern.segments, captures,
    input, output, scope := Scope.compile entry.scope (captures.map (·.param.rename)),
    output_apart := apart.down }

/-- Check one entry. -/
def compile (entry : Manifest.Entry) : Except CompileError Endpoint :=
  (assemble entry).mapError fun (field, defect) => ⟨entry.method, entry.path, field, defect⟩

end Endpoint

/-- Check all entries. -/
def Manifest.compile (entries : List Manifest.Entry) : Except CompileError (List Endpoint) :=
  entries.mapM Endpoint.compile

/-- Read and check a manifest document. The whole of it is read before anything is checked. -/
def Manifest.compileBytes (bytes : List UInt8) : Except ManifestError (List Endpoint) :=
  match Manifest.ofBytes bytes with
  | .error fault => .error (.unreadable fault)
  | .ok entries => (Manifest.compile entries).mapError .defective

end Signpost
