import Signpost.Endpoint.Compile
import Signpost.Endpoint.Overlap
import Signpost.RouteTable
import Signpost.Settings.Document

/-!
# Starting up

Settings and manifests are read from files. How a file is read is left to the caller, who gives the
contents of the file at a path if there is one.
-/
namespace Signpost

/-- Reads the file at a path, if there is one. -/
abbrev FileReader (m : Type → Type) := String → m (Option (List UInt8))

/-- Why a file cannot be used as text. -/
inductive FileError where
  | notFound
  | invalidData
  deriving DecidableEq, Repr

inductive StartupError where
  | file (error : FileError)
  | manifest (error : ManifestError)
  | check (error : CheckError)
  deriving DecidableEq, Repr

/-- Compile, check and index the manifest in a file. -/
def RouteTable.ofFile (types : Registry) : Option (List UInt8) → Except StartupError RouteTable
  | none => .error (.file .notFound)
  | some bytes =>
    match Manifest.compileBytes bytes with
    | .error e => .error (.manifest e)
    | .ok endpoints =>
      match Endpoint.checkAll types endpoints with
      | .error e => .error (.check e)
      | .ok () => .ok (.build endpoints)

/-- Load the route table of the manifest at a path. -/
def RouteTable.load {m : Type → Type} [Monad m] (read : FileReader m) (types : Registry)
    (path : String) : m (Except StartupError RouteTable) := do
  return RouteTable.ofFile types (← read path)

namespace Settings

inductive LoadError where
  | file (error : FileError)
  | settings (error : SettingsError)
  deriving DecidableEq, Repr

/-- Read and check the settings in a file. -/
def ofFile : Option (List UInt8) → Except LoadError Settings
  | none => .error (.file .notFound)
  | some bytes =>
    match Text.Utf8.decode? bytes with
    | none => .error (.file .invalidData)
    | some cs => (parse (String.ofList cs)).mapError .settings

/-- Load the settings at a path. -/
def load {m : Type → Type} [Monad m] (read : FileReader m) (path : String) :
    m (Except LoadError Settings) := do
  return ofFile (← read path)

end Settings

end Signpost
