import Signpost.Service.Headers
import Signpost.Settings.Address

/-!
# Settings

The settings of a router with their defaults, and what makes settings unfit for use.
-/
namespace Signpost

structure Settings where
  /-- The address to listen at. -/
  bindAddress : String := "0.0.0.0:8080"
  manifestPath : String := "api.json"
  requestSeconds : Nat := 30
  /-- The greatest body size in bytes. -/
  maxBodySize : Nat := 2097152
  apiKeys : ApiKeys := {}
  logLevel : String := "info"
  metricsEnabled : Bool := false
  metricsAddress : String := "127.0.0.1:9090"
  deriving Repr

namespace Settings

inductive Problem where
  | badBindAddress (address : String)
  | emptyManifestPath
  | zeroTimeout
  | zeroBodyLimit
  | emptyApiKey
  | emptyRole
  | badMetricsAddress (address : String)
  deriving DecidableEq, Repr

def Problem.message : Problem → String
  | badBindAddress address => "invalid listener bind address `" ++ address ++ "`"
  | emptyManifestPath => "manifest path is empty"
  | zeroTimeout => "request timeout must be greater than zero"
  | zeroBodyLimit => "maximum body size must be greater than zero"
  | emptyApiKey => "empty api key"
  | emptyRole => "empty role assigned to an api key"
  | badMetricsAddress address => "invalid metrics address `" ++ address ++ "`"

/-- A problem, if a condition holds. -/
def Problem.when (p : Problem) (condition : Bool) : List Problem := if condition then [p] else []

/-- All problems in a fixed order. The metrics address counts only if metrics are enabled. -/
def problems (s : Settings) : List Problem :=
  (Problem.badBindAddress s.bindAddress).when (!Address.isValid s.bindAddress) ++
  Problem.emptyManifestPath.when (s.manifestPath.toList.all Text.isBlank) ++
  Problem.zeroTimeout.when (s.requestSeconds == 0) ++
  Problem.zeroBodyLimit.when (s.maxBodySize == 0) ++
  Problem.emptyApiKey.when (s.apiKeys.keys.any (· == "")) ++
  Problem.emptyRole.when (s.apiKeys.values.any (·.any (· == ""))) ++
  (Problem.badMetricsAddress s.metricsAddress).when
    (s.metricsEnabled && !Address.isValid s.metricsAddress)

/-- The settings, if there is no problem with them. -/
def validate (s : Settings) : Except (List Problem) Settings :=
  if s.problems.isEmpty then .ok s else .error s.problems

/-- The log filter for a level. -/
def logFilter (level : String) : String :=
  "manifest_router=" ++ level ++ ",tower_http=" ++ level

end Settings

end Signpost
