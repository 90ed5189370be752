import Signpost.Dict

/-!
# Manifests

A manifest lists endpoints as their author declares them: texts only, nothing checked yet.
-/
namespace Signpost.Manifest

/-- A declared parameter: what it is for, its type and the name it goes by outside. -/
structure Param where
  info : String := ""
  typeText : String
  name : Option String := none
  deriving DecidableEq, Repr

/-- A declared endpoint. The scope is a list of groups of roles, of which a caller needs one whole
group. Parameters are listed under keys that also say where they come from. -/
structure Entry where
  method : String
  path : String
  scope : List (List String) := []
  info : String := ""
  input : Dict Param := {}
  output : Dict Param := {}
  deriving DecidableEq, Repr

end Signpost.Manifest
