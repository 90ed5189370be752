import Signpost.Role.Template

/-!
# Scopes

A scope is a list of groups of roles. A caller is admitted who holds every role of some group, and a
scope without groups admits everyone.
-/
namespace Signpost

open Json

/-- A reference to a capture, with the positions of its group and of the role in the group. -/
structure Reference where
  capture : String
  group : Nat
  item : Nat
  deriving DecidableEq, Repr

/-- The templates of a scope, and every reference to a capture in order. -/
structure Scope where
  groups : List (List Template)
  references : List Reference
  deriving DecidableEq, Repr

namespace Scope

/-- The scope that admits everyone. -/
def unrestricted : Scope := ⟨[], []⟩

/-- The references of a role at a position. -/
def referencesOf (group item : Nat) (t : Template) : List Reference :=
  t.captures.map fun capture => ⟨capture, group, item⟩

/-- The references of all groups. -/
def allReferences (groups : List (List Template)) : List Reference :=
  (groups.mapIdx fun group roles => (roles.mapIdx (referencesOf group)).flatten).flatten

/-- Compile a scope as written. One group without roles says the same as no group. -/
def compile (raw : List (List String)) (captures : List String) : Scope :=
  if raw = [[]] then unrestricted
  else
    let groups := raw.map (·.map (Template.compile · captures.contains))
    ⟨groups, allReferences groups⟩

def isEmpty (s : Scope) : Bool := s.groups.isEmpty

/-- Replace the element at a position of a list of lists, if there is one. -/
def setAt (required : List (List String)) (group item : Nat) (role : String) :
    List (List String) :=
  required.modify group (·.set item role)

/-- The template at a position. -/
def templateAt (s : Scope) (group item : Nat) : Option Template :=
  (s.groups[group]?).bind (·[item]?)

/-- Write the role that a reference is part of. -/
def fillReference (s : Scope) (values : Dict Value) (required : List (List String))
    (r : Reference) : List (List String) :=
  match s.templateAt r.group r.item with
  | some t => setAt required r.group r.item (t.render values)
  | none => required

/-- The roles required for given captured values. Only those with references are rendered. -/
def resolve (s : Scope) (values : Dict Value) : List (List String) :=
  s.references.foldl (s.fillReference values) (s.groups.map (·.map (·.raw)))

end Scope

/-- The roles required of a caller, and those the caller holds. -/
structure Grant where
  required : List (List String)
  active : List String
  deriving DecidableEq, Repr

namespace Grant

def forScope (s : Scope) (values : Dict Value) (active : List String) : Grant :=
  ⟨s.resolve values, active⟩

/-- Nothing is required, or every role of some group is held. -/
def granted (g : Grant) : Bool :=
  g.required.isEmpty || g.required.any (·.all g.active.contains)

end Grant

end Signpost
