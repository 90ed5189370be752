import Signpost.Toml.Value

/-!
# TOML tables

What the statements of a document build, with the rules on what may be defined twice: no key gets
two values, no table two headers, and neither a header nor a dotted key adds to what the other has
made.
-/
namespace Signpost.Toml

/-- How a table came to be: on the way to another one, by a dotted key, or by a header of its own.
-/
inductive Origin where
  | passed
  | dotted
  | header
  deriving DecidableEq, Repr

inductive Node where
  | value (v : Value)
  | table (origin : Origin) (entries : List (String × Node))
  /-- An array of tables, the latest first. -/
  | tables (elements : List (List (String × Node)))
  deriving Inhabited

abbrev Entries := List (String × Node)

namespace Entries

/-- Put a node under a key, in place of the one that is there. -/
def put (key : String) (n : Node) : Entries → Entries
  | [] => [(key, n)]
  | (k, m) :: rest => if k = key then (key, n) :: rest else (k, m) :: put key n rest

/-- Change the table at the end of a path of headers. Tables that are missing on the way are made,
and of an array of tables the latest element is meant. -/
def within (change : Entries → Option Entries) : List String → Entries → Option Entries
  | [], es => change es
  | key :: path, es =>
    match es.lookup key with
    | none => (within change path []).map fun sub => put key (.table .passed sub) es
    | some (.table origin sub) =>
      (within change path sub).map fun sub => put key (.table origin sub) es
    | some (.tables (latest :: before)) =>
      (within change path latest).map fun latest => put key (.tables (latest :: before)) es
    | some _ => none

/-- Give a table its header. -/
def openTable (key : String) (es : Entries) : Option Entries :=
  match es.lookup key with
  | none => some (put key (.table .header []) es)
  | some (.table .passed sub) => some (put key (.table .header sub) es)
  | some _ => none

/-- Begin a further element of an array of tables. -/
def openElement (key : String) (es : Entries) : Option Entries :=
  match es.lookup key with
  | none => some (put key (.tables [[]]) es)
  | some (.tables elements) => some (put key (.tables ([] :: elements)) es)
  | some _ => none

/-- Give a dotted key its value. The last table on the way has to have been made by a dotted key. -/
def assign (v : Value) : List String → Entries → Option Entries
  | [], _ => none
  | [key], es => if (es.lookup key).isSome then none else some (put key (.value v) es)
  | key :: next :: path, es =>
    match es.lookup key with
    | none => (assign v (next :: path) []).map fun sub => put key (.table .dotted sub) es
    | some (.table .dotted sub) =>
      (assign v (next :: path) sub).map fun sub => put key (.table .dotted sub) es
    | some (.table .passed sub) =>
      if path.isEmpty then none
      else (assign v (next :: path) sub).map fun sub => put key (.table .passed sub) es
    | some (.tables (latest :: before)) =>
      if path.isEmpty then none
      else
        (assign v (next :: path) latest).map fun latest =>
          put key (.tables (latest :: before)) es
    | some _ => none

end Entries

mutual

def Node.toValue : Node → Value
  | .value v => v
  | .table _ entries => .table (entriesToValues entries)
  | .tables elements => .array (elementsToValues elements).reverse

def entriesToValues : List (String × Node) → List (String × Value)
  | [] => []
  | (k, n) :: rest => (k, n.toValue) :: entriesToValues rest

def elementsToValues : List (List (String × Node)) → List Value
  | [] => []
  | entries :: rest => .table (entriesToValues entries) :: elementsToValues rest

end

end Signpost.Toml
