import Signpost.Toml.Quoted
import Signpost.Toml.Table

/-!
# TOML documents

A document is a list of lines, each with a value under a dotted key, the header of a table, the
header of an element of an array of tables, or nothing, and perhaps a comment.
-/
namespace Signpost.Toml

/-- What a reader finds, and what is left of the text. -/
abbrev Reader (α : Type) := List Char → Option (α × List Char)

def skipSpaces (cs : List Char) : List Char := cs.dropWhile isSpace

/-- What follows a comment, if there is one here. -/
def skipComment (cs : List Char) : List Char :=
  match cs with
  | '#' :: rest => rest.dropWhile isPlain
  | _ => cs

/-- Spaces, line breaks and comments, the first of which may have begun. A comment ends with its
line. -/
def skipFill : (inComment : Bool) → List Char → List Char
  | _, [] => []
  | inComment, c :: rest =>
    if c = '\n' then skipFill false rest
    else if c = '\r' then
      if rest.head? = some '\n' then skipFill inComment rest else c :: rest
    else if inComment then if isPlain c then skipFill true rest else c :: rest
    else if isSpace c then skipFill false rest
    else if c = '#' then skipFill true rest
    else c :: rest

def isBareChar (c : Char) : Bool := c.isAlphanum || c == '_' || c == '-'

/-- One part of a key: a bare word, or a string on one line. -/
def simpleKey : Reader String := fun cs =>
  let bare := cs.takeWhile isBareChar
  if bare.isEmpty then (lineString? cs).map fun (s, rest) => (String.ofList s, rest)
  else some (String.ofList bare, cs.dropWhile isBareChar)

/-- Up to `count` parts of a key with points between them. -/
def keyParts : (count : Nat) → Reader (List String)
  | 0, _ => none
  | count + 1, cs =>
    (simpleKey cs).bind fun (part, rest) =>
      match skipSpaces rest with
      | '.' :: rest' =>
        (keyParts count (skipSpaces rest')).map fun (parts, rest) => (part :: parts, rest)
      | _ => some ([part], rest)

/-- Keys have less than this many parts, and arrays and inline tables stand less than this deep
inside each other. -/
def depthLimit : Nat := 80

def key : Reader (List String) := keyParts (depthLimit - 1)

/-- What follows a key and its equals sign. -/
def keyEquals (cs : List Char) : Option (List String × List Char) :=
  (key cs).bind fun (path, rest) =>
    match skipSpaces rest with
    | '=' :: rest => some (path, skipSpaces rest)
    | _ => none

mutual

def value (depth : Nat) : (fuel : Nat) → Reader Value
  | 0, _ => none
  | fuel + 1, cs =>
    match cs with
    | '[' :: rest =>
      if depthLimit ≤ depth + 1 then none
      else (items (depth + 1) fuel rest).map fun (vs, rest) => (.array vs, rest)
    | '\x7b' :: rest =>
      if depthLimit ≤ depth + 1 then none
      else
        match skipSpaces rest with
        | '\x7d' :: rest => some (.table [], rest)
        | rest =>
          (pairs (depth + 1) fuel [] rest).map fun (es, rest) => (.table (entriesToValues es), rest)
    | _ =>
      match string? cs with
      | some (s, rest) => some (.string (String.ofList s), rest)
      | none =>
        let (w, rest) := word cs
        (scalar? w).map fun v => (v, rest)

/-- The items of an array up to its end. A comma may follow the last one. -/
def items (depth : Nat) : (fuel : Nat) → Reader (List Value)
  | 0, _ => none
  | fuel + 1, cs =>
    match skipFill false cs with
    | ']' :: rest => some ([], rest)
    | cs =>
      (value depth fuel cs).bind fun (v, rest) =>
        match skipFill false rest with
        | ']' :: rest => some ([v], rest)
        | ',' :: rest => (items depth fuel rest).map fun (vs, rest) => (v :: vs, rest)
        | _ => none

/-- The pairs of an inline table up to its end, added to those before. -/
def pairs (depth : Nat) : (fuel : Nat) → Entries → Reader Entries
  | 0, _, _ => none
  | fuel + 1, es, cs =>
    (keyEquals cs).bind fun (path, rest) =>
      (value depth fuel rest).bind fun (v, rest) =>
        (Entries.assign v path es).bind fun es =>
          match skipSpaces rest with
          | '\x7d' :: rest => some (es, rest)
          | ',' :: rest => pairs depth fuel es (skipSpaces rest)
          | _ => none

end

/-- A document read up to some line: what it defines, and the path of the table it is in. -/
structure Draft where
  entries : Entries
  path : List String

/-- A header between brackets: its path and what follows it. -/
def header (cs : List Char) : Option (List String × List Char) :=
  (key (skipSpaces cs)).bind fun (path, rest) =>
    match skipSpaces rest with
    | ']' :: rest => some (path, rest)
    | _ => none

/-- Open the table that a path names. -/
def Draft.enter (d : Draft) (openIt : String → Entries → Option Entries) (path : List String) :
    Option Draft :=
  match path.getLast? with
  | none => none
  | some last =>
    (d.entries.within (openIt last) path.dropLast).map fun entries => ⟨entries, path⟩

/-- Read the statement that begins a text no longer than `fuel`. -/
def Draft.statement (fuel : Nat) (d : Draft) (cs : List Char) : Option (Draft × List Char) :=
  match cs with
  | '[' :: '[' :: rest =>
    (header rest).bind fun (path, rest) =>
      match rest with
      | ']' :: rest => (d.enter Entries.openElement path).map fun d => (d, rest)
      | _ => none
  | '[' :: rest =>
    (header rest).bind fun (path, rest) =>
      (d.enter Entries.openTable path).map fun d => (d, rest)
  | _ =>
    (keyEquals cs).bind fun (path, rest) =>
      (value 0 fuel rest).bind fun (v, rest) =>
        (d.entries.within (Entries.assign v path) d.path).map fun entries =>
          ({ d with entries }, rest)

/-- Read lines to the end of a text that is shorter than `fuel`. -/
def Draft.lines : (fuel : Nat) → Draft → List Char → Option Entries
  | 0, _, _ => none
  | fuel + 1, d, cs =>
    match skipFill false cs with
    | [] => some d.entries
    | cs =>
      (d.statement fuel cs).bind fun (d, rest) =>
        match skipComment (skipSpaces rest) with
        | [] => some d.entries
        | rest => (afterBreak? rest).bind (lines fuel d)

/-- The entries of a document. A byte order mark at its start is no part of it. -/
def parse? (text : String) : Option (List (String × Value)) :=
  let cs := text.toList
  let cs := if cs.head? = some '\uFEFF' then cs.tail else cs
  (Draft.lines (cs.length + 1) ⟨[], []⟩ cs).map entriesToValues

end Signpost.Toml
