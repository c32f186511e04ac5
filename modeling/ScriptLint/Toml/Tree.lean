import ScriptLint.Toml.Basic

/-!
# TOML tables under construction

A table can be brought into being by a header, by the header of a table inside it, or by a dotted
key. Which of these it was decides what may still be added to it: a header may open a table that
until then was only implied. Dotted keys may put values only into what dotted keys brought into
being; on the way there they may pass through implied tables and through the last element of an
array of tables.
-/

namespace ScriptLint

namespace Toml

/-- How a table came into being. -/
inductive TableOrigin where
  | implied
  | header
  | dotted
  deriving DecidableEq, Repr

inductive Tree where
  | value (value : Toml)
  | table (origin : TableOrigin) (entries : List (String × Tree))
  /-- An array of tables, the last one first. -/
  | tables (elements : List (List (String × Tree)))
  deriving Repr

abbrev Entries := List (String × Tree)

namespace Entries

def get? (key : String) (entries : Entries) : Option Tree :=
  List.lookup key entries

/-- Gives a key a new value where it stands, or at the end if it is new. -/
def put (key : String) (tree : Tree) : Entries → Entries
  | [] => [(key, tree)]
  | entry :: rest =>
      if entry.1 == key then (key, tree) :: rest else entry :: put key tree rest

/-- Changes the table that a header path leads to. Missing tables on the way are implied, and an
array of tables stands for its last element. -/
def alter (change : Entries → Option Entries) : List String → Entries → Option Entries
  | [], entries => change entries
  | key :: path, entries =>
      match entries.get? key with
      | none => (alter change path []).map fun inner => entries.put key (.table .implied inner)
      | some (.table origin inner) =>
          (alter change path inner).map fun inner => entries.put key (.table origin inner)
      | some (.tables (last :: earlier)) =>
          (alter change path last).map fun last => entries.put key (.tables (last :: earlier))
      | some _ => none

/-- Opens the table of a header. -/
def openTable (key : String) (entries : Entries) : Option Entries :=
  match entries.get? key with
  | none => some (entries.put key (.table .header []))
  | some (.table .implied inner) => some (entries.put key (.table .header inner))
  | some _ => none

/-- Opens a further element of an array of tables. -/
def openElement (key : String) (entries : Entries) : Option Entries :=
  match entries.get? key with
  | none => some (entries.put key (.tables [[]]))
  | some (.tables elements) => some (entries.put key (.tables ([] :: elements)))
  | some _ => none

/-- Adds the value of a dotted key, whose last part is `key`. -/
def add (key : String) (value : Toml) : List String → Entries → Option Entries
  | [], entries =>
      match entries.get? key with
      | none => some (entries.put key (.value value))
      | some _ => none
  | part :: path, entries =>
      match entries.get? part with
      | none => (add key value path []).map fun inner => entries.put part (.table .dotted inner)
      | some (.table origin inner) =>
          if origin = .dotted || (origin = .implied && !path.isEmpty) then
            (add key value path inner).map fun inner => entries.put part (.table origin inner)
          else none
      | some (.tables (last :: earlier)) =>
          if path.isEmpty then none
          else
            (add key value path last).map fun last => entries.put part (.tables (last :: earlier))
      | some _ => none

end Entries

mutual

/-- The value that a finished tree stands for. -/
def Tree.toToml : Tree → Toml
  | .value value => value
  | .table _ entries => .table (entriesToToml entries)
  | .tables elements => .array (elementsToToml elements).reverse

def entriesToToml : List (String × Tree) → List (String × Toml)
  | [] => []
  | (key, tree) :: rest => (key, tree.toToml) :: entriesToToml rest

def elementsToToml : List (List (String × Tree)) → List Toml
  | [] => []
  | entries :: rest => .table (entriesToToml entries) :: elementsToToml rest

end

end Toml

end ScriptLint
