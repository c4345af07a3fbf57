import AccessPolicy.Toml.Key
import AccessPolicy.Toml.Value

/-!
# Filling tables

A document stands for a table that is filled piece by piece.  A table with a
header of its own is closed to dotted keys, a table that was only passed
through on the way to another may still get its header, and a table written
between braces is complete.
-/

namespace AccessPolicy.Toml

namespace Table

/-- Give another value to a key of a table. -/
def replace (name : String) (value : Value) (table : Table) : Table :=
  table.map fun entry => if entry.1 = name then (name, value) else entry

/-- Change the table at the end of a path of keys.  A path leads through tables
with or without headers and through the latest table of an array, and makes the
tables that are missing. -/
def within (update : Table → Option Table) : List String → Table → Option Table
  | [], table => update table
  | step :: path, table =>
      match table.lookup step with
      | none => do
          let inner ← within update path []
          some (table ++ [(step, .table .implied inner)])
      | some (.table origin entries) => do
          let inner ← within update path entries
          some (table.replace step (.table origin inner))
      | some (.tables earlier latest) => do
          let inner ← within update path latest
          some (table.replace step (.tables earlier inner))
      | some _ => none

/-- Give a value to a dotted key.  The key may lead through tables without a
header of their own, and makes those that are missing; the table in which the
value comes to stand must have been made by dotted keys, unless it is the one
from which the key starts.  A key that has a value keeps it, and the whole is
refused. -/
def assign (name : String) (value : Value) : List String → Table → Option Table
  | [], table =>
      if (table.lookup name).isSome then none else some (table ++ [(name, value)])
  | step :: path, table =>
      match table.lookup step with
      | none => do
          let inner ← assign name value path []
          some (table ++ [(step, .table .dotted inner)])
      | some (.table .dotted entries) => do
          let inner ← assign name value path entries
          some (table.replace step (.table .dotted inner))
      | some (.table .implied entries) => do
          guard (path ≠ [])
          let inner ← assign name value path entries
          some (table.replace step (.table .implied inner))
      | some (.tables earlier latest) => do
          guard (path ≠ [])
          let inner ← assign name value path latest
          some (table.replace step (.tables earlier inner))
      | some _ => none

/-- Open the table of a header: a new one, or one that was only passed through
by the headers of others. -/
def openTable (name : String) (table : Table) : Option Table :=
  match table.lookup name with
  | none => some (table ++ [(name, .table .header [])])
  | some (.table .implied entries) =>
      some (table.replace name (.table .header entries))
  | some _ => none

/-- Open one more table of an array of tables. -/
def openElement (name : String) (table : Table) : Option Table :=
  match table.lookup name with
  | none => some (table ++ [(name, .tables [] [])])
  | some (.tables earlier latest) =>
      some (table.replace name (.tables (earlier ++ [latest]) []))
  | some _ => none

/-- The table that gives values to dotted keys, one after the other. -/
def ofAssignments? (assignments : List (DottedKey × Value)) : Option Table :=
  assignments.foldlM (fun table (key, value) =>
    table.assign key.name value key.path) []

end Table

end AccessPolicy.Toml
