import HostStack.Toml.Key
import HostStack.Toml.Value

/-!
# Which lines may add to which table

A document is put together line by line, and each line must define something new. The rules, for
a key that leads through tables to a last name:

* a key with a value goes through tables that dotted keys or longer headers made, and through
  the last element of an array of tables; where it goes through any table, the one that takes
  the value was made by dotted keys;
* a header goes through every table that is not written in braces, and likewise through last
  elements; tables that are missing come into being on the way;
* a table header names a table that is missing or has been made by longer headers only, and
  moves it behind the other entries;
* a header of an array element names an array of tables or nothing yet.

A table in braces takes keys by the first rule, and is closed behind them.
-/

namespace HostStack.Toml

namespace Entries

/-- The entries with a value under a name that is still free. -/
def define (name : String) (value : Value) (entries : Entries) : Option Entries :=
  if (entries.lookup name).isSome then none else some (entries.append name value)

/-- Changes the last of some tables. -/
def changeLast (change : Entries → Option Entries) (elements : List Entries) :
    Option (List Entries) :=
  match elements.getLast? with
  | none => none
  | some last => (change last).map fun changed => elements.dropLast ++ [changed]

/-- The entries with a value under a name at the end of a path of dotted keys. -/
def insertDotted (name : String) (value : Value) : List String → Entries → Option Entries
  | [], entries => entries.define name value
  | step :: path, entries =>
    match entries.lookup step with
    | none =>
      (insertDotted name value path []).map fun inner => entries.append step (.table .dotted inner)
    | some (.table .dotted inner) =>
      (insertDotted name value path inner).map fun inner =>
        entries.replace step (.table .dotted inner)
    | some (.table .implied inner) =>
      if path.isEmpty then none
      else (insertDotted name value path inner).map fun inner =>
        entries.replace step (.table .implied inner)
    | some (.tables elements) =>
      if path.isEmpty then none
      else (changeLast (insertDotted name value path) elements).map fun elements =>
        entries.replace step (.tables elements)
    | some _ => none

/-- The entries with the table at the end of a path of headers changed. -/
def changeAt (change : Entries → Option Entries) : List String → Entries → Option Entries
  | [], entries => change entries
  | step :: path, entries =>
    match entries.lookup step with
    | none =>
      (changeAt change path []).map fun inner => entries.append step (.table .implied inner)
    | some (.table .inline _) => none
    | some (.table origin inner) =>
      (changeAt change path inner).map fun inner => entries.replace step (.table origin inner)
    | some (.tables elements) =>
      (changeLast (changeAt change path) elements).map fun elements =>
        entries.replace step (.tables elements)
    | some _ => none

/-- The entries with a table under its own header, behind all others. -/
def openTable (name : String) (entries : Entries) : Option Entries :=
  match entries.lookup name with
  | none => some (entries.append name (.table .header []))
  | some (.table .implied inner) => some ((entries.erase name).append name (.table .header inner))
  | some _ => none

def openElement (name : String) (entries : Entries) : Option Entries :=
  match entries.lookup name with
  | none => some (entries.append name (.tables [[]]))
  | some (.tables elements) => some (entries.replace name (.tables (elements ++ [[]])))
  | some _ => none

/-- The entries that keys with values define one after the other. -/
def ofAssignments (assignments : List (Key × Value)) : Option Entries :=
  assignments.foldlM (fun entries (key, value) => entries.insertDotted key.name value key.path) []

end Entries

inductive Statement where
  | assign (key : Key) (value : Value)
  | table (key : Key)
  | element (key : Key)

/-- A document up to some line: what it holds, and the table that further keys go to. -/
structure Draft where
  root : Entries
  current : List String

namespace Draft

def empty : Draft := ⟨[], []⟩

/-- The draft after one more line, unless the line contradicts an earlier one. -/
def add (draft : Draft) : Statement → Option Draft
  | .assign key value =>
    (draft.root.changeAt (Entries.insertDotted key.name value key.path) draft.current).map
      fun root => { draft with root }
  | .table key =>
    (draft.root.changeAt (Entries.openTable key.name) key.path).map
      fun root => ⟨root, key.names⟩
  | .element key =>
    (draft.root.changeAt (Entries.openElement key.name) key.path).map
      fun root => ⟨root, key.names⟩

end Draft

/-- The table that the lines of a document define together. -/
def Entries.ofStatements (statements : List Statement) : Option Entries :=
  (statements.foldlM Draft.add Draft.empty).map Draft.root

end HostStack.Toml
