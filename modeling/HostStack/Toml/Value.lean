/-!
# Values of a TOML document

A document is a table: keys with values, in the order in which they were first written. Besides
its entries a table remembers how it came about, because that alone decides whether later lines
may still add to it; readers of a finished document can ignore the difference.
-/

namespace HostStack.Toml

/-- How a table came about. -/
inductive Origin where
  /-- A header of its own, `[a]`. -/
  | header
  /-- A longer header only, as `a` in `[a.b]`. -/
  | implied
  /-- A dotted key, as `a` in `a.b = 1`. -/
  | dotted
  /-- Braces, as in `a = \x7b b = 1 \x7d`. -/
  | inline
  deriving DecidableEq

/-- A value. Arrays of tables are the ones that headers `[[a]]` fill, element by element. -/
inductive Value where
  | boolean (b : Bool)
  | integer (n : Int)
  | float (x : Float)
  | string (s : String)
  | dateTime (written : String)
  | array (elements : List Value)
  | table (origin : Origin) (entries : List (String × Value))
  | tables (elements : List (List (String × Value)))

/-- The entries of a table, each key once, in the order of their first mention. -/
abbrev Entries := List (String × Value)

namespace Entries

def replace (key : String) (value : Value) (entries : Entries) : Entries :=
  entries.map fun (k, v) => if k = key then (k, value) else (k, v)

def erase (key : String) (entries : Entries) : Entries :=
  entries.filter fun (k, _) => k ≠ key

def append (key : String) (value : Value) (entries : Entries) : Entries :=
  entries ++ [(key, value)]

end Entries

end HostStack.Toml
