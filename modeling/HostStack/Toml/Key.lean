import HostStack.Toml.StringLiteral

/-!
# Keys

A key is a sequence of names with dots between them, and blanks around the dots. A name is bare,
made of letters, digits, underscores and dashes, or it is a string on one line. All names but
the last say which table the key belongs to.
-/

namespace HostStack.Toml

/-- A key: the way to a table, and the name of an entry in it. -/
structure Key where
  path : List String
  name : String
  deriving DecidableEq

namespace Key

def names (key : Key) : List String :=
  key.path ++ [key.name]

def under (name : String) (key : Key) : Key :=
  { key with path := name :: key.path }

/-- The largest number of names in a key. -/
def maxNames : Nat := 79

end Key

/-- A character of a bare name. -/
def isBareChar (c : Char) : Bool :=
  c.isAlphanum || c = '_' || c = '-'

/-- A name of a key. -/
def readName (text : List Char) : Option (String × List Char) :=
  match text with
  | '"' :: _ => (readQuoted text).map fun (name, rest) => (String.ofList name, rest)
  | '\'' :: _ => (readQuoted text).map fun (name, rest) => (String.ofList name, rest)
  | _ =>
    match text.takeWhile isBareChar with
    | [] => none
    | name => some (String.ofList name, text.dropWhile isBareChar)

def readNames (text : List Char) : Option (Key × List Char) := do
  let (name, rest) ← readName text
  match skipBlanks rest with
  | '.' :: rest =>
    let next := skipBlanks rest
    if _h : next.length < text.length then
      let (key, rest) ← readNames next
      some (key.under name, rest)
    else none
  | rest => some (⟨[], name⟩, rest)
termination_by text.length

def readKey (text : List Char) : Option (Key × List Char) :=
  (readNames text).filter fun (key, _) => key.names.length ≤ Key.maxNames

end HostStack.Toml
