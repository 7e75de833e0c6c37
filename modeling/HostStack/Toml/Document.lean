import HostStack.Toml.ValueLiteral

/-!
# Documents

A document is read in two steps. Line by line it becomes a list of statements, keys with values
and headers; then the statements are put together to one table. A document is well formed if
both steps go through, so a fault anywhere in it hides everything that it says.
-/

namespace HostStack.Toml

def readHeaderKey (text : List Char) : Option (Key × List Char) :=
  readKey (skipBlanks text)

/-- One statement, without the rest of its line. -/
def readStatement : List Char → Option (Statement × List Char)
  | '[' :: '[' :: rest => do
    match ← readHeaderKey rest with
    | (key, ']' :: ']' :: rest) => some (.element key, rest)
    | _ => none
  | '[' :: rest => do
    match ← readHeaderKey rest with
    | (key, ']' :: rest) => some (.table key, rest)
    | _ => none
  | text => do
    let ((key, value), rest) ← readAssignment readValue text
    some (.assign key value, rest)

/-- One line: a statement, or none if the line holds blanks and a comment at most. -/
def readLine (text : List Char) : Option (Option Statement × List Char) :=
  match finishLine text with
  | some rest => some (none, rest)
  | none => do
    let (statement, rest) ← readStatement (skipBlanks text)
    let rest ← finishLine rest
    some (some statement, rest)

def readStatements (text : List Char) : Option (List Statement) :=
  if text.isEmpty then some []
  else do
    let (statement, rest) ← readLine text
    if _h : rest.length < text.length then
      let statements ← readStatements rest
      some (statement.toList ++ statements)
    else none
termination_by text.length

/-- The text without the mark that may stand in front of a document to tell its encoding. -/
def skipByteOrderMark : List Char → List Char
  | '\ufeff' :: text => text
  | text => text

/-- The top-level table of a document, unless its text is not well formed. -/
def parse? (text : String) : Option Entries :=
  (readStatements (skipByteOrderMark text.toList)).bind Entries.ofStatements

end HostStack.Toml
