import HostStack.Toml.DateTime
import HostStack.Toml.Draft
import HostStack.Toml.NumberLiteral

/-!
# Values as they are written

The first character tells strings, arrays and tables in braces apart from words. A word is a run
of letters, digits and the signs that numbers and dates need; nothing that may follow a value
continues a word, so the longest run is the right one. A date and a time with a blank between
them are the one value that is made of two words.

Arrays may run over several lines and end in a comma; tables in braces may do neither. Both may
be nested up to a fixed depth.
-/

namespace HostStack.Toml

/-- How deep arrays and tables in braces may be nested. -/
def maxNesting : Nat := 79

def isWordChar (c : Char) : Bool :=
  c.isAlphanum || c = '+' || c = '-' || c = '.' || c = '_' || c = ':'

/-- The value that a single word stands for. -/
def ofWord? (word : List Char) : Option Value :=
  if word = ['t', 'r', 'u', 'e'] then some (.boolean true)
  else if word = ['f', 'a', 'l', 's', 'e'] then some (.boolean false)
  else if isDate word || isTime word || isDateWithTime word then
    some (.dateTime (String.ofList word))
  else
    match readInteger? word with
    | some n => some (.integer n)
    | none => (readFloat? word).map .float

/-- A value that is made of words. A date is read on over one blank if a digit stands behind it. -/
def readWords (text : List Char) : Option (Value × List Char) :=
  let word := text.takeWhile isWordChar
  let rest := text.dropWhile isWordChar
  match isDate word, rest with
  | true, ' ' :: c :: more =>
    if c.isDigit then
      let time := (c :: more).takeWhile isWordChar
      if isOffsetTime time then
        some (.dateTime (String.ofList (word ++ ' ' :: time)), (c :: more).dropWhile isWordChar)
      else none
    else (ofWord? word).map (·, rest)
  | _, _ => (ofWord? word).map (·, rest)

/-- The elements of an array and its closing bracket, from behind the opening bracket or a
comma on. -/
def readElements (readElement : List Char → Option (α × List Char)) (text : List Char) :
    Option (List α × List Char) :=
  match skipLayout false text with
  | ']' :: rest => some ([], rest)
  | start => do
    let (element, rest) ← readElement start
    match skipLayout false rest with
    | ']' :: rest => some ([element], rest)
    | ',' :: rest =>
      if _h : rest.length < text.length then
        let (elements, rest) ← readElements readElement rest
        some (element :: elements, rest)
      else none
    | _ => none
termination_by text.length

def readAssignment (read : List Char → Option (α × List Char)) (text : List Char) :
    Option ((Key × α) × List Char) := do
  let (key, rest) ← readKey text
  match rest with
  | '=' :: rest =>
    let (value, rest) ← read (skipBlanks rest)
    some ((key, value), rest)
  | _ => none

def readPairs (read : List Char → Option (α × List Char)) (text : List Char) :
    Option (List (Key × α) × List Char) := do
  let (pair, rest) ← readAssignment read (skipBlanks text)
  match skipBlanks rest with
  | '\x7d' :: rest => some ([pair], rest)
  | ',' :: rest =>
    if _h : rest.length < text.length then
      let (pairs, rest) ← readPairs read rest
      some (pair :: pairs, rest)
    else none
  | _ => none
termination_by text.length

def readInlineTable (read : List Char → Option (Value × List Char)) (text : List Char) :
    Option (Value × List Char) :=
  match skipBlanks text with
  | '\x7d' :: rest => some (.table .inline [], rest)
  | start => do
    let (pairs, rest) ← readPairs read start
    let entries ← Entries.ofAssignments pairs
    some (.table .inline entries, rest)

/-- A value in which arrays and tables in braces are nested no deeper than `depth`. -/
def readValueWithin : Nat → List Char → Option (Value × List Char)
  | 0, text =>
    match text with
    | '"' :: _ => (readString text).map fun (s, rest) => (.string (String.ofList s), rest)
    | '\'' :: _ => (readString text).map fun (s, rest) => (.string (String.ofList s), rest)
    | _ => readWords text
  | depth + 1, text =>
    match text with
    | '[' :: rest =>
      (readElements (readValueWithin depth) rest).map
        fun (elements, rest) => (.array elements, rest)
    | '\x7b' :: rest => readInlineTable (readValueWithin depth) rest
    | _ => readValueWithin 0 text

def readValue (text : List Char) : Option (Value × List Char) :=
  readValueWithin maxNesting text

end HostStack.Toml
