/-!
# Blanks, line ends and comments

Blanks are the space and the tab. A line ends with a line feed, which a carriage return may
precede; a carriage return on its own ends nothing. A comment runs from `#` to the end of its
line and holds no control character but the tab.
-/

namespace HostStack.Toml

/-- A space or a tab. -/
def isBlank (c : Char) : Bool :=
  c = ' ' || c = '\t'

/-- A character that may stand in a comment and, quotes and backslashes apart, in a string. -/
def isTextChar (c : Char) : Bool :=
  c = '\t' || (0x20 ≤ c.toNat && c.toNat ≠ 0x7f)

def skipBlanks (text : List Char) : List Char :=
  text.dropWhile isBlank

/-- What follows the line end at the front, if there is one. -/
def lineEnd? : List Char → Option (List Char)
  | '\n' :: rest => some rest
  | '\r' :: '\n' :: rest => some rest
  | _ => none

/-- What follows the comment at the front; without a comment, everything. -/
def skipComment : List Char → List Char
  | '#' :: rest => rest.dropWhile isTextChar
  | text => text

/-- What follows the rest of a line that holds blanks and a comment at most. The text may end
instead of the line. -/
def finishLine (text : List Char) : Option (List Char) :=
  match skipComment (skipBlanks text) with
  | [] => some []
  | rest => lineEnd? rest

/-- What follows the blanks, line ends and comments at the front. With `inComment` the text
starts inside a comment. A comment that breaks off at a character it may not hold is left
there, where nothing else can begin either. -/
def skipLayout (inComment : Bool) : List Char → List Char
  | '\n' :: rest => skipLayout false rest
  | '\r' :: '\n' :: rest => skipLayout false rest
  | c :: rest =>
    if inComment then
      if isTextChar c then skipLayout true rest else c :: rest
    else if c = '#' then skipLayout true rest
    else if isBlank c then skipLayout false rest
    else c :: rest
  | [] => []

end HostStack.Toml
