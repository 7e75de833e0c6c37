import HostStack.Text.Unprintable

/-!
# Quoted text

Diagnostics show a character between single quotes and a string between double quotes, in a form
that can be read off the page: the delimiter and the backslash are escaped, five control
characters have letters, and every other unprintable character is written as its number in
hexadecimal. The quote that does not delimit stands for itself.
-/

namespace HostStack.Text

/-- The lower case hexadecimal digits of a number, without leading zeros. -/
def hexNumber (n : Nat) : List Char :=
  Nat.toDigits 16 n

/-- The number of a character, as it is written inside quotes. -/
def numberedEscape (c : Char) : List Char :=
  '\\' :: 'u' :: '\x7b' :: hexNumber c.toNat ++ ['\x7d']

/-- How one character is written between two delimiters. -/
def escapeChar (delimiter c : Char) : List Char :=
  if c = delimiter ∨ c = '\\' then ['\\', c]
  else if c = '\n' then ['\\', 'n']
  else if c = '\t' then ['\\', 't']
  else if c = '\r' then ['\\', 'r']
  else if c = '\x00' then ['\\', '0']
  else if isUnprintable c then numberedEscape c
  else [c]

/-- Text between a pair of delimiters, each character escaped as needed. -/
def quoteWith (delimiter : Char) (text : List Char) : String :=
  String.ofList (delimiter :: text.flatMap (escapeChar delimiter) ++ [delimiter])

/-- A character between single quotes. -/
def quotedChar (c : Char) : String :=
  quoteWith '\'' [c]

/-- A string between double quotes. -/
def quotedString (s : String) : String :=
  quoteWith '"' s.toList

end HostStack.Text
