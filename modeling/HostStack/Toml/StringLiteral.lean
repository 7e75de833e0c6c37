import HostStack.Toml.Layout

/-!
# Strings

There are four forms. Between double quotes a backslash starts an escape; between single quotes
every character stands for itself. Tripled delimiters let the string run over several lines: a
line end directly after the opening one does not count, line ends are read as line feeds, and in
the escaping form a backslash at the end of a line joins it to the next visible character. A
string over several lines may hold one or two of its quotes in a row, also just before the
closing three.

Each reader below starts behind the opening delimiter and returns what the string stands for
together with what follows the closing one.
-/

namespace HostStack.Toml

/-- Puts a character in front of what a reader found. -/
def prepend (c : Char) : Option (List Char × List Char) → Option (List Char × List Char) :=
  Option.map fun (text, rest) => (c :: text, rest)

def hexDigit? (c : Char) : Option Nat :=
  if c.isDigit then some (c.toNat - '0'.toNat)
  else if 'a' ≤ c ∧ c ≤ 'f' then some (c.toNat - 'a'.toNat + 10)
  else if 'A' ≤ c ∧ c ≤ 'F' then some (c.toNat - 'A'.toNat + 10)
  else none

/-- The character with the number that the digits spell, unless it is no character. -/
def numberedChar? (digits : List Char) : Option Char := do
  let values ← digits.mapM hexDigit?
  let n := values.foldl (fun n d => 16 * n + d) 0
  if n.isValidChar then some (Char.ofNat n) else none

def shortEscape? : Char → Option Char
  | 'b' => some '\x08'
  | 'f' => some '\x0c'
  | 'n' => some '\n'
  | 'r' => some '\r'
  | 't' => some '\t'
  | '"' => some '"'
  | '\\' => some '\\'
  | _ => none

def readEscape : List Char → Option (Char × List Char)
  | 'u' :: a :: b :: c :: d :: rest => (numberedChar? [a, b, c, d]).map (·, rest)
  | 'U' :: a :: b :: c :: d :: e :: f :: g :: h :: rest =>
    (numberedChar? [a, b, c, d, e, f, g, h]).map (·, rest)
  | c :: rest => (shortEscape? c).map (·, rest)
  | [] => none

theorem length_lt_of_readEscape {text rest : List Char} {c : Char}
    (h : readEscape text = some (c, rest)) : rest.length < text.length := by
  unfold readEscape at h
  split at h <;> simp [Option.map_eq_some_iff] at h
  all_goals
    obtain ⟨_, _, _, rfl⟩ := h
    simp only [List.length_cons]
    omega

def readBasic : List Char → Option (List Char × List Char)
  | '"' :: rest => some ([], rest)
  | '\\' :: text =>
    match _h : readEscape text with
    | some (c, rest) => prepend c (readBasic rest)
    | none => none
  | c :: rest => if isTextChar c then prepend c (readBasic rest) else none
  | [] => none
termination_by text => text.length
decreasing_by
  · have := length_lt_of_readEscape _h
    simp only [List.length_cons]
    omega
  · simp

def readLiteral : List Char → Option (List Char × List Char)
  | '\'' :: rest => some ([], rest)
  | c :: rest => if isTextChar c then prepend c (readLiteral rest) else none
  | [] => none

/-- The closing delimiter of a string over several lines: three quotes, and up to two before
them that belong to the string. -/
def closing? (quote : Char) (text : List Char) : Option (List Char × List Char) :=
  let quotes := (text.takeWhile (· = quote)).length
  if quotes < 3 then none
  else
    let extra := min (quotes - 3) 2
    some (List.replicate extra quote, text.drop (extra + 3))

/-- A string over several lines between tripled single quotes. -/
def readMultilineLiteral (text : List Char) : Option (List Char × List Char) :=
  match closing? '\'' text with
  | some found => some found
  | none =>
    match text with
    | '\r' :: '\n' :: rest => prepend '\n' (readMultilineLiteral rest)
    | '\n' :: rest => prepend '\n' (readMultilineLiteral rest)
    | c :: rest => if isTextChar c then prepend c (readMultilineLiteral rest) else none
    | [] => none

/-- Whether a backslash in front of the text joins its line to what follows. -/
def joinsLines (text : List Char) : Bool :=
  (lineEnd? (skipBlanks text)).isSome

/-- What follows the blanks and line ends at the front. -/
def skipBlankLines : List Char → List Char
  | '\n' :: rest => skipBlankLines rest
  | '\r' :: '\n' :: rest => skipBlankLines rest
  | c :: rest => if isBlank c then skipBlankLines rest else c :: rest
  | [] => []

theorem length_skipBlankLines_le (text : List Char) :
    (skipBlankLines text).length ≤ text.length := by
  fun_induction skipBlankLines text with
  | case1 | case2 | case3 =>
    simp only [List.length_cons]
    omega
  | case4 | case5 => exact Nat.le_refl _

/-- A string over several lines between tripled double quotes. -/
def readMultilineBasic (text : List Char) : Option (List Char × List Char) :=
  match closing? '"' text with
  | some found => some found
  | none =>
    match text with
    | '\r' :: '\n' :: rest => prepend '\n' (readMultilineBasic rest)
    | '\n' :: rest => prepend '\n' (readMultilineBasic rest)
    | '\\' :: text =>
      if joinsLines text then readMultilineBasic (skipBlankLines text)
      else
        match _h : readEscape text with
        | some (c, rest) => prepend c (readMultilineBasic rest)
        | none => none
    | c :: rest => if isTextChar c then prepend c (readMultilineBasic rest) else none
    | [] => none
termination_by text.length
decreasing_by
  · simp only [List.length_cons]
    omega
  · simp
  · have := length_skipBlankLines_le text
    simp only [List.length_cons]
    omega
  · have := length_lt_of_readEscape _h
    simp only [List.length_cons]
    omega
  · simp

/-- What follows a line end directly behind an opening delimiter. -/
def skipFirstLineEnd (text : List Char) : List Char :=
  (lineEnd? text).getD text

/-- A string in one of the two forms that stay on a line, from its opening quote on. -/
def readQuoted : List Char → Option (List Char × List Char)
  | '"' :: rest => readBasic rest
  | '\'' :: rest => readLiteral rest
  | _ => none

/-- A string in any form, from its opening quote on. -/
def readString : List Char → Option (List Char × List Char)
  | '"' :: '"' :: '"' :: rest => readMultilineBasic (skipFirstLineEnd rest)
  | '\'' :: '\'' :: '\'' :: rest => readMultilineLiteral (skipFirstLineEnd rest)
  | text => readQuoted text

end HostStack.Toml
