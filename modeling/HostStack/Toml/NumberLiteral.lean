import HostStack.Toml.StringLiteral

/-!
# Numbers

An integer is decimal with an optional sign, or hexadecimal, octal or binary without one, and
fits 64 bits with sign. A float has a fraction, an exponent or both, or is one of the words
`inf` and `nan`. Underscores may stand between two digits and mean nothing. No decimal integer
and no integer part starts with a zero that could be left out.

The readers here take the whole literal: what is not used up makes it no number.
-/

namespace HostStack.Toml

/-- The digits of a run in which single underscores may stand between digits. -/
def ungroup? (isDigit : Char → Bool) : List Char → Option (List Char)
  | [c] => if isDigit c then some [c] else none
  | c :: '_' :: rest => if isDigit c then (ungroup? isDigit rest).map (c :: ·) else none
  | c :: rest => if isDigit c then (ungroup? isDigit rest).map (c :: ·) else none
  | [] => none

/-- The number that digits spell in a base. -/
def numberInBase (base : Nat) (digits : List Char) : Nat :=
  digits.foldl (fun n c => base * n + (hexDigit? c).getD 0) 0

/-- A natural number in decimal, without a zero that could be left out. -/
def readDecimal? (text : List Char) : Option Nat := do
  let digits ← ungroup? Char.isDigit text
  match digits with
  | '0' :: _ :: _ => none
  | _ => some (numberInBase 10 digits)

/-- A natural number in another base, all of whose digits pass the test. -/
def readInBase? (base : Nat) (isDigit : Char → Bool) (text : List Char) : Option Nat :=
  (ungroup? isDigit text).map (numberInBase base)

def readAnyInteger? : List Char → Option Int
  | '0' :: 'x' :: digits => (readInBase? 16 (fun c => (hexDigit? c).isSome) digits).map Int.ofNat
  | '0' :: 'o' :: digits => (readInBase? 8 (fun c => '0' ≤ c ∧ c ≤ '7') digits).map Int.ofNat
  | '0' :: 'b' :: digits => (readInBase? 2 (fun c => c = '0' ∨ c = '1') digits).map Int.ofNat
  | '-' :: digits => (readDecimal? digits).map fun n => -Int.ofNat n
  | '+' :: digits => (readDecimal? digits).map Int.ofNat
  | digits => (readDecimal? digits).map Int.ofNat

def inInt64 (n : Int) : Bool :=
  -9223372036854775808 ≤ n && n ≤ 9223372036854775807

def readInteger? (text : List Char) : Option Int :=
  (readAnyInteger? text).filter inInt64

/-- The float nearest to `mantissa * 10 ^ exponent`. The powers of ten are not computed where
the result is zero or infinite anyway. -/
def nearestFloat (mantissa : Nat) (exponent : Int) : Float :=
  let size := (Nat.toDigits 10 mantissa).length + exponent
  if mantissa = 0 ∨ size < -400 then 0
  else if 400 < size then 1 / 0
  else if exponent < 0 then Float.ofScientific mantissa true exponent.natAbs
  else Float.ofScientific mantissa false exponent.natAbs

def isExponentMark (c : Char) : Bool :=
  c = 'e' || c = 'E'

/-- The exponent that a literal ends with, if it is well formed; none written is zero. -/
def readExponent? : List Char → Option Int
  | [] => some 0
  | mark :: rest =>
    if isExponentMark mark then
      match rest with
      | '-' :: digits => (readInBase? 10 Char.isDigit digits).map fun n => -Int.ofNat n
      | '+' :: digits => (readInBase? 10 Char.isDigit digits).map Int.ofNat
      | digits => (readInBase? 10 Char.isDigit digits).map Int.ofNat
    else none

/-- A float without a sign, written in digits. -/
def readDigitFloat? (text : List Char) : Option Float := do
  let mantissa := text.takeWhile fun c => !isExponentMark c
  let mark := text.dropWhile fun c => !isExponentMark c
  let exponent ← readExponent? mark
  let whole ← readDecimal? (mantissa.takeWhile (· ≠ '.'))
  match mantissa.dropWhile (· ≠ '.') with
  | [] => if mark.isEmpty then none else some (nearestFloat whole exponent)
  | _ :: fraction => do
    let digits ← ungroup? Char.isDigit fraction
    some (nearestFloat (whole * Nat.pow 10 digits.length + numberInBase 10 digits)
      (exponent - digits.length))

/-- A float without a sign. -/
def readUnsignedFloat? (text : List Char) : Option Float :=
  if text = ['i', 'n', 'f'] then some (1 / 0)
  else if text = ['n', 'a', 'n'] then some (0 / 0)
  else readDigitFloat? text

/-- A float. Digits that exceed every finite float are refused, unless a minus stands before
them: then they are read as minus infinity. -/
def readFloat? : List Char → Option Float
  | '-' :: rest => (readUnsignedFloat? rest).map fun x => -x
  | text =>
    let unsigned := match text with
      | '+' :: rest => rest
      | _ => text
    (readUnsignedFloat? unsigned).filter fun x => x.isFinite || !(unsigned.any Char.isDigit)

end HostStack.Toml
