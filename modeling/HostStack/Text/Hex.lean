import HostStack.Text.Quoted

/-!
# Bytes as hexadecimal text

A byte is written as two lower case digits, the high half first. Reading accepts both cases and
works on the bytes of the text, not on its characters, so that a fault can be located exactly.
An odd number of digits is reported before any wrong digit, and of several wrong digits the
first one is reported.
-/

namespace HostStack

inductive HexError where
  /-- The text has an odd number of bytes. -/
  | oddLength
  /-- The byte at `index`, taken as a code point, is no hexadecimal digit. -/
  | invalidCharacter (character : Char) (index : Nat)
  deriving DecidableEq, Repr

namespace HexError

def message : HexError → String
  | .oddLength => "Odd number of digits"
  | .invalidCharacter c index =>
    "Invalid character " ++ Text.quotedChar c ++ " at position " ++ toString index

def debugText : HexError → String
  | .oddLength => "OddLength"
  | .invalidCharacter c index =>
    "InvalidHexCharacter \x7b c: " ++ Text.quotedChar c ++ ", index: " ++ toString index ++ " \x7d"

end HexError

namespace Hex

/-- The digit of a number below sixteen. -/
def digitChar (d : Nat) : Char :=
  if d < 10 then Char.ofNat ('0'.toNat + d) else Char.ofNat ('a'.toNat + (d - 10))

/-- The number that a digit of either case stands for. -/
def digitValue? (b : UInt8) : Option Nat :=
  let n := b.toNat
  if '0'.toNat ≤ n ∧ n ≤ '9'.toNat then some (n - '0'.toNat)
  else if 'a'.toNat ≤ n ∧ n ≤ 'f'.toNat then some (n - 'a'.toNat + 10)
  else if 'A'.toNat ≤ n ∧ n ≤ 'F'.toNat then some (n - 'A'.toNat + 10)
  else none

def encodeByte (b : UInt8) : List Char :=
  [digitChar (b.toNat / 16), digitChar (b.toNat % 16)]

def encode (bytes : List UInt8) : List Char :=
  bytes.flatMap encodeByte

/-- The value of the digit at `index`. -/
def readDigit (index : Nat) (b : UInt8) : Except HexError Nat :=
  match digitValue? b with
  | some d => .ok d
  | none => .error (.invalidCharacter (Char.ofUInt8 b) index)

/-- Reads digits pairwise from left to right; the first digit has the given index. -/
def decodePairs (index : Nat) : List UInt8 → Except HexError (List UInt8)
  | high :: low :: rest => do
    let h ← readDigit index high
    let l ← readDigit (index + 1) low
    let bytes ← decodePairs (index + 2) rest
    return UInt8.ofNat (16 * h + l) :: bytes
  | [] => .ok []
  | [_] => .error .oddLength

def decode (text : List UInt8) : Except HexError (List UInt8) :=
  if text.length % 2 = 1 then .error .oddLength else decodePairs 0 text

def toText (bytes : List UInt8) : String :=
  String.ofList (encode bytes)

def utf8 (text : List Char) : List UInt8 :=
  text.flatMap String.utf8EncodeChar

def ofText (s : String) : Except HexError (List UInt8) :=
  decode (utf8 s.toList)

end Hex

end HostStack
