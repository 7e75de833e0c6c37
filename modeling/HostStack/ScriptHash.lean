import HostStack.Text.Hex

/-!
# Script hashes

A script is identified by twenty bytes. They are stored least significant byte first, and the
text form shows them the other way round, as `0x` and forty lower case digits. The order on
hashes is that of the stored bytes, so the last pair of digits of the text weighs most.

Reading removes one `0x` or `0X`, decodes the digits that remain and only then looks at how many
there are.
-/

namespace HostStack

/-- The identity of a script: twenty bytes, least significant first. -/
structure ScriptHash where
  bytes : List UInt8
  length_bytes : bytes.length = 20
  deriving DecidableEq

inductive ScriptHashError where
  /-- There are `actual` bytes, not twenty. -/
  | invalidLength (actual : Nat)
  | invalidHex (cause : HexError)
  deriving DecidableEq, Repr

namespace ScriptHashError

def message : ScriptHashError → String
  | .invalidLength actual =>
    "Invalid script hash length: expected 20 bytes, got " ++ toString actual
  | .invalidHex cause => "Invalid script hash hex: " ++ cause.message

def debugText : ScriptHashError → String
  | .invalidLength actual => "InvalidLength(" ++ toString actual ++ ")"
  | .invalidHex cause => "InvalidHex(" ++ cause.debugText ++ ")"

def cause? : ScriptHashError → Option HexError
  | .invalidLength _ => none
  | .invalidHex cause => some cause

end ScriptHashError

namespace ScriptHash

def size : Nat := 20

/-- The hash whose bytes are all zero, which stands for an unknown script. -/
def zero : ScriptHash := ⟨List.replicate 20 0, by simp⟩

instance : Inhabited ScriptHash := ⟨zero⟩

/-- The hash stored as the given bytes, if there are twenty. -/
def ofBytes (bytes : List UInt8) : Except ScriptHashError ScriptHash :=
  if h : bytes.length = 20 then .ok ⟨bytes, h⟩ else .error (.invalidLength bytes.length)

/-- The text form: the bytes from the last to the first, in lower case hexadecimal. -/
def toText (hash : ScriptHash) : String :=
  String.ofList ('0' :: 'x' :: Hex.encode hash.bytes.reverse)

def debugText (hash : ScriptHash) : String :=
  "UInt160(" ++ hash.toText ++ ")"

/-- Removes one `0x` or `0X` from the front. -/
def dropMarker : List Char → List Char
  | '0' :: 'x' :: digits => digits
  | '0' :: 'X' :: digits => digits
  | digits => digits

/-- Reads the text form, in either case and with or without its marker. -/
def ofText (text : String) : Except ScriptHashError ScriptHash :=
  match Hex.decode (Hex.utf8 (dropMarker text.toList)) with
  | .error cause => .error (.invalidHex cause)
  | .ok bytes => ofBytes bytes.reverse

def compareBytes : List UInt8 → List UInt8 → Ordering
  | [], [] => .eq
  | [], _ :: _ => .lt
  | _ :: _, [] => .gt
  | a :: as, b :: bs => (compare a b).then (compareBytes as bs)

/-- Hashes are ordered by their stored bytes, the first byte weighing most. -/
instance : Ord ScriptHash where
  compare a b := compareBytes a.bytes b.bytes

/-- The order of lists of bytes as one that might be undefined: the first two bytes that are not
the same settle it, and if there are none, the lengths do. -/
def partialCompareBytes : List UInt8 → List UInt8 → Option Ordering
  | a :: as, b :: bs =>
    match compare a b with
    | .eq => partialCompareBytes as bs
    | order => some order
  | as, bs => some (compare as.length bs.length)

def partialCompare (a b : ScriptHash) : Option Ordering :=
  partialCompareBytes a.bytes b.bytes

instance : LT ScriptHash := ltOfOrd

instance : LE ScriptHash := leOfOrd

/-- The larger of two hashes; of two equal ones, the second. -/
instance : Max ScriptHash where
  max a b := if (compare a b).isGT then a else b

/-- Hashes in ascending order, duplicates kept. -/
def sort (hashes : List ScriptHash) : List ScriptHash :=
  hashes.mergeSort fun a b => (compare a b).isLE

def countDistinct (hashes : List ScriptHash) : Nat :=
  hashes.eraseDups.length

end ScriptHash

end HostStack
