/-!
# Native values

A host pushes truth values, integers of many widths and byte buffers in several forms. On the
stack the widths and forms are gone: an integer is the number that it stands for, a buffer the
sequence of its bytes.
-/

namespace HostStack

inductive IntegerType where
  /-- Two's complement of so many bits. -/
  | signed (bits : Nat)
  /-- Natural numbers of so many bits. -/
  | unsigned (bits : Nat)
  /-- Integers of any size. -/
  | unbounded
  deriving DecidableEq

/-- The integers that a type can represent. -/
def IntegerType.Contains : IntegerType → Int → Prop
  | .signed bits, n => -Int.ofNat (Nat.pow 2 (bits - 1)) ≤ n ∧ n < Int.ofNat (Nat.pow 2 (bits - 1))
  | .unsigned bits, n => 0 ≤ n ∧ n < Int.ofNat (Nat.pow 2 bits)
  | .unbounded, _ => True

instance (type : IntegerType) (n : Int) : Decidable (type.Contains n) :=
  match type with
  | .signed _ => inferInstanceAs (Decidable (_ ∧ _))
  | .unsigned _ => inferInstanceAs (Decidable (_ ∧ _))
  | .unbounded => inferInstanceAs (Decidable True)

/-- The forms in which a byte buffer is handed over. -/
inductive BufferForm where
  /-- A buffer that the host gives away. -/
  | owned
  /-- A view of a buffer that the host keeps. -/
  | slice
  /-- A buffer whose length is part of its type. -/
  | array
  deriving DecidableEq

inductive Native where
  | boolean (value : Bool)
  | integer (type : IntegerType) (value : Int) (contains : type.Contains value)
  | bytes (form : BufferForm) (data : List UInt8)

/-- An integer as a value of a type, if the type can represent it. -/
def Native.ofInt? (type : IntegerType) (value : Int) : Option Native :=
  if h : type.Contains value then some (.integer type value h) else none

end HostStack
