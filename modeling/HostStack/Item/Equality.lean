import HostStack.Item.Basic

/-!
# Equality of items

Items are equal when they have the same kind and equal payloads. Host objects are compared by
identity and never by what they hold, and the type name of a wrapper does not enter.
-/

namespace HostStack

/-- Wrappers are equal when they share their object. -/
instance : BEq Interop where
  beq := Interop.sameObject

namespace Item

mutual

def equal : Item → Item → Bool
  | .boolean a, .boolean b => a == b
  | .integer a, .integer b => a == b
  | .byteArray a, .byteArray b => a == b
  | .interop a, .interop b => a == b
  | .array a, .array b => equalAll a b
  | _, _ => false

def equalAll : List Item → List Item → Bool
  | [], [] => true
  | a :: as, b :: bs => equal a b && equalAll as bs
  | _, _ => false

end

instance : BEq Item where
  beq := equal

end Item

end HostStack
