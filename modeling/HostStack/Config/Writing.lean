import HostStack.Config.Loading

/-!
# Writing limits as a document

Limits are written as a document of two lines, the largest size first. A document holds no
integer above the largest one of 64 bits with sign, so limits beyond it cannot be written.
-/

namespace HostStack.StackConfig

/-- The largest size that a document can hold. -/
def maxWritable : Nat := 9223372036854775807

def writeEntry (key : String) (n : Nat) : String :=
  key ++ " = " ++ toString n ++ "\n"

/-- The document of the limits, unless a limit is too large for one. -/
def toText? (config : StackConfig) : Option String :=
  if config.maxStackSize ≤ maxWritable ∧ config.initialCapacity ≤ maxWritable then
    some (writeEntry sizeKey config.maxStackSize ++ writeEntry capacityKey config.initialCapacity)
  else none

end HostStack.StackConfig
