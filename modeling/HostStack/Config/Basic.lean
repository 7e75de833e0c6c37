/-!
# Limits of a stack

A stack refuses items beyond its largest size. The capacity is room that is set aside at the
start; it changes nothing that can be observed, but a configuration whose capacity makes no
sense is invalid all the same.
-/

namespace HostStack

/-- The limits of a stack. They need not be valid. -/
structure StackConfig where
  maxStackSize : Nat
  initialCapacity : Nat
  deriving DecidableEq

inductive InvalidConfig where
  /-- The stack could never hold an item. -/
  | zeroSize
  /-- More room is asked for than any stack sets aside. -/
  | capacityBeyondLimit (capacity : Nat)
  /-- More room is asked for than the stack may ever use. -/
  | capacityBeyondSize (capacity size : Nat)
  deriving DecidableEq

namespace StackConfig

def defaultMaxStackSize : Nat := 2048

def defaultInitialCapacity : Nat := 64

/-- The largest capacity that a stack sets aside. -/
def maxInitialCapacity : Nat := 64 * 1024

instance : Inhabited StackConfig := ⟨⟨defaultMaxStackSize, defaultInitialCapacity⟩⟩

/-- The limits with a given largest size, and no more capacity than that. -/
def withMaxStackSize (size : Nat) : StackConfig :=
  ⟨size, min defaultInitialCapacity size⟩

/-- The first fault of the limits, if they have one. -/
def fault? (config : StackConfig) : Option InvalidConfig :=
  if config.maxStackSize = 0 then some .zeroSize
  else if maxInitialCapacity < config.initialCapacity then
    some (.capacityBeyondLimit config.initialCapacity)
  else if config.maxStackSize < config.initialCapacity then
    some (.capacityBeyondSize config.initialCapacity config.maxStackSize)
  else none

def debugText (config : StackConfig) : String :=
  "StackConfig \x7b max_stack_size: " ++ toString config.maxStackSize
    ++ ", initial_capacity: " ++ toString config.initialCapacity ++ " \x7d"

end StackConfig

def InvalidConfig.message : InvalidConfig → String
  | .zeroSize => "Invalid config: max_stack_size must be greater than zero"
  | .capacityBeyondLimit capacity =>
    "Invalid config: initial_capacity (" ++ toString capacity
      ++ ") exceeds the preallocation limit (" ++ toString StackConfig.maxInitialCapacity ++ ")"
  | .capacityBeyondSize capacity size =>
    "Invalid config: initial_capacity (" ++ toString capacity
      ++ ") exceeds max_stack_size (" ++ toString size ++ ")"

end HostStack
