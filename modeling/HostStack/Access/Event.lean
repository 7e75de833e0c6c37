import HostStack.Item.Basic

/-!
# What the log shows

Every operation that changes the stack leaves events in a log, in the order in which things
happen. They tell kinds, types, lengths and limits, and never what an item holds. Looking at the
stack leaves none.
-/

namespace HostStack

inductive Event where
  /-- A native value has become an item and is about to be pushed. -/
  | push (kind : ItemKind)
  /-- A host object of the named type is about to be wrapped and pushed. -/
  | pushInterop (typeName : String)
  /-- So many host objects of the named type are about to be wrapped and pushed as an array. -/
  | pushInteropArray (typeName : String) (length : Nat)
  | pop (kind : ItemKind)
  | popTypeMismatch (expected : String) (got : ItemKind)
  /-- So many children of a removed array do not have the named type. -/
  | popArraySkippedChildren (typeName : String) (dropped : Nat)
  | stackOverflow (maxSize : Nat)
  | popOnEmptyStack
  deriving DecidableEq

inductive EventLevel where
  | trace
  | debug
  deriving DecidableEq

/-- Which layer an event comes from. -/
inductive EventSource where
  | accessor
  | stack
  deriving DecidableEq

namespace Event

/-- Regular work is traced; refusals, mismatches and skipped children are of interest when
looking for a fault. -/
def level : Event → EventLevel
  | .push _ | .pushInterop _ | .pushInteropArray _ _ | .pop _ => .trace
  | _ => .debug

/-- The stack reports its own refusals. -/
def source : Event → EventSource
  | .stackOverflow _ | .popOnEmptyStack => .stack
  | _ => .accessor

def message : Event → String
  | .push _ => "push"
  | .pushInterop _ => "push interop"
  | .pushInteropArray _ _ => "push interop array"
  | .pop _ => "pop"
  | .popTypeMismatch _ _ => "pop type mismatch"
  | .popArraySkippedChildren _ _ => "pop array skipped children"
  | .stackOverflow _ => "stack overflow"
  | .popOnEmptyStack => "pop on empty stack"

end Event

end HostStack
