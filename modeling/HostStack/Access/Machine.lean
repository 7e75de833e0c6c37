import HostStack.Access.Event
import HostStack.Factory
import HostStack.Heap
import HostStack.Stack

/-!
# The machine under the accessor

Operations run on a machine: the heap of host objects, one stack, the event log and the log of
factory calls. An operation that fails leaves the machine as it is at that point; in particular
what it has released stays released.

This module has the steps that the operations are made of. Those that touch items keep the
counts in order: who copies a reference retains its object, and who lets go of an item releases
every object in it.
-/

namespace HostStack

/-- Why an operation on the stack fails. -/
inductive AccessError where
  /-- A removed item is not what was asked for. It has been released. -/
  | typeMismatch (expected : String) (got : ItemKind)
  | stack (cause : StackError)
  deriving DecidableEq

namespace AccessError

def message : AccessError → String
  | .typeMismatch expected got => "Type mismatch: expected " ++ expected ++ ", got " ++ got.name
  | .stack cause => cause.message

def debugText : AccessError → String
  | .typeMismatch expected got =>
    "TypeMismatch \x7b expected: " ++ Text.quotedString expected ++ ", got: " ++ got.name ++ " \x7d"
  | .stack cause => "Stack(" ++ cause.debugText ++ ")"

end AccessError

/-- The host objects, the stack, and the logs of what was done. -/
structure Machine where
  heap : Heap
  stack : Stack
  events : List Event
  built : List FactoryMethod

def Machine.ofConfig (config : StackConfig) : Machine :=
  ⟨.empty, .ofConfig config, [], []⟩

/-- An operation on a machine. It may fail, and the machine outlives the failure. -/
abbrev Access (α : Type) := EStateM AccessError Machine α

namespace Access

def emit (event : Event) : Access Unit :=
  modify fun m => { m with events := m.events ++ [event] }

def retain (objects : List ObjectId) : Access Unit :=
  modify fun m => { m with heap := m.heap.retain objects }

def release (objects : List ObjectId) : Access Unit :=
  modify fun m => { m with heap := m.heap.release objects }

/-- Builds an item and logs the calls that this takes. -/
def build (item : Build Item) : Access Item :=
  modifyGet fun m => match item.run m.built with
    | (item, built) => (item, { m with built })

/-- Puts an item on the stack. A refused item is released. -/
def pushItem (item : Item) : Access Unit := do
  match (← get).stack.push item with
  | .ok stack => modify fun m => { m with stack }
  | .error cause =>
    emit (.stackOverflow (← get).stack.maxSize)
    release item.objects
    throw (.stack cause)

def takeItem : Access Item := do
  match (← get).stack.pop with
  | .ok (item, stack) =>
    modify fun m => { m with stack }
    return item
  | .error cause =>
    emit .popOnEmptyStack
    throw (.stack cause)

/-- Takes all items off the stack and lets go of them. -/
def clear : Access Unit := do
  let stack := (← get).stack
  modify fun m => { m with stack := stack.clear }
  release stack.objects

/-- A new reference to the object of a wrapper, if it was wrapped at the given type. The
reference is taken before the type is looked at, and given up again if it does not fit. -/
def downcast (w : Interop) (type : HostType) : Access (Option Ref) := do
  retain [w.object]
  match w.unwrap type with
  | .ok value => return some value
  | .error back =>
    release [back.object]
    return none

end Access

end HostStack
