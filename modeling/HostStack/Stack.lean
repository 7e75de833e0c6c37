import HostStack.Config.Basic
import HostStack.Item.Debug
import HostStack.Item.Equality
import HostStack.ScriptHash

/-!
# The evaluation stack

A stack keeps its items from the bottom to the top and has a largest size that never changes. A
push beyond it is refused; so are a pop and a look below the bottom. Depth is counted from the
top, which has depth zero.
-/

namespace HostStack

inductive StackError where
  | overflow (maxSize : Nat)
  /-- There is no item where one is asked for. -/
  | underflow
  deriving DecidableEq

namespace StackError

def message : StackError → String
  | .overflow maxSize => "Stack overflow (max size " ++ toString maxSize ++ ")"
  | .underflow => "Stack underflow"

def debugText : StackError → String
  | .overflow maxSize => "Overflow \x7b max_size: " ++ toString maxSize ++ " \x7d"
  | .underflow => "Underflow"

end StackError

/-- A stack: its items from the bottom to the top, and how many it may hold. -/
structure Stack where
  items : Array Item
  maxSize : Nat

namespace Stack

def ofConfig (config : StackConfig) : Stack :=
  ⟨#[], config.maxStackSize⟩

def size (s : Stack) : Nat :=
  s.items.size

def isEmpty (s : Stack) : Bool :=
  s.size = 0

def push (s : Stack) (item : Item) : Except StackError Stack :=
  if s.maxSize ≤ s.size then .error (.overflow s.maxSize)
  else .ok { s with items := s.items.push item }

def pop (s : Stack) : Except StackError (Item × Stack) :=
  match s.items.back? with
  | some item => .ok (item, { s with items := s.items.pop })
  | none => .error .underflow

def peek (s : Stack) (depth : Nat) : Except StackError Item :=
  if h : depth < s.items.size then .ok (s.items[s.items.size - 1 - depth])
  else .error .underflow

def clear (s : Stack) : Stack :=
  { s with items := #[] }

/-- The items from the bottom to the top. -/
def toList (s : Stack) : List Item :=
  s.items.toList

/-- The objects that the items hold references to, from the bottom to the top, once for each
reference. -/
def objects (s : Stack) : List ObjectId :=
  Item.objectsOfAll s.toList

def sameItems (s t : Stack) : Bool :=
  Item.equalAll s.toList t.toList

def debugText (s : Stack) : String :=
  "VecStack \x7b items: " ++ bracketed (Item.debugTexts s.toList) ++ ", max_size: "
    ++ toString s.maxSize ++ " \x7d"

end Stack

/-- What a running script has: its hash and its stack. -/
structure ScriptContext where
  scriptHash : ScriptHash
  stack : Stack

def ScriptContext.debugText (context : ScriptContext) : String :=
  "ScriptContext \x7b script_hash: " ++ context.scriptHash.debugText ++ ", evaluation_stack: "
    ++ context.stack.debugText ++ " \x7d"

end HostStack
