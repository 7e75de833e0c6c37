import HostStack.Access.Call
import HostStack.Session.Basic

/-!
# Programs on one stack

Host code works on a stack through accessors and directly, in turns. While an accessor is there it
has the stack to itself, so a program is cut into the lifetimes of its accessors and the direct
operations between them. In between the host also makes objects, and takes and gives up references,
which is no business of the stack.
-/

namespace HostStack

def Binding.accessor (binding : Binding) (factory : ItemFactory) (scriptHash : ScriptHash)
    (stack : Stack) : Accessor :=
  match binding with
  | .context => .ofContext factory ⟨scriptHash, stack⟩
  | .stack => .ofStack factory scriptHash

/-- An operation without an accessor. -/
inductive Direct where
  | push (item : Item)
  | pop
  | peek (depth : Nat)
  | clear
  /-- Whatever the host does to its objects. -/
  | host (change : Heap → Heap)

inductive Operation where
  | call (a : Accessor) (call : Call)
  | direct (operation : Direct)

/-- A part of a program. -/
inductive Phase where
  | lifetime (binding : Binding) (factory : ItemFactory) (scriptHash : ScriptHash)
      (calls : List Call)
  | direct (operation : Direct)

/-- Does a direct operation. An item that is looked at is handed out like one that is removed. -/
def Direct.perform : Direct → Access Reply
  | .push item => do
    Access.pushItem item
    return .done
  | .pop => return .extracted (.item (← Access.takeItem))
  | .peek depth => do
    match (← get).stack.peek depth with
    | .ok item => return .extracted (.item item)
    | .error cause => throw (.stack cause)
  | .clear => do
    Access.clear
    return .done
  | .host change => do
    modify fun m => { m with heap := change m.heap }
    return .done

def Operation.perform : Operation → Access Reply
  | .call a wanted => a.perform wanted
  | .direct operation => operation.perform

/-- How an operation ends, and the machine afterwards. -/
def Operation.run (operation : Operation) (m : Machine) : Except AccessError Reply × Machine :=
  match operation.perform.run m with
  | .ok reply m => (.ok reply, m)
  | .error e m => (.error e, m)

/-- Does some operations, one after the other. A failure does not end it. -/
def Operation.runAll : List Operation → Machine → List (Except AccessError Reply) × Machine
  | [], m => ([], m)
  | operation :: operations, m =>
    let (result, m) := operation.run m
    let (results, m) := Operation.runAll operations m
    (result :: results, m)

def Phase.operations (stack : Stack) : Phase → List Operation
  | .lifetime binding factory scriptHash calls =>
    calls.map (.call (binding.accessor factory scriptHash stack))
  | .direct operation => [.direct operation]

/-- The operations of all phases. That they are taken from one stack makes no difference, since an
accessor only has the hash of the context it is bound to. -/
def Phase.operationsOf (stack : Stack) (phases : List Phase) : List Operation :=
  phases.flatMap (Phase.operations stack)

def Phase.runAll : List Phase → Machine → List (Except AccessError Reply) × Machine
  | [], m => ([], m)
  | phase :: phases, m =>
    let (results, m) := Operation.runAll (phase.operations m.stack) m
    let (more, m) := Phase.runAll phases m
    (results ++ more, m)

end HostStack
