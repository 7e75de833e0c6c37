import HostStack.Access.Call
import HostStack.Session.Named

/-!
# What a host keeps

A session is a host at work: a machine, and everything on the host's side that owns references
to host objects. Handles own one reference each. Registers own what they hold, an item, a
wrapper or a list of wrappers. A save is a copy of the stack with references of its own. All of
them go by name.

The reference counts of the heap are the sum of what these four owners hold, the stack among
them, and of what live host objects hold.
-/

namespace HostStack

inductive Register where
  | item (value : Item)
  | wrapper (value : Interop)
  | wrappers (values : List Interop)

/-- The objects that a register owns references to, once for each reference. -/
def Register.objects : Register → List ObjectId
  | .item value => value.objects
  | .wrapper value => [value.object]
  | .wrappers values => values.map Interop.object

/-- What a register keeps of a reply. A reference is kept in a wrapper, scalars are not kept. -/
def Reply.register? : Reply → Option Register
  | .reference (some value) => some (.wrapper (.ofRef value))
  | .extracted (.reference value) => some (.wrapper (.ofRef value))
  | .extracted (.item value) => some (.item value)
  | .extracted (.wrapper value) => some (.wrapper value)
  | .references (some values) => some (.wrappers (values.map Interop.ofRef))
  | _ => none

/-- How the accessor of a session is bound. -/
inductive Binding where
  | context
  | stack
  deriving DecidableEq

structure Session where
  machine : Machine
  factory : ItemFactory
  scriptHash : ScriptHash
  binding : Binding
  handles : Named Ref
  registers : Named Register
  saves : Named Stack

inductive SessionError where
  | access (cause : AccessError)
  /-- Nothing goes by this name. -/
  | unknownName (name : String)
  /-- The step does not suit what goes by this name. -/
  | unsuited (name : String)
  deriving DecidableEq

/-- A step of a session. It may fail, and the session outlives the failure. -/
abbrev Run (α : Type) := EStateM SessionError Session α

namespace Session

def start (factory : ItemFactory) (scriptHash : ScriptHash) (config : StackConfig)
    (binding : Binding) : Session :=
  { machine := .ofConfig config, factory, scriptHash, binding
    handles := .empty, registers := .empty, saves := .empty }

def heap (s : Session) : Heap :=
  s.machine.heap

def stack (s : Session) : Stack :=
  s.machine.stack

def context (s : Session) : ScriptContext :=
  ⟨s.scriptHash, s.stack⟩

def accessor (s : Session) : Accessor :=
  match s.binding with
  | .context => .ofContext s.factory s.context
  | .stack => .ofStack s.factory s.scriptHash

/-- The stack, together with its context if there is one, for logs. -/
def debugText (s : Session) : String :=
  match s.binding with
  | .context => s.context.debugText
  | .stack => s.stack.debugText

/-- The name of the handle that holds an object, if one does. -/
def handleOf? (s : Session) (o : ObjectId) : Option String :=
  s.handles.nameOf? fun value => value.object = o

/-- Everything the session owns references to, once for each reference. -/
def owned (s : Session) : List ObjectId :=
  s.handles.values.map Ref.object ++ s.stack.objects
    ++ s.registers.values.flatMap Register.objects ++ s.saves.values.flatMap Stack.objects

end Session

namespace Run

def access (operation : Access α) : Run α := do
  let s ← get
  match operation.run s.machine with
  | .ok a machine =>
    set { s with machine }
    return a
  | .error cause machine =>
    set { s with machine }
    throw (.access cause)

def named (name : String) (things : Named α) : Run α :=
  match things.get? name with
  | some a => return a
  | none => throw (.unknownName name)

def handle (id : String) : Run Ref := do
  named id (← get).handles

def register (name : String) : Run Register := do
  named name (← get).registers

def itemRegister (name : String) : Run Item := do
  match ← register name with
  | .item value => return value
  | _ => throw (.unsuited name)

def wrapperRegister (name : String) : Run Interop := do
  match ← register name with
  | .wrapper value => return value
  | _ => throw (.unsuited name)

def retain (objects : List ObjectId) : Run Unit :=
  access (Access.retain objects)

def release (objects : List ObjectId) : Run Unit :=
  access (Access.release objects)

/-- Puts a handle in the place of the one of its name, which is let go. -/
def putHandle (id : String) (value : Ref) : Run Unit := do
  let old := (← get).handles.get? id
  modify fun s => { s with handles := s.handles.put id value }
  release (old.toList.map Ref.object)

def putRegister (name : String) (value : Register) : Run Unit := do
  let old := (← get).registers.get? name
  modify fun s => { s with registers := s.registers.put name value }
  release (old.toList.flatMap Register.objects)

def putSave (name : String) (value : Stack) : Run Unit := do
  let old := (← get).saves.get? name
  modify fun s => { s with saves := s.saves.put name value }
  release (old.toList.flatMap Stack.objects)

/-- Removes a register without letting go of what it holds. -/
def takeRegister (name : String) : Run Unit :=
  modify fun s => { s with registers := s.registers.erase name }

/-- Keeps a reply in a register if that is wanted and possible, and lets go of it otherwise. -/
def settle (keep : Option String) (reply : Reply) : Run Unit :=
  match keep, reply.register? with
  | some name, some value => putRegister name value
  | _, _ => release reply.objects

end Run

end HostStack
