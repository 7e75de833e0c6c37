import HostStack.Session.Outcome
import HostStack.Session.Step

/-!
# Doing a step

A step either fails or has an outcome. Whatever it hands out is kept in a register if the step
says so, and is let go of at the end of the step otherwise; what a register, a handle or a save
held before is let go of when another takes its place.
-/

namespace HostStack

namespace Run

/-- A result that does not change the session. -/
def ofExcept (result : Except SessionError α) : Run α :=
  match result with
  | .ok a => return a
  | .error e => throw e

/-- The item that an expression describes, with references of its own. -/
def build (item : ItemExpr) : Run Item := do
  let item ← ofExcept (item.eval (← get))
  retain item.objects
  return item

/-- Makes a host object, which replaces the handle of its name. -/
def create (id : String) (type : HostType) (blueprint : Blueprint) : Run Outcome := do
  let payload ← ofExcept (blueprint.eval (← get) id)
  retain payload.objects
  let o ← access (modifyGet fun m => match m.heap.alloc type payload with
    | (o, heap) => (o, { m with heap }))
  putHandle id ⟨o, type⟩
  return .nothing

/-- The objects of some handles of one type. -/
def handlesOf (type : HostType) : List String → Run (List ObjectId)
  | [] => return []
  | id :: ids => do
    let value ← handle id
    if value.type = type then
      let objects ← handlesOf type ids
      return value.object :: objects
    else throw (.unsuited id)

/-- Shows what an operation hands out, and then keeps it or lets go of it. -/
def handOut (keep : Option String) (quiet : Bool) (operation : Access Reply) : Run Outcome := do
  let reply ← access operation
  let outcome := reply.outcome (← get) quiet
  settle keep reply
  return outcome

/-- Makes a save the stack, whose items are let go. -/
def restore (name : String) : Run Outcome := do
  let s ← get
  let save ← named name s.saves
  set { s with machine := { s.machine with stack := save }, saves := s.saves.erase name }
  release s.stack.objects
  return .nothing

def discard (name : String) : Run Outcome := do
  let s ← get
  let save ← named name s.saves
  set { s with saves := s.saves.erase name }
  release save.objects
  return .nothing

def clear : Run Outcome := do
  let s ← get
  if s.binding = .context then throw (.unsuited "stack")
  access Access.clear
  return .nothing

def inspect (name : String) : Run Outcome := do
  let s ← get
  match ← register name with
  | .item value => return .item value (value.interop?.map s.viewObject)
  | .wrapper value => return .wrapper value (s.viewObject value)
  | .wrappers values => return .views (some (values.map s.viewObject))

def equal (a b : String) : Run Outcome := do
  match ← register a, ← register b with
  | .item x, .item y => return .flag (x == y)
  | .wrapper v, .wrapper w => return .wrappersEqual (v == w) (v.sameObject w)
  | _, _ => throw (.unsuited b)

/-- Takes the reference out of a wrapper register, or leaves the wrapper there. -/
def unwrap (name : String) (type : HostType) (keep : Option String) : Run Outcome := do
  let w ← wrapperRegister name
  takeRegister name
  match w.unwrap type with
  | .ok value =>
    let view := (← get).viewRef value
    settle keep (.reference (some value))
    return .converted true view
  | .error back =>
    putRegister name (.wrapper back)
    return .converted false ((← get).viewObject back)

/-- Turns an item register into what is asked for, or leaves the item there. -/
def convert (name : String) (target : Target) (keep : Option String) : Run Outcome := do
  let item ← itemRegister name
  takeRegister name
  match target.accept item with
  | .ok value =>
    let view := value.view (← get)
    settle keep (.extracted value)
    return .converted true view
  | .error back =>
    putRegister name (.item back)
    return .converted false ((← get).viewItem back)

def times (action : Run Outcome) (done : Nat) (last : Option Outcome) : Nat → Run Outcome
  | 0 => return .repeated done last none
  | count + 1 => do
    match action.run (← get) with
    | .ok outcome s =>
      set s
      times action (done + 1) (some outcome) count
    | .error e s =>
      set s
      return .repeated done last (some e)

end Run

def Step.perform : Step → Run Outcome
  | .create id type blueprint => Run.create id type blueprint
  | .releaseHandle id => do
    let value ← Run.handle id
    modify fun s => { s with handles := s.handles.erase id }
    Run.release [value.object]
    return .nothing
  | .count id => do
    let value ← Run.handle id
    return .number ((← get).heap.strong value.object)
  | .push value => do
    let a := (← get).accessor
    Run.handOut none false (a.perform (.push value))
  | .pushInterop id => do
    let value ← Run.handle id
    Run.retain [value.object]
    let a := (← get).accessor
    Run.handOut none false (a.perform (.pushInterop value))
  | .pushInteropArray type ids => do
    let objects ← Run.handlesOf type ids
    let a := (← get).accessor
    Run.handOut none false (a.perform (.pushInteropArray type objects))
  | .peek how keep => do
    let a := (← get).accessor
    Run.handOut keep false (a.perform (.peek how))
  | .pop how keep quiet => do
    let a := (← get).accessor
    Run.handOut keep quiet (a.perform (.pop how))
  | .scriptHash => do
    let s ← get
    return .hash s.accessor.scriptHash (s.accessor.scriptHash = s.scriptHash)
  | .stackPush item => do
    let item ← Run.build item
    Run.access (Access.pushItem item)
    return .nothing
  | .stackPop keep quiet =>
    Run.handOut keep quiet do return .extracted (.item (← Access.takeItem))
  | .stackPeek depth => do
    let s ← get
    match s.stack.peek depth with
    | .ok item => return .view (some (s.viewItem item))
    | .error cause => throw (.access (.stack cause))
  | .stackInfo => do
    let s ← get
    return .info s.stack.size s.stack.isEmpty s.stack.maxSize
  | .dump => do
    let s ← get
    return .views (some (s.stack.toList.map s.viewItem))
  | .debug => return .text (← get).debugText
  | .clear => Run.clear
  | .save name => do
    let stack := (← get).stack
    Run.retain stack.objects
    Run.putSave name stack
    return .nothing
  | .restore name => Run.restore name
  | .discard name => Run.discard name
  | .sameAs name => do
    let s ← get
    let save ← Run.named name s.saves
    return .flag (s.stack.sameItems save)
  | .set name item => do
    let item ← Run.build item
    Run.putRegister name (.item item)
    return .nothing
  | .wrap name id => do
    let value ← Run.handle id
    Run.retain [value.object]
    Run.putRegister name (.wrapper (.ofRef value))
    return .nothing
  | .copy name target => do
    let value ← Run.register name
    Run.retain value.objects
    Run.putRegister target value
    return .nothing
  | .drop name => do
    let value ← Run.register name
    Run.takeRegister name
    Run.release value.objects
    return .nothing
  | .inspect name => Run.inspect name
  | .equal a b => Run.equal a b
  | .is name type => do
    let w ← Run.wrapperRegister name
    return .flag (w.is type)
  | .downcast name type keep => do
    let w ← Run.wrapperRegister name
    Run.handOut keep false do return .reference (← Access.downcast w type)
  | .unwrap name type keep => Run.unwrap name type keep
  | .convert name target keep => Run.convert name target keep
  | .times n step => Run.times step.perform 0 none n

end HostStack
