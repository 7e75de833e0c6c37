import HostStack.Access.Machine

/-!
# Typed access to the stack

An accessor is what host code works with: a factory that builds items, and the hash of the
script whose stack it is bound to. It pushes native values and host objects, looks at items, and
removes items as values of a wanted type.

* Looking never changes the stack, and finds nothing where the item is of another kind.
* A removed item is always gone, whatever it was. Scalars of another kind and arrays of
  something else count as absent; only asking for one particular type is an error when the item
  does not fit.
* What is removed and not handed out is released before the operation ends.
-/

namespace HostStack

/-- A factory, and the script that the accessor acts for. -/
structure Accessor where
  factory : ItemFactory
  scriptHash : ScriptHash

namespace Accessor

def ofContext (factory : ItemFactory) (context : ScriptContext) : Accessor :=
  ⟨factory, context.scriptHash⟩

def ofStack (factory : ItemFactory) (scriptHash : ScriptHash) : Accessor :=
  ⟨factory, scriptHash⟩

/-! ### Pushing -/

def push (a : Accessor) (value : Native) : Access Unit := do
  let item ← Access.build (value.toItem a.factory)
  Access.emit (.push item.kind)
  Access.pushItem item

/-- Pushes a host object, whose reference the caller gives away. -/
def pushInterop (a : Accessor) (value : Ref) : Access Unit := do
  Access.emit (.pushInterop value.type.name)
  let item ← Access.build (a.factory.interop (.ofRef value))
  Access.pushItem item

/-- Wraps host objects of one type, with references of their own. -/
def wrapAll (a : Accessor) (type : HostType) : List ObjectId → Access (List Item)
  | [] => return []
  | o :: os => do
    Access.retain [o]
    let item ← Access.build (a.factory.interop (.ofRef ⟨o, type⟩))
    let items ← wrapAll a type os
    return item :: items

/-- Pushes host objects of one type as an array. The caller keeps its references. -/
def pushInteropArray (a : Accessor) (type : HostType) (values : List ObjectId) : Access Unit := do
  Access.emit (.pushInteropArray type.name values.length)
  let children ← a.wrapAll type values
  let item ← Access.build (a.factory.array children)
  Access.pushItem item

end Accessor

namespace Access

/-! ### Looking -/

def peekItem (depth : Nat) : Access (Option Item) := do
  match (← get).stack.peek depth with
  | .ok item => return some item
  | .error _ => return none

def peekByteArray (depth : Nat) : Access (Option (List UInt8)) := do
  return (← peekItem depth).bind Item.bytes?

def peekInteger (depth : Nat) : Access (Option Int) := do
  return (← peekItem depth).bind Item.integer?

def peekBoolean (depth : Nat) : Access (Option Bool) := do
  return (← peekItem depth).bind Item.boolean?

/-- A new reference to the host object of the given type at a depth. -/
def peek (type : HostType) (depth : Nat) : Access (Option Ref) := do
  match (← peekItem depth).bind Item.interop? with
  | some w => downcast w type
  | none => return none

def peekByteArrayTop : Access (Option (List UInt8)) :=
  peekByteArray 0

def peekTop (type : HostType) : Access (Option Ref) :=
  peek type 0

/-! ### Removing -/

def popItem : Access Item := do
  let item ← takeItem
  emit (.pop item.kind)
  return item

/-- Removes the top item; its integer, if it is one. -/
def popInteger : Access (Option Int) := do
  match ← popItem with
  | .integer value => return some value
  | other =>
    release other.objects
    return none

def popByteArray : Access (Option (List UInt8)) := do
  match ← popItem with
  | .byteArray bytes => return some bytes
  | other =>
    release other.objects
    return none

def popBoolean : Access (Option Bool) := do
  match ← popItem with
  | .boolean value => return some value
  | other =>
    release other.objects
    return none

def pop (target : Target) : Access Extracted := do
  match target.accept (← popItem) with
  | .ok value => return value
  | .error rejected =>
    let got := rejected.kind
    release rejected.objects
    emit (.popTypeMismatch target.name got)
    throw (.typeMismatch target.name got)

/-- The references of the given type among some items, in order. All other items are released. -/
def takeReferences (type : HostType) : List Item → Access (List Ref)
  | [] => return []
  | item :: items => do
    match item.takeReference type with
    | .ok value =>
      let values ← takeReferences type items
      return value :: values
    | .error rejected =>
      release rejected.objects
      takeReferences type items

/-- Removes the top item; if it is an array, the references of the given type among its
children. -/
def popArray (type : HostType) : Access (Option (List Ref)) := do
  match ← popItem with
  | .array children =>
    let values ← takeReferences type children
    if values.length < children.length then
      emit (.popArraySkippedChildren type.name (children.length - values.length))
    return some values
  | other =>
    release other.objects
    return none

end Access

end HostStack
