import HostStack.Access.Machine

/-!
# Cloning

Wrappers, items, stacks and contexts can be cloned. A clone is built anew from the inside out: an
array gets a list of its own with a clone of each element. Only host objects are shared. The clone
of a wrapper holds the same object, with a reference of its own, and whatever the object holds
itself is not looked at.
-/

namespace HostStack

def Interop.clone (w : Interop) : Access Interop := do
  Access.retain [w.object]
  return ⟨w.value, w.typeName⟩

mutual

def Item.clone : Item → Access Item
  | .boolean value => return .boolean value
  | .integer value => return .integer value
  | .byteArray bytes => return .byteArray bytes
  | .interop w => return .interop (← w.clone)
  | .array items => return .array (← Item.cloneAll items)

def Item.cloneAll : List Item → Access (List Item)
  | [] => return []
  | item :: items => do
    let first ← item.clone
    let rest ← Item.cloneAll items
    return first :: rest

end

def Stack.clone (s : Stack) : Access Stack := do
  return ⟨(← Item.cloneAll s.toList).toArray, s.maxSize⟩

def ScriptContext.clone (context : ScriptContext) : Access ScriptContext := do
  return ⟨context.scriptHash, ← context.stack.clone⟩

end HostStack
