import HostStack.Session.Basic
import Mathlib.Data.Multiset.AddSub

/-!
# The leaves of things

Whoever owns a reference owns a wrapper: a typed reference is as good as the wrapper that would be
made of it. So all that a host, a stack or an object owns comes down to wrappers, the leaves of
the thing. They say more than the objects that the releases work on, namely at which type each
reference was taken and which name it shows, and the objects are what is left of them when both
are forgotten.
-/

namespace HostStack

mutual

/-- The wrappers in an item, at every depth, once for each reference. -/
def Item.leaves : Item → List Interop
  | .interop w => [w]
  | .array items => Item.leavesOfAll items
  | _ => []

def Item.leavesOfAll : List Item → List Interop
  | [] => []
  | item :: items => item.leaves ++ Item.leavesOfAll items

end

def Stack.leaves (s : Stack) : List Interop :=
  Item.leavesOfAll s.toList

def Payload.leaves : Payload → List Interop
  | .reference value => [.ofRef value]
  | .item value => value.leaves
  | .wrapper value => [value]
  | _ => []

def Extracted.leaves : Extracted → List Interop
  | .reference value => [.ofRef value]
  | .item value => value.leaves
  | .wrapper value => [value]

def Reply.leaves : Reply → List Interop
  | .reference (some value) => [.ofRef value]
  | .extracted value => value.leaves
  | .references (some values) => values.map Interop.ofRef
  | _ => []

def Register.leaves : Register → List Interop
  | .item value => value.leaves
  | .wrapper value => [value]
  | .wrappers values => values

/-! ### Objects are the wrappers without types and names -/

mutual

theorem Item.map_object_leaves (item : Item) :
    item.leaves.map Interop.object = item.objects := by
  match item with
  | .boolean _ | .integer _ | .byteArray _ => rw [Item.leaves, Item.objects] <;> simp
  | .interop w => rfl
  | .array items =>
      rw [Item.leaves, Item.objects]
      exact Item.map_object_leavesOfAll items

theorem Item.map_object_leavesOfAll (items : List Item) :
    (Item.leavesOfAll items).map Interop.object = Item.objectsOfAll items := by
  match items with
  | [] => rfl
  | item :: rest =>
      rw [Item.leavesOfAll, Item.objectsOfAll, List.map_append, Item.map_object_leaves item,
        Item.map_object_leavesOfAll rest]

end

theorem Stack.map_object_leaves (s : Stack) : s.leaves.map Interop.object = s.objects :=
  Item.map_object_leavesOfAll _

theorem Payload.map_object_leaves (payload : Payload) :
    payload.leaves.map Interop.object = payload.objects := by
  cases payload with
  | item value => exact value.map_object_leaves
  | record _ _ | text _ | integer _ | unit | reference _ | wrapper _ => rfl

theorem Extracted.map_object_leaves (value : Extracted) :
    value.leaves.map Interop.object = value.objects := by
  cases value with
  | item value => exact value.map_object_leaves
  | reference _ | wrapper _ => rfl

theorem Reply.map_object_leaves (reply : Reply) :
    reply.leaves.map Interop.object = reply.objects := by
  match reply with
  | .extracted value => exact value.map_object_leaves
  | .references (some values) =>
      rw [Reply.leaves, Reply.objects, List.map_map]
      rfl
  | .done | .boolean _ | .integer _ | .bytes _ | .reference none | .reference (some _)
  | .references none => rfl

theorem Register.map_object_leaves (register : Register) :
    register.leaves.map Interop.object = register.objects := by
  cases register with
  | item value => exact value.map_object_leaves
  | wrapper _ | wrappers _ => rfl

/-! ### Where wrappers come from -/

theorem Item.leavesOfAll_eq_flatMap (items : List Item) :
    Item.leavesOfAll items = items.flatMap Item.leaves := by
  induction items with
  | nil => rfl
  | cons item rest ih => rw [Item.leavesOfAll, ih, List.flatMap_cons]

theorem Item.leaves_subset {items : List Item} {item : Item} (hmem : item ∈ items) :
    item.leaves ⊆ Item.leavesOfAll items := by
  rw [Item.leavesOfAll_eq_flatMap]
  exact fun w hw => List.mem_flatMap.2 ⟨item, hmem, hw⟩

/-- Nesting an item in arrays adds no wrapper and loses none. -/
theorem Item.leaves_nest (depth : Nat) (item : Item) :
    (Item.nest depth item).leaves = item.leaves := by
  rw [Item.nest]
  induction depth with
  | zero => rfl
  | succ depth ih =>
      rw [Nat.repeat, Item.leaves, Item.leavesOfAll, Item.leavesOfAll, List.append_nil]
      exact ih

/-- What is kept of a reply in a register is all that the reply owns. -/
theorem Reply.leaves_of_register? {reply : Reply} {register : Register}
    (h : reply.register? = some register) : register.leaves = reply.leaves := by
  match reply with
  | .reference (some _) | .extracted (.reference _) | .extracted (.item _)
  | .extracted (.wrapper _) | .references (some _) =>
      cases h
      rfl

end HostStack
