import HostStack.Proofs.Heap.Balance
import HostStack.Session.Basic

/-!
# Counting references where they are

Here the references to one object are counted by recursion over the things that hold them: items at
every depth, payloads, registers. The counts owe nothing to the lists of objects that the operations
retain and release, so a fact stated with them says something about those lists as well. In a
balanced heap, the objects whose references matter are the ones that were made and are not freed.
-/

namespace HostStack

mutual

/-- How many wrappers in an item, at every depth, hold an object. -/
def Item.uses (o : ObjectId) : Item → Nat
  | .interop w => if w.value.object = o then 1 else 0
  | .array items => Item.usesInAll o items
  | _ => 0

def Item.usesInAll (o : ObjectId) : List Item → Nat
  | [] => 0
  | item :: items => item.uses o + Item.usesInAll o items

end

def Stack.uses (o : ObjectId) (s : Stack) : Nat :=
  Item.usesInAll o s.toList

def Register.uses (o : ObjectId) : Register → Nat
  | .item value => value.uses o
  | .wrapper w => if w.value.object = o then 1 else 0
  | .wrappers ws => ws.countP fun w => w.value.object = o

def Payload.uses (o : ObjectId) : Payload → Nat
  | .reference value => if value.object = o then 1 else 0
  | .item value => value.uses o
  | .wrapper w => if w.value.object = o then 1 else 0
  | .record _ _ | .text _ | .integer _ | .unit => 0

def Extracted.uses (o : ObjectId) : Extracted → Nat
  | .reference value => if value.object = o then 1 else 0
  | .item value => value.uses o
  | .wrapper w => if w.value.object = o then 1 else 0

def Reply.uses (o : ObjectId) : Reply → Nat
  | .reference (some value) => if value.object = o then 1 else 0
  | .extracted value => value.uses o
  | .references (some values) => values.countP fun value => value.object = o
  | _ => 0

/-- The objects that were made and are not freed. -/
def Heap.live (h : Heap) : List ObjectId :=
  ((List.range h.cells.size).map ObjectId.mk).filter fun o => o ∉ h.freed

/-- How often what an object was made with holds another one. -/
def Heap.usesIn (h : Heap) (p o : ObjectId) : Nat :=
  ((h.cell? p).map fun cell => cell.payload.uses o).getD 0

/-! ### What is retained and released is what is counted -/

theorem count_singleton_eq (x o : ObjectId) : [x].count o = if x = o then 1 else 0 := by
  rw [List.count_singleton]
  by_cases h : x = o
  · rw [if_pos h, h, beq_self_eq_true, if_pos rfl]
  · rw [if_neg h, beq_false_of_ne h, if_neg Bool.false_ne_true]

mutual

theorem Item.uses_eq (o : ObjectId) (item : Item) : item.uses o = item.objects.count o := by
  match item with
  | .boolean _ | .integer _ | .byteArray _ => rw [Item.uses, Item.objects] <;> simp
  | .interop w =>
      rw [Item.uses, Item.objects, count_singleton_eq]
      rfl
  | .array items =>
      rw [Item.uses, Item.objects]
      exact Item.usesInAll_eq o items

theorem Item.usesInAll_eq (o : ObjectId) (items : List Item) :
    Item.usesInAll o items = (Item.objectsOfAll items).count o := by
  match items with
  | [] => rfl
  | item :: rest =>
      rw [Item.usesInAll, Item.objectsOfAll, List.count_append, Item.uses_eq o item,
        Item.usesInAll_eq o rest]

end

theorem Stack.uses_eq (o : ObjectId) (s : Stack) : s.uses o = s.objects.count o :=
  Item.usesInAll_eq o _

theorem Register.uses_eq (o : ObjectId) (register : Register) :
    register.uses o = register.objects.count o := by
  cases register with
  | item value => exact value.uses_eq o
  | wrapper w => exact (count_singleton_eq w.object o).symm
  | wrappers ws =>
      rw [Register.uses, Register.objects, List.count, List.countP_map]
      refine List.countP_congr ?_
      intro w _
      simp [Interop.object]

theorem Stack.uses_pos_iff {o : ObjectId} {s : Stack} : 0 < s.uses o ↔ o ∈ s.objects := by
  rw [Stack.uses_eq, List.count_pos_iff]

theorem Register.uses_pos_iff {o : ObjectId} {register : Register} :
    0 < register.uses o ↔ o ∈ register.objects := by
  rw [Register.uses_eq, List.count_pos_iff]

theorem Ref.count_object (o : ObjectId) (values : List Ref) :
    (values.map Ref.object).count o = values.countP fun value => value.object = o := by
  rw [List.count, List.countP_map]
  refine List.countP_congr ?_
  intro value _
  simp

theorem Payload.uses_eq (o : ObjectId) (payload : Payload) :
    payload.uses o = payload.objects.count o := by
  cases payload with
  | reference value => exact (count_singleton_eq value.object o).symm
  | wrapper w => exact (count_singleton_eq w.object o).symm
  | item value => exact value.uses_eq o
  | record _ _ | text _ | integer _ | unit => rfl

theorem Heap.usesIn_eq (h : Heap) (p o : ObjectId) : h.usesIn p o = (h.holds p).count o := by
  rw [Heap.usesIn, Heap.holds]
  cases h.cell? p with
  | none => rfl
  | some cell => exact cell.payload.uses_eq o

theorem Heap.usesIn_pos_iff {h : Heap} {p o : ObjectId} : 0 < h.usesIn p o ↔ o ∈ h.holds p := by
  rw [Heap.usesIn_eq, List.count_pos_iff]

/-! ### Live objects -/

/-- In a balanced heap the objects that have references are those that are not freed. -/
theorem Heap.Balanced.held_eq {h : Heap} {owners : Multiset ObjectId} (hb : h.Balanced owners)
    (o : ObjectId) : h.held o = (h.live.map fun p => h.usesIn p o).sum := by
  have hcells : h.cells.toList.map (holdsOf o) =
      ((List.range h.cells.size).map ObjectId.mk).map fun p =>
        if p ∉ h.freed then h.usesIn p o else 0 := by
    refine List.ext_getElem (by simp) ?_
    intro i hi hi'
    have hsize : i < h.cells.size := by simpa using hi
    obtain ⟨cell, hcell⟩ := made_iff.1 (show h.Made ⟨i⟩ from hsize)
    have hget : h.cells.toList[i] = cell := by
      rw [Array.getElem_toList]
      exact (Array.getElem?_eq_some_iff.1 hcell).2
    have hfreed := hb.freed_iff ⟨i⟩
    rw [strong_eq hcell] at hfreed
    rw [List.getElem_map, hget, List.getElem_map, List.getElem_map, List.getElem_range, holdsOf]
    by_cases hzero : cell.strong = 0
    · rw [if_pos hzero, if_neg (not_not.2 (hfreed.2 ⟨hsize, hzero⟩))]
    · rw [if_neg hzero, if_pos fun hmem => hzero (hfreed.1 hmem).2, usesIn_eq, holds_eq hcell]
  rw [held, hcells, List.sum_map_ite, List.map_const', List.sum_replicate, nsmul_zero, add_zero]
  rfl

end HostStack
