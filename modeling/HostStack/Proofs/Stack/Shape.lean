import HostStack.Proofs.Access.Effect
import HostStack.Proofs.Heap.Undo

/-!
# Shapes

The shape of an item is what remains of it when the truth values, the numbers and the bytes in it
are forgotten: the kind at every place, and the objects that are wrapped there. It is an item again,
with some payload that is always the same, so whatever can be done to an item can be done to its
shape. Nothing is lost in this but the payloads. The kind, the leaves and the references in an item
are those of its shape, and what is read from the shape, or taken out of it, is the shape of what
the item would have given.

Stacks have shapes, and so do replies and heaps, since an item may be handed out, and a host object
may hold one.
-/

namespace HostStack

/-! ### Items -/

mutual

def Item.shape : Item → Item
  | .boolean _ => .boolean false
  | .integer _ => .integer 0
  | .byteArray _ => .byteArray []
  | .interop w => .interop w
  | .array items => .array (Item.shapes items)

def Item.shapes : List Item → List Item
  | [] => []
  | item :: items => item.shape :: Item.shapes items

end

namespace Item

theorem shapes_eq_map (items : List Item) : shapes items = items.map shape := by
  induction items with
  | nil => rfl
  | cons item rest ih => rw [shapes, ih, List.map_cons]

theorem kind_shape (item : Item) : item.shape.kind = item.kind := by
  cases item <;> rfl

mutual

theorem leaves_shape (item : Item) : item.shape.leaves = item.leaves := by
  match item with
  | .boolean _ | .integer _ | .byteArray _ | .interop _ => rfl
  | .array items => exact leavesOfAll_shapes items

theorem leavesOfAll_shapes (items : List Item) :
    leavesOfAll (shapes items) = leavesOfAll items := by
  match items with
  | [] => rfl
  | item :: rest =>
      rw [shapes, leavesOfAll, leavesOfAll, leaves_shape item, leavesOfAll_shapes rest]

end

theorem objects_shape (item : Item) : item.shape.objects = item.objects := by
  rw [← map_object_leaves, ← map_object_leaves, leaves_shape]

theorem interop?_shape (item : Item) : item.shape.interop? = item.interop? := by
  cases item <;> rfl

theorem array?_shape (item : Item) : item.shape.array? = item.array?.map (List.map shape) := by
  cases item with
  | array items => exact congrArg some (shapes_eq_map items)
  | boolean _ | integer _ | byteArray _ | interop _ => rfl

theorem reference?_shape (item : Item) (type : HostType) :
    item.shape.reference? type = item.reference? type := by
  cases item <;> rfl

theorem leftover_shape (type : HostType) (item : Item) :
    item.shape.leftover type = item.leftover type := by
  rw [leftover, leftover, reference?_shape, leaves_shape]

end Item

/-! ### Replies -/

def Extracted.shape : Extracted → Extracted
  | .reference value => .reference value
  | .item value => .item value.shape
  | .wrapper value => .wrapper value

/-- Which of its forms a reply has, and the references and the shape of the item in it. -/
def Reply.shape : Reply → Reply
  | .done => .done
  | .boolean value => .boolean (value.map fun _ => false)
  | .integer value => .integer (value.map fun _ => 0)
  | .bytes value => .bytes (value.map fun _ => [])
  | .reference value => .reference value
  | .extracted value => .extracted value.shape
  | .references values => .references values

/-- The references in a reply are those in its shape. -/
theorem Reply.objects_shape (reply : Reply) : reply.shape.objects = reply.objects := by
  match reply with
  | .extracted (.item value) => exact value.objects_shape
  | .done | .boolean _ | .integer _ | .bytes _ | .reference _ | .references _
  | .extracted (.reference _) | .extracted (.wrapper _) => rfl

theorem Target.accept?_shape (target : Target) (item : Item) :
    target.accept? item.shape = (target.accept? item).map Extracted.shape := by
  cases target with
  | reference type =>
      have hreference := item.reference?_shape type
      rw [accept?, accept?, accept, accept, Item.takeReference_eq, Item.takeReference_eq,
        hreference]
      cases item.reference? type with
      | some value => rfl
      | none => rfl
  | item => rfl
  | wrapper => cases item <;> rfl

theorem Pop.reply_shape (how : Pop) (item : Item) :
    how.reply item.shape = (how.reply item).map Reply.shape := by
  cases how with
  | integer | byteArray | boolean => cases item <;> rfl
  | value target =>
      rw [reply, reply, Target.accept?_shape, Item.kind_shape]
      cases target.accept? item with
      | some taken => rfl
      | none => rfl
  | array type =>
      rw [reply, reply, Item.array?_shape, Option.map_map]
      cases item.array? with
      | none => rfl
      | some children =>
          simp only [Option.map_some, Function.comp_apply, List.filterMap_map,
            Item.reference?_shape]
          rfl

theorem Pop.leftover_shape (how : Pop) (item : Item) :
    how.leftover item.shape = how.leftover item := by
  cases how with
  | integer | byteArray | boolean => exact item.leaves_shape
  | value target =>
      rw [leftover, leftover, Target.accept?_shape, Item.leaves_shape]
      cases target.accept? item with
      | some taken => rfl
      | none => rfl
  | array type =>
      rw [leftover, leftover, Item.array?_shape, Item.leaves_shape]
      cases item.array? with
      | none => rfl
      | some children =>
          simp only [Option.map_some, List.flatMap_map, Item.leftover_shape]

theorem Pop.events_shape (how : Pop) (item : Item) : how.events item.shape = how.events item := by
  cases how with
  | integer | byteArray | boolean => rfl
  | value target =>
      rw [events, events, Target.accept?_shape, Item.kind_shape]
      cases target.accept? item with
      | some taken => rfl
      | none => rfl
  | array type =>
      rw [events, events, Item.array?_shape]
      cases item.array? with
      | none => rfl
      | some children =>
          simp only [Option.map_some, List.filterMap_map, Function.comp_def,
            Item.reference?_shape, List.length_map]

/-! ### Stacks -/

namespace Stack

def shape (s : Stack) : Stack :=
  ⟨s.items.map Item.shape, s.maxSize⟩

theorem shape_ofTop (items : List Item) (maxSize : Nat) :
    (ofTop items maxSize).shape = ofTop (items.map Item.shape) maxSize := by
  rw [shape, ofTop, ofTop, List.map_toArray, List.map_reverse]

theorem objects_shape (s : Stack) : s.shape.objects = s.objects := by
  rw [← map_object_leaves, ← map_object_leaves, leaves, leaves, toList, shape, Array.toList_map,
    ← Item.shapes_eq_map, Item.leavesOfAll_shapes]
  rfl

theorem shape_clear (s : Stack) : s.clear.shape = s.shape.clear := by
  rw [clear, clear, shape, List.map_toArray]
  rfl

theorem item?_shape (s : Stack) (depth : Nat) :
    s.shape.item? depth = (s.item? depth).map Item.shape := by
  obtain ⟨items, maxSize, rfl⟩ := s.exists_ofTop
  rw [shape_ofTop, item?_ofTop, item?_ofTop, List.getElem?_map]

/-- A look finds the same wrapper. -/
theorem interop?_shape (s : Stack) (depth : Nat) :
    (s.shape.item? depth).bind Item.interop? = (s.item? depth).bind Item.interop? := by
  rw [item?_shape, Option.bind_map]
  exact congrArg _ (funext Item.interop?_shape)

variable {s s' : Stack} (h : s.shape = s'.shape)
include h

/-- Stacks of the same shape have items of the same shape, place by place. -/
theorem exists_of_shape_eq :
    ∃ items items' maxSize, s = ofTop items maxSize ∧ s' = ofTop items' maxSize ∧
      items.map Item.shape = items'.map Item.shape := by
  obtain ⟨items, maxSize, rfl⟩ := s.exists_ofTop
  obtain ⟨items', maxSize', rfl⟩ := s'.exists_ofTop
  rw [shape_ofTop, shape_ofTop] at h
  have hitems := congrArg fromTop h
  obtain rfl : maxSize = maxSize' := congrArg Stack.maxSize h
  rw [fromTop_ofTop, fromTop_ofTop] at hitems
  exact ⟨items, items', maxSize, rfl, rfl, hitems⟩

theorem pop_of_shape_eq :
    (s.pop = .error .underflow ∧ s'.pop = .error .underflow) ∨
      ∃ item rest item' rest', s.pop = .ok (item, rest) ∧ s'.pop = .ok (item', rest') ∧
        item.shape = item'.shape ∧ rest.shape = rest'.shape := by
  obtain ⟨items, items', maxSize, rfl, rfl, hitems⟩ := exists_of_shape_eq h
  cases items with
  | nil =>
      obtain rfl : items' = [] := List.map_eq_nil_iff.1 hitems.symm
      exact .inl ⟨rfl, rfl⟩
  | cons item items =>
      obtain ⟨item', items', rfl, hitem, hrest⟩ := List.map_eq_cons_iff.1 hitems.symm
      refine .inr ⟨_, _, _, _, pop_ofTop_cons .., pop_ofTop_cons .., hitem.symm, ?_⟩
      rw [shape_ofTop, shape_ofTop, hrest]

theorem peek_of_shape_eq (depth : Nat) :
    (s.peek depth = .error .underflow ∧ s'.peek depth = .error .underflow) ∨
      ∃ item item', s.peek depth = .ok item ∧ s'.peek depth = .ok item' ∧
        item.shape = item'.shape := by
  obtain ⟨items, items', maxSize, rfl, rfl, hitems⟩ := exists_of_shape_eq h
  have hat := congrArg (·[depth]?) hitems
  rw [List.getElem?_map, List.getElem?_map] at hat
  rw [peek_ofTop, peek_ofTop]
  cases hitem : items[depth]? with
  | none =>
      rw [hitem] at hat
      rw [Option.map_eq_none_iff.1 hat.symm]
      exact .inl ⟨rfl, rfl⟩
  | some item =>
      rw [hitem] at hat
      obtain ⟨item', hitem', hshape⟩ := Option.map_eq_some_iff.1 hat.symm
      rw [hitem']
      exact .inr ⟨item, item', rfl, rfl, hshape.symm⟩

theorem push_of_shape_eq {item item' : Item} (hitem : item.shape = item'.shape) :
    (∃ cause, s.push item = .error cause ∧ s'.push item' = .error cause) ∨
      ∃ pushed pushed', s.push item = .ok pushed ∧ s'.push item' = .ok pushed' ∧
        pushed.shape = pushed'.shape := by
  obtain ⟨items, items', maxSize, rfl, rfl, hitems⟩ := exists_of_shape_eq h
  have hlength := congrArg List.length hitems
  rw [List.length_map, List.length_map] at hlength
  rw [push_ofTop, push_ofTop, ← hlength]
  by_cases hroom : items.length < maxSize
  · rw [if_pos hroom, if_pos hroom]
    refine .inr ⟨_, _, rfl, rfl, ?_⟩
    rw [shape_ofTop, shape_ofTop, List.map_cons, List.map_cons, hitem, hitems]
  · rw [if_neg hroom, if_neg hroom]
    exact .inl ⟨_, rfl, rfl⟩

end Stack

theorem Peek.reply_shape (how : Peek) (s : Stack) : how.reply s.shape = (how.reply s).shape := by
  cases how with
  | byteArray depth | integer depth | boolean depth =>
      rw [reply, reply, Stack.item?_shape]
      cases s.item? depth with
      | none => rfl
      | some item => cases item <;> rfl
  | byteArrayTop =>
      rw [reply, reply, Stack.item?_shape]
      cases s.item? 0 with
      | none => rfl
      | some item => cases item <;> rfl
  | reference type depth => rw [reply, reply, s.interop?_shape, Reply.shape]
  | referenceTop type => rw [reply, reply, s.interop?_shape, Reply.shape]

theorem Peek.asked?_shape (how : Peek) (s : Stack) : how.asked? s.shape = how.asked? s := by
  cases how with
  | byteArray _ | byteArrayTop | integer _ | boolean _ => rfl
  | reference type depth => rw [asked?, asked?, s.interop?_shape]
  | referenceTop type => rw [asked?, asked?, s.interop?_shape]

/-! ### Heaps -/

def Payload.shape : Payload → Payload
  | .item value => .item value.shape
  | payload => payload

theorem Payload.objects_shape (payload : Payload) : payload.shape.objects = payload.objects := by
  cases payload with
  | item value => exact value.objects_shape
  | record _ _ | text _ | integer _ | unit | reference _ | wrapper _ => rfl

def Cell.shape (cell : Cell) : Cell :=
  { cell with payload := cell.payload.shape }

namespace Heap

def shape (h : Heap) : Heap :=
  { h with cells := h.cells.map Cell.shape }

theorem cell?_shape (h : Heap) (o : ObjectId) : h.shape.cell? o = (h.cell? o).map Cell.shape :=
  Array.getElem?_map

theorem strong_shape (h : Heap) (o : ObjectId) : h.shape.strong o = h.strong o := by
  rw [strong, strong, cell?_shape, Option.map_map]
  rfl

theorem holds_shape (h : Heap) (o : ObjectId) : h.shape.holds o = h.holds o := by
  rw [holds, holds, cell?_shape, Option.map_map]
  cases h.cell? o with
  | none => rfl
  | some cell => exact cell.payload.objects_shape

theorem shape_setStrong (h : Heap) (o : ObjectId) (count : Nat) :
    (h.setStrong o count).shape = h.shape.setStrong o count := by
  refine eq_of_cell? (fun x => ?_) rfl
  rw [cell?_shape, cell?_setStrong, cell?_setStrong, cell?_shape]
  split
  · rw [Option.map_map, Option.map_map]
    rfl
  · rfl

theorem shape_retain (h : Heap) (os : List ObjectId) : (h.retain os).shape = h.shape.retain os := by
  induction os generalizing h with
  | nil => rfl
  | cons o rest ih =>
      rw [retain, retain, List.foldl_cons, List.foldl_cons, strong_shape, ← shape_setStrong]
      exact ih _

theorem shape_release (h : Heap) (os : List ObjectId) :
    (h.release os).shape = h.shape.release os := by
  fun_induction Heap.release h os with
  | case1 h => rw [release_nil]
  | case2 h o pending hzero ih =>
      rw [ih, release, strong_shape, hzero]
      rfl
  | case3 h o pending hone ih =>
      rw [ih, release, strong_shape, hone, holds_shape, ← shape_setStrong]
      rfl
  | case4 h o pending count hcount ih =>
      rw [ih, release, strong_shape, hcount, shape_setStrong]

theorem shape_ask (h : Heap) (w : Interop) (type : HostType) :
    (h.ask w type).shape = h.shape.ask w type := by
  rw [ask, ask]
  split
  · exact shape_retain h _
  · rw [shape_release, shape_retain]

end Heap

end HostStack
