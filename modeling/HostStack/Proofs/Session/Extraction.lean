import HostStack.Proofs.Ownership.Typed
import HostStack.Proofs.Session.Runs
import HostStack.Proofs.Stack.Depth
import Mathlib

/-!
# What is handed out has the type that was asked for

An accessor hands a reference out of an item exactly when the item is a wrapper and its object was
made at the type that is asked for. The accessor itself never looks at the object. It compares one
tag of the wrapper, and shows the other one, so this is a fact about all that may have happened to
the wrapper before: it was copied, kept, asked for other types, taken apart in vain and put back.
-/

namespace HostStack

/-- An item is a wrapper, its object was made at a type, and the reference is to that object. -/
def Heap.Wraps (h : Heap) (type : HostType) (item : Item) (value : Ref) : Prop :=
  ∃ w, item = .interop w ∧ h.type? w.object = some type ∧ value = ⟨w.object, type⟩

theorem Heap.reference?_eq_some_iff {h : Heap} {item : Item}
    (hitem : ∀ w ∈ item.leaves, h.Types w) (type : HostType) (value : Ref) :
    item.reference? type = some value ↔ h.Wraps type item value := by
  rw [Item.reference?_eq_some]
  constructor
  · intro htakes
    cases htakes with
    | @reference w _ htype =>
        subst htype
        exact ⟨w, rfl, (hitem w (List.mem_singleton_self w)).type, rfl⟩
  · rintro ⟨w, rfl, hmade, rfl⟩
    rw [(hitem w (List.mem_singleton_self w)).type] at hmade
    cases hmade
    exact .reference rfl

theorem Pop.reply_wrapper (item : Item) :
    (Pop.value .wrapper).reply item =
      match item.interop? with
      | some w => .ok (.extracted (.wrapper w))
      | none => .error (.typeMismatch Target.wrapper.name item.kind) := by
  cases item with
  | interop w => rfl
  | boolean _ | integer _ | byteArray _ | array _ => rfl

/-- A reference to an object is of another type than the object. -/
theorem HostType.reference_ne (type : HostType) : HostType.reference type ≠ type := by
  intro heq
  have hsize := congrArg sizeOf heq
  simp at hsize

namespace Session

theorem Arises.typed {s : Session} (h : s.Arises) : s.heap.Typed s.leaves :=
  h.trade.typed Heap.typed_empty

/-- A wrapper is somewhere: with the host, on its stack, or in what an object was made with. -/
def Has (s : Session) (w : Interop) : Prop :=
  w ∈ s.leaves ∨ ∃ o cell, s.heap.cell? o = some cell ∧ w ∈ cell.payload.leaves

/-- References come out at the type their objects were made at, and not at any other type. -/
structure TypeSafe (s : Session) : Prop where
  named : ∀ w, s.Has w → ∃ type, s.heap.type? w.object = some type ∧ w.typeName = type.name ∧
    ∀ other, w.is other ↔ other = type
  found : ∀ (a : Accessor) type depth, ∃ found,
    ((Operation.call a (.peek (.reference type depth))).run s.machine).1 =
        .ok (.reference found) ∧
      ∀ value, found = some value ↔
        ∃ item, s.stack.item? depth = some item ∧ s.heap.Wraps type item value
  removed : ∀ (a : Accessor) item, s.stack.item? 0 = some item → ∀ type,
    let result := ((Operation.call a (.pop (.value (.reference type)))).run s.machine).1
    (∀ value, result = .ok (.extracted (.reference value)) ↔ s.heap.Wraps type item value) ∧
      ((∀ value, ¬ s.heap.Wraps type item value) →
        result = .error (.typeMismatch (Target.reference type).name item.kind))
  /-- Of an array, the references are those of its own elements, in their order. -/
  elements : ∀ (a : Accessor) items, s.stack.item? 0 = some (.array items) → ∀ type,
    ∃ pick : Item → Option Ref,
      (∀ item ∈ items, ∀ value, pick item = some value ↔ s.heap.Wraps type item value) ∧
        ((Operation.call a (.pop (.array type))).run s.machine).1 =
          .ok (.references (some (items.filterMap pick)))
  /-- An object that is a reference does not come out as what it refers to. -/
  layers : ∀ type w value, s.heap.type? w.object = some (.reference type) →
    ¬ s.heap.Wraps type (.interop w) value
  /-- An item comes out as it is, even if it wraps an item. -/
  items : ∀ (a : Accessor) item, s.stack.item? 0 = some item →
    ((Operation.call a (.pop (.value .item))).run s.machine).1 = .ok (.extracted (.item item))
  /-- So does a wrapper, even if it wraps a wrapper. -/
  wrappers : ∀ (a : Accessor) item, s.stack.item? 0 = some item →
    let result := ((Operation.call a (.pop (.value .wrapper))).run s.machine).1
    (∀ w, result = .ok (.extracted (.wrapper w)) ↔ item = .interop w) ∧
      ((∀ w, item ≠ .interop w) →
        result = .error (.typeMismatch Target.wrapper.name item.kind))

variable {s : Session}

theorem types_of_item? (ht : s.heap.Typed s.leaves) {depth : Nat} {item : Item}
    (hitem : s.stack.item? depth = some item) : ∀ w ∈ item.leaves, s.heap.Types w := by
  intro w hw
  have hmem := Stack.mem_leaves_of_item? hitem hw
  exact ht.owned w (Multiset.mem_add.2 (.inl (Multiset.mem_coe.2 hmem)))

theorem Arises.type_safe (h : s.Arises) : s.TypeSafe where
  named w hw := by
    have ht := h.typed
    have htypes : s.heap.Types w := by
      rcases hw with hw | ⟨o, cell, hcell, hw⟩
      · exact ht.owned w hw
      · exact ht.inside o cell hcell w hw
    refine ⟨w.value.type, htypes.type, htypes.name, ?_⟩
    intro other
    rw [Interop.is, decide_eq_true_iff]
    exact eq_comm
  found a type depth := by
    refine ⟨(s.stack.item? depth).bind (·.reference? type), ?_, ?_⟩
    · rw [Operation.peek_result, Peek.reply]
      show _ = Except.ok (Reply.reference ((s.machine.stack.item? depth).bind _))
      cases s.machine.stack.item? depth with
      | none => rfl
      | some item => rw [Option.bind_some, Option.bind_some, Item.reference?_eq]
    · intro value
      rw [Option.bind_eq_some_iff]
      constructor
      · rintro ⟨item, hitem, href⟩
        have htypes := types_of_item? h.typed hitem
        exact ⟨item, hitem, (Heap.reference?_eq_some_iff htypes type value).1 href⟩
      · rintro ⟨item, hitem, hwraps⟩
        have htypes := types_of_item? h.typed hitem
        exact ⟨item, hitem, (Heap.reference?_eq_some_iff htypes type value).2 hwraps⟩
  removed a item hitem type := by
    have hspec := Heap.reference?_eq_some_iff (types_of_item? h.typed hitem) type
    rw [Operation.pop_result a _ hitem, Pop.reply_reference]
    cases href : item.reference? type with
    | some taken =>
        rw [href] at hspec
        refine ⟨?_, fun hnone => absurd ((hspec taken).1 rfl) (hnone taken)⟩
        intro value
        rw [← hspec value]
        simp
    | none =>
        rw [href] at hspec
        refine ⟨?_, fun _ => rfl⟩
        intro value
        rw [← hspec value]
        simp
  elements a items hitem type := by
    refine ⟨(·.reference? type), ?_, ?_⟩
    · intro item hmem value
      refine Heap.reference?_eq_some_iff (fun w hw => ?_) type value
      refine types_of_item? h.typed hitem w ?_
      exact Item.leaves_subset hmem hw
    · rw [Operation.pop_result a _ hitem]
      rfl
  layers type w value hmade := by
    rintro ⟨v, ⟨⟩, hmade', -⟩
    rw [hmade] at hmade'
    exact type.reference_ne (Option.some.inj hmade')
  items a item hitem := by
    rw [Operation.pop_result a _ hitem]
    rfl
  wrappers a item hitem := by
    rw [Operation.pop_result a _ hitem, Pop.reply_wrapper]
    cases item with
    | interop v => simp [Item.interop?]
    | boolean _ | integer _ | byteArray _ | array _ => simp [Item.interop?]

/-- An object that is a reference, and one whose type has the same name. The first was removed as a
wrapper, kept, and taken apart in vain. -/
def removedWrapper : Session :=
  ((start .standard .zero default .context).run
    [.create "a" (.host "u64") (.integer 5),
      .create "b" (.reference (.host "u64")) (.reference "a"),
      .create "c" (.host "alloc::rc::Rc<u64>") .unit, .pushInterop "c", .pushInterop "b",
      .pop (.value .wrapper) (some "w") false, .unwrap "w" (.host "u64") none]).2

/-- The wrapper is pushed again. -/
def putBack : Session :=
  removedWrapper.after (Run.place (.interop (.ofRef ⟨⟨1⟩, .reference (.host "u64")⟩)))

theorem putBack_arises : putBack.Arises := by
  refine .place (.run (.start ItemFactory.standard_conserves _ _ _) _) _ ?_
  intro w hw
  rw [List.mem_singleton.1 hw]
  have hget : removedWrapper.registers.get? "w" =
      some (.wrapper (.ofRef ⟨⟨1⟩, .reference (.host "u64")⟩)) := by cbv
  exact mem_leaves_of_register hget (List.mem_singleton_self _)

theorem type_safe_putBack :
    putBack.Arises ∧
      putBack.stack.item? 0 =
        some (.interop ⟨⟨⟨1⟩, .reference (.host "u64")⟩, "alloc::rc::Rc<u64>"⟩) ∧
      putBack.stack.item? 1 =
        some (.interop ⟨⟨⟨2⟩, .host "alloc::rc::Rc<u64>"⟩, "alloc::rc::Rc<u64>"⟩) ∧
      putBack.TypeSafe :=
  ⟨putBack_arises, by cbv, by cbv, putBack_arises.type_safe⟩

end Session

end HostStack
