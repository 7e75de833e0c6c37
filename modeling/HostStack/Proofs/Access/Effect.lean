import HostStack.Proofs.Ownership.Leaves
import HostStack.Proofs.Stack.TopDown

/-!
# What the operations of an accessor do

Every operation in closed form: from the machine it starts on to the machine it ends on, and the
reply or the error in between. There are three shapes. A look gives a reply that depends on the
stack alone and touches nothing but the count of the object it hands out. A removal takes the top
item, splits what the item owns into a part that is handed out and a part that is released, and
logs what it did; which way it ends is decided by the item and the form of the removal, and the
item is gone in any case. A push builds an item, announces it, and leaves the rest to the stack.

All that is proved about runs of operations goes through these equations. No other proof opens an
operation.
-/

namespace HostStack

namespace Heap

theorem release_nil (h : Heap) : h.release [] = h := by
  rw [Heap.release]

/-- Releasing some objects and then others is releasing all of them. -/
theorem release_append (h : Heap) (xs ys : List ObjectId) :
    h.release (xs ++ ys) = (h.release xs).release ys := by
  fun_induction Heap.release h xs with
  | case1 h => rfl
  | case2 h o pending hzero ih =>
      rw [List.cons_append, Heap.release]
      split
      · exact ih
      · next hone => omega
      · next hmore => omega
  | case3 h o pending hone ih =>
      rw [List.cons_append, Heap.release]
      split
      · next hzero => omega
      · rw [← List.append_assoc]
        exact ih
      · next hmore => omega
  | case4 h o pending count hcount ih =>
      rw [List.cons_append, Heap.release]
      split
      · next hzero => omega
      · next hone => omega
      · next hmore =>
          have heq := hmore.symm.trans hcount
          injection heq with heq
          injection heq with heq
          rw [heq]
          exact ih

end Heap

/-! ### Looking -/

/-- The reference in a wrapper, if its object was wrapped at the given type. -/
def Interop.reference? (w : Interop) (type : HostType) : Option Ref :=
  (w.unwrap type).toOption

/-- What looking at a stack replies. -/
def Peek.reply (s : Stack) : Peek → Reply
  | .byteArray depth => .bytes ((s.item? depth).bind Item.bytes?)
  | .byteArrayTop => .bytes ((s.item? 0).bind Item.bytes?)
  | .integer depth => .integer ((s.item? depth).bind Item.integer?)
  | .boolean depth => .boolean ((s.item? depth).bind Item.boolean?)
  | .reference type depth =>
    .reference (((s.item? depth).bind Item.interop?).bind (Interop.reference? · type))
  | .referenceTop type =>
    .reference (((s.item? 0).bind Item.interop?).bind (Interop.reference? · type))

/-- The wrapper a look asks for a reference, with the type that is asked for. -/
def Peek.asked? (s : Stack) : Peek → Option (Interop × HostType)
  | .reference type depth => ((s.item? depth).bind Item.interop?).map (·, type)
  | .referenceTop type => ((s.item? 0).bind Item.interop?).map (·, type)
  | _ => none

/-- The heap after a wrapper was asked for a reference of a type. -/
def Heap.ask (h : Heap) (w : Interop) (type : HostType) : Heap :=
  if w.value.type = type then h.retain [w.object]
  else (h.retain [w.object]).release [w.object]

namespace Access

theorem peekItem_run (depth : Nat) (m : Machine) :
    (peekItem depth).run m = .ok (m.stack.item? depth) m := by
  simp only [peekItem, EStateM.run_bind, EStateM.run_get, Stack.item?]
  cases m.stack.peek depth with
  | ok item => rfl
  | error cause => rfl

theorem downcast_run (w : Interop) (type : HostType) (m : Machine) :
    (downcast w type).run m =
      .ok (w.reference? type) { m with heap := m.heap.ask w type } := by
  simp only [downcast, retain, EStateM.run_bind, EStateM.run_modify, Interop.reference?,
    Interop.unwrap, Heap.ask]
  by_cases htype : w.value.type = type
  · simp only [if_pos htype]
    rfl
  · simp only [if_neg htype]
    rfl

theorem peek_run (type : HostType) (depth : Nat) (m : Machine) :
    (peek type depth).run m =
      .ok (((m.stack.item? depth).bind Item.interop?).bind (Interop.reference? · type))
        { m with heap :=
          match (m.stack.item? depth).bind Item.interop? with
          | some w => m.heap.ask w type
          | none => m.heap } := by
  simp only [peek, EStateM.run_bind, peekItem_run]
  cases (m.stack.item? depth).bind Item.interop? with
  | some w => exact downcast_run w type m
  | none => rfl

end Access

/-- A look leaves the stack and the logs alone, and always has a reply. -/
theorem Peek.perform_run (how : Peek) (m : Machine) :
    how.perform.run m = .ok (how.reply m.stack)
      { m with heap :=
        match how.asked? m.stack with
        | some (w, type) => m.heap.ask w type
        | none => m.heap } := by
  have hpeek : ∀ type depth, (Access.peek type depth).run m = _ := fun type depth =>
    Access.peek_run type depth m
  have hitem : ∀ depth, (Access.peekItem depth).run m = _ := fun depth =>
    Access.peekItem_run depth m
  cases how with
  | byteArray depth | integer depth | boolean depth =>
      simp only [Peek.perform, Access.peekByteArray, Access.peekInteger, Access.peekBoolean,
        EStateM.run_bind, hitem]
      rfl
  | byteArrayTop =>
      simp only [Peek.perform, Access.peekByteArrayTop, Access.peekByteArray, EStateM.run_bind,
        hitem]
      rfl
  | reference type depth =>
      simp only [Peek.perform, EStateM.run_bind, hpeek, Peek.asked?, Peek.reply]
      cases (m.stack.item? depth).bind Item.interop? with
      | some w => rfl
      | none => rfl
  | referenceTop type =>
      simp only [Peek.perform, Access.peekTop, EStateM.run_bind, hpeek, Peek.asked?, Peek.reply]
      cases (m.stack.item? 0).bind Item.interop? with
      | some w => rfl
      | none => rfl

/-! ### Removing -/

/-- The reference in an item, if it holds an object that was wrapped at the given type. -/
def Item.reference? (item : Item) (type : HostType) : Option Ref :=
  (item.takeReference type).toOption

/-- The leaves of an item that are released when a reference of a type is taken from it. -/
def Item.leftover (type : HostType) (item : Item) : List Interop :=
  match item.reference? type with
  | some _ => []
  | none => item.leaves

/-- What an item turns into, if it fits. -/
def Target.accept? (target : Target) (item : Item) : Option Extracted :=
  (target.accept item).toOption

theorem Interop.unwrap_eq (w : Interop) (type : HostType) :
    w.unwrap type = if w.value.type = type then .ok w.value else .error w := rfl

/-- An item without such a reference comes back as it is. -/
theorem Item.takeReference_eq (item : Item) (type : HostType) :
    item.takeReference type =
      match item.reference? type with
      | some value => .ok value
      | none => .error item := by
  rw [Item.reference?]
  cases item with
  | interop w =>
      rw [Item.takeReference, Interop.unwrap_eq]
      by_cases htype : w.value.type = type
      · rw [if_pos htype]
        rfl
      · rw [if_neg htype]
        rfl
  | boolean _ | integer _ | byteArray _ | array _ => rfl

/-- An item that does not fit comes back as it is. -/
theorem Target.accept_eq (target : Target) (item : Item) :
    target.accept item =
      match target.accept? item with
      | some value => .ok value
      | none => .error item := by
  rw [Target.accept?]
  cases target with
  | reference type =>
      rw [Target.accept, Item.takeReference_eq]
      cases item.reference? type with
      | some value => rfl
      | none => rfl
  | item => rfl
  | wrapper =>
      cases item with
      | interop w => rfl
      | boolean _ | integer _ | byteArray _ | array _ => rfl

/-- What an item turns into when it is removed as a value of a wanted type. -/
inductive Target.Takes : Target → Item → Extracted → Prop
  | reference {w : Interop} {type : HostType} (htype : w.value.type = type) :
      Takes (.reference type) (.interop w) (.reference w.value)
  | item (x : Item) : Takes .item x (.item x)
  | wrapper (w : Interop) : Takes .wrapper (.interop w) (.wrapper w)

theorem Item.reference?_eq_some {item : Item} {type : HostType} {value : Ref} :
    item.reference? type = some value ↔
      (Target.reference type).Takes item (.reference value) := by
  constructor
  · intro h
    cases item with
    | interop w =>
        rw [Item.reference?, Item.takeReference, Interop.unwrap_eq] at h
        by_cases htype : w.value.type = type
        · rw [if_pos htype] at h
          cases h
          exact .reference htype
        · rw [if_neg htype] at h
          cases h
    | boolean _ | integer _ | byteArray _ | array _ => cases h
  · intro h
    cases h with
    | reference htype =>
        rw [Item.reference?, Item.takeReference, Interop.unwrap_eq, if_pos htype]
        rfl

theorem Target.accept?_eq_some {target : Target} {item : Item} {taken : Extracted} :
    target.accept? item = some taken ↔ target.Takes item taken := by
  cases target with
  | reference type =>
      rw [Target.accept?, Target.accept, Item.takeReference_eq]
      constructor
      · intro h
        cases href : item.reference? type with
        | none =>
            rw [href] at h
            cases h
        | some value =>
            rw [href] at h
            cases h
            exact Item.reference?_eq_some.1 href
      · intro h
        cases h with
        | reference htype =>
            rw [Item.reference?_eq_some.2 (.reference htype)]
            rfl
  | item =>
      constructor
      · intro h
        cases h
        exact .item item
      · intro h
        cases h
        rfl
  | wrapper =>
      constructor
      · intro h
        cases item with
        | interop w =>
            cases h
            exact .wrapper w
        | boolean _ | integer _ | byteArray _ | array _ => cases h
      · intro h
        cases h
        rfl

/-- What a removal makes of the item that it has taken. -/
def Pop.reply (item : Item) : Pop → Except AccessError Reply
  | .integer => .ok (.integer item.integer?)
  | .byteArray => .ok (.bytes item.bytes?)
  | .boolean => .ok (.boolean item.boolean?)
  | .value target =>
    match target.accept? item with
    | some taken => .ok (.extracted taken)
    | none => .error (.typeMismatch target.name item.kind)
  | .array type =>
    .ok (.references (item.array?.map fun children => children.filterMap (·.reference? type)))

/-- The leaves of the item that a removal releases. -/
def Pop.leftover (item : Item) : Pop → List Interop
  | .integer | .byteArray | .boolean => item.leaves
  | .value target =>
    match target.accept? item with
    | some _ => []
    | none => item.leaves
  | .array type =>
    match item.array? with
    | some children => children.flatMap (Item.leftover type)
    | none => item.leaves

/-- What a removal logs after the item is taken. -/
def Pop.events (item : Item) : Pop → List Event
  | .integer | .byteArray | .boolean => []
  | .value target =>
    match target.accept? item with
    | some _ => []
    | none => [.popTypeMismatch target.name item.kind]
  | .array type =>
    match item.array? with
    | some children =>
      let kept := (children.filterMap (·.reference? type)).length
      if kept < children.length then
        [.popArraySkippedChildren type.name (children.length - kept)]
      else []
    | none => []

/-- An operation that has come to its end on a machine. -/
def Machine.finish (m : Machine) (result : Except AccessError α) :
    EStateM.Result AccessError Machine α :=
  match result with
  | .ok a => .ok a m
  | .error e => .error e m

/-- The machine after its top item was taken by the accessor. -/
def Machine.taken (m : Machine) (item : Item) (stack : Stack) : Machine :=
  { m with stack, events := m.events ++ [.pop item.kind] }

/-- The machine after some leaves were released. -/
def Machine.released (m : Machine) (leaves : List Interop) : Machine :=
  { m with heap := m.heap.release (leaves.map Interop.object) }

/-- The machine after a pop found no item. -/
def Machine.refusedPop (m : Machine) : Machine :=
  { m with events := m.events ++ [.popOnEmptyStack] }

theorem released_nil (m : Machine) : m.released [] = m := by
  rw [Machine.released, List.map_nil, Heap.release_nil]

theorem released_append (m : Machine) (xs ys : List Interop) :
    m.released (xs ++ ys) = (m.released xs).released ys := by
  rw [Machine.released, List.map_append, Heap.release_append]
  rfl

namespace Access

theorem takeItem_run (m : Machine) :
    takeItem.run m =
      match m.stack.pop with
      | .ok (item, stack) => .ok item { m with stack }
      | .error cause => .error (.stack cause) m.refusedPop := by
  simp only [takeItem, EStateM.run_bind, EStateM.run_get]
  cases m.stack.pop with
  | ok top => rfl
  | error cause => rfl

theorem popItem_run (m : Machine) :
    popItem.run m =
      match m.stack.pop with
      | .ok (item, stack) => .ok item (m.taken item stack)
      | .error cause => .error (.stack cause) m.refusedPop := by
  simp only [popItem, EStateM.run_bind, takeItem_run]
  cases m.stack.pop with
  | ok top => rfl
  | error cause => rfl

theorem release_run (leaves : List Interop) (m : Machine) :
    (release (leaves.map Interop.object)).run m = .ok () (m.released leaves) := rfl

/-- The references of a type are picked out in order, and all else is released. -/
theorem takeReferences_run (type : HostType) (items : List Item) (m : Machine) :
    (takeReferences type items).run m =
      .ok (items.filterMap (·.reference? type))
        (m.released (items.flatMap (Item.leftover type))) := by
  induction items generalizing m with
  | nil =>
      rw [List.flatMap_nil, released_nil]
      rfl
  | cons item rest ih =>
      rw [takeReferences, Item.takeReference_eq, List.flatMap_cons, released_append,
        Item.leftover]
      cases hitem : item.reference? type with
      | some value =>
          simp only [EStateM.run_bind, ih, List.filterMap_cons, hitem, released_nil]
          rfl
      | none =>
          simp only [EStateM.run_bind, ← Item.map_object_leaves, release_run, ih,
            List.filterMap_cons, hitem]

end Access

/-- A removal takes the top item whichever way it ends, and ends as the item has it. -/
theorem Pop.perform_run (how : Pop) (m : Machine) :
    how.perform.run m =
      match m.stack.pop with
      | .error cause => .error (.stack cause) m.refusedPop
      | .ok (item, stack) =>
        Machine.finish
          { (m.taken item stack).released (how.leftover item) with
            events := (m.taken item stack).events ++ how.events item }
          (how.reply item) := by
  have hpop : Access.popItem.run m = _ := Access.popItem_run m
  cases htop : m.stack.pop with
  | error cause =>
      rw [htop] at hpop
      cases how <;>
        simp only [Pop.perform, Access.popInteger, Access.popByteArray, Access.popBoolean,
          Access.pop, Access.popArray, EStateM.run_bind, hpop]
  | ok top =>
      obtain ⟨item, stack⟩ := top
      rw [htop] at hpop
      -- A scalar owns no leaves, so nothing is lost where it is handed out and not released.
      cases how with
      | integer =>
          simp only [Pop.perform, Access.popInteger, EStateM.run_bind, hpop,
            ← Item.map_object_leaves, Pop.leftover, Pop.events, List.append_nil]
          cases item with
          | integer n =>
              simp only [Item.leaves, released_nil]
              rfl
          | boolean _ | byteArray _ | interop _ | array _ => rfl
      | byteArray =>
          simp only [Pop.perform, Access.popByteArray, EStateM.run_bind, hpop,
            ← Item.map_object_leaves, Pop.leftover, Pop.events, List.append_nil]
          cases item with
          | byteArray bytes =>
              simp only [Item.leaves, released_nil]
              rfl
          | boolean _ | integer _ | interop _ | array _ => rfl
      | boolean =>
          simp only [Pop.perform, Access.popBoolean, EStateM.run_bind, hpop,
            ← Item.map_object_leaves, Pop.leftover, Pop.events, List.append_nil]
          cases item with
          | boolean b =>
              simp only [Item.leaves, released_nil]
              rfl
          | integer _ | byteArray _ | interop _ | array _ => rfl
      | value target =>
          simp only [Pop.perform, Access.pop, EStateM.run_bind, hpop, Target.accept_eq,
            Pop.reply, Pop.leftover, Pop.events]
          cases target.accept? item with
          | some taken =>
              simp only [released_nil, List.append_nil]
              rfl
          | none =>
              simp only [← Item.map_object_leaves, EStateM.run_bind, Access.release_run]
              rfl
      | array type =>
          simp only [Pop.perform, Access.popArray, EStateM.run_bind, hpop, Pop.reply,
            Pop.leftover, Pop.events]
          cases item with
          | array children =>
              simp only [EStateM.run_bind, Access.takeReferences_run, Item.array?]
              by_cases hkept :
                  (children.filterMap (·.reference? type)).length < children.length
              · simp only [if_pos hkept]
                rfl
              · simp only [if_neg hkept, List.append_nil]
                rfl
          | boolean _ | integer _ | byteArray _ | interop _ =>
              simp only [Item.array?, ← Item.map_object_leaves, List.append_nil]
              rfl

/-! ### Pushing -/

/-- Some references as items. -/
def ItemFactory.interops (factory : ItemFactory) (type : HostType) :
    List ObjectId → Build (List Item)
  | [] => return []
  | o :: os => do
    let item ← factory.interop (.ofRef ⟨o, type⟩)
    let items ← factory.interops type os
    return item :: items

/-- How the item of a push is put together; nothing for other calls. -/
def Accessor.assemble? (a : Accessor) : Call → Option (Build Item)
  | .push value => some (value.toItem a.factory)
  | .pushInterop value => some (a.factory.interop (.ofRef value))
  | .pushInteropArray type values => some do
    let children ← a.factory.interops type values
    a.factory.array children
  | .peek _ | .pop _ => none

/-- The references that a push copies for its item. -/
def Call.copies : Call → List Interop
  | .pushInteropArray type values => values.map fun o => .ofRef ⟨o, type⟩
  | _ => []

/-- What a push logs before the stack decides. -/
def Call.announce (item : Item) : Call → List Event
  | .push _ => [.push item.kind]
  | .pushInterop value => [.pushInterop value.type.name]
  | .pushInteropArray type values => [.pushInteropArray type.name values.length]
  | .peek _ | .pop _ => []

/-- The machine after the stack has refused an item, which is released. -/
def Machine.refusedPush (m : Machine) (item : Item) : Machine :=
  { m.released item.leaves with events := m.events ++ [.stackOverflow m.stack.maxSize] }

/-- The machine when the item of a push is ready: what was copied has its references, the calls of
the factory and the push itself are logged. -/
def Machine.prepared (m : Machine) (call : Call) (item : Item) (built : List FactoryMethod) :
    Machine :=
  { m with
    heap := m.heap.retain (call.copies.map Interop.object)
    events := m.events ++ call.announce item
    built }

namespace Access

theorem build_run (build : Build Item) (m : Machine) :
    (Access.build build).run m =
      .ok (build.run m.built).1 { m with built := (build.run m.built).2 } := rfl

theorem pushItem_run (item : Item) (m : Machine) :
    (pushItem item).run m =
      match m.stack.push item with
      | .ok stack => .ok () { m with stack }
      | .error cause => .error (.stack cause) (m.refusedPush item) := by
  simp only [pushItem, EStateM.run_bind, EStateM.run_get, ← Item.map_object_leaves]
  cases m.stack.push item with
  | ok stack => rfl
  | error cause => rfl

end Access

theorem Accessor.wrapAll_run (a : Accessor) (type : HostType) (values : List ObjectId)
    (m : Machine) :
    (a.wrapAll type values).run m =
      .ok ((a.factory.interops type values).run m.built).1
        { m with
          heap := m.heap.retain values
          built := ((a.factory.interops type values).run m.built).2 } := by
  induction values generalizing m with
  | nil => rfl
  | cons o os ih =>
      simp only [Accessor.wrapAll, EStateM.run_bind, Access.build_run, ih]
      rfl

/-- A push puts its item together, announces it, and is accepted or refused by the stack. -/
theorem Accessor.perform_push_run {a : Accessor} {call : Call} {build : Build Item}
    (hbuild : a.assemble? call = some build) (m : Machine) :
    (a.perform call).run m =
      let item := (build.run m.built).1
      let ready := m.prepared call item (build.run m.built).2
      match m.stack.push item with
      | .ok stack => .ok .done { ready with stack }
      | .error cause => .error (.stack cause) (ready.refusedPush item) := by
  cases call with
  | push value =>
      injection hbuild with hbuild
      subst hbuild
      simp only [Accessor.perform, Accessor.push, EStateM.run_bind, Access.build_run,
        Access.emit, EStateM.run_modify, Access.pushItem_run]
      cases m.stack.push _ with
      | ok stack => rfl
      | error cause => rfl
  | pushInterop value =>
      injection hbuild with hbuild
      subst hbuild
      simp only [Accessor.perform, Accessor.pushInterop, EStateM.run_bind, Access.build_run,
        Access.emit, EStateM.run_modify, Access.pushItem_run]
      cases m.stack.push _ with
      | ok stack => rfl
      | error cause => rfl
  | pushInteropArray type values =>
      injection hbuild with hbuild
      have hrun : build.run m.built =
          (a.factory.array ((a.factory.interops type values).run m.built).1).run
            ((a.factory.interops type values).run m.built).2 := by
        rw [← hbuild]
        rfl
      have hcopies : (Call.pushInteropArray type values).copies.map Interop.object = values := by
        rw [Call.copies, List.map_map]
        exact List.map_id values
      simp only [Accessor.perform, Accessor.pushInteropArray, EStateM.run_bind,
        Accessor.wrapAll_run, Access.build_run, Access.emit, EStateM.run_modify,
        Access.pushItem_run, hrun, Machine.prepared, hcopies]
      cases m.stack.push _ with
      | ok stack => rfl
      | error cause => rfl
  | peek how => cases hbuild
  | pop how => cases hbuild

end HostStack
