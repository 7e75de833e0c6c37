import HostStack.Proofs.Access.Moves

/-!
# Plain items

A factory is free to build what it likes. The plain item is the one that says what the value is and
nothing else, and both the standard factory and one that records its calls build it. With such a
factory a push that finds room always succeeds, and what it puts on the stack is settled by the call
alone. That is what a pop can count on.
-/

namespace HostStack

/-! ### What stands for what is pushed -/

def Native.item : Native → Item
  | .boolean value => .boolean value
  | .integer _ value _ => .integer value
  | .bytes _ data => .byteArray data

/-- Some objects in wrappers of one type. -/
def Interop.ofAll (type : HostType) (values : List ObjectId) : List Interop :=
  values.map fun o => .ofRef ⟨o, type⟩

/-- The plain item of a push. -/
def Call.item? : Call → Option Item
  | .push value => some value.item
  | .pushInterop value => some (.interop (.ofRef value))
  | .pushInteropArray type values => some (.array ((Interop.ofAll type values).map .interop))
  | .peek _ | .pop _ => none

/-! ### Factories that build it -/

namespace ItemFactory

/-- The plain items are built, whatever was built before. What is noted is left open. -/
structure Plain (factory : ItemFactory) : Prop where
  boolean : ∀ value built, ((factory.boolean value).run built).1 = .boolean value
  integer : ∀ value built, ((factory.integer value).run built).1 = .integer value
  byteArray : ∀ bytes built, ((factory.byteArray bytes).run built).1 = .byteArray bytes
  interop : ∀ w built, ((factory.interop w).run built).1 = .interop w
  array : ∀ items built, ((factory.array items).run built).1 = .array items

theorem standard_plain : standard.Plain where
  boolean _ _ := rfl
  integer _ _ := rfl
  byteArray _ _ := rfl
  interop _ _ := rfl
  array _ _ := rfl

namespace Plain

variable {factory : ItemFactory}

theorem recording (hplain : factory.Plain) : (ItemFactory.recording factory).Plain where
  boolean value _ := hplain.boolean value _
  integer value _ := hplain.integer value _
  byteArray bytes _ := hplain.byteArray bytes _
  interop w _ := hplain.interop w _
  array items _ := hplain.array items _

theorem conserves (hplain : factory.Plain) : factory.Conserves where
  boolean value built := congrArg Item.leaves (hplain.boolean value built)
  integer value built := congrArg Item.leaves (hplain.integer value built)
  byteArray bytes built := congrArg Item.leaves (hplain.byteArray bytes built)
  interop w built := congrArg Item.leaves (hplain.interop w built)
  array items built := .of_eq (congrArg Item.leaves (hplain.array items built))

theorem toItem (hplain : factory.Plain) (value : Native) (built : List FactoryMethod) :
    ((value.toItem factory).run built).1 = value.item := by
  cases value with
  | boolean value => exact hplain.boolean value built
  | integer type value _ => exact hplain.integer value built
  | bytes form data => exact hplain.byteArray data built

theorem interops (hplain : factory.Plain) (type : HostType) (values : List ObjectId)
    (built : List FactoryMethod) :
    ((factory.interops type values).run built).1 = (Interop.ofAll type values).map .interop := by
  induction values generalizing built with
  | nil => rfl
  | cons o os ih =>
      show ((factory.interop (.ofRef ⟨o, type⟩)).run built).1 ::
        ((factory.interops type os).run _).1 = _
      rw [hplain.interop, ih]
      rfl

end Plain

end ItemFactory

theorem ItemFactory.Plain.assemble {a : Accessor} (hplain : a.factory.Plain) {call : Call}
    {item : Item} (hitem : call.item? = some item) :
    ∃ build, a.assemble? call = some build ∧ ∀ built, (build.run built).1 = item := by
  cases call with
  | push value =>
      cases hitem
      exact ⟨_, rfl, hplain.toItem value⟩
  | pushInterop value =>
      cases hitem
      exact ⟨_, rfl, hplain.interop (.ofRef value)⟩
  | pushInteropArray type values =>
      cases hitem
      refine ⟨_, rfl, ?_⟩
      intro built
      show ((a.factory.array ((a.factory.interops type values).run built).1).run _).1 = _
      rw [hplain.array, hplain.interops]
  | peek _ | pop _ => cases hitem

/-- A push that finds room. -/
theorem Operation.run_push_plain {a : Accessor} (hplain : a.factory.Plain) {call : Call}
    {item : Item} (hitem : call.item? = some item) {m : Machine} {items : List Item}
    {maxSize : Nat} (hstack : m.stack = .ofTop items maxSize) (hroom : items.length < maxSize) :
    let step := (Operation.call a call).run m
    step.1 = .ok .done ∧ step.2.stack = .ofTop (item :: items) maxSize ∧
      step.2.heap = m.heap.retain (call.copies.map Interop.object) := by
  obtain ⟨build, hbuild, hbuilt⟩ := hplain.assemble hitem
  rw [Operation.run_push hbuild]
  dsimp only
  rw [hbuilt, hstack, Stack.push_ofTop, if_pos hroom]
  exact ⟨rfl, rfl, rfl⟩

/-- A pop that finds an item. -/
theorem Operation.run_pop_ofTop (a : Accessor) (how : Pop) {m : Machine} {item : Item}
    {items : List Item} {maxSize : Nat} (hstack : m.stack = .ofTop (item :: items) maxSize) :
    let step := (Operation.call a (.pop how)).run m
    step.1 = how.reply item ∧ step.2.stack = .ofTop items maxSize ∧
      step.2.heap = m.heap.release ((how.leftover item).map Interop.object) := by
  rw [Operation.run_pop, hstack, Stack.pop_ofTop_cons]
  exact ⟨rfl, rfl, rfl⟩

end HostStack
