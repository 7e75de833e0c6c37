import HostStack.Proofs.Access.Log
import HostStack.Proofs.Stack.Bounded

/-!
# Recording what is built

A factory that records its calls and leaves the building to the standard one is not noticed. It
builds the same items, and nothing but the log of the factory ever depends on it: two runs that
start on machines with different logs of this kind see the same results, and end on machines that
differ in nothing else.

What is recorded is settled by the calls alone. A native value is one call, and so is a reference;
an array is one call for each reference, and one for the array, even where there is none to wrap.
Nothing else that is done asks the factory, so whatever lies on the stack was there before, was put
there directly, or was built by a factory down to the elements of its arrays.
-/

namespace HostStack

/-! ### What the calls ask for -/

def Native.method : Native → FactoryMethod
  | .boolean _ => .boolean
  | .integer _ _ _ => .integer
  | .bytes _ _ => .byteArray

/-- The methods that a call asks the factory for, in order. -/
def Call.methods : Call → List FactoryMethod
  | .push value => [value.method]
  | .pushInterop _ => [.interop]
  | .pushInteropArray _ values => List.replicate values.length .interop ++ [.array]
  | .peek _ | .pop _ => []

namespace Operation

def methods : Operation → List FactoryMethod
  | .call _ wanted => wanted.methods
  | .direct _ => []

/-- The operation with another factory. What is done without an accessor needs none. -/
def through (factory : ItemFactory) : Operation → Operation
  | .call a wanted => .call { a with factory } wanted
  | .direct operation => .direct operation

end Operation

/-! ### What factories build -/

/-- Two ways to build the same thing. The first notes nothing, the second some calls. -/
def Notes {α : Type} (calls : List FactoryMethod) (plain noted : Build α) : Prop :=
  ∃ a, ∀ built, plain.run built = (a, built) ∧ noted.run built = (a, built ++ calls)

theorem Notes.pure {α : Type} (a : α) : Notes [] (pure a) (pure a) :=
  ⟨a, fun built => ⟨rfl, by rw [List.append_nil]; rfl⟩⟩

theorem Notes.bind {α β : Type} {calls more : List FactoryMethod} {plain noted : Build α}
    {next next' : α → Build β} (h : Notes calls plain noted)
    (hnext : ∀ a, Notes more (next a) (next' a)) :
    Notes (calls ++ more) (plain >>= next) (noted >>= next') := by
  obtain ⟨a, hrun⟩ := h
  obtain ⟨b, hmore⟩ := hnext a
  refine ⟨b, fun built => ⟨?_, ?_⟩⟩
  · rw [StateT.run_bind, (hrun built).1]
    exact (hmore built).1
  · rw [StateT.run_bind, (hrun built).2, ← List.append_assoc]
    exact (hmore _).2

namespace ItemFactory

theorem notes_interop (w : Interop) :
    Notes [.interop] (standard.interop w) ((recording standard).interop w) :=
  ⟨.interop w, fun _ => ⟨rfl, rfl⟩⟩

theorem notes_array (items : List Item) :
    Notes [.array] (standard.array items) ((recording standard).array items) :=
  ⟨.array items, fun _ => ⟨rfl, rfl⟩⟩

theorem notes_toItem (value : Native) :
    Notes [value.method] (value.toItem standard) (value.toItem (recording standard)) := by
  cases value with
  | boolean value => exact ⟨.boolean value, fun _ => ⟨rfl, rfl⟩⟩
  | integer type value h => exact ⟨.integer value, fun _ => ⟨rfl, rfl⟩⟩
  | bytes form data => exact ⟨.byteArray data, fun _ => ⟨rfl, rfl⟩⟩

theorem notes_interops (type : HostType) (values : List ObjectId) :
    Notes (List.replicate values.length .interop) (standard.interops type values)
      ((recording standard).interops type values) := by
  induction values with
  | nil => exact .pure []
  | cons o os ih =>
      rw [List.length_cons, List.replicate_succ, ← List.singleton_append,
        ← List.append_nil (List.replicate os.length _)]
      exact (notes_interop _).bind fun _ => ih.bind fun _ => .pure _

/-- The items of a factory, whatever was built before. What an array is made of has to come from
the factory as well. -/
inductive Builds (factory : ItemFactory) : Item → Prop
  | boolean (value : Bool) (built : List FactoryMethod) :
      Builds factory ((factory.boolean value).run built).1
  | integer (value : Int) (built : List FactoryMethod) :
      Builds factory ((factory.integer value).run built).1
  | byteArray (bytes : List UInt8) (built : List FactoryMethod) :
      Builds factory ((factory.byteArray bytes).run built).1
  | interop (w : Interop) (built : List FactoryMethod) :
      Builds factory ((factory.interop w).run built).1
  | array {items : List Item} (hitems : ∀ item ∈ items, Builds factory item)
      (built : List FactoryMethod) : Builds factory ((factory.array items).run built).1

theorem builds_interops (factory : ItemFactory) (type : HostType) (values : List ObjectId)
    (built : List FactoryMethod) :
    ∀ item ∈ ((factory.interops type values).run built).1, factory.Builds item := by
  induction values generalizing built with
  | nil =>
      intro item hitem
      cases hitem
  | cons o os ih =>
      intro item hitem
      rcases List.mem_cons.1 hitem with rfl | hrest
      · exact .interop _ built
      · exact ih _ item hrest

end ItemFactory

theorem Accessor.builds_of_assemble {a : Accessor} {call : Call} {build : Build Item}
    (hbuild : a.assemble? call = some build) (built : List FactoryMethod) :
    a.factory.Builds (build.run built).1 := by
  cases call with
  | push value =>
      injection hbuild with hbuild
      subst hbuild
      cases value with
      | boolean value => exact .boolean value built
      | integer _ value _ => exact .integer value built
      | bytes _ data => exact .byteArray data built
  | pushInterop value =>
      injection hbuild with hbuild
      subst hbuild
      exact .interop (.ofRef value) built
  | pushInteropArray type values =>
      injection hbuild with hbuild
      subst hbuild
      exact .array (a.factory.builds_interops type values built) _
  | peek how => cases hbuild
  | pop how => cases hbuild

/-! ### Single operations -/

theorem Direct.run_push (item : Item) (m : Machine) :
    (Operation.direct (.push item)).run m =
      match m.stack.push item with
      | .ok stack => (.ok .done, { m with stack })
      | .error cause => (.error (.stack cause), m.refusedPush item) := by
  simp only [Operation.run, Operation.perform, Direct.perform, EStateM.run_bind,
    Access.pushItem_run]
  cases m.stack.push item with
  | ok stack => rfl
  | error cause => rfl

theorem Direct.run_pop (m : Machine) :
    (Operation.direct .pop).run m =
      match m.stack.pop with
      | .ok (item, stack) => (.ok (.extracted (.item item)), { m with stack })
      | .error cause => (.error (.stack cause), m.refusedPop) := by
  simp only [Operation.run, Operation.perform, Direct.perform, EStateM.run_bind,
    Access.takeItem_run]
  cases m.stack.pop with
  | ok top => rfl
  | error cause => rfl

theorem Direct.run_peek (depth : Nat) (m : Machine) :
    (Operation.direct (.peek depth)).run m =
      match m.stack.peek depth with
      | .ok item => (.ok (.extracted (.item item)), m)
      | .error cause => (.error (.stack cause), m) := by
  simp only [Operation.run, Operation.perform, Direct.perform, EStateM.run_bind, EStateM.run_get]
  cases m.stack.peek depth with
  | ok item => rfl
  | error cause => rfl

/-- What an operation without an accessor does has nothing to do with the factory. -/
theorem Direct.run_built (operation : Direct) (m : Machine) (built : List FactoryMethod) :
    let step := (Operation.direct operation).run m
    (Operation.direct operation).run { m with built } = (step.1, { step.2 with built }) ∧
      step.2.built = m.built := by
  cases operation with
  | push item =>
      rw [run_push, run_push]
      cases m.stack.push item with
      | ok stack => exact ⟨rfl, rfl⟩
      | error cause => exact ⟨rfl, rfl⟩
  | pop =>
      rw [run_pop, run_pop]
      cases m.stack.pop with
      | ok top => exact ⟨rfl, rfl⟩
      | error cause => exact ⟨rfl, rfl⟩
  | peek depth =>
      rw [run_peek, run_peek]
      cases m.stack.peek depth with
      | ok item => exact ⟨rfl, rfl⟩
      | error cause => exact ⟨rfl, rfl⟩
  | clear | host change => exact ⟨rfl, rfl⟩

theorem Accessor.notes_assemble (a : Accessor) {call : Call} {build : Build Item}
    (hbuild : { a with factory := .standard }.assemble? call = some build) :
    ∃ noted, { a with factory := .recording .standard }.assemble? call = some noted ∧
      Notes call.methods build noted := by
  cases call with
  | push value =>
      injection hbuild with hbuild
      subst hbuild
      exact ⟨_, rfl, ItemFactory.notes_toItem value⟩
  | pushInterop value =>
      injection hbuild with hbuild
      subst hbuild
      exact ⟨_, rfl, ItemFactory.notes_interop (.ofRef value)⟩
  | pushInteropArray type values =>
      injection hbuild with hbuild
      subst hbuild
      exact ⟨_, rfl, (ItemFactory.notes_interops type values).bind ItemFactory.notes_array⟩
  | peek how => cases hbuild
  | pop how => cases hbuild

/-- An operation through either factory, on machines whose logs of the factory may differ. -/
theorem Operation.run_recording (op : Operation) (m : Machine) (built : List FactoryMethod) :
    let step := (op.through .standard).run m
    (op.through (.recording .standard)).run { m with built } =
        (step.1, { step.2 with built := built ++ op.methods }) ∧
      step.2.built = m.built := by
  cases op with
  | direct operation =>
      rw [Operation.methods, List.append_nil]
      exact operation.run_built m built
  | call a wanted =>
      rcases { a with factory := .standard }.assemble?_cases wanted with
        ⟨build, hbuild⟩ | ⟨how, rfl⟩ | ⟨how, rfl⟩
      · obtain ⟨noted, hnoted, item, hitem⟩ := a.notes_assemble hbuild
        simp only [Operation.through, Operation.methods, Operation.run_push hbuild,
          Operation.run_push hnoted, (hitem m.built).1, (hitem built).2]
        cases m.stack.push item with
        | ok stack => exact ⟨rfl, rfl⟩
        | error cause => exact ⟨rfl, rfl⟩
      · simp only [Operation.through, Operation.run_peek, Operation.methods, Call.methods,
          List.append_nil, and_self]
      · simp only [Operation.through, Operation.run_pop, Operation.methods, Call.methods,
          List.append_nil]
        cases m.stack.pop with
        | ok top => exact ⟨rfl, rfl⟩
        | error cause => exact ⟨rfl, rfl⟩

/-! ### Runs -/

theorem Operation.runAll_recording (ops : List Operation) (m : Machine)
    (built : List FactoryMethod) :
    let plain := Operation.runAll (ops.map (·.through .standard)) m
    Operation.runAll (ops.map (·.through (.recording .standard))) { m with built } =
        (plain.1, { plain.2 with built := built ++ ops.flatMap Operation.methods }) ∧
      plain.2.built = m.built := by
  induction ops generalizing m built with
  | nil =>
      rw [List.flatMap_nil, List.append_nil]
      exact ⟨rfl, rfl⟩
  | cons op ops ih =>
      obtain ⟨hstep, hkept⟩ := op.run_recording m built
      obtain ⟨hrest, hend⟩ := ih ((op.through .standard).run m).2 (built ++ op.methods)
      simp only [List.map_cons, Operation.runAll_cons, hstep, hrest, List.flatMap_cons,
        List.append_assoc, hend]
      exact ⟨trivial, hkept⟩

/-- What is on the list afterwards was there before or was pushed. -/
theorem Bounded.Step.mem {op : Operation} {l l' : Bounded} {result : Except AccessError Reply}
    (h : Step op l result l') {item : Item} (hmem : item ∈ l'.items) :
    item ∈ l.items ∨ op.Makes item := by
  cases h with
  | pushed hmakes _ =>
      rcases List.mem_cons.1 hmem with rfl | hmem
      · exact .inr hmakes
      · exact .inl hmem
  | popped _ => exact .inl (List.mem_cons_of_mem _ hmem)
  | cleared => cases hmem
  | overflow _ _ | underflow _ | looked _ => exact .inl hmem

theorem Bounded.Steps.mem {ops : List Operation} {l l' : Bounded}
    {results : List (Except AccessError Reply)} (h : Steps ops l results l') {item : Item}
    (hmem : item ∈ l'.items) : item ∈ l.items ∨ ∃ op ∈ ops, op.Makes item := by
  induction h with
  | nil => exact .inl hmem
  | cons hstep _ ih =>
      rcases ih hmem with hbefore | ⟨op, hop, hmakes⟩
      · rcases hstep.mem hbefore with hbefore | hmakes
        · exact .inl hbefore
        · exact .inr ⟨_, List.mem_cons_self, hmakes⟩
      · exact .inr ⟨op, List.mem_cons_of_mem _ hop, hmakes⟩

theorem Operation.Makes.through {factory : ItemFactory} {op : Operation} {item : Item}
    (h : (op.through factory).Makes item) : op = .direct (.push item) ∨ factory.Builds item := by
  cases op with
  | direct operation =>
      cases h with
      | direct item => exact .inl rfl
  | call a wanted =>
      cases h with
      | call hbuild built => exact .inr (Accessor.builds_of_assemble hbuild built)

/-- A stack holds what it held before, what was pushed without an accessor, and what the factory
built. -/
theorem Operation.mem_runAll_through {factory : ItemFactory} {ops : List Operation} {m : Machine}
    {item : Item}
    (hmem : item ∈ (Operation.runAll (ops.map (·.through factory)) m).2.stack.toList) :
    item ∈ m.stack.toList ∨ .direct (.push item) ∈ ops ∨ factory.Builds item := by
  have hsteps := Operation.steps (ops.map (·.through factory)) m
  rcases hsteps.mem (List.mem_reverse.2 hmem) with hbefore | ⟨_, hthrough, hmakes⟩
  · exact .inl (List.mem_reverse.1 hbefore)
  · obtain ⟨op, hop, rfl⟩ := List.mem_map.1 hthrough
    rcases hmakes.through with rfl | hbuilds
    · exact .inr (.inl hop)
    · exact .inr (.inr hbuilds)

/-- A factory that records its calls makes no difference to any run, and records one call for each
value and each reference that is pushed, and one for each array. Whatever the factory is, an
accessor puts nothing on the stack that it did not build. -/
theorem Operation.recording_transparent (ops : List Operation) (m : Machine) :
    let plain := Operation.runAll (ops.map (·.through .standard)) m
    let recorded := Operation.runAll (ops.map (·.through (.recording .standard))) m
    recorded.1 = plain.1 ∧ recorded.2.stack = plain.2.stack ∧ recorded.2.heap = plain.2.heap ∧
      recorded.2.events = plain.2.events ∧ plain.2.built = m.built ∧
      recorded.2.built = m.built ++ ops.flatMap Operation.methods ∧
      ∀ factory, ∀ item ∈ (Operation.runAll (ops.map (·.through factory)) m).2.stack.toList,
        item ∈ m.stack.toList ∨ .direct (.push item) ∈ ops ∨ factory.Builds item := by
  intro plain recorded
  obtain ⟨hrecorded, hplain⟩ := Operation.runAll_recording ops m m.built
  have hrecorded : recorded = (plain.1,
      { plain.2 with built := m.built ++ ops.flatMap Operation.methods }) := hrecorded
  rw [hrecorded]
  exact ⟨rfl, rfl, rfl, rfl, hplain, rfl, fun factory item => Operation.mem_runAll_through⟩

end HostStack
