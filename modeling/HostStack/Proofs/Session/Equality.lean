import HostStack.Proofs.Access.Moves
import HostStack.Proofs.Access.Replay
import HostStack.Proofs.Item.Equality
import HostStack.Proofs.Session.Items

/-!
# Stacks that cannot be told apart

Where stacks are equal item by item, an accessor does the same on both. Equality looks at less than
an accessor does, since a removal compares the type in a wrapper and equality does not. What closes
the gap is that the items of one session are typed by one heap. The object of a wrapper settles
its type and its name there, so items that are equal are the same, and so are stacks.

From then on the two are the same whatever is done to both. How a call ends and what it leaves on
the stack and in the log is settled by the stack alone; the heap has no say in it, so it does not
matter if one run comes after the other and finds other counts.
-/

namespace HostStack

/-! ### Calls see nothing but the stack -/

theorem Accessor.call_sees {a : Accessor} (hs : a.factory.Steady) (call : Call) {m m' : Machine}
    (hstack : m.stack = m'.stack) :
    let step := (Operation.call a call).run m
    let step' := (Operation.call a call).run m'
    step.1 = step'.1 ∧ step.2.stack = step'.2.stack ∧ a.log call m = a.log call m' := by
  obtain ⟨heap, stack, events, built⟩ := m
  obtain ⟨heap', stack', events', built'⟩ := m'
  obtain rfl : stack = stack' := hstack
  rcases a.assemble?_cases call with ⟨build, hbuild⟩ | ⟨how, rfl⟩ | ⟨how, rfl⟩
  · rw [Operation.run_push hbuild, Operation.run_push hbuild, Accessor.log_push hbuild,
      Accessor.log_push hbuild]
    dsimp only
    rw [Accessor.assemble_steady hs hbuild built built']
    generalize (build.run built').1 = item
    cases stack.push item with
    | ok stack => exact ⟨rfl, rfl, rfl⟩
    | error cause => exact ⟨rfl, rfl, rfl⟩
  · rw [Operation.run_peek, Operation.run_peek]
    exact ⟨rfl, rfl, rfl⟩
  · rw [Operation.run_pop, Operation.run_pop]
    refine ⟨?_, ?_, rfl⟩
    · cases stack.pop <;> rfl
    · cases stack.pop <;> rfl

/-- Two runs of the same calls that start on the same stack. -/
theorem Operation.runAll_sees {calls : List (Accessor × Call)}
    (hs : ∀ use ∈ calls, use.1.factory.Steady) {m m' : Machine} (hstack : m.stack = m'.stack) :
    let run := Operation.runAll (Operation.ofCalls calls) m
    let run' := Operation.runAll (Operation.ofCalls calls) m'
    run.1 = run'.1 ∧ run.2.stack = run'.2.stack ∧
      ∃ events, run.2.events = m.events ++ events ∧ run'.2.events = m'.events ++ events := by
  induction calls generalizing m m' with
  | nil => exact ⟨rfl, hstack, [], (List.append_nil _).symm, (List.append_nil _).symm⟩
  | cons use rest ih =>
      obtain ⟨a, call⟩ := use
      obtain ⟨hresult, hnext, hlog⟩ :=
        Accessor.call_sees (hs _ List.mem_cons_self) call hstack
      obtain ⟨hresults, hend, events, hevents, hevents'⟩ :=
        ih (fun use huse => hs use (List.mem_cons_of_mem _ huse)) hnext
      have hcons : Operation.ofCalls ((a, call) :: rest) =
          .call a call :: Operation.ofCalls rest := rfl
      rw [hcons, Operation.runAll_cons, Operation.runAll_cons]
      refine ⟨?_, hend, a.log call m ++ events, ?_, ?_⟩
      · rw [hresult, hresults]
      · rw [hevents, a.events_eq, List.append_assoc]
      · rw [hevents', a.events_eq, ← hlog, List.append_assoc]

theorem Stack.sameItems_self (s : Stack) : s.sameItems s = true :=
  (Stack.sameItems_iff s s).2 (Item.same_refl _)

namespace Session

variable {s : Session}

/-- Stacks of a session that are equal item by item, and may have as many items, are the same. -/
theorem Arises.stack_eq (h : s.Arises) {x y : Stack} (hx : ∀ item ∈ x.toList, s.HasItem item)
    (hy : ∀ item ∈ y.toList, s.HasItem item) (hmax : x.maxSize = y.maxSize)
    (hsame : x.sameItems y = true) : x = y := by
  have htypes : ∀ {stack : Stack}, (∀ item ∈ stack.toList, s.HasItem item) →
      ∀ w ∈ (Item.array stack.toList).leaves, s.heap.Types w := by
    intro stack hstack w hw
    rw [Item.leaves, Item.leavesOfAll_eq_flatMap] at hw
    obtain ⟨item, hmem, hw⟩ := List.mem_flatMap.1 hw
    exact (hstack item hmem).types h w hw
  have harrays := ((Stack.sameItems_iff x y).1 hsame).eq (htypes hx) (htypes hy)
  injection harrays with hitems
  obtain ⟨xs, max⟩ := x
  obtain ⟨ys, max'⟩ := y
  obtain rfl : max = max' := hmax
  obtain rfl : xs = ys := Array.toList_inj.1 hitems
  rfl

/-- What it means in a session that items are equal. -/
structure EqualityTells (s : Session) : Prop where
  refl : ∀ a : Item, (a == a) = true
  symm : ∀ a b : Item, (a == b) = true → (b == a) = true
  trans : ∀ a b c : Item, (a == b) = true → (b == c) = true → (a == c) = true
  same : ∀ a b : Item, (a == b) = true ↔ a.Same b
  kind : ∀ a b : Item, (a == b) = true → a.kind = b.kind
  /-- What a host object was made with plays no part. -/
  identity : ∀ v w : Interop, (Item.interop v == Item.interop w) = true ↔ v.object = w.object
  /-- Items of the session have the same wrappers then, with the same names at the same places. -/
  identical : ∀ a b, s.HasItem a → s.HasItem b → (a == b) = true → a = b
  /-- Whatever is done to both of two equal stacks ends in the same way, and is logged in the same
  way, and they are equal stacks afterwards. -/
  congruence : ∀ x y : Stack, (∀ item ∈ x.toList, s.HasItem item) →
    (∀ item ∈ y.toList, s.HasItem item) → x.maxSize = y.maxSize → x.sameItems y = true →
    ∀ calls : List (Accessor × Call), (∀ use ∈ calls, use.1.factory.Steady) →
    ∀ m m' : Machine, m.stack = x → m'.stack = y →
      let run := Operation.runAll (Operation.ofCalls calls) m
      let run' := Operation.runAll (Operation.ofCalls calls) m'
      run.1 = run'.1 ∧
        (∃ events, run.2.events = m.events ++ events ∧ run'.2.events = m'.events ++ events) ∧
        run.2.stack.sameItems run'.2.stack = true ∧ run.2.stack.maxSize = run'.2.stack.maxSize

theorem Arises.equality_tells (h : s.Arises) : s.EqualityTells where
  refl a := (Item.beq_iff_same a a).2 a.same_refl
  symm a b hab := (Item.beq_iff_same b a).2 ((Item.beq_iff_same a b).1 hab).symm
  trans a b c hab hbc := by
    rw [Item.beq_iff_same] at hab hbc ⊢
    exact hab.trans hbc
  same := Item.beq_iff_same
  kind a b hab := ((Item.beq_iff_same a b).1 hab).kind_eq
  identity v w := by
    rw [Item.beq_iff_same]
    constructor
    · intro hsame
      cases hsame with
      | interop hobject => exact hobject
    · exact .interop
  identical a b ha hb hab := ((Item.beq_iff_same a b).1 hab).eq (ha.types h) (hb.types h)
  congruence x y hx hy hmax hsame calls hs m m' hm hm' := by
    have hstack : m.stack = m'.stack := by rw [hm, hm', h.stack_eq hx hy hmax hsame]
    obtain ⟨hresults, hend, hevents⟩ := Operation.runAll_sees hs hstack
    refine ⟨hresults, hevents, ?_, ?_⟩
    · rw [hend]
      exact Stack.sameItems_self _
    · rw [hend]

/-- Two objects that were made alike. On the stack and on a save lies an array with the first one,
which was put together twice. -/
def twins : Session :=
  ((start .standard .zero default .stack).run
    [.create "a" (.host "T") .unit, .create "b" (.host "T") .unit,
      .stackPush (.array [.object "a", .integer 3]), .save "x", .clear,
      .stackPush (.array [.object "a", .integer 3])]).2

theorem twins_arises : twins.Arises :=
  (Arises.start ItemFactory.standard_conserves .zero default .stack).run _

theorem equality_tells_twins :
    let save : Stack := ⟨#[.array [.interop (.ofRef ⟨⟨0⟩, .host "T"⟩), .integer 3]], 2048⟩
    let calls : List (Accessor × Call) := [(.ofStack .standard .zero, .pop (.array (.host "T")))]
    let run := Operation.runAll (Operation.ofCalls calls) twins.machine
    let run' := Operation.runAll (Operation.ofCalls calls) { run.2 with stack := save }
    twins.Arises ∧ twins.saves.get? "x" = some save ∧ twins.stack.sameItems save = true ∧
      run.1 = [.ok (.references (some [⟨⟨0⟩, .host "T"⟩]))] ∧ run.1 = run'.1 ∧
      (Item.interop (.ofRef ⟨⟨0⟩, .host "T"⟩) == Item.interop (.ofRef ⟨⟨1⟩, .host "T"⟩)) = false ∧
      twins.EqualityTells := by
  have hpop : (Operation.runAll (Operation.ofCalls
      [(Accessor.ofStack .standard .zero, .pop (.array (.host "T")))]) twins.machine).1 =
      [.ok (.references (some [⟨⟨0⟩, .host "T"⟩]))] := by cbv
  intro save calls run run'
  have hsave : twins.saves.get? "x" = some save := by cbv
  have hmax : twins.stack.maxSize = save.maxSize := by cbv
  have hsame : twins.stack.sameItems save = true := by cbv
  have hsteady : ∀ use ∈ calls, use.1.factory.Steady := by
    intro use huse
    rw [List.mem_singleton.1 huse]
    exact ItemFactory.standard_steady
  have htells := twins_arises.equality_tells
  have hrun := htells.congruence twins.stack save (HasStack.items .active)
    (HasStack.items (.save hsave)) hmax hsame calls hsteady twins.machine
    { run.2 with stack := save } twins.machine_stack rfl
  exact ⟨twins_arises, hsave, hsame, hpop, hrun.1, rfl, htells⟩

end Session

end HostStack
