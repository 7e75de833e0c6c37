import HostStack.Access.Program
import HostStack.Proofs.Access.Effect

/-!
# The stack as a bounded list

All that a program sees of its stack is a list with a bound. A push puts one item in front of the
list, or is refused when the list is as long as the bound. A removal takes the first item, whatever
comes of it, and is refused when there is none. Nothing else changes the list, except for clearing
it. So the list never grows beyond the bound, and as long as a program does not go below some of
the items, these stay where they are.
-/

namespace HostStack

/-- Items from the top, and how many there may be. -/
structure Bounded where
  items : List Item
  bound : Nat

def Stack.bounded (s : Stack) : Bounded :=
  ⟨s.fromTop, s.maxSize⟩

/-! ### What operations do to a bounded list -/

/-- An operation pushes an item: the one that it is given, or one that its factory builds. -/
inductive Operation.Makes : Operation → Item → Prop
  | call {a : Accessor} {call : Call} {build : Build Item} (hbuild : a.assemble? call = some build)
      (built : List FactoryMethod) : Makes (.call a call) (build.run built).1
  | direct (item : Item) : Makes (.direct (.push item)) item

/-- How a removal ends, as the item that it has taken has it; nothing for other operations. -/
def Operation.takes? : Operation → Option (Item → Except AccessError Reply)
  | .call _ (.pop how) => some fun item => how.reply item
  | .direct .pop => some fun item => .ok (.extracted (.item item))
  | _ => none

/-- How an operation ends that leaves the stack alone; nothing for other operations. -/
def Operation.sees? : Operation → Option (Bounded → Except AccessError Reply)
  | .call _ (.peek how) => some fun l => .ok (how.reply (.ofTop l.items l.bound))
  | .direct (.peek depth) => some fun l =>
    match l.items[depth]? with
    | some item => .ok (.extracted (.item item))
    | none => .error (.stack .underflow)
  | .direct (.host _) => some fun _ => .ok .done
  | _ => none

namespace Bounded

/-- One operation: the list before, how the operation ends, and the list afterwards. -/
inductive Step : Operation → Bounded → Except AccessError Reply → Bounded → Prop
  | pushed {op item items bound} : op.Makes item → items.length < bound →
      Step op ⟨items, bound⟩ (.ok .done) ⟨item :: items, bound⟩
  | overflow {op item items bound} : op.Makes item → bound ≤ items.length →
      Step op ⟨items, bound⟩ (.error (.stack (.overflow bound))) ⟨items, bound⟩
  | popped {op ending item items bound} : op.takes? = some ending →
      Step op ⟨item :: items, bound⟩ (ending item) ⟨items, bound⟩
  | underflow {op ending bound} : op.takes? = some ending →
      Step op ⟨[], bound⟩ (.error (.stack .underflow)) ⟨[], bound⟩
  | cleared {items bound} : Step (.direct .clear) ⟨items, bound⟩ (.ok .done) ⟨[], bound⟩
  | looked {op view l} : op.sees? = some view → Step op l (view l) l

/-- Some operations, one after the other. -/
inductive Steps : List Operation → Bounded → List (Except AccessError Reply) → Bounded → Prop
  | nil {l} : Steps [] l [] l
  | cons {op ops l result l' results l''} : Step op l result l' → Steps ops l' results l'' →
      Steps (op :: ops) l (result :: results) l''

end Bounded

/-! ### The machine does it -/

@[simp]
theorem Stack.bounded_ofTop (items : List Item) (maxSize : Nat) :
    (Stack.ofTop items maxSize).bounded = ⟨items, maxSize⟩ := by
  rw [Stack.bounded, Stack.fromTop_ofTop, Stack.maxSize_ofTop]

theorem Operation.run_finish {op : Operation} {m m' : Machine}
    {result : Except AccessError Reply} (h : op.perform.run m = m'.finish result) :
    op.run m = (result, m') := by
  rw [Operation.run, h]
  cases result with
  | ok reply => rfl
  | error e => rfl

/-- Whatever puts an item on the stack, it does so in the same way. -/
theorem Operation.step_push {op : Operation} {m : Machine} {item : Item} (ready : Machine)
    (hmakes : op.Makes item)
    (hrun : op.perform.run m =
      match m.stack.push item with
      | .ok stack => .ok .done { ready with stack }
      | .error cause => .error (.stack cause) (ready.refusedPush item))
    (hready : ready.stack = m.stack) :
    Bounded.Step op m.stack.bounded (op.run m).1 (op.run m).2.stack.bounded := by
  obtain ⟨items, maxSize, hstack⟩ := m.stack.exists_ofTop
  rw [hstack, Stack.push_ofTop] at hrun
  rw [hstack, Stack.bounded_ofTop]
  by_cases hroom : items.length < maxSize
  · rw [if_pos hroom] at hrun
    have hpushed : op.run m = (.ok .done, { ready with stack := .ofTop (item :: items) maxSize }) :=
      Operation.run_finish hrun
    rw [hpushed, Stack.bounded_ofTop]
    exact .pushed hmakes hroom
  · rw [if_neg hroom] at hrun
    have hrefused : op.run m = (.error (.stack (.overflow maxSize)), ready.refusedPush item) :=
      Operation.run_finish hrun
    have hsame : (ready.refusedPush item).stack = .ofTop items maxSize := hready.trans hstack
    rw [hrefused, hsame, Stack.bounded_ofTop]
    exact .overflow hmakes (Nat.not_lt.1 hroom)

/-- Whatever takes the top item, it is gone afterwards, or there was none. -/
theorem Operation.step_take {op : Operation} {m : Machine}
    {ending : Item → Except AccessError Reply} (htakes : op.takes? = some ending)
    (after : Item → Stack → Machine) (hafter : ∀ item stack, (after item stack).stack = stack)
    (hrun : op.perform.run m =
      match m.stack.pop with
      | .error cause => .error (.stack cause) m.refusedPop
      | .ok (item, stack) => (after item stack).finish (ending item)) :
    Bounded.Step op m.stack.bounded (op.run m).1 (op.run m).2.stack.bounded := by
  obtain ⟨items, maxSize, hstack⟩ := m.stack.exists_ofTop
  rw [hstack] at hrun
  rw [hstack, Stack.bounded_ofTop]
  cases items with
  | nil =>
      rw [Stack.pop_ofTop_nil] at hrun
      have hrefused : op.run m = (.error (.stack .underflow), m.refusedPop) :=
        Operation.run_finish hrun
      have hsame : m.refusedPop.stack = .ofTop [] maxSize := hstack
      rw [hrefused, hsame, Stack.bounded_ofTop]
      exact .underflow htakes
  | cons item rest =>
      rw [Stack.pop_ofTop_cons] at hrun
      rw [Operation.run_finish hrun, hafter, Stack.bounded_ofTop]
      exact .popped htakes

theorem Operation.step_look {op : Operation} {m : Machine}
    {view : Bounded → Except AccessError Reply} (hsees : op.sees? = some view) (m' : Machine)
    (hrun : op.perform.run m = m'.finish (view m.stack.bounded)) (hsame : m'.stack = m.stack) :
    Bounded.Step op m.stack.bounded (op.run m).1 (op.run m).2.stack.bounded := by
  rw [Operation.run_finish hrun, hsame]
  exact .looked hsees

theorem Direct.step (operation : Direct) (m : Machine) :
    Bounded.Step (.direct operation) m.stack.bounded
      ((Operation.direct operation).run m).1 ((Operation.direct operation).run m).2.stack.bounded := by
  cases operation with
  | push item =>
      refine Operation.step_push m (.direct item) ?_ rfl
      simp only [Operation.perform, Direct.perform, EStateM.run_bind, Access.pushItem_run]
      cases m.stack.push item with
      | ok stack => rfl
      | error cause => rfl
  | pop =>
      refine Operation.step_take rfl (fun _ stack => { m with stack }) (fun _ _ => rfl) ?_
      simp only [Operation.perform, Direct.perform, EStateM.run_bind, Access.takeItem_run]
      cases m.stack.pop with
      | ok top => rfl
      | error cause => rfl
  | peek depth =>
      refine Operation.step_look rfl m ?_ rfl
      obtain ⟨heap, stack, events, built⟩ := m
      obtain ⟨items, maxSize, rfl⟩ := stack.exists_ofTop
      rw [Stack.bounded_ofTop]
      simp only [Operation.perform, Direct.perform, EStateM.run_bind, EStateM.run_get,
        Stack.peek_ofTop]
      cases items[depth]? with
      | some item => rfl
      | none => rfl
  | clear => exact .cleared
  | host change => exact Operation.step_look rfl { m with heap := change m.heap } rfl rfl

theorem Accessor.step_push {a : Accessor} {call : Call} {build : Build Item}
    (hbuild : a.assemble? call = some build) (m : Machine) :
    Bounded.Step (.call a call) m.stack.bounded ((Operation.call a call).run m).1
      ((Operation.call a call).run m).2.stack.bounded :=
  Operation.step_push _ (.call hbuild m.built) (Accessor.perform_push_run hbuild m) rfl

/-- One operation of the machine is one operation on the list. -/
theorem Operation.step (op : Operation) (m : Machine) :
    Bounded.Step op m.stack.bounded (op.run m).1 (op.run m).2.stack.bounded := by
  cases op with
  | direct operation => exact operation.step m
  | call a wanted =>
      cases wanted with
      | push value | pushInterop value | pushInteropArray type values =>
          exact Accessor.step_push rfl m
      | peek how =>
          have hview : how.reply (.ofTop m.stack.bounded.items m.stack.bounded.bound) =
              how.reply m.stack := by
            rw [Stack.bounded, Stack.ofTop_fromTop]
          have hrun := how.perform_run m
          rw [← hview] at hrun
          exact Operation.step_look rfl _ hrun rfl
      | pop how => exact Operation.step_take rfl _ (fun _ _ => rfl) (how.perform_run m)

/-! ### Programs -/

theorem Operation.runAll_cons (op : Operation) (ops : List Operation) (m : Machine) :
    Operation.runAll (op :: ops) m =
      ((op.run m).1 :: (Operation.runAll ops (op.run m).2).1,
        (Operation.runAll ops (op.run m).2).2) := rfl

theorem Operation.runAll_append (xs ys : List Operation) (m : Machine) :
    Operation.runAll (xs ++ ys) m =
      ((Operation.runAll xs m).1 ++ (Operation.runAll ys (Operation.runAll xs m).2).1,
        (Operation.runAll ys (Operation.runAll xs m).2).2) := by
  induction xs generalizing m with
  | nil => rfl
  | cons op rest ih =>
      rw [List.cons_append, Operation.runAll_cons, Operation.runAll_cons, ih]
      rfl

theorem Phase.operations_eq (phase : Phase) (s t : Stack) :
    phase.operations s = phase.operations t := by
  cases phase with
  | direct operation => rfl
  | lifetime binding factory scriptHash calls =>
      cases binding with
      | context => rfl
      | stack => rfl

/-- Where one lifetime ends and another begins makes no difference. -/
theorem Phase.runAll_eq (stack : Stack) (phases : List Phase) (m : Machine) :
    Phase.runAll phases m = Operation.runAll (Phase.operationsOf stack phases) m := by
  induction phases generalizing m with
  | nil => rfl
  | cons phase rest ih =>
      have hsplit : Phase.operationsOf stack (phase :: rest) =
          phase.operations m.stack ++ Phase.operationsOf stack rest := by
        rw [Phase.operationsOf, List.flatMap_cons, phase.operations_eq stack m.stack]
        rfl
      rw [hsplit, Operation.runAll_append, ← ih]
      rfl

theorem Operation.steps (ops : List Operation) (m : Machine) :
    Bounded.Steps ops m.stack.bounded (Operation.runAll ops m).1
      (Operation.runAll ops m).2.stack.bounded := by
  induction ops generalizing m with
  | nil => exact .nil
  | cons op rest ih => exact .cons (op.step m) (ih _)

namespace Bounded

variable {op : Operation} {ops : List Operation} {l l' : Bounded}
  {result : Except AccessError Reply} {results : List (Except AccessError Reply)}

theorem Step.bound_eq (h : Step op l result l') : l'.bound = l.bound := by
  cases h <;> rfl

theorem Steps.bound_eq (h : Steps ops l results l') : l'.bound = l.bound := by
  induction h with
  | nil => rfl
  | cons hstep _ ih => rw [ih, hstep.bound_eq]

theorem Step.length_le (h : Step op l result l') (hl : l.items.length ≤ l.bound) :
    l'.items.length ≤ l'.bound := by
  cases h with
  | pushed _ hroom => exact hroom
  | overflow _ _ => exact hl
  | popped _ => exact Nat.le_of_succ_le hl
  | underflow _ => exact hl
  | cleared => exact Nat.zero_le _
  | looked _ => exact hl

theorem Steps.length_le (h : Steps ops l results l') (hl : l.items.length ≤ l.bound) :
    l'.items.length ≤ l'.bound := by
  induction h with
  | nil => exact hl
  | cons hstep _ ih => exact ih (hstep.length_le hl)

/-- As many items at the bottom as there are before and afterwards are the same. -/
theorem Step.bottom_eq (h : Step op l result l') {n : Nat} (hbefore : n ≤ l.items.length)
    (hafter : n ≤ l'.items.length) : l'.items.reverse.take n = l.items.reverse.take n := by
  cases h with
  | @pushed _ item items bound _ _ =>
      rw [List.reverse_cons, List.take_append_of_le_length]
      rw [List.length_reverse]
      exact hbefore
  | overflow _ _ => rfl
  | @popped _ _ item items bound _ =>
      rw [List.reverse_cons, List.take_append_of_le_length]
      rw [List.length_reverse]
      exact hafter
  | underflow _ => rfl
  | cleared =>
      rw [Nat.le_zero.1 hafter, List.take_zero, List.take_zero]
  | looked _ => rfl

end Bounded

theorem Stack.length_bounded (s : Stack) : s.bounded.items.length = s.size :=
  s.length_fromTop

theorem Stack.reverse_bounded (s : Stack) : s.bounded.items.reverse = s.toList := by
  rw [Stack.bounded, Stack.fromTop, List.reverse_reverse]

/-- The items that a run never goes below are the same afterwards. The induction is on the run; the
stack before each operation and after it has all of them. -/
theorem Operation.bottom_eq {ops : List Operation} {m : Machine} {n : Nat}
    (habove : ∀ k, n ≤ (Operation.runAll (ops.take k) m).2.stack.size) :
    (Operation.runAll ops m).2.stack.toList.take n = m.stack.toList.take n := by
  induction ops generalizing m with
  | nil => rfl
  | cons op rest ih =>
      have hstep := op.step m
      have hbefore : n ≤ m.stack.size := habove 0
      have hafter : n ≤ (op.run m).2.stack.size := habove 1
      have hbottom := hstep.bottom_eq (n := n) (by rwa [Stack.length_bounded])
        (by rwa [Stack.length_bounded])
      rw [Stack.reverse_bounded, Stack.reverse_bounded] at hbottom
      have hrest := ih (m := (op.run m).2) fun k => habove (k + 1)
      exact hrest.trans hbottom

/-- A run that never goes below the items it starts with, and ends with as many, ends on the stack
it started on. -/
theorem Operation.bracket_eq {ops : List Operation} {m : Machine}
    (habove : ∀ k, m.stack.size ≤ (Operation.runAll (ops.take k) m).2.stack.size)
    (hend : (Operation.runAll ops m).2.stack.size = m.stack.size) :
    (Operation.runAll ops m).2.stack = m.stack := by
  have hbottom := Operation.bottom_eq habove
  have hbound : (Operation.runAll ops m).2.stack.maxSize = m.stack.maxSize :=
    (Operation.steps ops m).bound_eq
  have hall : ∀ s : Stack, s.size = m.stack.size → s.toList.take m.stack.size = s.toList :=
    fun s hs => List.take_of_length_le (Nat.le_of_eq hs)
  rw [hall _ hend, hall _ rfl] at hbottom
  rw [← (Operation.runAll ops m).2.stack.ofTop_fromTop, ← m.stack.ofTop_fromTop, Stack.fromTop,
    hbottom, hbound]
  rfl

/-- Whatever a program does, its stack is a bounded list, from the empty one on. So it never has
more items than it may, how many these are never changes, and a part of a program that never goes
below the items it starts with, and ends with as many, ends with the same ones. -/
theorem Phase.bounded_lifo (config : StackConfig) (program : List Phase) :
    let start := Machine.ofConfig config
    let m := (Phase.runAll program start).2
    Bounded.Steps (Phase.operationsOf start.stack program) ⟨[], config.maxStackSize⟩
        (Phase.runAll program start).1 m.stack.bounded ∧
      m.stack.maxSize = config.maxStackSize ∧ m.stack.size ≤ config.maxStackSize ∧
      ∀ rest : List Phase,
        (∀ k, m.stack.size ≤
          (Operation.runAll ((Phase.operationsOf m.stack rest).take k) m).2.stack.size) →
        (Phase.runAll rest m).2.stack.size = m.stack.size →
        (Phase.runAll rest m).2.stack.toList = m.stack.toList := by
  intro start m
  have hsteps := Operation.steps (Phase.operationsOf start.stack program) start
  rw [← Phase.runAll_eq start.stack program start] at hsteps
  have hbound : m.stack.maxSize = config.maxStackSize := hsteps.bound_eq
  have hlength := hsteps.length_le (Nat.zero_le _)
  refine ⟨hsteps, hbound, ?_, ?_⟩
  · rw [← hbound, ← Stack.length_bounded]
    exact hlength
  · intro rest habove hend
    rw [Phase.runAll_eq m.stack rest m] at hend ⊢
    rw [Operation.bracket_eq habove hend]

/-- A push into the last place, a push that is refused, and a removal that finds another kind. -/
theorem Phase.bounded_lifo_bracket :
    let m := (Phase.runAll [.direct (.push (.integer 7))] (.ofConfig ⟨2, 0⟩)).2
    let rest := [Phase.lifetime .context .standard .zero [.push (.boolean true)],
      .lifetime .stack .standard .zero [.push (.boolean false), .pop .integer]]
    m.stack.size = 1 ∧ (Phase.runAll rest m).1.length = 3 ∧
      (Phase.runAll rest m).2.stack.toList = m.stack.toList := by
  intro m rest
  have habove : ∀ k, 1 ≤
      (Operation.runAll ((Phase.operationsOf m.stack rest).take k) m).2.stack.size := by
    intro k
    match k with
    | 0 | 1 | 2 => decide
    | k + 3 =>
        have htake : (Phase.operationsOf m.stack rest).take (k + 3) =
            Phase.operationsOf m.stack rest :=
          List.take_of_length_le (Nat.le_add_left 3 k)
        rw [htake]
        decide
  exact ⟨rfl, rfl, (Phase.bounded_lifo ⟨2, 0⟩ [.direct (.push (.integer 7))]).2.2.2 rest habove rfl⟩

end HostStack
