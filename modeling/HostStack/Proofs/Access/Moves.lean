import HostStack.Proofs.Access.Log
import HostStack.Proofs.Access.Trade

/-!
# Hosts at work

A host calls accessors, keeps what they hand out or lets go of it, and does what it likes with its
own references in between. It is fair if it only uses what it owns; then the heap counts the
references of host and stack at every time.

What a call does is settled by the stack and the heap. The logs play no part in it, nor does the log
of the factory, as long as the factory does not build differently because of it. So two runs that
start on the same stack and the same heap see the same things.
-/

namespace HostStack

open Heap (Trade)

/-! ### Hosts at work -/

/-- What a host does: a call, whose result it keeps or lets go of, or something with its own
references. -/
inductive Move where
  | call (a : Accessor) (call : Call) (keep : Bool)
  | own (change : Heap → Heap)

/-- What there is to see of a call. -/
structure Trace where
  call : Call
  keep : Bool
  result : Except AccessError Reply
  freed : List ObjectId
  events : List Event

namespace Move

/-- What is seen of a move, and the machine after it. -/
def run (m : Machine) : Move → Option Trace × Machine
  | .own change => (none, { m with heap := change m.heap })
  | .call a wanted keep =>
    let (result, m') := (Operation.call a wanted).run m
    let m' := if keep then m' else m'.released (Pop.out result)
    (some ⟨wanted, keep, result, m'.heap.freedSince m.heap, m'.events.drop m.events.length⟩, m')

def runAll : List Move → Machine → List Trace × Machine
  | [], m => ([], m)
  | move :: moves, m =>
    let (trace, m) := move.run m
    let (traces, m) := runAll moves m
    (trace.toList ++ traces, m)

theorem runAll_cons (move : Move) (moves : List Move) (m : Machine) :
    runAll (move :: moves) m =
      ((move.run m).1.toList ++ (runAll moves (move.run m).2).1,
        (runAll moves (move.run m).2).2) := rfl

theorem runAll_singleton (move : Move) (m : Machine) :
    runAll [move] m = ((move.run m).1.toList, (move.run m).2) := by
  rw [runAll_cons, runAll, List.append_nil]

theorem runAll_append (moves more : List Move) (m : Machine) :
    runAll (moves ++ more) m =
      ((runAll moves m).1 ++ (runAll more (runAll moves m).2).1,
        (runAll more (runAll moves m).2).2) := by
  induction moves generalizing m with
  | nil => rfl
  | cons move moves ih => rw [List.cons_append, runAll_cons, ih, runAll_cons, List.append_assoc]

end Move

/-! ### What a host may do -/

/-- What is built does not depend on what was built before. -/
def Steady {α : Type} (build : Build α) : Prop :=
  ∀ built built', (build.run built).1 = (build.run built').1

theorem Steady.bind {α β : Type} {build : Build α} {next : α → Build β} (hbuild : Steady build)
    (hnext : ∀ a, Steady (next a)) : Steady (build >>= next) := by
  intro built built'
  show ((next (build.run built).1).run _).1 = ((next (build.run built').1).run _).1
  rw [hbuild built built']
  exact hnext _ _ _

theorem Steady.pure {α : Type} (a : α) : Steady (pure a : Build α) :=
  fun _ _ => rfl

structure ItemFactory.Steady (factory : ItemFactory) : Prop where
  boolean : ∀ value, HostStack.Steady (factory.boolean value)
  integer : ∀ value, HostStack.Steady (factory.integer value)
  byteArray : ∀ bytes, HostStack.Steady (factory.byteArray bytes)
  interop : ∀ w, HostStack.Steady (factory.interop w)
  array : ∀ items, HostStack.Steady (factory.array items)

theorem ItemFactory.standard_steady : ItemFactory.standard.Steady where
  boolean _ _ _ := rfl
  integer _ _ _ := rfl
  byteArray _ _ _ := rfl
  interop _ _ _ := rfl
  array _ _ _ := rfl

theorem ItemFactory.Steady.recording {inner : ItemFactory} (hinner : inner.Steady) :
    (ItemFactory.recording inner).Steady where
  boolean value _ _ := hinner.boolean value _ _
  integer value _ _ := hinner.integer value _ _
  byteArray bytes _ _ := hinner.byteArray bytes _ _
  interop w _ _ := hinner.interop w _ _
  array items _ _ := hinner.array items _ _

namespace Move

/-- With the references that it owns a host may call an accessor or trade, and it owns others
afterwards. -/
inductive Fair : Move → Machine → Multiset Interop → Multiset Interop → Prop
  | call {a : Accessor} {call keep m} {rest : Multiset Interop} (hf : a.factory.Conserves)
      (hs : a.factory.Steady) (hcopies : ∀ w ∈ call.copies, w ∈ rest) :
      Fair (.call a call keep) m (call.given + rest)
        ((if keep then Pop.out ((Operation.call a call).run m).1 else []) + rest)
  | own {change m mine mine'} : Trade mine m.heap mine' (change m.heap) →
      Fair (.own change) m mine mine'

inductive AllFair : List Move → Machine → Multiset Interop → Prop
  | nil {m mine} : AllFair [] m mine
  | cons {move moves m mine mine'} : Fair move m mine mine' → AllFair moves (move.run m).2 mine' →
      AllFair (move :: moves) m mine

end Move

/-- The heap counts the references of the stack and of the host. -/
def Machine.Counts (m : Machine) (mine : Multiset Interop) : Prop :=
  m.heap.Balanced ((m.stack.leaves + mine).map Interop.object)

theorem Machine.Counts.alive {m : Machine} {mine : Multiset Interop} (hc : m.Counts mine)
    {w : Interop} (hw : w ∈ m.stack.leaves ∨ w ∈ mine) : m.heap.strong w.object ≠ 0 := by
  refine hc.strong_ne_zero (Multiset.mem_map_of_mem _ (Multiset.mem_add.2 ?_))
  rwa [Multiset.mem_coe]

theorem Operation.run_trade {op : Operation} {m : Machine} {given : List Interop}
    {rest : Multiset Interop} (htrades : op.perform.Trades m given Reply.leaves rest) :
    let step := op.run m
    Trade (given + (m.stack.leaves + rest)) m.heap
      (Pop.out step.1 + (step.2.stack.leaves + rest)) step.2.heap := by
  rw [Access.Trades] at htrades
  cases hperform : op.perform.run m with
  | ok reply m' =>
      rw [hperform] at htrades
      rw [Operation.run_of_ok hperform]
      exact htrades
  | error e m' =>
      rw [hperform] at htrades
      rw [Operation.run_of_error hperform]
      exact htrades.trans (.of_eq (nothing_add _).symm)

theorem Operation.call_trade {a : Accessor} (hf : a.factory.Conserves) (call : Call) (m : Machine)
    {rest : Multiset Interop} (hcopies : ∀ w ∈ call.copies, w ∈ rest) :
    let step := (Operation.call a call).run m
    Trade (call.given + (m.stack.leaves + rest)) m.heap
      (Pop.out step.1 + (step.2.stack.leaves + rest)) step.2.heap :=
  @Operation.run_trade (.call a call) _ _ _ (Accessor.perform_trades hf call m hcopies)

/-- What a host may do keeps the counts right. -/
theorem Move.Fair.counts {move : Move} {m : Machine} {mine mine' : Multiset Interop}
    (hfair : move.Fair m mine mine') (hc : m.Counts mine) : (move.run m).2.Counts mine' := by
  cases hfair with
  | @own change m mine mine' htrade =>
      have hframe := htrade.frame m.stack.leaves
      rw [add_comm mine, add_comm mine'] at hframe
      exact hframe.balanced hc
  | @call a wanted keep m rest hf hs hcopies =>
      have htrade := Operation.call_trade hf wanted m hcopies
      rw [Machine.Counts, add_left_comm] at hc
      have hc' := htrade.balanced hc
      cases keep with
      | true =>
          rw [add_left_comm] at hc'
          exact hc'
      | false =>
          rw [if_neg Bool.false_ne_true, nothing_add]
          exact (Trade.drop _).balanced hc'

namespace Move

theorem AllFair.after {before after : List Move} {m : Machine} {mine : Multiset Interop}
    (hfair : AllFair (before ++ after) m mine) (hc : m.Counts mine) :
    ∃ mine', (runAll before m).2.Counts mine' ∧ AllFair after (runAll before m).2 mine' := by
  induction before generalizing m mine with
  | nil => exact ⟨mine, hc, hfair⟩
  | cons move before ih =>
      cases hfair with
      | cons hmove hrest => exact ih hrest (hmove.counts hc)

end Move

/-! ### Runs that only differ in their logs -/

/-- Machines with the same stack and the same heap. -/
structure Machine.Agrees (m m' : Machine) : Prop where
  stack : m.stack = m'.stack
  heap : m.heap = m'.heap

theorem ItemFactory.Steady.interops {factory : ItemFactory} (hs : factory.Steady)
    (type : HostType) (values : List ObjectId) :
    HostStack.Steady (factory.interops type values) := by
  induction values with
  | nil => exact .pure []
  | cons o os ih => exact (hs.interop _).bind fun _ => ih.bind fun _ => .pure _

theorem Accessor.assemble_steady {a : Accessor} (hs : a.factory.Steady) {call : Call}
    {build : Build Item} (hbuild : a.assemble? call = some build) : HostStack.Steady build := by
  cases call with
  | push value =>
      injection hbuild with hbuild
      subst hbuild
      cases value with
      | boolean value => exact hs.boolean value
      | integer _ value _ => exact hs.integer value
      | bytes _ data => exact hs.byteArray data
  | pushInterop value =>
      injection hbuild with hbuild
      subst hbuild
      exact hs.interop (.ofRef value)
  | pushInteropArray type values =>
      injection hbuild with hbuild
      subst hbuild
      exact (hs.interops type values).bind hs.array
  | peek how => cases hbuild
  | pop how => cases hbuild

theorem Accessor.call_agrees {a : Accessor} (hs : a.factory.Steady) (call : Call) {m m' : Machine}
    (hm : m.Agrees m') :
    let step := (Operation.call a call).run m
    let step' := (Operation.call a call).run m'
    step.1 = step'.1 ∧ step.2.Agrees step'.2 ∧ a.log call m = a.log call m' := by
  obtain ⟨heap, stack, events, built⟩ := m
  obtain ⟨heap', stack', events', built'⟩ := m'
  obtain ⟨rfl, rfl⟩ := hm
  rcases a.assemble?_cases call with ⟨build, hbuild⟩ | ⟨how, rfl⟩ | ⟨how, rfl⟩
  · rw [Operation.run_push hbuild, Operation.run_push hbuild, Accessor.log_push hbuild,
      Accessor.log_push hbuild]
    dsimp only
    rw [Accessor.assemble_steady hs hbuild built built']
    generalize (build.run built').1 = item
    cases stack.push item with
    | ok stack => exact ⟨rfl, ⟨rfl, rfl⟩, rfl⟩
    | error cause => exact ⟨rfl, ⟨rfl, rfl⟩, rfl⟩
  · rw [Operation.run_peek, Operation.run_peek]
    exact ⟨rfl, ⟨rfl, rfl⟩, rfl⟩
  · rw [Operation.run_pop, Operation.run_pop]
    refine ⟨?_, ?_, rfl⟩
    · cases stack.pop <;> rfl
    · cases stack.pop with
      | ok top => exact ⟨rfl, rfl⟩
      | error cause => exact ⟨rfl, rfl⟩

theorem Move.run_call (a : Accessor) (call : Call) (keep : Bool) (m : Machine) :
    (Move.call a call keep).run m =
      let step := (Operation.call a call).run m
      let m' := if keep then step.2 else step.2.released (Pop.out step.1)
      (some ⟨call, keep, step.1, m'.heap.freedSince m.heap, a.log call m⟩, m') := by
  have hlog := congrArg (List.drop m.events.length) (a.events_eq call m)
  rw [List.drop_left] at hlog
  cases keep with
  | true => rw [← hlog]; rfl
  | false => rw [← hlog]; rfl

theorem Machine.Agrees.ifKept {m m' : Machine} (hm : m.Agrees m') (keep : Bool)
    (result : Except AccessError Reply) :
    (if keep then m else m.released (Pop.out result)).Agrees
      (if keep then m' else m'.released (Pop.out result)) := by
  cases keep with
  | true => exact hm
  | false => exact ⟨hm.stack, congrArg (Heap.release · _) hm.heap⟩

theorem Move.Fair.agrees {move : Move} {m m' : Machine} {mine mine' : Multiset Interop}
    (hfair : move.Fair m mine mine') (hm : m.Agrees m') :
    (move.run m).1 = (move.run m').1 ∧ (move.run m).2.Agrees (move.run m').2 := by
  cases hfair with
  | @own change _ _ _ htrade => exact ⟨rfl, hm.stack, congrArg change hm.heap⟩
  | @call a call keep m rest hf hs hcopies =>
      obtain ⟨hresult, hstep, hlog⟩ := Accessor.call_agrees hs call hm
      have hafter := hstep.ifKept keep ((Operation.call a call).run m).1
      rw [Move.run_call, Move.run_call]
      dsimp only
      rw [← hresult, ← hlog, hafter.heap, hm.heap]
      exact ⟨rfl, hafter⟩

end HostStack
