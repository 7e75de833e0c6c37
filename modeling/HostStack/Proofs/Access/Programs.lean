import HostStack.Proofs.Access.Moves
import HostStack.Proofs.Access.Recording

/-!
# Fair programs

A program goes through accessors or works on the stack directly, and does as it likes with the
references of the host in between. It is fair if it gives away what the host owns and nothing else.
Then each operation is a trade between the stack and the host, whichever way it ends, and so is the
program: who owned the references when, and which operations failed, makes no difference to what the
heap counts afterwards.
-/

namespace HostStack

open Heap (Trade)

namespace Operation

/-- What the host owns before an operation and after it. -/
inductive Fair : Operation → Machine → Multiset Interop → Multiset Interop → Prop
  | call {a : Accessor} {call m} {rest : Multiset Interop} (hf : a.factory.Conserves)
      (hcopies : ∀ w ∈ call.copies, w ∈ rest) :
      Fair (.call a call) m (call.given + rest) (Pop.out ((Operation.call a call).run m).1 + rest)
  | push {item : Item} {m rest} : Fair (.direct (.push item)) m (item.leaves + rest) rest
  | pop {m rest} : Fair (.direct .pop) m rest (Pop.out ((Operation.direct .pop).run m).1 + rest)
  /-- What is looked at stays where it is. -/
  | peek {depth m rest} : Fair (.direct (.peek depth)) m rest rest
  | clear {m rest} : Fair (.direct .clear) m rest rest
  /-- The host may also copy references out of what it looks at. -/
  | host {change m mine mine'} (htrade : Trade (m.stack.leaves + mine) m.heap
      (m.stack.leaves + mine') (change m.heap)) : Fair (.direct (.host change)) m mine mine'

inductive FairAll : List Operation → Machine → Multiset Interop → Multiset Interop → Prop
  | nil {m mine} : FairAll [] m mine mine
  | cons {op ops m mine mine' mine''} : Fair op m mine mine' →
      FairAll ops (op.run m).2 mine' mine'' → FairAll (op :: ops) m mine mine''

variable {op : Operation} {ops : List Operation} {m : Machine} {mine mine' : Multiset Interop}

/-- A call that is given nothing and hands nothing out. -/
theorem Fair.scalar {a : Accessor} {call : Call} (hf : a.factory.Conserves)
    (hcopies : ∀ w ∈ call.copies, w ∈ mine) (hgiven : call.given = [])
    (hout : Pop.out ((Operation.call a call).run m).1 = []) : Fair (.call a call) m mine mine := by
  have hcall := Fair.call (m := m) hf hcopies
  rwa [hgiven, hout, nothing_add] at hcall

theorem Fair.trade (hfair : op.Fair m mine mine') :
    Trade (m.stack.leaves + mine) m.heap ((op.run m).2.stack.leaves + mine') (op.run m).2.heap := by
  cases hfair with
  | call hf hcopies =>
      have htrade := Operation.call_trade hf _ m hcopies
      exact (Trade.of_eq (add_left_comm _ _ _)).trans
        (htrade.trans (.of_eq (add_left_comm _ _ _)))
  | @push item =>
      have hpush := Access.pushItem_trades item m mine'
      rw [Access.Trades, Access.pushItem_run] at hpush
      refine (Trade.of_eq (add_left_comm _ _ _)).trans ?_
      rw [Direct.run_push]
      cases hstack : m.stack.push item with
      | ok stack =>
          rw [hstack] at hpush
          exact hpush.trans (.of_eq (nothing_add _))
      | error cause =>
          rw [hstack] at hpush
          exact hpush
  | pop =>
      have hpop := Access.takeItem_trades m mine
      rw [Access.Trades, Access.takeItem_run, nothing_add] at hpop
      refine Trade.trans ?_ (.of_eq (add_left_comm _ _ _))
      rw [Direct.run_pop]
      cases hstack : m.stack.pop with
      | ok top =>
          rw [hstack] at hpop
          exact hpop
      | error cause =>
          rw [hstack] at hpop
          exact hpop.trans (.of_eq (nothing_add _).symm)
  | @peek depth =>
      rw [Direct.run_peek]
      cases m.stack.peek depth with
      | ok item => exact .refl
      | error cause => exact .refl
  | clear =>
      have hclear := Access.clear_trades m mine
      rw [Access.Trades, nothing_add] at hclear
      exact hclear.trans (.of_eq (nothing_add _))
  | host htrade => exact htrade

theorem FairAll.trade (hfair : FairAll ops m mine mine') :
    Trade (m.stack.leaves + mine) m.heap
      ((Operation.runAll ops m).2.stack.leaves + mine') (Operation.runAll ops m).2.heap := by
  induction hfair with
  | nil => exact .refl
  | cons hop _ ih => exact hop.trade.trans ih

theorem FairAll.counts (hfair : FairAll ops m mine mine') (hc : m.Counts mine) :
    (Operation.runAll ops m).2.Counts mine' :=
  hfair.trade.balanced hc

end Operation

end HostStack
