import HostStack.Proofs.Session.Steps

/-!
# Runs of a session

Besides the steps of a session, a host may put together an item from wrappers that it has and push
that. This is the way back for a wrapper that was removed as such.

The states that a host can be in are those that it gets to from the start in these two ways, with a
factory that puts into its items what it is given. All that a session owns in such a state came by
trades from nothing, so the heap is balanced against it.
-/

namespace HostStack

open Heap (Trade)

/-- Pushes an item that a host has put together, with references of its own. -/
def Run.place (item : Item) : Run Outcome := do
  retain item.objects
  access (Access.pushItem item)
  return .nothing

theorem Run.place_trades {s : Session} {item : Item} (hitem : ∀ w ∈ item.leaves, w ∈ s.leaves) :
    (place item).Trades s [] (fun _ => []) := by
  rw [place, ← item.map_object_leaves]
  refine (retain_trades item.leaves hitem).bind ?_
  intro _ s' _
  refine (access_trades (Access.pushItem_trades item s'.machine s'.kept)).bind ?_
  intro _ _ _
  exact trades_done _

namespace Session

def after (s : Session) (action : Run Outcome) : Session :=
  match action.run s with
  | .ok _ s' => s'
  | .error _ s' => s'

/-- What holds whichever way an action ends holds afterwards. -/
theorem after_of_ends {s : Session} {action : Run Outcome} {P : Session → Prop}
    (h : Ends (action.run s) (fun _ s' => P s') P) : P (s.after action) := by
  rw [after]
  cases hrun : action.run s with
  | ok outcome s' =>
      rw [hrun] at h
      exact h
  | error e s' =>
      rw [hrun] at h
      exact h

theorem after_trades {s : Session} {action : Run Outcome}
    (h : action.Trades s [] (fun _ => [])) : s.Trades (s.after action) [] [] :=
  after_of_ends h

theorem step_eq_after (s : Session) (step : Step) :
    (s.step step).2 = s.clearLogs.after step.perform := by
  rw [Session.step, after]
  cases step.perform.run s.clearLogs with
  | ok outcome s' => rfl
  | error e s' => rfl

theorem step_trades {s : Session} (hf : s.factory.Conserves) (step : Step) :
    s.Trades (s.step step).2 [] [] := by
  rw [step_eq_after]
  exact after_trades (s := s.clearLogs) (step.perform_trades hf)

theorem Trades.trade {s s' : Session} (h : s.Trades s' [] []) :
    Trade s.leaves s.heap s'.leaves s'.heap := by
  have htrade := h.1
  rw [nothing_add, nothing_add] at htrade
  exact htrade

/-- A state that a host can be in that also pushes items of its own making. -/
inductive Arises : Session → Prop
  | start {factory} (hf : factory.Conserves) (scriptHash : ScriptHash) (config : StackConfig)
      (binding : Binding) : Arises (.start factory scriptHash config binding)
  | step {s} : Arises s → (step : Step) → Arises (s.step step).2
  | place {s} : Arises s → (item : Item) → (∀ w ∈ item.leaves, w ∈ s.leaves) →
      Arises (s.after (Run.place item))

variable {s : Session}

theorem Arises.run (h : s.Arises) (steps : List Step) : (s.run steps).2.Arises := by
  induction steps generalizing s with
  | nil => exact h
  | cons step rest ih => exact ih (h.step step)

theorem Arises.conserves (h : s.Arises) : s.factory.Conserves := by
  induction h with
  | start hf _ _ _ => exact hf
  | step _ step ih =>
      rw [(step_trades ih step).2]
      exact ih
  | place _ item hitem ih =>
      rw [(after_trades (Run.place_trades hitem)).2]
      exact ih

theorem Arises.trade_step (h : s.Arises) (step : Step) :
    Trade s.leaves s.heap (s.step step).2.leaves (s.step step).2.heap :=
  (step_trades h.conserves step).trade

theorem trade_place {item : Item} (hitem : ∀ w ∈ item.leaves, w ∈ s.leaves) :
    Trade s.leaves s.heap (s.after (Run.place item)).leaves (s.after (Run.place item)).heap :=
  (after_trades (Run.place_trades hitem)).trade

theorem Arises.trade_run (h : s.Arises) (steps : List Step) :
    Trade s.leaves s.heap (s.run steps).2.leaves (s.run steps).2.heap := by
  induction steps generalizing s with
  | nil => exact .refl
  | cons step rest ih => exact (h.trade_step step).trans (ih (h.step step))

/-- All that there is came by trades from nothing. -/
theorem Arises.trade (h : s.Arises) : Trade 0 .empty s.leaves s.heap := by
  induction h with
  | start _ scriptHash config binding => exact .refl
  | step h step ih => exact ih.trans (h.trade_step step)
  | place _ item hitem ih => exact ih.trans (trade_place hitem)

theorem Arises.balanced_leaves (h : s.Arises) : s.heap.Balanced (s.leaves.map Interop.object) :=
  h.trade.balanced Heap.balanced_empty

/-- The counts of a host's objects are those of what the host owns. -/
theorem Arises.balanced (h : s.Arises) : s.heap.Balanced s.owned := by
  rw [← s.map_object_leaves]
  exact h.balanced_leaves

end Session

end HostStack
