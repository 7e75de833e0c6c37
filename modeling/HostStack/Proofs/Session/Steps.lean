import HostStack.Proofs.Session.Hands
import HostStack.Session.Report

/-!
# Steps are trades

A step starts and ends with nothing in hand, whether it fails or not: what it took it has put
somewhere by then, or let go of. So a run of steps, from one state of a session to another, is one
trade between what the session owned and what it owns.
-/

namespace HostStack

open Heap (Trade)

theorem Session.accessor_factory (s : Session) : s.accessor.factory = s.factory := by
  rw [Session.accessor]
  cases s.binding with
  | context => rfl
  | stack => rfl

/-! ### Operations under another name -/

theorem Access.Trades.map {α β : Type} {operation : Access α} {m : Machine}
    {given : List Interop} {rest : Multiset Interop} {f : α → β} {out : β → List Interop}
    (h : operation.Trades m given (fun a => out (f a)) rest) :
    (do return f (← operation) : Access β).Trades m given out rest := by
  rw [Access.Trades] at h
  rw [Access.Trades, EStateM.run_bind]
  cases hrun : operation.run m with
  | ok a m' =>
      rw [hrun] at h
      exact h
  | error e m' =>
      rw [hrun] at h
      exact h

namespace Run

variable {α : Type}

theorem Trades.factory_eq {operation : Run α} {s s' : Session} {given : List Interop}
    {out : α → List Interop} {a : α} (h : operation.Trades s given out)
    (hrun : operation.run s = .ok a s') : s'.factory = s.factory := by
  rw [Trades, hrun] at h
  exact h.2

/-- What is in hand may be traded before an operation. -/
theorem Trades.after {operation : Run α} {s : Session} {given given' : List Interop}
    {out : α → List Interop} (htrade : Trade (given + s.leaves) s.heap (given' + s.leaves) s.heap)
    (h : operation.Trades s given' out) : operation.Trades s given out := by
  have hfirst : s.Trades s given given' := ⟨htrade, rfl⟩
  rw [Trades] at h ⊢
  cases hrun : operation.run s with
  | ok a s' =>
      rw [hrun] at h
      exact hfirst.trans h
  | error e s' =>
      rw [hrun] at h
      exact hfirst.trans h

/-- A call of the accessor that is given what its caller has in hand. -/
theorem call_trades (keep : Option String) (quiet : Bool) (call : Call) {s : Session}
    (hf : s.factory.Conserves) (hcopies : ∀ w ∈ call.copies, w ∈ s.kept) :
    (handOut keep quiet (s.accessor.perform call)).Trades s call.given (fun _ => []) := by
  rw [← s.accessor_factory] at hf
  exact handOut_trades keep quiet (Accessor.perform_trades hf call s.machine hcopies)

theorem alloc_trades (type : HostType) (payload : Payload) (s : Session) :
    (access (modifyGet fun m => match m.heap.alloc type payload with
      | (o, heap) => (o, { m with heap }))).Trades s payload.leaves
      (fun o => [Interop.ofRef ⟨o, type⟩]) :=
  access_trades (s := s) (Trade.make type payload)

theorem create_trades (id : String) (type : HostType) (blueprint : Blueprint) (s : Session) :
    (create id type blueprint).Trades s [] (fun _ => []) := by
  rw [create]
  refine trades_get ((reads_ofExcept _ s).bind ?_)
  intro payload hpayload
  have hleaves := Blueprint.eval_mem (ok_of_ofExcept hpayload)
  rw [← payload.map_object_leaves]
  refine (retain_trades payload.leaves hleaves).bind ?_
  intro _ s' _
  refine (alloc_trades type payload s').bind ?_
  intro o s'' _
  exact (putHandle_trades id ⟨o, type⟩ s'').bind fun _ _ _ => trades_done _

theorem restore_trades (name : String) (s : Session) :
    (restore name).Trades s [] (fun _ => []) := by
  rw [restore]
  refine trades_get ((reads_named name s.saves s).bind ?_)
  intro save hsave
  have hget := get?_of_named hsave
  -- The save becomes the stack, and what the stack was is in hand until it is released.
  have hset : s.Trades
      { s with machine := { s.machine with stack := save }, saves := s.saves.erase name } []
      s.stack.leaves := by
    refine Session.trades_of_leaves ?_ rfl rfl
    rw [Session.leaves, Session.leaves, Session.kept, Session.kept,
      Named.leaves_of_get? Stack.leaves hget, nothing_add]
    simp only [Session.stack]
    abel
  refine Trades.bind (trades_set hset) ?_
  intro _ s' _
  rw [← s.stack.map_object_leaves]
  exact (release_trades s' s.stack.leaves).bind fun _ _ _ => trades_done _

theorem discard_trades (name : String) (s : Session) :
    (discard name).Trades s [] (fun _ => []) := by
  rw [discard]
  refine trades_get ((reads_named name s.saves s).bind ?_)
  intro save hsave
  have hset : s.Trades { s with saves := s.saves.erase name } [] save.leaves := by
    refine Session.trades_of_leaves ?_ rfl rfl
    refine Session.leaves_exchange s.leaves_saves (Session.leaves_saves _) ?_
    rw [nothing_add]
    exact Named.leaves_of_get? Stack.leaves (get?_of_named hsave)
  refine Trades.bind (trades_set hset) ?_
  intro _ s' _
  rw [← save.map_object_leaves]
  exact (release_trades s' save.leaves).bind fun _ _ _ => trades_done _

theorem clear_trades (s : Session) : clear.Trades s [] (fun _ => []) := by
  rw [clear]
  refine trades_get ?_
  dsimp only
  by_cases hbinding : s.binding = .context
  · rw [if_pos hbinding]
    exact trades_throw _
  · rw [if_neg hbinding]
    exact (access_trades (Access.clear_trades s.machine s.kept)).bind fun _ _ _ => trades_done _

theorem unwrap_trades (name : String) (type : HostType) (keep : Option String) (s : Session) :
    (unwrap name type keep).Trades s [] (fun _ => []) := by
  rw [unwrap]
  refine (reads_wrapperRegister name s).bind ?_
  intro w hw
  refine (takeRegister_trades (get?_of_wrapperRegister hw)).bind ?_
  intro _ s' _
  rw [Interop.unwrap_eq]
  by_cases htype : w.value.type = type
  · rw [if_pos htype]
    have hrewrap : Trade ([w] + s'.leaves) s'.heap ([Interop.ofRef w.value] + s'.leaves) s'.heap := by
      rw [Multiset.coe_singleton, Multiset.coe_singleton, Multiset.singleton_add,
        Multiset.singleton_add]
      exact .rewrap w
    refine trades_get (Trades.after hrewrap ?_)
    exact (settle_trades keep (.reference (some w.value)) s').bind fun _ _ _ => trades_done _
  · rw [if_neg htype]
    refine (putRegister_trades name (.wrapper w) s').bind ?_
    intro _ s'' _
    exact trades_get (trades_done _)

theorem convert_trades (name : String) (target : Target) (keep : Option String) (s : Session) :
    (convert name target keep).Trades s [] (fun _ => []) := by
  rw [convert]
  refine (reads_itemRegister name s).bind ?_
  intro item hitem
  refine (takeRegister_trades (get?_of_itemRegister hitem)).bind ?_
  intro _ s' _
  rw [Target.accept_eq]
  cases htaken : target.accept? item with
  | some taken =>
      refine trades_get (Trades.after (Target.taken_trade htaken s'.leaves s'.heap) ?_)
      exact (settle_trades keep (.extracted taken) s').bind fun _ _ _ => trades_done _
  | none =>
      refine (putRegister_trades name (.item item) s').bind ?_
      intro _ s'' _
      exact trades_get (trades_done _)

/-- The induction is on the number of times that are left: an action that fails ends it, and one
that does not leaves a session with the same factory. -/
theorem times_trades {action : Run Outcome}
    (haction : ∀ s : Session, s.factory.Conserves → action.Trades s [] (fun _ => []))
    (count done : Nat) (last : Option Outcome) {s : Session} (hf : s.factory.Conserves) :
    (times action done last count).Trades s [] (fun _ => []) := by
  induction count generalizing done last s with
  | zero => exact trades_done _
  | succ count ih =>
      have htrades := haction s hf
      rw [Trades] at htrades
      rw [times]
      refine trades_get ?_
      cases hrun : action.run s with
      | ok outcome s' =>
          rw [hrun] at htrades
          refine Trades.bind (trades_set htrades) ?_
          intro _ s'' hset
          cases hset
          exact ih (done + 1) (some outcome) (htrades.2 ▸ hf)
      | error e s' =>
          rw [hrun] at htrades
          exact Trades.bind (trades_set htrades) fun _ _ _ => trades_done _

end Run

/-- Every step ends with nothing in hand. The induction is on the steps inside others. -/
theorem Step.perform_trades (step : Step) {s : Session} (hf : s.factory.Conserves) :
    step.perform.Trades s [] (fun _ => []) := by
  open Run in
  induction step generalizing s with
  | create id type blueprint => exact create_trades id type blueprint s
  | releaseHandle id =>
      rw [Step.perform]
      refine (reads_handle id s).bind ?_
      intro value hvalue
      have herase : s.Trades { s with handles := s.handles.erase id } [] [.ofRef value] := by
        refine Session.trades_of_leaves ?_ rfl rfl
        refine Session.leaves_exchange s.leaves_handles (Session.leaves_handles _) ?_
        rw [nothing_add]
        exact Named.leaves_of_get? Ref.leaves (get?_of_handle hvalue)
      refine Trades.bind (trades_modify herase) ?_
      intro _ s' _
      exact (release_trades s' [.ofRef value]).bind fun _ _ _ => trades_done _
  | count id =>
      rw [Step.perform]
      exact (reads_handle id s).bind fun value _ => trades_get (trades_done _)
  | push value =>
      rw [Step.perform]
      exact trades_get (call_trades none false (.push value) hf fun w hw => absurd hw List.not_mem_nil)
  | pushInterop id =>
      rw [Step.perform]
      refine (reads_handle id s).bind ?_
      intro value hvalue
      have hmem := s.mem_leaves_of_handle (get?_of_handle hvalue)
      -- The accessor is given a reference of its own; the handle keeps the one that it has.
      have hretain := retain_trades [.ofRef value] fun w hw => List.mem_singleton.1 hw ▸ hmem
      refine hretain.bind fun _ s' hs' => trades_get ?_
      rw [← hretain.factory_eq hs'] at hf
      exact call_trades none false (.pushInterop value) hf fun w hw => absurd hw List.not_mem_nil
  | pushInteropArray type ids =>
      have hends := handlesOf_ends type ids s
      rw [Step.perform]
      refine (reads_handlesOf type ids s).bind fun objects hobjects => trades_get ?_
      rw [hobjects] at hends
      refine call_trades none false (.pushInteropArray type objects) hf ?_
      intro w hw
      obtain ⟨o, ho, rfl⟩ := List.mem_map.1 hw
      exact hends.2 o ho
  | peek how keep =>
      rw [Step.perform]
      exact trades_get (call_trades keep false (.peek how) hf fun w hw => absurd hw List.not_mem_nil)
  | pop how keep quiet =>
      rw [Step.perform]
      exact trades_get (call_trades keep quiet (.pop how) hf fun w hw => absurd hw List.not_mem_nil)
  | scriptHash => exact trades_get (trades_done _)
  | stackPush expr =>
      rw [Step.perform]
      refine (build_trades expr s).bind ?_
      intro item s' _
      refine (access_trades (Access.pushItem_trades item s'.machine s'.kept)).bind ?_
      intro _ _ _
      exact trades_done _
  | stackPop keep quiet =>
      rw [Step.perform]
      have htake := Access.takeItem_trades s.machine s.kept
      exact handOut_trades keep quiet (htake.map (f := fun item => Reply.extracted (.item item)))
  | stackPeek depth =>
      rw [Step.perform]
      refine trades_get ?_
      cases s.stack.peek depth with
      | ok item => exact trades_done _
      | error cause => exact trades_throw _
  | stackInfo | dump | debug => exact trades_get (trades_done _)
  | clear => exact clear_trades s
  | save name =>
      rw [Step.perform]
      refine trades_get ?_
      dsimp only
      rw [← s.stack.map_object_leaves]
      have hmem : ∀ w ∈ s.stack.leaves, w ∈ s.leaves := fun w hw =>
        Multiset.mem_add.2 (.inl (Multiset.mem_coe.2 hw))
      refine (retain_trades s.stack.leaves hmem).bind ?_
      intro _ s' _
      exact (putSave_trades name s.stack s').bind fun _ _ _ => trades_done _
  | restore name => exact restore_trades name s
  | discard name => exact discard_trades name s
  | sameAs name =>
      rw [Step.perform]
      exact trades_get ((reads_named name s.saves s).bind fun save _ => trades_done _)
  | set name expr =>
      rw [Step.perform]
      refine (build_trades expr s).bind ?_
      intro item s' _
      exact (putRegister_trades name (.item item) s').bind fun _ _ _ => trades_done _
  | wrap name id =>
      rw [Step.perform]
      refine (reads_handle id s).bind ?_
      intro value hvalue
      have hmem := s.mem_leaves_of_handle (get?_of_handle hvalue)
      refine (retain_trades [.ofRef value] fun w hw => List.mem_singleton.1 hw ▸ hmem).bind ?_
      intro _ s' _
      exact (putRegister_trades name (.wrapper (.ofRef value)) s').bind fun _ _ _ => trades_done _
  | copy name target =>
      rw [Step.perform]
      refine (reads_register name s).bind ?_
      intro value hvalue
      have hmem := fun w => s.mem_leaves_of_register (get?_of_register hvalue) (w := w)
      rw [← value.map_object_leaves]
      refine (retain_trades value.leaves hmem).bind ?_
      intro _ s' _
      exact (putRegister_trades target value s').bind fun _ _ _ => trades_done _
  | drop name =>
      rw [Step.perform]
      refine (reads_register name s).bind ?_
      intro value hvalue
      refine (takeRegister_trades (get?_of_register hvalue)).bind ?_
      intro _ s' _
      rw [← value.map_object_leaves]
      exact (release_trades s' value.leaves).bind fun _ _ _ => trades_done _
  | inspect name =>
      rw [Step.perform, Run.inspect]
      refine trades_get ((reads_register name s).bind ?_)
      intro value _
      cases value with
      | item _ | wrapper _ | wrappers _ => exact trades_done _
  | equal a b =>
      rw [Step.perform, Run.equal]
      refine (reads_register a s).bind ?_
      intro x _
      refine (reads_register b s).bind ?_
      intro y _
      cases x with
      | item _ =>
          cases y with
          | item _ => exact trades_done _
          | wrapper _ | wrappers _ => exact trades_throw _
      | wrapper _ =>
          cases y with
          | wrapper _ => exact trades_done _
          | item _ | wrappers _ => exact trades_throw _
      | wrappers _ => exact trades_throw _
  | is name type =>
      rw [Step.perform]
      exact (reads_wrapperRegister name s).bind fun w _ => trades_done _
  | downcast name type keep =>
      rw [Step.perform]
      refine (reads_wrapperRegister name s).bind ?_
      intro w hw
      have hmem := s.mem_leaves_of_register (get?_of_wrapperRegister hw) (List.mem_singleton_self w)
      have hdowncast := Access.downcast_trades type s.machine hmem
      exact handOut_trades keep false (hdowncast.map (f := Reply.reference))
  | unwrap name type keep => exact unwrap_trades name type keep s
  | convert name target keep => exact convert_trades name target keep s
  | times count step ih =>
      exact times_trades (fun s hf => ih hf) count 0 none hf

end HostStack
