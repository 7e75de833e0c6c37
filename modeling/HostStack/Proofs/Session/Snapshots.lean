import HostStack.Proofs.Access.Clone
import HostStack.Proofs.Item.Equality
import HostStack.Proofs.Session.Slots

/-!
# Clones are snapshots

A host that copies a register, or saves the stack, has two of the same afterwards. Each has its own
references, so whatever is done to one of them does nothing to the other: the other one is what it
was, and none of its objects is freed. Two facts come together here. A step changes nothing that it
does not name, and what is owned at any time is alive at that time.

A host cannot work on a save while the stack is there. But a save that was just made is the same as
the stack, so to exchange the two changes nothing; what is said of work on the stack is said of work
on either. Where the two are really apart, one on a machine of its own, the trades of that machine
leave out what belongs to the other.
-/

namespace HostStack

namespace Session

/-! ### Runs that do not name a slot -/

/-- Whatever a host may do without naming a slot. -/
inductive Sparing (slot : Slot) (s : Session) : Session → Prop
  | refl : Sparing slot s s
  | step {s'} : Sparing slot s s' → (step : Step) → slot ∉ step.slots →
      Sparing slot s (s'.step step).2
  | place {s'} : Sparing slot s s' → (item : Item) → (∀ w ∈ item.leaves, w ∈ s'.leaves) →
      Sparing slot s (s'.after (Run.place item))

variable {s s' : Session} {slot : Slot}

theorem held?_after {action : Run Outcome} (h : action.Spares slot s) :
    (s.after action).held? slot = s.held? slot :=
  after_of_ends (P := fun s' => s'.held? slot = s.held? slot) h

theorem held?_step {step : Step} (hslot : slot ∉ step.slots) (s : Session) :
    (s.step step).2.held? slot = s.held? slot := by
  rw [step_eq_after, held?_after (step.perform_spares hslot s.clearLogs)]
  cases slot <;> rfl

theorem held?_place (item : Item) (s : Session) :
    (s.after (Run.place item)).held? slot = s.held? slot :=
  held?_after <| (Run.spares_retain _).bind fun _ _ =>
    (Run.spares_access _).bind fun _ _ => Run.spares_done _

theorem Sparing.held?_eq (h : s.Sparing slot s') : s'.held? slot = s.held? slot := by
  induction h with
  | refl => rfl
  | step _ step hslot ih => exact (held?_step hslot _).trans ih
  | place _ item _ ih => exact (held?_place item _).trans ih

theorem Sparing.arises (h : s.Sparing slot s') (hs : s.Arises) : s'.Arises := by
  induction h with
  | refl => exact hs
  | step _ step _ ih => exact ih.step step
  | place _ item hitem ih => exact ih.place item hitem

/-! ### What is in a slot -/

theorem mem_leaves_of_held {held : Held} (hheld : s.held? slot = some held) :
    ∀ w ∈ held.leaves, w ∈ s.leaves := by
  intro w hw
  cases slot with
  | register name =>
      obtain ⟨value, hget, rfl⟩ := Option.map_eq_some_iff.1 hheld
      exact s.mem_leaves_of_register hget hw
  | save name =>
      obtain ⟨stack, hget, rfl⟩ := Option.map_eq_some_iff.1 hheld
      exact (HasStack.save hget).subset w hw

theorem Arises.not_freed_of_held (h : s.Arises) {held : Held} (hheld : s.held? slot = some held) :
    ∀ w ∈ held.leaves, w.object ∉ s.heap.freed := by
  intro w hw
  exact (Heap.mem_live.1 (h.mem_live_of_owned (mem_leaves_of_held hheld w hw))).2

/-- Something is in a slot for good, with all its objects, unless the slot is named. -/
structure Preserves (s : Session) (slot : Slot) (held : Held) : Prop where
  now : s.held? slot = some held
  later : ∀ s', s.Sparing slot s' → s'.held? slot = some held ∧
    ∀ w ∈ held.leaves, w.object ∉ s'.heap.freed

theorem Arises.preserves (h : s.Arises) {held : Held} (hheld : s.held? slot = some held) :
    s.Preserves slot held where
  now := hheld
  later s' hs' := by
    have hthen := hs'.held?_eq.trans hheld
    exact ⟨hthen, (hs'.arises h).not_freed_of_held hthen⟩

/-! ### The steps that clone -/

theorem step_save (s : Session) (name : String) :
    (s.step (.save name)).2 =
      { s.clearLogs with
        machine := { s.clearLogs.machine with
          heap := (s.heap.cloned s.stack.leaves).release
            ((s.saves.get? name).toList.flatMap Stack.objects) }
        saves := s.saves.put name s.stack } := by
  rw [Heap.cloned, s.stack.map_object_leaves]
  rfl

theorem run_register {name : String} {value : Register}
    (hget : s.registers.get? name = some value) : (Run.register name).run s = .ok value s := by
  show (Run.named name s.registers).run s = _
  rw [Run.named, hget]
  rfl

theorem step_copy {name : String} {value : Register} (hget : s.registers.get? name = some value)
    (target : String) :
    (s.step (.copy name target)).2 =
      { s.clearLogs with
        machine := { s.clearLogs.machine with
          heap := (s.heap.cloned value.leaves).release
            ((s.registers.get? target).toList.flatMap Register.objects) }
        registers := s.registers.put target value } := by
  have hrun : (Step.copy name target).perform.run s.clearLogs =
      .ok .nothing { s.clearLogs with
        machine := { s.clearLogs.machine with
          heap := (s.heap.retain value.objects).release
            ((s.registers.get? target).toList.flatMap Register.objects) }
        registers := s.registers.put target value } := by
    have hregister : (Run.register name).run s.clearLogs = .ok value s.clearLogs :=
      run_register hget
    rw [Step.perform, EStateM.run_bind, hregister]
    rfl
  rw [Session.step, hrun, Heap.cloned, value.map_object_leaves]

theorem heap_discard {name : String} {save : Stack} (hget : s.saves.get? name = some save) :
    (s.step (.discard name)).2.heap = s.heap.release save.objects := by
  have hrun : (Step.discard name).perform.run s.clearLogs =
      .ok .nothing { s.clearLogs with
        machine := { s.clearLogs.machine with heap := s.heap.release save.objects }
        saves := s.saves.erase name } := by
    have hnamed : (Run.named name s.clearLogs.saves).run s.clearLogs = .ok save s.clearLogs := by
      show (Run.named name s.saves).run s.clearLogs = _
      rw [Run.named, hget]
      rfl
    rw [Step.perform, Run.discard]
    show ((Run.named name s.clearLogs.saves) >>= _).run s.clearLogs = _
    rw [EStateM.run_bind, hnamed]
    rfl
  rw [Session.step, hrun]
  rfl

theorem heap_drop {name : String} {value : Register} (hget : s.registers.get? name = some value) :
    (s.step (.drop name)).2.heap = s.heap.release value.objects := by
  have hrun : (Step.drop name).perform.run s.clearLogs =
      .ok .nothing { s.clearLogs with
        machine := { s.clearLogs.machine with heap := s.heap.release value.objects }
        registers := s.registers.erase name } := by
    have hregister : (Run.register name).run s.clearLogs = .ok value s.clearLogs :=
      run_register hget
    rw [Step.perform, EStateM.run_bind, hregister]
    rfl
  rw [Session.step, hrun]
  rfl

/-- The stack and a save in each other's place. -/
def exchange (s : Session) (name : String) : Session :=
  match s.saves.get? name with
  | some save =>
    { s with machine := { s.machine with stack := save }, saves := s.saves.put name s.stack }
  | none => s

/-- Clones of all that a session has, and what becomes of them. -/
structure Snapshots (s : Session) : Prop where
  item : ∀ x, s.HasItem x → s.machine.Clones s.leaves x.clone x x.leaves (x.uses ·)
  stack : ∀ stack, s.HasStack stack →
    s.machine.Clones s.leaves stack.clone stack stack.leaves (stack.uses ·)
  context : s.machine.Clones s.leaves s.context.clone s.context s.stack.leaves (s.stack.uses ·)
  equal : ∀ x : Item, (x == x) = true
  /-- This is how a host saves its stack. -/
  saving : ∀ name, (Step.save name).perform.run s =
    (do Run.putSave name (← Run.access s.stack.clone); return Outcome.nothing).run s
  saved : ∀ name, let s' := (s.step (.save name)).2
    s'.stack = s.stack ∧ s'.Preserves (.save name) (.save s.stack) ∧ s'.exchange name = s'
  discarded : ∀ name, s.saves.get? name = none →
    ((s.step (.save name)).2.step (.discard name)).2.heap = s.heap
  /-- This is how it copies an item. -/
  copying : ∀ name target x, s.registers.get? name = some (.item x) →
    (Step.copy name target).perform.run s =
      (do Run.putRegister target (.item (← Run.access x.clone)); return Outcome.nothing).run s
  copied : ∀ name target value, s.registers.get? name = some value → name ≠ target →
    let s' := (s.step (.copy name target)).2
    s'.Preserves (.register name) (.register value) ∧
      s'.Preserves (.register target) (.register value)
  dropped : ∀ name target value, s.registers.get? name = some value →
    s.registers.get? target = none →
    ((s.step (.copy name target)).2.step (.drop target)).2.heap = s.heap

theorem Arises.clones (h : s.Arises) {α : Type} {clone : Access α} {value : α}
    {leaves : List Interop} {uses : ObjectId → Nat} {objects : List ObjectId}
    (hlive : ∀ w ∈ leaves, w.object ∈ s.heap.live) (hobjects : leaves.map Interop.object = objects)
    (huses : ∀ o, uses o = objects.count o)
    (hrun : clone.run s.machine = .ok value { s.machine with heap := s.heap.retain objects }) :
    s.machine.Clones s.leaves clone value leaves uses := by
  have hb : s.heap.Balanced (s.leaves.map Interop.object) := by
    rw [s.map_object_leaves]
    exact h.balanced
  subst hobjects
  exact Machine.clones hb (fun w hw => hb.strong_ne_zero_iff.2 (hlive w hw)) huses hrun

theorem Arises.clones_stack (h : s.Arises) {stack : Stack} (hstack : s.HasStack stack) :
    s.machine.Clones s.leaves stack.clone stack stack.leaves (stack.uses ·) :=
  h.clones (fun w hw => h.mem_live_of_owned (hstack.subset w hw)) stack.map_object_leaves
    (fun o => stack.uses_eq o) (stack.clone_run s.machine)

theorem exchange_save (s : Session) (name : String) :
    let s' := (s.step (.save name)).2
    s'.exchange name = s' := by
  intro s'
  have hs' : s' = _ := s.step_save name
  have hget : s'.saves.get? name = some s'.stack := by
    rw [hs']
    exact s.saves.get?_put s.stack
  have hput : s'.saves.put name s'.stack = s'.saves := by
    rw [hs']
    exact s.saves.put_put s.stack s.stack
  rw [exchange, hget]
  dsimp only
  rw [hput]
  rfl

theorem Arises.clones_are_snapshots (h : s.Arises) : s.Snapshots := by
  constructor
  case item =>
    intro x hx
    exact h.clones (hx.alive h) x.map_object_leaves (fun o => x.uses_eq o) (x.clone_run s.machine)
  case stack => exact fun stack hstack => h.clones_stack hstack
  case context =>
    exact h.clones (fun w hw => h.mem_live_of_owned (HasStack.active.subset w hw))
      s.stack.map_object_leaves (fun o => s.stack.uses_eq o) (s.context.clone_run s.machine)
  case equal => exact fun x => (Item.beq_iff_same x x).2 x.same_refl
  case saving =>
    intro name
    have hclone := Run.access_ok (s.stack.clone_run s.machine)
    show _ = (Run.access s.stack.clone >>= fun copy =>
      Run.putSave name copy >>= fun _ => pure Outcome.nothing).run s
    rw [EStateM.run_bind, hclone]
    rfl
  case saved =>
    intro name s'
    have hs' : s' = _ := s.step_save name
    have hheld : s'.held? (.save name) = some (.save s.stack) := by
      rw [hs', held?]
      exact congrArg _ (s.saves.get?_put s.stack)
    exact ⟨by rw [hs']; rfl, (h.step (.save name)).preserves hheld, s.exchange_save name⟩
  case discarded =>
    intro name hfresh
    have hs' := s.step_save name
    rw [hfresh, Option.toList_none, List.flatMap_nil, Heap.release_nil] at hs'
    have hget : (s.step (.save name)).2.saves.get? name = some s.stack := by
      rw [hs']
      exact s.saves.get?_put s.stack
    rw [heap_discard hget, hs', ← s.stack.map_object_leaves]
    exact (h.clones_stack .active).dropped
  case copying =>
    intro name target x hget
    have hclone := Run.access_ok (x.clone_run s.machine)
    show _ = (Run.access x.clone >>= fun copy =>
      Run.putRegister target (.item copy) >>= fun _ => pure Outcome.nothing).run s
    rw [EStateM.run_bind, hclone, Step.perform, EStateM.run_bind, run_register hget]
    rfl
  case copied =>
    intro name target value hget hne s'
    have hs' : s' = _ := step_copy hget target
    have hthen := h.step (.copy name target)
    have hsource : s'.held? (.register name) = some (.register value) := by
      rw [hs', held?]
      exact congrArg _ ((s.registers.get?_put_of_ne hne value).trans hget)
    have htarget : s'.held? (.register target) = some (.register value) := by
      rw [hs', held?]
      exact congrArg _ (s.registers.get?_put value)
    exact ⟨hthen.preserves hsource, hthen.preserves htarget⟩
  case dropped =>
    intro name target value hget hfresh
    have hs' := step_copy hget target
    rw [hfresh, Option.toList_none, List.flatMap_nil, Heap.release_nil] at hs'
    have htarget : (s.step (.copy name target)).2.registers.get? target = some value := by
      rw [hs']
      exact s.registers.get?_put value
    have hlive : ∀ o ∈ value.leaves.map Interop.object, s.heap.strong o ≠ 0 := by
      intro o ho
      obtain ⟨w, hw, rfl⟩ := List.mem_map.1 ho
      exact h.balanced.strong_ne_zero_iff.2
        (h.mem_live_of_owned (s.mem_leaves_of_register hget hw))
    rw [heap_drop htarget, hs', ← value.map_object_leaves]
    exact Heap.release_retain (.refl _) hlive

/-- An array inside of an array on the stack, and nothing else that has a reference. One of the two
objects was made with the other. -/
def layered : Session :=
  ((start .standard .zero default .stack).run
    [.create "a" (.host "T") .unit, .create "b" (.host "U") (.reference "a"),
      .stackPush (.array [.object "b", .array [.object "a", .object "b"]]),
      .releaseHandle "a", .releaseHandle "b"]).2

theorem layered_arises : layered.Arises :=
  (Arises.start ItemFactory.standard_conserves .zero default .stack).run _

/-- The inner object has one reference more for the wrapper that is cloned, and none for the object
that holds it. The save keeps both when the stack is cleared. -/
theorem clones_are_snapshots_layered :
    let saved := (layered.step (.save "x")).2
    let cleared := (saved.step .clear).2
    layered.Arises ∧ layered.heap.strong ⟨0⟩ = 2 ∧ layered.heap.strong ⟨1⟩ = 2 ∧
      saved.heap.strong ⟨0⟩ = 3 ∧ saved.heap.strong ⟨1⟩ = 4 ∧
      cleared.stack.isEmpty ∧ cleared.heap.strong ⟨1⟩ = 2 ∧
      cleared.held? (.save "x") = some (.save layered.stack) ∧ layered.Snapshots := by
  have hbefore : layered.heap.strong ⟨0⟩ = 2 ∧ layered.heap.strong ⟨1⟩ = 2 := by
    constructor <;> cbv
  have hsaved : (layered.step (.save "x")).2.heap.strong ⟨0⟩ = 3 ∧
      (layered.step (.save "x")).2.heap.strong ⟨1⟩ = 4 := by
    constructor <;> cbv
  have hcleared : ((layered.step (.save "x")).2.step .clear).2.stack.isEmpty ∧
      ((layered.step (.save "x")).2.step .clear).2.heap.strong ⟨1⟩ = 2 := by
    constructor <;> cbv
  intro saved cleared
  have hsnapshots := layered_arises.clones_are_snapshots
  have hsparing : saved.Sparing (.save "x") cleared := .step .refl .clear List.not_mem_nil
  have hheld := ((hsnapshots.saved "x").2.1.later cleared hsparing).1
  exact ⟨layered_arises, hbefore.1, hbefore.2, hsaved.1, hsaved.2, hcleared.1, hcleared.2, hheld,
    hsnapshots⟩

end Session

end HostStack
