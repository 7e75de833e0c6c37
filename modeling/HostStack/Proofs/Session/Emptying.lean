import HostStack.Proofs.Access.Moves
import HostStack.Proofs.Heap.Order
import HostStack.Proofs.Session.Extraction
import HostStack.Proofs.Session.Release

/-!
# Ways to empty a stack

A stack can be emptied by clearing it, by removing its items one by one and letting go of what comes
out, and by letting go of the stack. The first and the last release the items from the bottom to the
top, the removals from the top to the bottom, and those that look for references release one part
of an array before the other. It all comes to the same: nothing is made on the way, and in the end
the heap counts the references of the handles, the registers and the saves.
-/

namespace HostStack

open Heap (Releases)

/-! ### One removal -/

/-- Steps that remove the top item and let go of what comes out. -/
inductive Step.Removes : Step → Prop
  | pop (how : Pop) (quiet : Bool) : Removes (.pop how none quiet)
  | stackPop (quiet : Bool) : Removes (.stackPop none quiet)

/-- The machine has lost so many items from the top, or all that it had, and no object was made. -/
structure Machine.Loses (m : Machine) (n : Nat) (m' : Machine) : Prop where
  stack : m'.stack = .ofTop (m.stack.fromTop.drop n) m.stack.maxSize
  size : m'.heap.cells.size = m.heap.cells.size

theorem Machine.Loses.trans {m m' m'' : Machine} {n n' : Nat} (h : m.Loses n m')
    (h' : m'.Loses n' m'') : m.Loses (n + n') m'' := by
  refine ⟨?_, h'.size.trans h.size⟩
  rw [h'.stack, h.stack, Stack.fromTop_ofTop, Stack.maxSize_ofTop, List.drop_drop]

/-- An operation that removes the top item, however it ends. -/
def Access.Removes {α : Type} (operation : Access α) : Prop :=
  ∀ m, Ends (operation.run m) (fun _ m' => m.Loses 1 m') (m.Loses 1)

theorem Machine.loses_of_pop_error {m m' : Machine} {cause : StackError}
    (hpop : m.stack.pop = .error cause) (hstack : m'.stack = m.stack) (hheap : m'.heap = m.heap) :
    m.Loses 1 m' := by
  obtain ⟨items, maxSize, hitems⟩ := m.stack.exists_ofTop
  refine ⟨?_, by rw [hheap]⟩
  rw [hitems] at hpop
  cases items with
  | nil =>
      rw [hstack, hitems, Stack.fromTop_ofTop]
      rfl
  | cons item rest =>
      rw [Stack.pop_ofTop_cons] at hpop
      cases hpop

theorem Machine.loses_of_pop_ok {m m' : Machine} {item : Item} {stack : Stack}
    (hpop : m.stack.pop = .ok (item, stack)) (hstack : m'.stack = stack)
    (hsize : m'.heap.cells.size = m.heap.cells.size) : m.Loses 1 m' := by
  obtain ⟨items, maxSize, hitems⟩ := m.stack.exists_ofTop
  refine ⟨?_, hsize⟩
  rw [hitems] at hpop ⊢
  cases items with
  | nil => cases hpop
  | cons top rest =>
      rw [Stack.pop_ofTop_cons] at hpop
      injection hpop with hpop
      injection hpop with _ hrest
      rw [hstack, ← hrest, Stack.fromTop_ofTop, Stack.maxSize_ofTop]
      rfl

theorem Pop.removes (how : Pop) : Access.Removes how.perform := by
  intro m
  rw [how.perform_run]
  cases hpop : m.stack.pop with
  | error cause => exact Machine.loses_of_pop_error hpop rfl rfl
  | ok top =>
      obtain ⟨item, stack⟩ := top
      have hloses := fun m' => @Machine.loses_of_pop_ok m m' item stack hpop
      dsimp only
      cases how.reply item with
      | ok reply => exact hloses _ rfl (Heap.size_release _ _)
      | error e => exact hloses _ rfl (Heap.size_release _ _)

theorem Access.takeItem_removes :
    Access.Removes (do return Reply.extracted (.item (← Access.takeItem)) : Access Reply) := by
  intro m
  rw [EStateM.run_bind, Access.takeItem_run]
  cases hpop : m.stack.pop with
  | error cause => exact Machine.loses_of_pop_error hpop rfl rfl
  | ok top => exact Machine.loses_of_pop_ok hpop rfl rfl

namespace Session

/-- Nothing but the machine has changed, which has lost so many items. -/
structure Loses (s : Session) (n : Nat) (s' : Session) : Prop where
  machine : s.machine.Loses n s'.machine
  host : s' = { s with machine := s'.machine }

theorem Loses.trans {s s' s'' : Session} {n n' : Nat} (h : s.Loses n s') (h' : s'.Loses n' s'') :
    s.Loses (n + n') s'' := by
  refine ⟨h.machine.trans h'.machine, h'.host.trans ?_⟩
  exact congrArg (fun t : Session => { t with machine := s''.machine }) h.host

end Session

theorem Run.handOut_loses {operation : Access Reply} (hop : Access.Removes operation) (quiet : Bool)
    (s : Session) :
    Ends ((Run.handOut none quiet operation).run s) (fun _ s' => s.Loses 1 s') (s.Loses 1) := by
  have hend := hop s.machine
  rw [Run.handOut, EStateM.run_bind]
  cases hrun : operation.run s.machine with
  | error cause m =>
      rw [hrun] at hend
      rw [Run.access_error hrun]
      exact ⟨hend, rfl⟩
  | ok reply m =>
      rw [hrun] at hend
      rw [Run.access_ok hrun]
      exact ⟨⟨hend.stack, (Heap.size_release _ _).trans hend.size⟩, rfl⟩

theorem Session.step_loses {s : Session} {step : Step}
    (h : Ends (step.perform.run s.clearLogs) (fun _ s' => s.clearLogs.Loses 1 s')
      (s.clearLogs.Loses 1)) :
    s.Loses 1 (s.step step).2 := by
  have hloses := after_of_ends h
  rw [← step_eq_after] at hloses
  exact ⟨⟨hloses.machine.stack, hloses.machine.size⟩, hloses.host⟩

theorem Step.Removes.loses {step : Step} (h : step.Removes) (s : Session) :
    s.Loses 1 (s.step step).2 := by
  cases h with
  | pop how quiet => exact Session.step_loses (Run.handOut_loses how.removes quiet _)
  | stackPop quiet => exact Session.step_loses (Run.handOut_loses Access.takeItem_removes quiet _)

/-! ### Many removals -/

namespace Session

variable {s : Session}

/-- As many items as there are removals are gone from the top. -/
theorem run_loses {steps : List Step} (hsteps : ∀ step ∈ steps, step.Removes) (s : Session) :
    s.Loses steps.length (s.run steps).2 := by
  induction steps generalizing s with
  | nil => exact ⟨⟨s.stack.ofTop_fromTop.symm, rfl⟩, rfl⟩
  | cons step rest ih =>
      have hfirst := (hsteps step List.mem_cons_self).loses s
      have hrest := ih (fun step hmem => hsteps step (List.mem_cons_of_mem _ hmem)) (s.step step).2
      rw [List.length_cons, Nat.add_comm]
      exact hfirst.trans hrest

/-! ### What is left -/

theorem owned_eq (s : Session) :
    (↑s.owned : Multiset ObjectId) = s.stack.objects + s.kept.map Interop.object := by
  rw [← s.map_object_leaves, leaves, Multiset.map_add, Multiset.map_coe, Stack.map_object_leaves]

theorem owned_dropStack (s : Session) :
    (↑s.dropStack.owned : Multiset ObjectId) = s.kept.map Interop.object :=
  (owned_eq s.dropStack).trans (zero_add _)

/-- Letting go of the stack leaves what the host keeps elsewhere. -/
theorem Arises.settles_dropStack (h : s.Arises) :
    s.heap.Settles s.dropStack.heap (s.kept.map Interop.object) := by
  have hb := h.balanced
  rw [owned_eq] at hb
  exact hb.settles

/-- So does the removal of all items. -/
theorem Arises.settles_run (h : s.Arises) {steps : List Step}
    (hsteps : ∀ step ∈ steps, step.Removes) (hall : s.stack.size ≤ steps.length) :
    (s.run steps).2.stack = s.dropStack.stack ∧
      s.heap.Settles (s.run steps).2.heap (s.kept.map Interop.object) := by
  obtain ⟨⟨hstack, hsize⟩, hhost⟩ := run_loses hsteps s
  have hempty : (s.run steps).2.stack = s.dropStack.stack := by
    refine hstack.trans ?_
    rw [List.drop_of_length_le]
    · rfl
    · rw [Stack.length_fromTop]
      exact hall
  have hkept : (s.run steps).2.kept = s.kept := (congrArg kept hhost :)
  have hb := (h.run steps).balanced
  rw [owned_eq, hempty, hkept] at hb
  exact ⟨hempty, (h.trade_run steps).later, hsize, (zero_add (s.kept.map Interop.object)) ▸ hb⟩

theorem Arises.mem_freed_dropStack (h : s.Arises) {o : ObjectId} :
    o ∈ s.dropStack.heap.freed ↔ s.heap.Made o ∧ ¬ s.heap.Reaches s.dropStack.Keeps o := by
  rw [h.settles_dropStack.mem_freed_iff, keeps_eq, owned_dropStack]

/-- An empty stack, and what is left when a stack is let go of, but for the order in which objects
were freed. -/
structure Emptied (s : Session) (m : Machine) : Prop where
  stack : m.stack = s.stack.clear
  heap : m.heap.Alike s.dropStack.heap

/-- All ways to empty the stack come to the same, and so do all ways to release references. -/
structure EmptiesAlike (s : Session) : Prop where
  cleared : ∃ m, Access.clear.run s.machine = .ok () m ∧ s.Emptied m
  /-- Removals of any kinds, as many as there are items or more. -/
  removed : ∀ steps : List Step, (∀ step ∈ steps, step.Removes) → s.stack.size ≤ steps.length →
    s.Emptied (s.run steps).2.machine ∧
      (s.run steps).2 = { s with machine := (s.run steps).2.machine }
  /-- What is freed was reached before, and is not reached without the stack. -/
  freed : ∀ o, o ∈ s.dropStack.heap.freedSince s.heap ↔
    s.heap.Reaches s.Keeps o ∧ ¬ s.heap.Reaches s.dropStack.Keeps o
  /-- What is reached from a handle, a register or a save is not freed. -/
  kept : ∀ o, s.heap.Reaches s.dropStack.Keeps o → o ∉ s.dropStack.heap.freed
  /-- References may be released in any order, and those that freed objects held in between. -/
  anyOrder : ∀ os rest : List ObjectId, (os ++ rest).Perm s.owned → ∀ left,
    Relation.ReflTransGen Releases (s.heap, ↑os) left → (∀ next, ¬ Releases left next) →
    left.2 = 0 ∧ left.1.Alike (s.heap.release os)
  /-- So may the items of an array. -/
  elements : ∀ (items items' : List Item) rest, items'.Perm items →
    ((Item.array items).objects ++ rest).Perm s.owned →
    (s.heap.release (Item.objectsOfAll items')).Alike (s.heap.release (Item.array items).objects)

theorem Arises.empties_alike (h : s.Arises) : s.EmptiesAlike where
  cleared := ⟨_, rfl, rfl, rfl, .refl _⟩
  removed steps hsteps hall := by
    obtain ⟨hstack, hsettles⟩ := h.settles_run hsteps hall
    exact ⟨⟨hstack, hsettles.alike h.settles_dropStack⟩, (run_loses hsteps s).host⟩
  freed := by
    intro o
    have hsettles := h.settles_dropStack
    rw [hsettles.objects.mem_freedSince hsettles.balanced.once, h.mem_freed_dropStack,
      h.reaches_iff, Heap.mem_live]
    tauto
  kept o hreach hfreed := (h.mem_freed_dropStack.1 hfreed).2 hreach
  anyOrder os rest hos left hrun hend := by
    have hb := h.balanced
    rw [← Multiset.coe_eq_coe.2 hos, ← Multiset.coe_add] at hb
    exact hb.releases_alike hrun hend
  elements items items' rest hperm hos := by
    have hb := h.balanced
    rw [← Multiset.coe_eq_coe.2 hos, ← Multiset.coe_add] at hb
    refine hb.release_perm ?_
    rw [← Item.map_object_leavesOfAll, ← Item.map_object_leaves, Item.leaves,
      Item.leavesOfAll_eq_flatMap, Item.leavesOfAll_eq_flatMap]
    exact (hperm.flatMap_right _).map _

/-- From the top: an array of two objects, one of which has a handle, another object that holds two,
of which one is in the array as well, and one more object. -/
def nested : Session :=
  ((start .standard .zero default .stack).run
    [.create "a" (.host "T") .unit, .create "b" (.host "T") .unit,
      .create "c" .item (.item (.array [.object "a", .object "b"])),
      .create "d" (.host "T") .unit, .create "e" (.host "T") .unit,
      .stackPush (.object "e"), .stackPush (.object "c"),
      .stackPush (.array [.object "b", .object "d"]),
      .releaseHandle "a", .releaseHandle "b", .releaseHandle "c", .releaseHandle "e"]).2

theorem nested_arises : nested.Arises :=
  (Arises.start ItemFactory.standard_conserves .zero default .stack).run _

theorem empties_alike_nested :
    let removals : List Step :=
      [.pop (.array (.host "T")) none false, .pop .boolean none true, .stackPop none false]
    nested.Arises ∧ nested.dropStack.heap.freed = [⟨1⟩, ⟨0⟩, ⟨2⟩, ⟨4⟩] ∧
      (nested.run removals).2.heap.freed = [⟨4⟩, ⟨1⟩, ⟨0⟩, ⟨2⟩] ∧
      nested.Emptied (nested.run removals).2.machine ∧ nested.EmptiesAlike := by
  intro removals
  have halike := nested_arises.empties_alike
  have hremoves : ∀ step ∈ removals, step.Removes := by
    intro step hstep
    rcases List.mem_cons.1 hstep with rfl | hstep
    · exact .pop _ _
    · rcases List.mem_pair.1 hstep with rfl | rfl
      · exact .pop _ _
      · exact .stackPop _
  exact ⟨nested_arises, by cbv, by cbv, (halike.removed removals hremoves (by cbv)).1, halike⟩

end Session

end HostStack
