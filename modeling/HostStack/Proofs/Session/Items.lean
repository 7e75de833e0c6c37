import HostStack.Proofs.Heap.Reach
import HostStack.Proofs.Session.Extraction

/-!
# The items of a session

The items of a session are all that its host can get at: those on the stack and on the saves, those
in registers and in host objects that are alive, and the elements of arrays among them. The wrappers
in such an item are owned, by the session or by an object that is alive. So their objects are alive,
and their tags are those of their objects.
-/

namespace HostStack

namespace Session

/-- The stack that the accessor works on, or a save. -/
inductive HasStack (s : Session) : Stack → Prop
  | active : HasStack s s.stack
  | save {name stack} : s.saves.get? name = some stack → HasStack s stack

inductive HasItem (s : Session) : Item → Prop
  | stack {stack item} : s.HasStack stack → item ∈ stack.toList → HasItem s item
  | register {name item} : s.registers.get? name = some (.item item) → HasItem s item
  | inside {p cell item} : p ∈ s.heap.live → s.heap.cell? p = some cell →
      cell.payload = .item item → HasItem s item
  | element {items item} : HasItem s (.array items) → item ∈ items → HasItem s item

variable {s : Session}

theorem machine_stack (s : Session) : s.machine.stack = s.stack := rfl

theorem HasStack.items {stack : Stack} (h : s.HasStack stack) :
    ∀ item ∈ stack.toList, s.HasItem item :=
  fun _ hmem => .stack h hmem

theorem HasStack.subset {stack : Stack} (h : s.HasStack stack) :
    ∀ w ∈ stack.leaves, w ∈ s.leaves := by
  intro w hw
  cases h with
  | active => exact Multiset.mem_add.2 (.inl (Multiset.mem_coe.2 hw))
  | save hget =>
      rw [leaves, kept, Named.leaves_of_get? Stack.leaves hget]
      simp [hw]

/-- A wrapper is with the host, on a stack, or inside an object that is alive. -/
inductive HasWrapper (s : Session) (w : Interop) : Prop
  | owned : w ∈ s.leaves → HasWrapper s w
  | inside {p cell} : p ∈ s.heap.live → s.heap.cell? p = some cell → w ∈ cell.payload.leaves →
      HasWrapper s w

theorem HasItem.wrapper {item : Item} (h : s.HasItem item) :
    ∀ w ∈ item.leaves, s.HasWrapper w := by
  intro w hw
  induction h with
  | stack hstack hmem => exact .owned (hstack.subset w (Item.leaves_subset hmem hw))
  | register hget => exact .owned (s.mem_leaves_of_register hget hw)
  | inside hlive hcell hpayload =>
      refine .inside hlive hcell ?_
      rw [hpayload]
      exact hw
  | element _ hmem ih => exact ih (Item.leaves_subset hmem hw)

theorem HasWrapper.of_register {name : String} {w : Interop}
    (hget : s.registers.get? name = some (.wrapper w)) : s.HasWrapper w :=
  .owned (s.mem_leaves_of_register hget (List.mem_singleton_self w))

theorem HasWrapper.types (h : s.Arises) {w : Interop} (hw : s.HasWrapper w) : s.heap.Types w := by
  cases hw with
  | owned howned => exact h.typed.owned w howned
  | inside _ hcell hinside => exact h.typed.inside _ _ hcell w hinside

theorem HasItem.types (h : s.Arises) {item : Item} (hitem : s.HasItem item) :
    ∀ w ∈ item.leaves, s.heap.Types w :=
  fun w hw => (hitem.wrapper w hw).types h

theorem Arises.mem_live_of_owned (h : s.Arises) {w : Interop} (hw : w ∈ s.leaves) :
    w.object ∈ s.heap.live :=
  h.balanced_leaves.live_iff.2 (.inl (Multiset.mem_map_of_mem _ hw))

theorem HasWrapper.alive (h : s.Arises) {w : Interop} (hw : s.HasWrapper w) :
    w.object ∈ s.heap.live := by
  cases hw with
  | owned howned => exact h.mem_live_of_owned howned
  | @inside p cell hlive hcell hinside =>
      refine h.balanced.live_iff.2 (.inr ⟨p, hlive, ?_⟩)
      rw [Heap.usesIn_pos_iff, Heap.holds_eq hcell, ← cell.payload.map_object_leaves]
      exact List.mem_map_of_mem hinside

theorem HasWrapper.strong_ne_zero (h : s.Arises) {w : Interop} (hw : s.HasWrapper w) :
    s.heap.strong w.object ≠ 0 :=
  h.balanced.strong_ne_zero_iff.2 (hw.alive h)

theorem HasItem.alive (h : s.Arises) {item : Item} (hitem : s.HasItem item) :
    ∀ w ∈ item.leaves, w.object ∈ s.heap.live :=
  fun w hw => (hitem.wrapper w hw).alive h

end Session

end HostStack
