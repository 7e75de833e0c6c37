import HostStack.Access.Clone
import HostStack.Proofs.Access.Programs
import HostStack.Proofs.Heap.Reach
import HostStack.Proofs.Heap.Undo

/-!
# What a clone is

A clone is the same value as the original, and has taken one reference for each wrapper in it. So of
the two nobody can say which is the original, and what is true of one is true of the other: to say
that one outlasts whatever happens to the other it is enough to say that references do which have no
part in it. That is the frame of a trade.

The original need not be owned by anybody who takes part. It may be inside of an object, as long as
that object is alive; then the counts of what is cloned are not zero, and that is all that taking a
reference needs.
-/

namespace HostStack

open Heap (Trade)

namespace Heap

variable {h : Heap}

theorem retain_append (h : Heap) (xs ys : List ObjectId) :
    h.retain (xs ++ ys) = (h.retain xs).retain ys :=
  List.foldl_append

theorem strong_retain {os : List ObjectId} (hlive : ∀ o ∈ os, h.strong o ≠ 0) (x : ObjectId) :
    (h.retain os).strong x = h.strong x + os.count x := by
  rw [strong, cell?_retain]
  cases hcell : h.cell? x with
  | some cell =>
      rw [strong_eq hcell]
      rfl
  | none =>
      have hzero : h.strong x = 0 := by
        rw [strong, hcell]
        rfl
      have hcount : os.count x = 0 := List.count_eq_zero_of_not_mem fun hx => hlive x hx hzero
      rw [hzero, hcount]
      rfl

theorem usesIn_retain (h : Heap) (os : List ObjectId) : (h.retain os).usesIn = h.usesIn := by
  funext p o
  rw [usesIn, usesIn, cell?_retain, Option.map_map]
  rfl

end Heap

/-! ### The same value -/

theorem Interop.clone_run (w : Interop) (m : Machine) :
    w.clone.run m = .ok w { m with heap := m.heap.retain [w.object] } := rfl

mutual

theorem Item.clone_run (item : Item) (m : Machine) :
    item.clone.run m = .ok item { m with heap := m.heap.retain item.objects } := by
  match item with
  | .boolean _ | .integer _ | .byteArray _ =>
      rw [Item.clone]
      rfl
  | .interop w =>
      rw [Item.clone]
      rfl
  | .array items =>
      rw [Item.clone, EStateM.run_bind, Item.cloneAll_run items m]
      rfl

theorem Item.cloneAll_run (items : List Item) (m : Machine) :
    (Item.cloneAll items).run m =
      .ok items { m with heap := m.heap.retain (Item.objectsOfAll items) } := by
  match items with
  | [] =>
      rw [Item.cloneAll]
      rfl
  | item :: rest =>
      rw [Item.cloneAll, EStateM.run_bind, Item.clone_run item m]
      dsimp only
      rw [EStateM.run_bind, Item.cloneAll_run rest, Item.objectsOfAll, Heap.retain_append]
      rfl

end

theorem Stack.clone_run (s : Stack) (m : Machine) :
    s.clone.run m = .ok s { m with heap := m.heap.retain s.objects } := by
  rw [Stack.clone, EStateM.run_bind, Item.cloneAll_run]
  rfl

theorem ScriptContext.clone_run (context : ScriptContext) (m : Machine) :
    context.clone.run m =
      .ok context { m with heap := m.heap.retain context.stack.objects } := by
  rw [ScriptContext.clone, EStateM.run_bind, Stack.clone_run]
  rfl

/-! ### What becomes of it -/

/-- The heap after some wrappers were cloned. -/
def Heap.cloned (h : Heap) (leaves : List Interop) : Heap :=
  h.retain (leaves.map Interop.object)

/-- A clone of a value that has some wrappers in it, on a machine with known owners. -/
structure Machine.Clones {α : Type} (m : Machine) (owned : Multiset Interop) (clone : Access α)
    (value : α) (leaves : List Interop) (uses : ObjectId → Nat) : Prop where
  /-- The clone is the same value, and nothing but the heap has changed. -/
  run : clone.run m = .ok value { m with heap := m.heap.cloned leaves }
  counts : ∀ o, (m.heap.cloned leaves).strong o = m.heap.strong o + uses o
  freed : (m.heap.cloned leaves).freed = m.heap.freed
  /-- What objects hold is not cloned with them. -/
  inside : (m.heap.cloned leaves).usesIn = m.heap.usesIn
  dropped : (m.heap.cloned leaves).release (leaves.map Interop.object) = m.heap
  /-- Some of the references, those of the clone among them, are on a stack and with a host, and the
  others are elsewhere. The others keep their objects, whatever is done with that stack. -/
  outlasts : ∀ (e : Machine) (mine others : Multiset Interop), e.heap = m.heap.cloned leaves →
    e.stack.leaves + mine + others = leaves + owned →
    ∀ program mine', Operation.FairAll program e mine mine' →
      ∀ w ∈ others, w.object ∉ (Operation.runAll program e).2.heap.freed

theorem Machine.clones {α : Type} {m : Machine} {owned : Multiset Interop} {clone : Access α}
    {value : α} {leaves : List Interop} {uses : ObjectId → Nat}
    (hb : m.heap.Balanced (owned.map Interop.object))
    (hlive : ∀ w ∈ leaves, m.heap.strong w.object ≠ 0)
    (huses : ∀ o, uses o = (leaves.map Interop.object).count o)
    (hrun : clone.run m = .ok value { m with heap := m.heap.retain (leaves.map Interop.object) }) :
    m.Clones owned clone value leaves uses := by
  have halive : ∀ o ∈ leaves.map Interop.object, m.heap.strong o ≠ 0 := by
    intro o ho
    obtain ⟨w, hw, rfl⟩ := List.mem_map.1 ho
    exact hlive w hw
  have hcloned : (m.heap.cloned leaves).Balanced ((leaves + owned).map Interop.object) := by
    rw [Multiset.map_add, Multiset.map_coe]
    exact hb.retain_live halive
  constructor
  case run => exact hrun
  case counts =>
    intro o
    rw [Heap.cloned, Heap.strong_retain halive, huses]
  case freed => exact Heap.freed_retain _ _
  case inside => exact Heap.usesIn_retain _ _
  case dropped => exact Heap.release_retain (.refl _) halive
  case outlasts =>
    intro e mine others hheap hall program mine' hfair w hw hfreed
    rw [← hheap, ← hall] at hcloned
    have hend := (hfair.trade.frame others).balanced hcloned
    have hpos := hend.strong_ne_zero (Multiset.mem_map_of_mem _ (Multiset.mem_add.2 (.inr hw)))
    exact hpos ((hend.freed_iff _).1 hfreed).2

end HostStack
