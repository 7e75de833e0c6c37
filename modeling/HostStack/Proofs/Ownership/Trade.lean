import HostStack.Proofs.Heap.Cascade
import HostStack.Proofs.Ownership.Leaves
import Mathlib.Algebra.Order.Group.Multiset

/-!
# Trades

All that a host can do with the references it owns is to trade: to copy a reference that it has,
to let go of some, to wrap a reference anew, and to give references away to a new object. A trade
relates what is owned before and the heap to what is owned afterwards and the heap then. Who owns
a reference does not matter to a trade, so moving an item from the stack to a register is none.

Operations are shown to be trades once and for all, and facts about all runs are shown by induction
on trades: counts stay balanced, objects keep what they were made with, and the log of freed
objects only grows.
-/

namespace HostStack

namespace Heap

/-! ### What every later state of a heap keeps -/

/-- A later state has every object of an earlier one, with the same type and payload, and has
freed at least as many. -/
structure Extends (h later : Heap) : Prop where
  cell : ∀ o cell, h.cell? o = some cell → ∃ n, later.cell? o = some { cell with strong := n }
  freed : h.freed <:+ later.freed

theorem Extends.refl (h : Heap) : h.Extends h :=
  ⟨fun _ cell hcell => ⟨cell.strong, hcell⟩, List.suffix_refl _⟩

theorem Extends.trans {h h' h'' : Heap} (hxy : h.Extends h') (hyz : h'.Extends h'') :
    h.Extends h'' := by
  refine ⟨?_, hxy.freed.trans hyz.freed⟩
  intro o cell hcell
  obtain ⟨n, hn⟩ := hxy.cell o cell hcell
  obtain ⟨m, hm⟩ := hyz.cell o _ hn
  exact ⟨m, hm⟩

theorem Extends.made {h later : Heap} (hx : h.Extends later) {o : ObjectId} (hmade : h.Made o) :
    later.Made o := by
  obtain ⟨cell, hcell⟩ := made_iff.1 hmade
  obtain ⟨n, hn⟩ := hx.cell o cell hcell
  exact made_iff.2 ⟨_, hn⟩

/-- An object holds for good what it was made with. -/
theorem Extends.holds {h later : Heap} (hx : h.Extends later) {o : ObjectId} (hmade : h.Made o) :
    later.holds o = h.holds o := by
  obtain ⟨cell, hcell⟩ := made_iff.1 hmade
  obtain ⟨n, hn⟩ := hx.cell o cell hcell
  rw [holds_eq hn, holds_eq hcell]

theorem Extends.log_eq {h later : Heap} (hx : h.Extends later) :
    later.freed = later.freedSince h ++ h.freed := by
  obtain ⟨gone, hgone⟩ := hx.freed
  rw [freedSince, ← hgone, List.length_append, Nat.add_sub_cancel, List.take_left]

theorem Extends.mem_freedSince {h later : Heap} (hx : h.Extends later) (honce : later.freed.Nodup)
    (o : ObjectId) : o ∈ later.freedSince h ↔ o ∈ later.freed ∧ o ∉ h.freed := by
  rw [hx.log_eq] at honce
  rw [hx.log_eq, List.mem_append]
  constructor
  · intro ho
    exact ⟨.inl ho, fun hfreed => (List.nodup_append.1 honce).2.2 o ho o hfreed rfl⟩
  · rintro ⟨ho | ho, hfreed⟩
    · exact ho
    · exact absurd ho hfreed

theorem extends_setStrong (h : Heap) (o : ObjectId) (count : Nat) :
    h.Extends (h.setStrong o count) := by
  refine ⟨?_, List.suffix_refl _⟩
  intro x cell hcell
  rw [cell?_setStrong, hcell]
  split
  · exact ⟨count, rfl⟩
  · exact ⟨cell.strong, rfl⟩

theorem extends_logFreed (h : Heap) (o : ObjectId) : h.Extends (h.logFreed o) :=
  ⟨fun _ cell hcell => ⟨cell.strong, hcell⟩, List.suffix_cons _ _⟩

theorem extends_retain (h : Heap) (os : List ObjectId) : h.Extends (h.retain os) := by
  induction os generalizing h with
  | nil => exact .refl h
  | cons o rest ih => exact (h.extends_setStrong o _).trans (ih _)

theorem extends_release (h : Heap) (os : List ObjectId) : h.Extends (h.release os) := by
  fun_induction Heap.release h os with
  | case1 h => exact .refl h
  | case2 h o pending _ ih => exact (h.extends_logFreed o).trans ih
  | case3 h o pending _ ih =>
      exact ((h.extends_setStrong o 0).trans (extends_logFreed _ o)).trans ih
  | case4 h o pending count _ ih => exact (h.extends_setStrong o _).trans ih

theorem extends_alloc (h : Heap) (type : HostType) (payload : Payload) :
    h.Extends (h.alloc type payload).2 := by
  refine ⟨fun x cell hcell => ⟨cell.strong, ?_⟩, List.suffix_refl _⟩
  have hne : x ≠ h.next := fun heq => h.not_made_next (made_iff.2 ⟨cell, heq ▸ hcell⟩)
  rw [cell?_alloc, if_neg hne]
  exact hcell

/-! ### Trading -/

/-- What owners of references can do. -/
inductive Trade : Multiset Interop → Heap → Multiset Interop → Heap → Prop
  | refl {owners h} : Trade owners h owners h
  | trans {owners h owners' h' owners'' h''} :
      Trade owners h owners' h' → Trade owners' h' owners'' h'' → Trade owners h owners'' h''
  /-- A reference is taken out of its wrapper and put into a new one. -/
  | rewrap {owners h} (w : Interop) : Trade (w ::ₘ owners) h (.ofRef w.value ::ₘ owners) h
  | copy {owners h} (ws : List Interop) :
      (∀ w ∈ ws, w ∈ owners) → Trade owners h (ws + owners) (h.retain (ws.map Interop.object))
  | drop {owners h} (ws : List Interop) :
      Trade (ws + owners) h owners (h.release (ws.map Interop.object))
  | make {owners h} (type : HostType) (payload : Payload) :
      Trade (payload.leaves + owners) h (.ofRef ⟨h.next, type⟩ ::ₘ owners) (h.alloc type payload).2

namespace Trade

variable {owners owners' : Multiset Interop} {h h' : Heap}

theorem of_eq (heq : owners = owners') : Trade owners h owners' h :=
  heq ▸ .refl

/-- Owners who take no part in a trade keep what they have. -/
theorem frame (ht : Trade owners h owners' h') (rest : Multiset Interop) :
    Trade (owners + rest) h (owners' + rest) h' := by
  induction ht with
  | refl => exact .refl
  | trans _ _ ih ih' => exact ih.trans ih'
  | rewrap w =>
      rw [Multiset.cons_add, Multiset.cons_add]
      exact .rewrap w
  | copy ws hws =>
      rw [add_assoc]
      exact .copy ws fun w hw => Multiset.mem_add.2 (.inl (hws w hw))
  | drop ws =>
      rw [add_assoc]
      exact .drop ws
  | make type payload =>
      rw [add_assoc, Multiset.cons_add]
      exact .make type payload

theorem balanced (ht : Trade owners h owners' h')
    (hb : h.Balanced (owners.map Interop.object)) : h'.Balanced (owners'.map Interop.object) := by
  induction ht with
  | refl => exact hb
  | trans _ _ ih ih' => exact ih' (ih hb)
  | rewrap w =>
      rw [Multiset.map_cons] at hb ⊢
      exact hb
  | copy ws hws =>
      rw [Multiset.map_add, Multiset.map_coe]
      refine hb.retain ?_
      intro o ho
      obtain ⟨w, hw, rfl⟩ := List.mem_map.1 ho
      exact Multiset.mem_map_of_mem _ (hws w hw)
  | drop ws =>
      rw [Multiset.map_add, Multiset.map_coe] at hb
      exact hb.release
  | make type payload =>
      rw [Multiset.map_add, Multiset.map_coe, payload.map_object_leaves] at hb
      rw [Multiset.map_cons]
      exact hb.alloc

theorem later (ht : Trade owners h owners' h') : h.Extends h' := by
  induction ht with
  | refl => exact .refl _
  | trans _ _ ih ih' => exact ih.trans ih'
  | rewrap w => exact .refl _
  | copy ws _ => exact extends_retain _ _
  | drop ws => exact extends_release _ _
  | make type payload => exact extends_alloc _ type payload

/-- What is freed already cannot be given to a new object. -/
theorem made_of_holds_freed (ht : Trade owners h owners' h')
    (hb : h.Balanced (owners.map Interop.object)) {p o : ObjectId} (hfreed : o ∈ h.freed)
    (hholds : o ∈ h'.holds p) : h.Made p := by
  induction ht with
  | refl => exact made_of_holds hholds
  | trans ht ht' ih ih' =>
      have hmid := ih' (ht.balanced hb) (ht.later.freed.subset hfreed) hholds
      rw [ht'.later.holds hmid] at hholds
      exact ih hb hfreed hholds
  | rewrap w => exact made_of_holds hholds
  | copy ws _ =>
      have hmade := made_of_holds hholds
      rwa [Made, size_retain] at hmade
  | drop ws =>
      have hmade := made_of_holds hholds
      rwa [Made, size_release] at hmade
  | make type payload =>
      rw [holds_alloc] at hholds
      split at hholds
      · rw [Multiset.map_add, Multiset.map_coe, payload.map_object_leaves] at hb
        refine absurd ((hb.freed_iff o).1 hfreed).2 (hb.strong_ne_zero ?_)
        exact Multiset.mem_add.2 (.inl (Multiset.mem_coe.2 hholds))
      · exact made_of_holds hholds

end Trade

end Heap

end HostStack
