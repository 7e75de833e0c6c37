import HostStack.Proofs.Heap.Cells
import Mathlib.Data.Multiset.AddSub

/-!
# Balanced heaps

A heap is balanced against some owners when every count is what it should be: the number of
references the owners have to the object, and the number that live objects have. Two facts about
the rest of the heap belong to the invariant, because no operation keeps the counts right without
them. An object holds older ones only, which is what lets a new object start with no other
references than its maker's. And the log of freed objects has each object once, exactly when its
count is zero, which is what makes a second entry for an object impossible: the release that
would write it finds a reference that nobody owns.

Each operation moves the balance in the way its owners expect. Taking a reference needs somebody
who has one already, or an object that is gone would come back.
-/

namespace HostStack

namespace Heap

/-- The counts are those of the owners, given once for each reference, and of live objects. -/
structure Balanced (h : Heap) (owners : Multiset ObjectId) : Prop where
  counts : ∀ o, h.strong o = owners.count o + h.held o
  older : ∀ p o, o ∈ h.holds p → o.index < p.index
  freed_iff : ∀ o, o ∈ h.freed ↔ h.Made o ∧ h.strong o = 0
  once : h.freed.Nodup

variable {h : Heap} {owners : Multiset ObjectId}

theorem balanced_empty : Heap.empty.Balanced 0 where
  counts o := by simp [strong, cell?, held, Heap.empty]
  older p o hmem := by simp [holds, cell?, Heap.empty] at hmem
  freed_iff o := by simp [Made, Heap.empty]
  once := List.nodup_nil

theorem Balanced.strong_ne_zero (hb : h.Balanced owners) {o : ObjectId} (hmem : o ∈ owners) :
    h.strong o ≠ 0 := by
  have hcount := hb.counts o
  have hpos := Multiset.count_pos.2 hmem
  omega

theorem Balanced.made (hb : h.Balanced owners) {o : ObjectId} (hmem : o ∈ owners) : h.Made o :=
  made_of_strong (hb.strong_ne_zero hmem)

/-! ### Taking references -/

/-- The count of an object that is not freed may change with the number of its owners. -/
theorem Balanced.recount (hb : h.Balanced owners) {o : ObjectId} (hpos : h.strong o ≠ 0)
    {count : Nat} (hcount : count ≠ 0) {owners' : Multiset ObjectId}
    (hothers : ∀ x, x ≠ o → owners'.count x = owners.count x)
    (hown : count + owners.count o = h.strong o + owners'.count o) :
    (h.setStrong o count).Balanced owners' := by
  have hstrong := fun x => strong_setStrong (made_of_strong hpos) x count
  refine ⟨?_, ?_, ?_, hb.once⟩
  · intro x
    rw [hstrong, held_setStrong_of_ne hpos x hcount]
    have hx := hb.counts x
    by_cases heq : x = o
    · subst heq
      rw [if_pos rfl]
      omega
    · rw [if_neg heq, hothers x heq]
      exact hx
  · intro p x hx
    rw [holds_setStrong] at hx
    exact hb.older p x hx
  · intro x
    rw [hstrong, Made, size_setStrong]
    have hx := hb.freed_iff x
    by_cases heq : x = o
    · subst heq
      rw [if_pos rfl]
      exact ⟨fun hfreed => absurd (hx.1 hfreed).2 hpos, fun hzero => absurd hzero.2 hcount⟩
    · rw [if_neg heq]
      exact hx

theorem Balanced.retain_one (hb : h.Balanced owners) {o : ObjectId} (hpos : h.strong o ≠ 0) :
    (h.setStrong o (h.strong o + 1)).Balanced (o ::ₘ owners) := by
  refine hb.recount hpos (Nat.succ_ne_zero _) ?_ ?_
  · intro x hx
    exact Multiset.count_cons_of_ne hx _
  · rw [Multiset.count_cons_self]
    omega

/-- References may be taken to whatever is alive, whoever has it. -/
theorem Balanced.retain_live (hb : h.Balanced owners) {os : List ObjectId}
    (hlive : ∀ o ∈ os, h.strong o ≠ 0) : (h.retain os).Balanced (os + owners) := by
  induction os generalizing h owners with
  | nil => simpa [Heap.retain] using hb
  | cons o rest ih =>
      have hpos := hlive o List.mem_cons_self
      have hrest := ih (hb.retain_one hpos) fun x hx => by
        rw [strong_setStrong (made_of_strong hpos)]
        split
        · exact Nat.succ_ne_zero _
        · exact hlive x (List.mem_cons_of_mem _ hx)
      rw [← Multiset.cons_coe, Multiset.cons_add, ← Multiset.add_cons]
      exact hrest

/-- Owners may take more references to what they have references to. -/
theorem Balanced.retain (hb : h.Balanced owners) {os : List ObjectId}
    (hmem : ∀ o ∈ os, o ∈ owners) : (h.retain os).Balanced (os + owners) :=
  hb.retain_live fun o ho => hb.strong_ne_zero (hmem o ho)

/-! ### Giving references up -/

/-- The last reference to an object is given up: the object is freed, and what it holds has to be
given up next. -/
theorem Balanced.free (hb : h.Balanced (o ::ₘ owners)) (hone : h.strong o = 1) :
    ((h.setStrong o 0).logFreed o).Balanced (h.holds o + owners) := by
  have hpos : h.strong o ≠ 0 := by omega
  have hmade := made_of_strong hpos
  have hstrong := fun x => strong_setStrong hmade x 0
  refine ⟨?_, ?_, ?_, ?_⟩
  · intro x
    rw [strong_logFreed, hstrong, held_logFreed, Multiset.count_add, Multiset.coe_count]
    have hx := hb.counts x
    have hheld := held_setStrong_zero hpos x
    by_cases heq : x = o
    · subst heq
      rw [Multiset.count_cons_self] at hx
      rw [if_pos rfl]
      omega
    · rw [Multiset.count_cons_of_ne heq] at hx
      rw [if_neg heq]
      omega
  · intro p x hx
    rw [holds_logFreed, holds_setStrong] at hx
    exact hb.older p x hx
  · intro x
    rw [freed_logFreed, strong_logFreed, hstrong, Made, cells_logFreed, size_setStrong,
      List.mem_cons]
    have hx := hb.freed_iff x
    by_cases heq : x = o
    · subst heq
      rw [if_pos rfl]
      exact ⟨fun _ => ⟨hmade, rfl⟩, fun _ => .inl rfl⟩
    · rw [if_neg heq]
      exact ⟨fun hor => hx.1 (hor.resolve_left heq), fun hfreed => .inr (hx.2 hfreed)⟩
  · rw [freed_logFreed]
    refine List.nodup_cons.2 ⟨?_, hb.once⟩
    intro hfreed
    exact hpos ((hb.freed_iff o).1 hfreed).2

/-- A reference that is not the last one is given up. -/
theorem Balanced.lower (hb : h.Balanced (o ::ₘ owners)) {count : Nat}
    (hcount : h.strong o = count + 2) : (h.setStrong o (count + 1)).Balanced owners := by
  refine hb.recount (by omega) (Nat.succ_ne_zero count) ?_ ?_
  · intro x hx
    exact (Multiset.count_cons_of_ne hx _).symm
  · rw [Multiset.count_cons_self]
    omega

/-! ### Making objects -/

/-- A new object takes over the references that it is made with, and its maker has the only
reference to it. -/
theorem Balanced.alloc {type : HostType} {payload : Payload}
    (hb : h.Balanced (payload.objects + owners)) :
    (h.alloc type payload).2.Balanced (h.next ::ₘ owners) := by
  have hsize : (h.alloc type payload).2.cells.size = h.cells.size + 1 := Array.size_push _
  refine ⟨?_, ?_, ?_, hb.once⟩
  · intro x
    rw [strong_alloc, held_alloc]
    have hx := hb.counts x
    rw [Multiset.count_add, Multiset.coe_count] at hx
    by_cases heq : x = h.next
    · subst heq
      rw [strong_next] at hx
      rw [if_pos rfl, Multiset.count_cons_self]
      omega
    · rw [if_neg heq, Multiset.count_cons_of_ne heq]
      omega
  · intro p x hx
    rw [holds_alloc] at hx
    split at hx
    · next heq =>
        rw [heq]
        exact hb.made (Multiset.mem_add.2 (.inl (Multiset.mem_coe.2 hx)))
    · exact hb.older p x hx
  · intro x
    rw [strong_alloc, Made, hsize]
    have hx := hb.freed_iff x
    by_cases heq : x = h.next
    · subst heq
      rw [if_pos rfl]
      exact ⟨fun hfreed => absurd (hx.1 hfreed).1 h.not_made_next,
        fun hone => absurd hone.2 (by omega)⟩
    · have hne : x.index ≠ h.cells.size := fun hindex => heq (by cases x; simp_all [next])
      rw [if_neg heq]
      refine hx.trans (and_congr_left ?_)
      intro _
      rw [Made]
      omega

end Heap

end HostStack
