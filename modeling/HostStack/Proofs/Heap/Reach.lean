import HostStack.Proofs.Heap.Cascade
import HostStack.Proofs.Ownership.Uses

/-!
# What is reached

An object is reached when somebody keeps a reference to it, or when an object that is reached was
made with one. In a balanced heap the objects that are reached are the ones that are not freed. One
direction says that nothing is freed too early. The other one says that nothing is kept without
need, which is where it matters that objects hold older ones only: a count above zero has an owner,
or a holder that is younger, and there is a youngest object.
-/

namespace HostStack

namespace Heap

/-- What is reached from the objects that are kept. -/
inductive Reaches (h : Heap) (kept : ObjectId → Prop) : ObjectId → Prop
  | kept {o} : kept o → Reaches h kept o
  | inside {p o} : Reaches h kept p → 0 < h.usesIn p o → Reaches h kept o

variable {h : Heap} {owners : Multiset ObjectId}

theorem mem_live {o : ObjectId} : o ∈ h.live ↔ h.Made o ∧ o ∉ h.freed := by
  obtain ⟨index⟩ := o
  simp [live, Made]

theorem Balanced.strong_ne_zero_iff (hb : h.Balanced owners) {o : ObjectId} :
    h.strong o ≠ 0 ↔ o ∈ h.live := by
  rw [mem_live, hb.freed_iff]
  constructor
  · intro hpos
    exact ⟨made_of_strong hpos, fun hgone => hpos hgone.2⟩
  · rintro ⟨hmade, hlive⟩ hzero
    exact hlive ⟨hmade, hzero⟩

/-- An object is live if and only if an owner or a live object has a reference to it. -/
theorem Balanced.live_iff (hb : h.Balanced owners) {o : ObjectId} :
    o ∈ h.live ↔ o ∈ owners ∨ ∃ p ∈ h.live, 0 < h.usesIn p o := by
  have hheld : h.held o ≠ 0 ↔ ∃ p ∈ h.live, 0 < h.usesIn p o := by
    rw [hb.held_eq, ← Nat.pos_iff_ne_zero, List.sum_pos_iff_exists_pos_nat]
    simp
  rw [← hb.strong_ne_zero_iff, ← hheld, ← Multiset.count_pos, hb.counts o]
  omega

theorem Balanced.usesIn_lt (hb : h.Balanced owners) {p o : ObjectId} (huse : 0 < h.usesIn p o) :
    o.index < p.index :=
  hb.older p o (usesIn_pos_iff.1 huse)

/-- The induction is on how many objects are younger. -/
theorem Balanced.reaches_of_live (hb : h.Balanced owners) {o : ObjectId} (hlive : o ∈ h.live) :
    h.Reaches (· ∈ owners) o := by
  induction hyounger : h.cells.size - o.index using Nat.strong_induction_on generalizing o with
  | h younger ih =>
      rcases hb.live_iff.1 hlive with howned | ⟨p, hp, huse⟩
      · exact .kept howned
      · have hmade := (mem_live.1 hp).1
        have hlt := hb.usesIn_lt huse
        rw [Made] at hmade
        exact .inside (ih _ (by omega) hp rfl) huse

theorem Balanced.live_iff_reaches (hb : h.Balanced owners) {o : ObjectId} :
    o ∈ h.live ↔ h.Reaches (· ∈ owners) o := by
  refine ⟨hb.reaches_of_live, ?_⟩
  intro hreach
  induction hreach with
  | kept howned => exact hb.live_iff.2 (.inl howned)
  | inside _ huse ih => exact hb.live_iff.2 (.inr ⟨_, ih, huse⟩)

theorem not_reaches {kept : ObjectId → Prop} (hkept : ∀ o, ¬ kept o) (o : ObjectId) :
    ¬ h.Reaches kept o := by
  intro hreach
  induction hreach with
  | kept ho => exact hkept _ ho
  | inside _ _ ih => exact ih

/-- Where nothing has an owner, everything is freed. -/
theorem Balanced.freed_of_unowned (hb : h.Balanced 0) {o : ObjectId} (hmade : h.Made o) :
    o ∈ h.freed := by
  by_contra hlive
  have hreach := hb.reaches_of_live (mem_live.2 ⟨hmade, hlive⟩)
  exact not_reaches (fun x hx => absurd hx (Multiset.notMem_zero x)) o hreach

end Heap

end HostStack
