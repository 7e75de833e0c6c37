import HostStack.Proofs.Ownership.Trade
import HostStack.Proofs.Ownership.Uses

/-!
# What is given up

When references are given up, each count goes down by the references to its object that somebody
gave up, and by those that the objects freed on the way held. Which objects these are is not a
matter of choice: they are the ones that had references before and have none afterwards. What
objects were made with stays as it was, so the references that a freed object held can be read off
the heap that it was freed from.
-/

namespace HostStack

namespace Heap

/-- So many references to each object are given up, and the objects `gone` are freed by it. -/
structure GivesUp (h h' : Heap) (lost : ObjectId → Nat) (gone : List ObjectId) : Prop where
  log : h'.freed = gone ++ h.freed
  once : gone.Nodup
  freed : ∀ o, o ∈ gone ↔ h.strong o ≠ 0 ∧ h'.strong o = 0
  counts : ∀ o, h'.strong o + lost o + (gone.map fun p => h.usesIn p o).sum = h.strong o
  /-- What objects were made with stays as it was. -/
  inside : h'.usesIn = h.usesIn

variable {h h' : Heap} {lost : ObjectId → Nat} {gone : List ObjectId}

theorem GivesUp.strong_of_unheld (hg : h.GivesUp h' lost gone) {o : ObjectId}
    (hunheld : ∀ p ∈ gone, h.usesIn p o = 0) : h'.strong o + lost o = h.strong o := by
  have hcount := hg.counts o
  have hsum : (gone.map fun p => h.usesIn p o).sum = 0 := by
    refine List.sum_eq_zero ?_
    intro n hn
    obtain ⟨p, hp, rfl⟩ := List.mem_map.1 hn
    exact hunheld p hp
  omega

theorem Balanced.givesUp {os : List ObjectId} {owners : Multiset ObjectId}
    (hb : h.Balanced (os + owners)) :
    h.GivesUp (h.release os) (fun o => os.count o) ((h.release os).freedSince h) := by
  have hx := h.extends_release os
  have hafter := hb.release
  obtain ⟨gone, hlog, hholds, hcounts⟩ := paid_of_cascade hb.cascade
  -- The objects that the cascade has freed are those at the head of the log.
  have hgone : (h.release os).freedSince h = gone :=
    List.append_cancel_right (hx.log_eq.symm.trans hlog)
  refine ⟨hx.log_eq, ?_, ?_, ?_, ?_⟩
  · have honce := hafter.once
    rw [hx.log_eq] at honce
    exact (List.nodup_append.1 honce).1
  · intro o
    rw [hx.mem_freedSince hafter.once, hafter.freed_iff, hb.freed_iff, Made, size_release]
    constructor
    · rintro ⟨⟨hmade, hzero⟩, hlive⟩
      exact ⟨fun hzero => hlive ⟨hmade, hzero⟩, hzero⟩
    · rintro ⟨hpos, hzero⟩
      exact ⟨⟨made_of_strong hpos, hzero⟩, fun hgone => hpos hgone.2⟩
  · intro o
    have hcount := hcounts o
    have hheld : (gone.flatMap h.holds).count o = (gone.map fun p => h.usesIn p o).sum := by
      rw [List.count_flatMap]
      exact congrArg List.sum (List.map_congr_left fun p _ => (h.usesIn_eq p o).symm)
    rw [hgone, ← hheld]
    exact hcount
  · funext p o
    rw [usesIn_eq, usesIn_eq]
    exact congrArg (List.count o) (congrFun hholds p)

end Heap

end HostStack
