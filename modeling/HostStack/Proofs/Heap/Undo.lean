import HostStack.Proofs.Heap.Cells
import Mathlib.Data.List.Perm.Basic

/-!
# References that are taken and given back

Taking references to objects that are alive and giving them back, in whatever order, leaves the heap
exactly as it was: the counts, and the log of freed objects, since no count gets to zero on the way.
An object without references is another matter, for it would be freed once more.
-/

namespace HostStack

namespace Heap

/-- A heap is its cells and its log. -/
theorem eq_of_cell? {h h' : Heap} (hcell : ∀ o, h.cell? o = h'.cell? o)
    (hfreed : h.freed = h'.freed) : h = h' := by
  obtain ⟨cells, freed⟩ := h
  obtain ⟨cells', freed'⟩ := h'
  cases hfreed
  congr 1
  refine Array.ext_getElem? fun i => ?_
  exact hcell ⟨i⟩

theorem freed_retain (h : Heap) (os : List ObjectId) : (h.retain os).freed = h.freed := by
  induction os generalizing h with
  | nil => rfl
  | cons o rest ih => exact ih _

/-- One count is set, and then all are changed by a function: or they are changed by another one
that makes up for it. -/
theorem map_cell?_setStrong {h : Heap} {o x : ObjectId} {n : Nat} {f g : Nat → Nat}
    (hown : x = o → f n = g (h.strong o)) (hothers : x ≠ o → ∀ k, f k = g k) :
    ((h.setStrong o n).cell? x).map (fun cell => { cell with strong := f cell.strong }) =
      (h.cell? x).map fun cell => { cell with strong := g cell.strong } := by
  rw [cell?_setStrong]
  by_cases hx : x = o
  · subst hx
    rw [if_pos rfl]
    cases hcell : h.cell? x with
    | none => rfl
    | some cell =>
        rw [strong_eq hcell] at hown
        simp only [Option.map_some, hown]
  · simp only [if_neg hx, hothers hx]

theorem cell?_retain (h : Heap) (os : List ObjectId) (x : ObjectId) :
    (h.retain os).cell? x =
      (h.cell? x).map fun cell => { cell with strong := cell.strong + os.count x } := by
  induction os generalizing h with
  | nil => simp [retain]
  | cons o rest ih =>
      show ((h.setStrong o (h.strong o + 1)).retain rest).cell? x = _
      rw [ih]
      refine map_cell?_setStrong (f := (· + rest.count x)) (g := (· + (o :: rest).count x)) ?_ ?_
      · rintro rfl
        rw [List.count_cons_self]
        omega
      · intro hx k
        rw [List.count_cons_of_ne (Ne.symm hx)]

/-! ### As long as every object keeps a reference -/

variable {h : Heap} {o : ObjectId} {os : List ObjectId}

theorem release_cons_of_keep (hmore : 1 < h.strong o) (os : List ObjectId) :
    h.release (o :: os) = (h.setStrong o (h.strong o - 1)).release os := by
  rw [release]
  split
  · next hzero => omega
  · next hone => omega
  · next count hcount =>
      rw [show h.strong o - 1 = count + 1 by omega]

theorem keep_tail (hkeep : ∀ x ∈ o :: os, (o :: os).count x < h.strong x) :
    1 < h.strong o ∧ ∀ x ∈ os, os.count x < (h.setStrong o (h.strong o - 1)).strong x := by
  have hmore := hkeep o List.mem_cons_self
  rw [List.count_cons_self] at hmore
  refine ⟨by omega, ?_⟩
  intro x hx
  have hkeep := hkeep x (List.mem_cons_of_mem o hx)
  rw [strong_setStrong (made_of_strong (by omega))]
  by_cases hxo : x = o
  · subst hxo
    rw [if_pos rfl]
    omega
  · rw [List.count_cons_of_ne (Ne.symm hxo)] at hkeep
    rwa [if_neg hxo]

theorem cell?_release (hkeep : ∀ o ∈ os, os.count o < h.strong o) (x : ObjectId) :
    (h.release os).cell? x =
      (h.cell? x).map fun cell => { cell with strong := cell.strong - os.count x } := by
  induction os generalizing h with
  | nil => simp [release]
  | cons o rest ih =>
      obtain ⟨hmore, hrest⟩ := keep_tail hkeep
      rw [release_cons_of_keep hmore, ih hrest]
      refine map_cell?_setStrong (f := (· - rest.count x)) (g := (· - (o :: rest).count x)) ?_ ?_
      · rintro rfl
        rw [List.count_cons_self]
        omega
      · intro hx k
        rw [List.count_cons_of_ne (Ne.symm hx)]

theorem freed_release (hkeep : ∀ o ∈ os, os.count o < h.strong o) :
    (h.release os).freed = h.freed := by
  induction os generalizing h with
  | nil => rw [release]
  | cons o rest ih =>
      obtain ⟨hmore, hrest⟩ := keep_tail hkeep
      rw [release_cons_of_keep hmore, ih hrest]
      rfl

/-- What was taken is given back. -/
theorem release_retain {os' : List ObjectId} (hperm : os'.Perm os)
    (halive : ∀ o ∈ os, h.strong o ≠ 0) : (h.retain os).release os' = h := by
  have hkeep : ∀ o ∈ os', os'.count o < (h.retain os).strong o := by
    intro o ho
    have hpos := halive o (hperm.subset ho)
    obtain ⟨cell, hcell⟩ := made_iff.1 (made_of_strong hpos)
    rw [strong_eq hcell] at hpos
    rw [strong, cell?_retain, hcell, hperm.count_eq]
    simp only [Option.map_some, Option.getD_some]
    omega
  refine eq_of_cell? ?_ ?_
  · intro o
    rw [cell?_release hkeep, cell?_retain, hperm.count_eq, Option.map_map]
    cases h.cell? o with
    | none => rfl
    | some cell => simp
  · rw [freed_release hkeep, freed_retain]

end Heap

end HostStack
