import HostStack.Heap
import Mathlib.Algebra.BigOperators.Group.List.Basic
import Mathlib.Algebra.GroupWithZero.Nat

/-!
# Cells under the operations of the heap

What each operation does to the cell of an object, to its count, and to what live objects hold.
Operations change counts, add cells and write the log of freed objects; no operation changes the
type or the payload of a cell that exists. So an object keeps for good what it was made with, and
only its count says whether that still matters: the references that an object holds are there as
long as its own count is not zero.
-/

namespace HostStack

theorem sum_map_modify {α : Type} {l : List α} {i : Nat} {a : α} (h : l[i]? = some a)
    (f : α → α) (g : α → Nat) :
    ((l.modify i f).map g).sum + g a = (l.map g).sum + g (f a) := by
  induction l generalizing i with
  | nil => simp at h
  | cons b rest ih =>
      cases i with
      | zero =>
          simp only [List.getElem?_cons_zero, Option.some.injEq] at h
          subst h
          simp only [List.modify_zero_cons, List.map_cons, List.sum_cons]
          omega
      | succ i =>
          rw [List.getElem?_cons_succ] at h
          have := ih h
          simp only [List.modify_succ_cons, List.map_cons, List.sum_cons]
          omega

namespace Heap

/-- How often a cell holds an object: not at all once the cell's own object is freed. -/
def holdsOf (o : ObjectId) (cell : Cell) : Nat :=
  if cell.strong = 0 then 0 else cell.payload.objects.count o

/-- How often live objects hold an object. -/
def held (h : Heap) (o : ObjectId) : Nat :=
  (h.cells.toList.map (holdsOf o)).sum

/-- Whether an object was ever made. -/
def Made (h : Heap) (o : ObjectId) : Prop :=
  o.index < h.cells.size

instance (h : Heap) (o : ObjectId) : Decidable (h.Made o) :=
  inferInstanceAs (Decidable (o.index < h.cells.size))

theorem made_iff {h : Heap} {o : ObjectId} : h.Made o ↔ ∃ cell, h.cell? o = some cell := by
  rw [Made, cell?]
  constructor
  · intro hlt
    exact ⟨h.cells[o.index], Array.getElem?_eq_getElem hlt⟩
  · rintro ⟨cell, hcell⟩
    exact (Array.getElem?_eq_some_iff.1 hcell).1

theorem strong_eq {h : Heap} {o : ObjectId} {cell : Cell} (hcell : h.cell? o = some cell) :
    h.strong o = cell.strong := by
  rw [strong, hcell]
  rfl

theorem holds_eq {h : Heap} {o : ObjectId} {cell : Cell} (hcell : h.cell? o = some cell) :
    h.holds o = cell.payload.objects := by
  rw [holds, hcell]
  rfl

/-- Only an object that was made can have references. -/
theorem made_of_strong {h : Heap} {o : ObjectId} (hpos : h.strong o ≠ 0) : h.Made o := by
  rw [made_iff]
  cases hcell : h.cell? o with
  | some cell => exact ⟨cell, rfl⟩
  | none => exact absurd (by rw [strong, hcell]; rfl) hpos

theorem made_of_holds {h : Heap} {p o : ObjectId} (hmem : o ∈ h.holds p) : h.Made p := by
  rw [made_iff]
  cases hcell : h.cell? p with
  | some cell => exact ⟨cell, rfl⟩
  | none =>
      rw [holds, hcell] at hmem
      cases hmem

/-! ### Setting a count -/

theorem cell?_setStrong (h : Heap) (o x : ObjectId) (count : Nat) :
    (h.setStrong o count).cell? x =
      if x = o then (h.cell? x).map fun cell => { cell with strong := count } else h.cell? x := by
  rw [setStrong, cell?, Array.getElem?_modify]
  by_cases hx : x = o
  · subst hx
    rw [if_pos rfl, if_pos rfl]
    rfl
  · have hne : o.index ≠ x.index := fun heq => hx (by cases x; cases o; simp_all)
    rw [if_neg hne, if_neg hx]
    rfl

theorem strong_setStrong {h : Heap} {o : ObjectId} (hmade : h.Made o) (x : ObjectId)
    (count : Nat) :
    (h.setStrong o count).strong x = if x = o then count else h.strong x := by
  obtain ⟨cell, hcell⟩ := made_iff.1 hmade
  rw [strong, cell?_setStrong]
  by_cases hx : x = o
  · subst hx
    rw [if_pos rfl, if_pos rfl, hcell]
    rfl
  · rw [if_neg hx, if_neg hx]
    rfl

theorem holds_setStrong (h : Heap) (o x : ObjectId) (count : Nat) :
    (h.setStrong o count).holds x = h.holds x := by
  rw [holds, cell?_setStrong, holds]
  split
  · rw [Option.map_map]
    rfl
  · rfl

theorem size_setStrong (h : Heap) (o : ObjectId) (count : Nat) :
    (h.setStrong o count).cells.size = h.cells.size :=
  Array.size_modify

theorem size_retain (h : Heap) (os : List ObjectId) : (h.retain os).cells.size = h.cells.size := by
  induction os generalizing h with
  | nil => rfl
  | cons o rest ih => exact (ih _).trans (h.size_setStrong o _)

theorem size_release (h : Heap) (os : List ObjectId) : (h.release os).cells.size = h.cells.size := by
  fun_induction Heap.release h os with
  | case1 h => rfl
  | case2 h o pending _ ih => exact ih
  | case3 h o pending _ ih => exact ih.trans (h.size_setStrong o 0)
  | case4 h o pending count _ ih => exact ih.trans (h.size_setStrong o (count + 1))

/-- What is held after a count is set, as far as it depends on the object of that count. -/
theorem held_setStrong {h : Heap} {o : ObjectId} {cell : Cell} (hcell : h.cell? o = some cell)
    (x : ObjectId) (count : Nat) :
    (h.setStrong o count).held x + holdsOf x cell =
      h.held x + holdsOf x { cell with strong := count } := by
  have hget : h.cells.toList[o.index]? = some cell := by
    rw [Array.getElem?_toList]
    exact hcell
  rw [held, setStrong, held, Array.toList_modify]
  exact sum_map_modify hget _ _

/-- Changing a count from one that is not zero to another keeps all that is held. -/
theorem held_setStrong_of_ne {h : Heap} {o : ObjectId} (hpos : h.strong o ≠ 0) (x : ObjectId)
    {count : Nat} (hcount : count ≠ 0) : (h.setStrong o count).held x = h.held x := by
  obtain ⟨cell, hcell⟩ := made_iff.1 (made_of_strong hpos)
  rw [strong_eq hcell] at hpos
  have heq := held_setStrong hcell x count
  rw [holdsOf, holdsOf, if_neg hpos, if_neg hcount] at heq
  exact Nat.add_right_cancel heq

/-- An object whose count falls to zero gives up what it holds. -/
theorem held_setStrong_zero {h : Heap} {o : ObjectId} (hpos : h.strong o ≠ 0) (x : ObjectId) :
    (h.setStrong o 0).held x + (h.holds o).count x = h.held x := by
  obtain ⟨cell, hcell⟩ := made_iff.1 (made_of_strong hpos)
  rw [strong_eq hcell] at hpos
  have heq := held_setStrong hcell x 0
  rw [holdsOf, holdsOf, if_neg hpos, if_pos rfl] at heq
  rw [holds_eq hcell]
  omega

/-! ### The log of freed objects -/

@[simp]
theorem cell?_logFreed (h : Heap) (o x : ObjectId) : (h.logFreed o).cell? x = h.cell? x := rfl

@[simp]
theorem strong_logFreed (h : Heap) (o x : ObjectId) : (h.logFreed o).strong x = h.strong x := rfl

@[simp]
theorem holds_logFreed (h : Heap) (o x : ObjectId) : (h.logFreed o).holds x = h.holds x := rfl

@[simp]
theorem held_logFreed (h : Heap) (o x : ObjectId) : (h.logFreed o).held x = h.held x := rfl

@[simp]
theorem freed_logFreed (h : Heap) (o : ObjectId) : (h.logFreed o).freed = o :: h.freed := rfl

@[simp]
theorem cells_logFreed (h : Heap) (o : ObjectId) : (h.logFreed o).cells = h.cells := rfl

/-! ### New objects -/

/-- The identity that the next object will have. -/
def next (h : Heap) : ObjectId :=
  ⟨h.cells.size⟩

theorem cell?_alloc (h : Heap) (type : HostType) (payload : Payload) (x : ObjectId) :
    (h.alloc type payload).2.cell? x = if x = h.next then some ⟨type, payload, 1⟩ else h.cell? x := by
  rw [alloc, cell?, Array.getElem?_push]
  by_cases hx : x = h.next
  · subst hx
    rw [if_pos (show h.next.index = h.cells.size from rfl), if_pos rfl]
  · have hne : x.index ≠ h.cells.size := fun heq => hx (by cases x; simp_all [next])
    rw [if_neg hne, if_neg hx]
    rfl

theorem strong_alloc (h : Heap) (type : HostType) (payload : Payload) (x : ObjectId) :
    (h.alloc type payload).2.strong x = if x = h.next then 1 else h.strong x := by
  rw [strong, cell?_alloc]
  split <;> rfl

theorem holds_alloc (h : Heap) (type : HostType) (payload : Payload) (x : ObjectId) :
    (h.alloc type payload).2.holds x = if x = h.next then payload.objects else h.holds x := by
  rw [holds, cell?_alloc]
  split <;> rfl

theorem held_alloc (h : Heap) (type : HostType) (payload : Payload) (x : ObjectId) :
    (h.alloc type payload).2.held x = h.held x + payload.objects.count x := by
  simp [held, alloc, holdsOf]

theorem not_made_next (h : Heap) : ¬ h.Made h.next :=
  Nat.lt_irrefl _

theorem strong_next (h : Heap) : h.strong h.next = 0 := by
  by_cases hzero : h.strong h.next = 0
  · exact hzero
  · exact absurd (made_of_strong hzero) h.not_made_next

end Heap

end HostStack
