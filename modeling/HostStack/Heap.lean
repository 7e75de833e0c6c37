import HostStack.Item.Basic

/-!
# Host objects and their reference counts

The heap keeps for every object that was ever made its type, what it holds, and how many
references to it exist. An object is made with one reference. It is freed when its last
reference is released, and then the references that it holds itself are released in turn; since
it can only hold objects that were made before it, that comes to an end. The log of freed
objects lists them in the order in which they went, the latest first. Releasing a reference to
an object that is gone already would log it a second time; that this never happens is a fact to
be proved, not one that the heap sees to.
-/

namespace HostStack

inductive Payload where
  /-- A number, in an object that is reported under its label when it is freed. -/
  | record (label : String) (number : Int)
  | text (value : String)
  | integer (value : Int)
  | unit
  | reference (value : Ref)
  | item (value : Item)
  | wrapper (value : Interop)

namespace Payload

/-- The objects that a payload holds references to, once for each reference. -/
def objects : Payload → List ObjectId
  | .reference value => [value.object]
  | .item value => value.objects
  | .wrapper value => [value.object]
  | _ => []

def label? : Payload → Option String
  | .record label _ => some label
  | _ => none

end Payload

structure Cell where
  type : HostType
  payload : Payload
  strong : Nat

/-- All host objects that were ever made, in order, and those of them that are freed. -/
structure Heap where
  cells : Array Cell
  freed : List ObjectId

namespace Heap

def empty : Heap := ⟨#[], []⟩

def cell? (h : Heap) (o : ObjectId) : Option Cell :=
  h.cells[o.index]?

/-- The number of references to an object; zero after it is freed. -/
def strong (h : Heap) (o : ObjectId) : Nat :=
  ((h.cell? o).map Cell.strong).getD 0

/-- The objects that an object holds references to, once for each reference. -/
def holds (h : Heap) (o : ObjectId) : List ObjectId :=
  ((h.cell? o).map fun cell => cell.payload.objects).getD []

def total (counts : List Nat) : Nat :=
  counts.foldr (fun count rest => count + rest) 0

/-- The number of all references to all objects. -/
def totalStrong (h : Heap) : Nat :=
  total (h.cells.toList.map Cell.strong)

def setStrong (h : Heap) (o : ObjectId) (count : Nat) : Heap :=
  { h with cells := h.cells.modify o.index fun cell => { cell with strong := count } }

/-- The heap with a new object that one reference exists to, and the object. -/
def alloc (h : Heap) (type : HostType) (payload : Payload) : ObjectId × Heap :=
  (⟨h.cells.size⟩, { h with cells := h.cells.push ⟨type, payload, 1⟩ })

/-- The heap with one more reference to each listed object. -/
def retain (h : Heap) (objects : List ObjectId) : Heap :=
  objects.foldl (fun h o => h.setStrong o (h.strong o + 1)) h

def logFreed (h : Heap) (o : ObjectId) : Heap :=
  { h with freed := o :: h.freed }

theorem total_cons (n : Nat) (rest : List Nat) : total (n :: rest) = n + total rest := rfl

theorem total_modify_lt {counts : List Nat} {i count : Nat} (h : count < counts[i]?.getD 0) :
    total (counts.modify i fun _ => count) < total counts := by
  induction counts generalizing i with
  | nil => simp at h
  | cons n rest ih =>
    cases i with
    | zero =>
      simp at h
      simp only [List.modify_zero_cons, total_cons]
      omega
    | succ i =>
      simp at h
      have := ih h
      simp only [List.modify_succ_cons, total_cons]
      omega

theorem totalStrong_setStrong_lt {h : Heap} {o : ObjectId} {count : Nat}
    (hlt : count < h.strong o) : (h.setStrong o count).totalStrong < h.totalStrong := by
  have hmap : ∀ (cells : List Cell) (i : Nat),
      (cells.modify i fun cell => { cell with strong := count }).map Cell.strong
        = (cells.map Cell.strong).modify i fun _ => count := by
    intro cells
    induction cells with
    | nil => simp
    | cons c rest ih =>
      intro i
      cases i with
      | zero => simp
      | succ i => simp [ih]
  unfold totalStrong setStrong
  simp only [Array.toList_modify, hmap]
  apply total_modify_lt
  simpa [strong, cell?, List.getElem?_map] using hlt

theorem totalStrong_logFreed (h : Heap) (o : ObjectId) :
    (h.logFreed o).totalStrong = h.totalStrong := rfl

/-- Releases one reference to each listed object, from the first to the last. What a freed
object holds is released before the rest of the list. -/
def release (h : Heap) : List ObjectId → Heap
  | [] => h
  | o :: pending =>
    match _h : h.strong o with
    | 0 => (h.logFreed o).release pending
    | 1 => ((h.setStrong o 0).logFreed o).release (h.holds o ++ pending)
    | count + 2 => (h.setStrong o (count + 1)).release pending
termination_by pending => (h.totalStrong, pending.length)
decreasing_by
  · rw [totalStrong_logFreed]
    exact Prod.Lex.right _ (by simp)
  · rw [totalStrong_logFreed]
    exact Prod.Lex.left _ _ (totalStrong_setStrong_lt (by omega))
  · exact Prod.Lex.left _ _ (totalStrong_setStrong_lt (by omega))

/-- The objects that were freed since an earlier state of the heap, the latest first. -/
def freedSince (h earlier : Heap) : List ObjectId :=
  h.freed.take (h.freed.length - earlier.freed.length)

/-- The labels of those objects that are reported, in ascending order. -/
def labels (h : Heap) (objects : List ObjectId) : List String :=
  (objects.filterMap fun o => (h.cell? o).bind fun cell => cell.payload.label?).mergeSort
    fun a b => !(b < a)

end Heap

end HostStack
