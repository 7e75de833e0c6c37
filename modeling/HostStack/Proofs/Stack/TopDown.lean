import HostStack.Stack

/-!
# A stack from the top

A stack keeps its items from the bottom, and works at the top. Read from the top it is a list:
a push is `cons`, a pop takes the head off, and the item at a depth is the one with that index.
Every stack is `ofTop` of its items in that order, so a proof about stacks is a proof by cases on
a list.
-/

namespace HostStack

namespace Stack

/-- The stack of some items from the top to the bottom. -/
def ofTop (items : List Item) (maxSize : Nat) : Stack :=
  ⟨items.reverse.toArray, maxSize⟩

/-- The items of a stack from the top to the bottom. -/
def fromTop (s : Stack) : List Item :=
  s.toList.reverse

/-- The item at a depth, if the stack is that deep. -/
def item? (s : Stack) (depth : Nat) : Option Item :=
  (s.peek depth).toOption

@[simp]
theorem ofTop_fromTop (s : Stack) : ofTop s.fromTop s.maxSize = s := by
  rw [ofTop, fromTop, List.reverse_reverse, toList, Array.toArray_toList]

theorem exists_ofTop (s : Stack) : ∃ items maxSize, s = ofTop items maxSize :=
  ⟨s.fromTop, s.maxSize, s.ofTop_fromTop.symm⟩

variable (items : List Item) (maxSize : Nat)

@[simp]
theorem fromTop_ofTop : (ofTop items maxSize).fromTop = items := by
  rw [ofTop, fromTop, toList, List.reverse_reverse]

@[simp]
theorem toList_ofTop : (ofTop items maxSize).toList = items.reverse := rfl

@[simp]
theorem maxSize_ofTop : (ofTop items maxSize).maxSize = maxSize := rfl

@[simp]
theorem size_ofTop : (ofTop items maxSize).size = items.length := by
  rw [ofTop, size, List.size_toArray, List.length_reverse]

theorem length_fromTop (s : Stack) : s.fromTop.length = s.size := by
  rw [fromTop, toList, List.length_reverse, Array.length_toList, size]

/-- A push is accepted as long as there is room. -/
theorem push_ofTop (item : Item) :
    (ofTop items maxSize).push item =
      if items.length < maxSize then .ok (ofTop (item :: items) maxSize)
      else .error (.overflow maxSize) := by
  rw [push, size_ofTop, maxSize_ofTop]
  by_cases hroom : items.length < maxSize
  · rw [if_pos hroom, if_neg (Nat.not_le.2 hroom)]
    simp [ofTop]
  · rw [if_neg hroom, if_pos (Nat.not_lt.1 hroom)]

theorem pop_ofTop_nil : (ofTop [] maxSize).pop = .error .underflow := rfl

theorem pop_ofTop_cons (item : Item) :
    (ofTop (item :: items) maxSize).pop = .ok (item, ofTop items maxSize) := by
  rw [pop, ofTop, List.reverse_cons, ← List.push_toArray, Array.back?_push]
  simp [ofTop]

/-- The depth of an item is its index from the top. -/
theorem peek_ofTop (depth : Nat) :
    (ofTop items maxSize).peek depth =
      match items[depth]? with
      | some item => .ok item
      | none => .error .underflow := by
  rw [peek]
  have hsize : (ofTop items maxSize).items.size = items.length := by simp [ofTop]
  split
  · next hlt =>
      rw [hsize] at hlt
      rw [List.getElem?_eq_getElem hlt]
      simp only [ofTop, List.getElem_toArray, List.getElem_reverse, List.size_toArray,
        List.length_reverse]
      congr 2
      omega
  · next hge =>
      rw [hsize] at hge
      rw [List.getElem?_eq_none (Nat.not_lt.1 hge)]

theorem item?_ofTop (depth : Nat) : (ofTop items maxSize).item? depth = items[depth]? := by
  rw [item?, peek_ofTop]
  cases items[depth]? with
  | some item => rfl
  | none => rfl

variable {s : Stack} {depth : Nat}

theorem item?_eq_none (hdeep : s.size ≤ depth) : s.item? depth = none := by
  obtain ⟨items, maxSize, rfl⟩ := s.exists_ofTop
  rw [size_ofTop] at hdeep
  rw [item?_ofTop, List.getElem?_eq_none hdeep]

theorem exists_item? (hdepth : depth < s.size) : ∃ item, s.item? depth = some item := by
  obtain ⟨items, maxSize, rfl⟩ := s.exists_ofTop
  rw [size_ofTop] at hdepth
  exact ⟨items[depth], (item?_ofTop items maxSize depth).trans (List.getElem?_eq_getElem hdepth)⟩

end Stack

end HostStack
