import HostStack.Proofs.Stack.Bounded

/-!
# Looking ahead

What lies at a depth is what is on top once as many items are gone. The looks and the removals of an
accessor take the two ways to it: a look finds the item by its index and reads it where it lies, a
removal owns the item and takes it apart. They agree on what they find. A look at a depth that the
stack does not have finds nothing, and the index of one that it has is computed without wrapping
around.
-/

namespace HostStack

/-! ### Indices -/

/-- The item at a depth, by the arithmetic of machine words. There is no result where an index would
be out of bounds. -/
def Stack.peekWord (s : Stack) (depth : UInt64) : Option (Except StackError Item) :=
  let size := UInt64.ofNat s.size
  if size ≤ depth then some (.error .underflow)
  else s.items[(size - 1 - depth).toNat]?.map .ok

theorem Stack.peekWord_eq (s : Stack) (depth : UInt64) (hsize : s.size < UInt64.size) :
    s.peekWord depth = some (s.peek depth.toNat) := by
  have htoNat : (UInt64.ofNat s.size).toNat = s.size := UInt64.toNat_ofNat_of_lt hsize
  rw [peekWord, peek]
  by_cases hdeep : UInt64.ofNat s.size ≤ depth
  · have hge : s.items.size ≤ depth.toNat := (UInt64.ofNat_le_iff hsize).1 hdeep
    rw [if_pos hdeep, dif_neg (Nat.not_lt.2 hge)]
  · have hlt : depth.toNat < s.items.size :=
      Nat.not_le.1 fun hge => hdeep ((UInt64.ofNat_le_iff hsize).2 hge)
    have hone : (1 : UInt64) ≤ UInt64.ofNat s.size := by
      rw [UInt64.le_iff_toNat_le, htoNat]
      exact Nat.one_le_of_lt hlt
    have hpred : (UInt64.ofNat s.size - 1).toNat = s.items.size - 1 := by
      rw [UInt64.toNat_sub_of_le _ _ hone, htoNat]
      rfl
    have hdepth : depth ≤ UInt64.ofNat s.size - 1 := by
      rw [UInt64.le_iff_toNat_le, hpred]
      omega
    rw [if_neg hdeep, dif_pos hlt, UInt64.toNat_sub_of_le _ _ hdepth, hpred,
      Array.getElem?_eq_getElem (by omega)]
    rfl

/-! ### Runs of removals -/

def Operation.pops (op : Operation) : Bool :=
  op.takes?.isSome

def Operation.looks (op : Operation) : Bool :=
  op.sees?.isSome

/-- An operation that pushes does neither. -/
theorem Operation.Makes.neither {op : Operation} {item : Item} (h : op.Makes item) :
    op.pops = false ∧ op.looks = false := by
  cases h with
  | direct item => exact ⟨rfl, rfl⟩
  | @call a wanted build hbuild built =>
      cases wanted with
      | push _ | pushInterop _ | pushInteropArray _ _ => exact ⟨rfl, rfl⟩
      | peek how => cases hbuild
      | pop how => cases hbuild

theorem Operation.pops_of_looks {op : Operation} (h : op.looks) : op.pops = false := by
  cases op with
  | call a wanted =>
      cases wanted with
      | push _ | pushInterop _ | pushInteropArray _ _ | peek _ => rfl
      | pop how => cases h
  | direct operation =>
      cases operation with
      | pop => cases h
      | push _ | peek _ | clear | host _ => rfl

namespace Bounded

variable {op : Operation} {ops : List Operation} {l l' : Bounded}
  {result : Except AccessError Reply} {results : List (Except AccessError Reply)}

theorem Step.of_pops (h : Step op l result l') (hpops : op.pops) : l'.items = l.items.drop 1 := by
  cases h with
  | pushed hmakes _ | overflow hmakes _ =>
      exact absurd (hmakes.neither.1.symm.trans hpops) Bool.false_ne_true
  | popped _ | underflow _ => rfl
  | cleared => cases hpops
  | looked hsees =>
      have hlooks : op.looks := by
        rw [Operation.looks, hsees]
        rfl
      exact absurd ((Operation.pops_of_looks hlooks).symm.trans hpops) Bool.false_ne_true

theorem Step.of_looks (h : Step op l result l') (hlooks : op.looks) : l'.items = l.items := by
  cases h with
  | pushed hmakes _ | overflow hmakes _ =>
      exact absurd (hmakes.neither.2.symm.trans hlooks) Bool.false_ne_true
  | popped htakes | underflow htakes =>
      have hpops : op.pops := by
        rw [Operation.pops, htakes]
        rfl
      exact absurd ((Operation.pops_of_looks hlooks).symm.trans hpops) Bool.false_ne_true
  | cleared => cases hlooks
  | looked _ => rfl

/-- Each removal takes one item, and looks in between take none. -/
theorem Steps.items_eq (h : Steps ops l results l') (hops : ∀ op ∈ ops, op.pops ∨ op.looks) :
    l'.items = l.items.drop (ops.countP Operation.pops) := by
  induction h with
  | nil => rfl
  | @cons op ops l result l' results l'' hstep _ ih =>
      have hrest := ih fun op hop => hops op (List.mem_cons_of_mem _ hop)
      rcases hops op List.mem_cons_self with hpops | hlooks
      · rw [hrest, hstep.of_pops hpops, List.drop_drop, List.countP_cons_of_pos hpops, Nat.add_comm]
      · rw [hrest, hstep.of_looks hlooks, List.countP_cons_of_neg]
        rw [Operation.pops_of_looks hlooks]
        exact Bool.false_ne_true

end Bounded

/-! ### What a look finds -/

def Peek.depth : Peek → Nat
  | .byteArray depth | .integer depth | .boolean depth | .reference _ depth => depth
  | .byteArrayTop | .referenceTop _ => 0

/-- What a look replies that finds nothing. -/
def Peek.nothing : Peek → Reply
  | .byteArray _ | .byteArrayTop => .bytes none
  | .integer _ => .integer none
  | .boolean _ => .boolean none
  | .reference _ _ | .referenceTop _ => .reference none

theorem Peek.reply_of_deep {how : Peek} {s : Stack} (hdeep : s.size ≤ how.depth) :
    how.reply s = how.nothing := by
  have hnone := Stack.item?_eq_none hdeep
  cases how with
  | byteArray depth | integer depth | boolean depth | reference type depth =>
      rw [Peek.depth] at hnone
      rw [Peek.reply, hnone]
      rfl
  | byteArrayTop | referenceTop type =>
      rw [Peek.depth] at hnone
      rw [Peek.reply, hnone]
      rfl

theorem Operation.peek_result (a : Accessor) (how : Peek) (m : Machine) :
    ((Operation.call a (.peek how)).run m).1 = .ok (how.reply m.stack) := by
  have hrun : (Operation.call a (.peek how)).perform.run m = _ := how.perform_run m
  rw [Operation.run, hrun]

theorem Operation.pop_result (a : Accessor) (how : Pop) {m : Machine} {item : Item}
    (htop : m.stack.item? 0 = some item) :
    ((Operation.call a (.pop how)).run m).1 = how.reply item := by
  obtain ⟨heap, stack, events, built⟩ := m
  obtain ⟨items, maxSize, rfl⟩ := stack.exists_ofTop
  rw [Stack.item?_ofTop] at htop
  cases items with
  | nil => cases htop
  | cons top rest =>
      cases htop
      have hrun : (Operation.call a (.pop how)).perform.run _ = _ :=
        how.perform_run ⟨heap, .ofTop (item :: rest) maxSize, events, built⟩
      dsimp only at hrun
      rw [Stack.pop_ofTop_cons] at hrun
      rw [Operation.run_finish hrun]

/-- After as many removals as the depth of an item, that item is on top. -/
theorem Operation.top_after {m : Machine} {ops : List Operation}
    (hops : ∀ op ∈ ops, op.pops ∨ op.looks) :
    (Operation.runAll ops m).2.stack.item? 0 = m.stack.item? (ops.countP Operation.pops) := by
  have hitem : ∀ (s : Stack) (depth : Nat), s.item? depth = s.bounded.items[depth]? := by
    intro s depth
    obtain ⟨items, maxSize, rfl⟩ := s.exists_ofTop
    rw [Stack.item?_ofTop, Stack.bounded_ofTop]
  rw [hitem, hitem, (Operation.steps ops m).items_eq hops, List.getElem?_drop, Nat.add_zero]

/-! ### What is removed there -/

/-- The reference in an item is the one in its wrapper. -/
theorem Item.reference?_eq (item : Item) (type : HostType) :
    item.reference? type = item.interop?.bind (Interop.reference? · type) := by
  cases item with
  | interop w =>
      rw [Item.reference?, Item.takeReference, Item.interop?, Option.bind_some, Interop.reference?]
      cases w.unwrap type with
      | ok value => rfl
      | error back => rfl
  | boolean _ | integer _ | byteArray _ | array _ => rfl

theorem Pop.reply_reference (type : HostType) (item : Item) :
    (Pop.value (.reference type)).reply item =
      match item.reference? type with
      | some taken => .ok (.extracted (.reference taken))
      | none => .error (.typeMismatch (Target.reference type).name item.kind) := by
  rw [Pop.reply, Target.accept?, Target.accept, Item.takeReference_eq]
  cases item.reference? type with
  | some value => rfl
  | none => rfl

/-- A look at a depth that the stack does not have finds nothing, and no index wraps around on the
way. At any other depth a look finds what a removal finds once the items above are removed, whatever
they are removed as, and whatever is looked at in between. A reference is found where one is
removed, to the same object, and none is found where the removal fails. -/
theorem Operation.peek_agrees_with_pop (m : Machine) (a b : Accessor) :
    (∀ depth : UInt64, m.stack.size < UInt64.size →
      m.stack.peekWord depth = some (m.stack.peek depth.toNat)) ∧
    (∀ how : Peek, m.stack.size ≤ how.depth →
      ((Operation.call a (.peek how)).run m).1 = .ok how.nothing) ∧
    ∀ ops : List Operation, (∀ op ∈ ops, op.pops ∨ op.looks) →
      ops.countP Operation.pops < m.stack.size →
      let depth := ops.countP Operation.pops
      let found := fun how => ((Operation.call a (.peek how)).run m).1
      let removed := fun how => ((Operation.call b (.pop how)).run (Operation.runAll ops m).2).1
      found (.integer depth) = removed .integer ∧
        found (.byteArray depth) = removed .byteArray ∧
        found (.boolean depth) = removed .boolean ∧
        ∀ type,
          (∀ value, found (.reference type depth) = .ok (.reference (some value)) ↔
            removed (.value (.reference type)) = .ok (.extracted (.reference value))) ∧
          (found (.reference type depth) = .ok (.reference none) ↔
            ∃ expected got,
              removed (.value (.reference type)) = .error (.typeMismatch expected got)) := by
  refine ⟨?_, ?_, ?_⟩
  · intro depth hsize
    exact m.stack.peekWord_eq depth hsize
  · intro how hdeep
    rw [Operation.peek_result, Peek.reply_of_deep hdeep]
  · intro ops hops hdepth depth found removed
    obtain ⟨item, hitem⟩ := Stack.exists_item? hdepth
    have htop := (Operation.top_after hops).trans hitem
    have hfound : ∀ how, found how = .ok (how.reply m.stack) := fun how =>
      Operation.peek_result a how m
    have hremoved : ∀ how, removed how = how.reply item := fun how =>
      Operation.pop_result b how htop
    refine ⟨?_, ?_, ?_, ?_⟩
    · rw [hfound, hremoved, Peek.reply, hitem]
      rfl
    · rw [hfound, hremoved, Peek.reply, hitem]
      rfl
    · rw [hfound, hremoved, Peek.reply, hitem]
      rfl
    · intro type
      rw [hfound, hremoved, Peek.reply, hitem, Option.bind_some, ← Item.reference?_eq,
        Pop.reply_reference]
      cases item.reference? type with
      | some taken => simp
      | none => simp

/-- An integer under a truth value, which is removed as bytes. -/
theorem Operation.peek_agrees_with_pop_under :
    let m := (Operation.runAll [.direct (.push (.integer 7)), .direct (.push (.boolean true))]
      (.ofConfig ⟨2, 0⟩)).2
    let a := Accessor.ofStack .standard .zero
    let ops := [Operation.call a (.peek (.integer 1)), .call a (.pop .byteArray)]
    (∀ op ∈ ops, op.pops ∨ op.looks) ∧ ops.countP Operation.pops < m.stack.size ∧
      ((Operation.call a (.peek (.integer 1))).run m).1 = .ok (.integer (some 7)) ∧
      ((Operation.call a (.peek (.integer 1))).run m).1 =
        ((Operation.call a (.pop .integer)).run (Operation.runAll ops m).2).1 := by
  intro m a ops
  have hops : ∀ op ∈ ops, op.pops ∨ op.looks := by
    intro op hop
    rcases List.mem_cons.1 hop with rfl | hop
    · exact .inr rfl
    · rcases List.mem_singleton.1 hop with rfl
      exact .inl rfl
  have hdepth : ops.countP Operation.pops < m.stack.size := by decide
  exact ⟨hops, hdepth, rfl, ((Operation.peek_agrees_with_pop m a a).2.2 ops hops hdepth).1⟩

end HostStack
