import HostStack.Proofs.Access.Moves
import HostStack.Proofs.Heap.Loss
import Mathlib

/-!
# What a removal does with the top item

A removal is asked for one thing, and the top item is what it is. Whether the two fit decides what
the removal replies, and nothing else: the item is off the stack in any case. The references in the
item then have one of two ways to go. If the item is handed out, whole or as the one reference that
it is, they go with it, and the heap does not notice. Otherwise all of them are given up before the
removal ends, those in arrays at any depth as well, also where the removal finds what it was asked
for: a number or some bytes have no references to give up.

Arrays that are removed for the references in them are the one removal where both happen at once,
and have a module of their own.
-/

namespace HostStack

variable {target : Target} {item : Item} {taken : Extracted}

/-- All references in the item are handed out with it. -/
theorem Target.Takes.uses_eq (h : target.Takes item taken) (o : ObjectId) :
    taken.uses o = item.uses o := by
  cases h with
  | reference _ | item _ | wrapper _ => rfl

/-! ### The machine after a removal -/

theorem Stack.eq_ofTop {s : Stack} {rest : List Item} (htop : s.toList = rest ++ [item]) :
    s = .ofTop (item :: rest.reverse) s.maxSize := by
  have hitems : s.fromTop = item :: rest.reverse := by
    rw [Stack.fromTop, htop, List.reverse_append]
    rfl
  rw [← hitems, Stack.ofTop_fromTop]

theorem Operation.run_pop_top (a : Accessor) (how : Pop) {m : Machine} {rest : List Item}
    (htop : m.stack.toList = rest ++ [item]) :
    (Operation.call a (.pop how)).run m =
      (how.reply item,
        { m with
          heap := m.heap.release ((how.leftover item).map Interop.object)
          stack := .ofTop rest.reverse m.stack.maxSize
          events := m.events ++ .pop item.kind :: how.events item }) := by
  have hpop : m.stack.pop = .ok (item, .ofTop rest.reverse m.stack.maxSize) := by
    rw [Stack.eq_ofTop htop, Stack.pop_ofTop_cons, Stack.maxSize_ofTop]
  rw [Operation.run_pop, hpop]
  dsimp only [Machine.taken, Machine.released]
  rw [List.append_assoc]
  rfl

theorem Machine.Counts.top {m : Machine} {mine : Multiset Interop} (hc : m.Counts mine)
    {rest : List Item} (htop : m.stack.toList = rest ++ [item]) :
    m.heap.Balanced (item.objects +
      (↑(Stack.ofTop rest.reverse m.stack.maxSize).leaves + mine).map Interop.object) := by
  rw [Machine.Counts, Stack.eq_ofTop htop, Stack.leaves_ofTop_cons, add_assoc, Multiset.map_add,
    Multiset.map_coe, item.map_object_leaves] at hc
  exact hc

/-! ### All removals but those of arrays -/

/-- What removals reply when an item is on top. -/
structure Item.Answers (item : Item) (result : Pop → Except AccessError Reply) : Prop where
  integer : ∃ value, result .integer = .ok (.integer value) ∧
    ∀ n, value = some n ↔ item = .integer n
  byteArray : ∃ value, result .byteArray = .ok (.bytes value) ∧
    ∀ bytes, value = some bytes ↔ item = .byteArray bytes
  boolean : ∃ value, result .boolean = .ok (.boolean value) ∧
    ∀ b, value = some b ↔ item = .boolean b
  value : ∀ target taken, result (.value target) = .ok (.extracted taken) ↔ target.Takes item taken
  mismatch : ∀ target, (∀ taken, ¬ target.Takes item taken) →
    result (.value target) = .error (.typeMismatch target.name item.kind)

/-- What becomes of the references in an item that a removal takes off the stack. -/
structure Item.Parts (item : Item) (result : Except AccessError Reply) (h h' : Heap) : Prop where
  handedOut : ∀ taken, result = .ok (.extracted taken) → h' = h ∧ ∀ o, taken.uses o = item.uses o
  givenUp : (∀ taken, result ≠ .ok (.extracted taken)) →
    h.GivesUp h' (item.uses ·) (h'.freedSince h)

theorem Item.answers (item : Item) : item.Answers (·.reply item) where
  integer := by
    refine ⟨item.integer?, rfl, ?_⟩
    intro n
    cases item with
    | integer _ => simp [Item.integer?]
    | boolean _ | byteArray _ | interop _ | array _ => simp [Item.integer?]
  byteArray := by
    refine ⟨item.bytes?, rfl, ?_⟩
    intro bytes
    cases item with
    | byteArray _ => simp [Item.bytes?]
    | boolean _ | integer _ | interop _ | array _ => simp [Item.bytes?]
  boolean := by
    refine ⟨item.boolean?, rfl, ?_⟩
    intro b
    cases item with
    | boolean _ => simp [Item.boolean?]
    | integer _ | byteArray _ | interop _ | array _ => simp [Item.boolean?]
  value target taken := by
    rw [Pop.reply, ← Target.accept?_eq_some]
    cases target.accept? item with
    | some _ => simp
    | none => simp
  mismatch target hnone := by
    have hnone : target.accept? item = none :=
      Option.eq_none_iff_forall_ne_some.2 fun taken htaken =>
        hnone taken (Target.accept?_eq_some.1 htaken)
    rw [Pop.reply, hnone]

/-- Either the item is handed out, or all of it is released. -/
theorem Pop.leftover_cases {how : Pop} (hhow : ∀ type, how ≠ .array type) (item : Item) :
    (∃ (target : Target) (taken : Extracted), target.Takes item taken ∧
      how.reply item = .ok (.extracted taken) ∧ how.leftover item = []) ∨
    (∀ taken, how.reply item ≠ .ok (.extracted taken)) ∧ how.leftover item = item.leaves := by
  cases how with
  | integer | byteArray | boolean =>
      refine .inr ⟨?_, rfl⟩
      intro taken h
      cases h
  | value target =>
      rw [Pop.reply, Pop.leftover]
      cases htaken : target.accept? item with
      | some taken => exact .inl ⟨target, taken, Target.accept?_eq_some.1 htaken, rfl, rfl⟩
      | none =>
          refine .inr ⟨?_, rfl⟩
          intro taken h
          cases h
  | array type => exact absurd rfl (hhow type)

/-- An item that is released gives all its references up. -/
theorem Item.givesUp (item : Item) {h : Heap} {others : Multiset ObjectId}
    (hb : h.Balanced (item.objects + others)) :
    let h' := h.release (item.leaves.map Interop.object)
    h.GivesUp h' (item.uses ·) (h'.freedSince h) := by
  have hloss := hb.givesUp
  simp only [← Item.uses_eq] at hloss
  rw [item.map_object_leaves]
  exact hloss

theorem Item.parts {how : Pop} (hhow : ∀ type, how ≠ .array type) (item : Item) {h : Heap}
    {others : Multiset ObjectId} (hb : h.Balanced (item.objects + others)) :
    item.Parts (how.reply item) h (h.release ((how.leftover item).map Interop.object)) := by
  rcases Pop.leftover_cases hhow item with ⟨target, taken, htakes, hreply, hnothing⟩ | ⟨hnot, hall⟩
  · refine ⟨?_, fun hnot => absurd hreply (hnot taken)⟩
    intro taken' hreply'
    obtain rfl : taken = taken' := by
      rw [hreply] at hreply'
      cases hreply'
      rfl
    refine ⟨?_, htakes.uses_eq⟩
    rw [hnothing, List.map_nil, Heap.release_nil]
  · refine ⟨fun taken hreply => absurd hreply (hnot taken), fun _ => ?_⟩
    rw [hall]
    exact item.givesUp hb

/-- A removal that is not for an array replies what fits the item on top. Whatever it replies, the
item is off the stack, and its references are either handed out or given up. -/
theorem Operation.pop_settled (a : Accessor) {m : Machine} {mine : Multiset Interop}
    (hc : m.Counts mine) {rest : List Item} (htop : m.stack.toList = rest ++ [item]) :
    let result := fun how => ((Operation.call a (.pop how)).run m).1
    let after := fun how => ((Operation.call a (.pop how)).run m).2
    item.Answers result ∧
      ∀ how, (∀ type, how ≠ .array type) →
        (after how).stack.toList = rest ∧ (after how).stack.maxSize = m.stack.maxSize ∧
          item.Parts (result how) m.heap (after how).heap := by
  intro result after
  have hrun := fun how => Operation.run_pop_top a how htop
  have hresult : result = (·.reply item) := funext fun how => congrArg Prod.fst (hrun how)
  refine ⟨hresult ▸ item.answers, ?_⟩
  intro how hhow
  have hafter : after how = _ := congrArg Prod.snd (hrun how)
  rw [hafter, hresult]
  refine ⟨?_, rfl, item.parts hhow (hc.top htop)⟩
  rw [Stack.toList_ofTop, List.reverse_reverse]

/-- The object of `holder` holds that of `value`. On top of a number lies an item. -/
def Machine.nesting (value holder : Ref) (item : Item) : Machine :=
  ⟨(((Heap.empty.alloc value.type .unit).2.retain [⟨0⟩, ⟨0⟩, ⟨0⟩]).alloc holder.type
    (.reference value)).2, ⟨#[.integer 7, item], 2⟩, [], []⟩

theorem Machine.nesting_counts {type type' : HostType} {item : Item} :
    let value : Ref := ⟨⟨0⟩, type⟩
    let holder : Ref := ⟨⟨1⟩, type'⟩
    item.leaves = [.ofRef holder, .ofRef value, .ofRef value] →
      (nesting value holder item).Counts {.ofRef value} := by
  intro value holder hitem
  have hmade : (Heap.empty.alloc type .unit).2.Balanced {⟨0⟩} :=
    @Heap.Balanced.alloc _ 0 _ _ Heap.balanced_empty
  have hcopied : Heap.Balanced _ _ := @Heap.Balanced.retain _ _ hmade [⟨0⟩, ⟨0⟩, ⟨0⟩] (by simp)
  have hstack : (nesting value holder item).stack.leaves =
      [.ofRef holder, .ofRef value, .ofRef value] := by
    rw [← hitem]
    exact List.append_nil _
  rw [Machine.Counts, hstack]
  exact @Heap.Balanced.alloc _ ↑[value.object, value.object, value.object] type'
    (.reference value) hcopied

/-- An array that does not fit: the object that is freed with it holds one that the host has, and
that the array has twice. -/
theorem Operation.pop_settled_nested :
    let value : Ref := ⟨⟨0⟩, .host "T"⟩
    let holder : Ref := ⟨⟨1⟩, .host "U"⟩
    let item : Item := .array [.array [.interop (.ofRef holder)], .interop (.ofRef value),
      .interop (.ofRef value)]
    let m := Machine.nesting value holder item
    let step := (Operation.call (.ofStack .standard .zero) (.pop (.value .wrapper))).run m
    m.Counts {.ofRef value} ∧ m.stack.toList = [.integer 7] ++ [item] ∧
      step.1 = .error (.typeMismatch "vm_interop::item::InteropObject" .array) ∧
      step.2.heap.freedSince m.heap = [holder.object] ∧ step.2.heap.strong value.object = 1 ∧
      m.heap.GivesUp step.2.heap (item.uses ·) (step.2.heap.freedSince m.heap) := by
  intro value holder item m step
  have hcounts : m.Counts {.ofRef value} := Machine.nesting_counts rfl
  have htop : m.stack.toList = [.integer 7] ++ [item] := rfl
  obtain ⟨hanswers, hparts⟩ := Operation.pop_settled (.ofStack .standard .zero) hcounts htop
  have hunfit : ∀ items taken, ¬ Target.wrapper.Takes (.array items) taken := by
    intro items taken h
    cases h
  have hmismatch : step.1 = _ := hanswers.mismatch .wrapper (hunfit _)
  have hloss := (hparts (.value .wrapper) (by simp)).2.2.givenUp
    (by intro taken h; cases hmismatch.symm.trans h)
  exact ⟨hcounts, htop, hmismatch, by cbv, by cbv, hloss⟩

end HostStack
