import HostStack.Proofs.Access.Removal

/-!
# Removing the references in an array

An array can be removed for the references of one type among its children. It is the one removal
that divides an item: the children that fit are handed out, each as its reference, and the others
are released, each with all that is in it. The induction on the children carries both halves, since
what makes a child fit also decides that nothing of it is released.

The two halves together are the array. This is what ties the counts to the reply: of the references
in the array, at any depth, those that the reply does not have are given up.

A child fits if it would as the only item of a stack. So nothing is taken out of an array inside the
array, and such a child only counts among those that are skipped.
-/

namespace HostStack

/-! ### Picking -/

/-- In the order of a list, some of its elements are kept, each as a value, and the others are
skipped because they have no value. -/
inductive Picks {α β : Type} (keeps : α → β → Prop) : List α → List β → Prop
  | nil : Picks keeps [] []
  | keep {a b as bs} : keeps a b → Picks keeps as bs → Picks keeps (a :: as) (b :: bs)
  | skip {a as bs} : (∀ b, ¬ keeps a b) → Picks keeps as bs → Picks keeps (a :: as) bs

namespace Picks

variable {α β : Type} {keeps : α → β → Prop} {as : List α} {bs : List β}

theorem filterMap {f : α → Option β} (hf : ∀ a b, f a = some b ↔ keeps a b) (as : List α) :
    Picks keeps as (as.filterMap f) := by
  induction as with
  | nil => exact .nil
  | cons a as ih =>
      cases ha : f a with
      | some b =>
          rw [List.filterMap_cons_some ha]
          exact .keep ((hf a b).1 ha) ih
      | none =>
          rw [List.filterMap_cons_none ha]
          refine .skip ?_ ih
          intro b hb
          rw [(hf a b).2 hb] at ha
          cases ha

/-- Which elements are kept, and as what, leaves no choice. -/
theorem unique (hkeeps : ∀ a b b', keeps a b → keeps a b' → b = b') {bs' : List β}
    (h : Picks keeps as bs) (h' : Picks keeps as bs') : bs = bs' := by
  induction h generalizing bs' with
  | nil =>
      cases h'
      rfl
  | keep hb _ ih =>
      cases h' with
      | keep hb' hrest => rw [hkeeps _ _ _ hb hb', ih hrest]
      | skip hskip _ => exact absurd hb (hskip _)
  | skip hskip _ ih =>
      cases h' with
      | keep hb' _ => exact absurd hb' (hskip _)
      | skip _ hrest => exact ih hrest

theorem length_le (h : Picks keeps as bs) : bs.length ≤ as.length := by
  induction h with
  | nil => exact Nat.le_refl _
  | keep _ _ ih => exact Nat.succ_le_succ ih
  | skip _ _ ih => exact Nat.le_succ_of_le ih

/-- What is never kept may as well not be there. -/
theorem filter {p : α → Bool} (hp : ∀ a b, keeps a b → p a = true) (h : Picks keeps as bs) :
    Picks keeps (as.filter p) bs := by
  induction h with
  | nil => exact .nil
  | @keep a b as bs hkeeps _ ih =>
      rw [List.filter_cons_of_pos (hp a b hkeeps)]
      exact .keep hkeeps ih
  | @skip a as bs hskip _ ih =>
      by_cases ha : p a = true
      · rw [List.filter_cons_of_pos ha]
        exact .skip hskip ih
      · rw [List.filter_cons_of_neg ha]
        exact ih

end Picks

/-! ### The children that fit -/

/-- A child is kept as a reference if it can be removed as one. -/
def Item.Keeps (type : HostType) (child : Item) (value : Ref) : Prop :=
  (Target.reference type).Takes child (.reference value)

variable {type : HostType} {children : List Item} {values : List Ref}

/-- The references that are kept, and those in all that is released, are those in the children. -/
theorem Picks.count_add (h : Picks (Item.Keeps type) children values) (o : ObjectId) :
    ((children.flatMap (Item.leftover type)).map Interop.object).count o +
        values.countP (fun value => value.object = o) =
      Item.usesInAll o children := by
  induction h with
  | nil => rfl
  | @keep child value children values hkeeps _ ih =>
      have huse : (if value.object = o then 1 else 0) = child.uses o := hkeeps.uses_eq o
      rw [List.flatMap_cons, Item.leftover, Item.reference?_eq_some.2 hkeeps, List.nil_append,
        List.countP_cons, Item.usesInAll, ← ih, ← huse]
      simp only [decide_eq_true_eq]
      omega
  | @skip child children values hskip _ ih =>
      have hnone : child.reference? type = none :=
        Option.eq_none_iff_forall_ne_some.2 fun value hvalue =>
          hskip value (Item.reference?_eq_some.1 hvalue)
      rw [List.flatMap_cons, Item.leftover, hnone, List.map_append, List.count_append,
        Item.map_object_leaves, ← Item.uses_eq, Item.usesInAll, ← ih]
      omega

/-- Releasing what is skipped gives up what the array has and the reply has not. -/
theorem Picks.givesUp (h : Picks (Item.Keeps type) children values) {heap : Heap}
    {others : Multiset ObjectId}
    (hb : heap.Balanced ((Item.array children).objects + others)) :
    let heap' := heap.release ((children.flatMap (Item.leftover type)).map Interop.object)
    ∃ lost : ObjectId → Nat, heap.GivesUp heap' lost (heap'.freedSince heap) ∧
      ∀ o, lost o + values.countP (fun value => value.object = o) = Item.usesInAll o children := by
  intro heap'
  have hdivided : (↑(Item.array children).objects : Multiset ObjectId) =
      ↑((children.flatMap (Item.leftover type)).map Interop.object) +
        ↑(values.map Ref.object) := by
    refine Multiset.ext.2 fun o => ?_
    rw [Multiset.count_add, Multiset.coe_count, Multiset.coe_count, Multiset.coe_count,
      Ref.count_object, h.count_add, ← Item.uses_eq, Item.uses]
  rw [hdivided, add_assoc] at hb
  exact ⟨_, hb.givesUp, h.count_add⟩

/-! ### The removal -/

/-- The array on top of a stack is removed for its references of a type. -/
structure Machine.Filters (m : Machine) (type : HostType) (rest children : List Item)
    (values : List Ref) (m' : Machine) : Prop where
  picks : Picks (Item.Keeps type) children values
  only : ∀ others, Picks (Item.Keeps type) children others → others = values
  /-- What is kept of a child is what a removal finds where the child lies alone. -/
  alone : ∀ (b : Accessor) (n : Machine) (child : Item), n.stack.toList = [child] → ∀ value,
    ((Operation.call b (.pop (.value (.reference type)))).run n).1 =
      .ok (.extracted (.reference value)) ↔ child.Keeps type value
  /-- Arrays among the children play no part. -/
  flat : Picks (Item.Keeps type) (children.filter fun child => child.kind ≠ .array) values
  length_le : values.length ≤ children.length
  /-- If fewer references come out than there are children, the log tells how many. -/
  skipped : ∃ dropped, dropped + values.length = children.length ∧
    m'.events = m.events ++ .pop .array ::
      if dropped = 0 then [] else [.popArraySkippedChildren type.name dropped]
  stack : m'.stack.toList = rest
  maxSize : m'.stack.maxSize = m.stack.maxSize
  /-- The references that the stack and the reply have together. -/
  together : ∀ o, m'.stack.uses o + (Reply.references (some values)).uses o +
    Item.usesInAll o children = m.stack.uses o + values.countP fun value => value.object = o
  /-- The references in the array that the reply has not are given up. -/
  givenUp : ∃ lost : ObjectId → Nat, m.heap.GivesUp m'.heap lost (m'.heap.freedSince m.heap) ∧
    ∀ o, lost o + values.countP (fun value => value.object = o) = Item.usesInAll o children
  strong : ∀ o, (∀ p ∈ m'.heap.freedSince m.heap, m.heap.usesIn p o = 0) →
    m'.heap.strong o + Item.usesInAll o children =
      m.heap.strong o + values.countP fun value => value.object = o

theorem Item.Keeps.unique {child : Item} {value value' : Ref} (h : child.Keeps type value)
    (h' : child.Keeps type value') : value = value' := by
  cases h with
  | reference _ =>
      cases h'
      rfl

theorem Item.Keeps.kind_ne {child : Item} {value : Ref} (h : child.Keeps type value) :
    child.kind ≠ .array := by
  cases h with
  | reference _ =>
      intro hkind
      cases hkind

theorem Operation.pop_alone (b : Accessor) {n : Machine} {child : Item}
    (hchild : n.stack.toList = [child]) (value : Ref) :
    ((Operation.call b (.pop (.value (.reference type)))).run n).1 =
      .ok (.extracted (.reference value)) ↔ child.Keeps type value := by
  have htop : n.stack.toList = [] ++ [child] := hchild
  rw [Operation.run_pop_top b _ htop]
  exact child.answers.value (.reference type) (.reference value)

theorem Item.usesInAll_append (o : ObjectId) (xs ys : List Item) :
    Item.usesInAll o (xs ++ ys) = Item.usesInAll o xs + Item.usesInAll o ys := by
  induction xs with
  | nil => rw [List.nil_append, Item.usesInAll, Nat.zero_add]
  | cons x xs ih => rw [List.cons_append, Item.usesInAll, ih, Item.usesInAll, Nat.add_assoc]

theorem Operation.pop_array_filters (a : Accessor) (type : HostType) {m : Machine}
    {mine : Multiset Interop} (hc : m.Counts mine) {rest : List Item}
    (htop : m.stack.toList = rest ++ [.array children]) :
    let step := (Operation.call a (.pop (.array type))).run m
    let values := children.filterMap (·.reference? type)
    step.1 = .ok (.references (some values)) ∧ m.Filters type rest children values step.2 := by
  intro step values
  have hrun : step = _ := Operation.run_pop_top a (.array type) htop
  have hstack : step.2.stack.toList = rest := by
    rw [hrun, Stack.toList_ofTop, List.reverse_reverse]
  have hpicks : Picks (Item.Keeps type) children values :=
    Picks.filterMap (fun _ _ => Item.reference?_eq_some) children
  have hgives := hpicks.givesUp (hc.top htop)
  have hheap : step.2.heap =
      m.heap.release ((children.flatMap (Item.leftover type)).map Interop.object) :=
    congrArg (·.2.heap) hrun
  rw [← hheap] at hgives
  refine ⟨congrArg Prod.fst hrun, ?_⟩
  constructor
  case picks => exact hpicks
  case only =>
    exact fun others hothers => hothers.unique (fun _ _ _ h h' => h.unique h') hpicks
  case alone => exact fun b n child hchild value => Operation.pop_alone b hchild value
  case flat => exact hpicks.filter fun child value hkeeps => decide_eq_true hkeeps.kind_ne
  case length_le => exact hpicks.length_le
  case skipped =>
    have hevents : step.2.events = m.events ++ .pop .array ::
        if values.length < children.length then
          [.popArraySkippedChildren type.name (children.length - values.length)]
        else [] :=
      congrArg (·.2.events) hrun
    refine ⟨_, Nat.sub_add_cancel hpicks.length_le, ?_⟩
    rw [hevents]
    by_cases hfewer : values.length < children.length
    · rw [if_pos hfewer, if_neg (Nat.sub_ne_zero_of_lt hfewer)]
    · rw [if_neg hfewer, if_pos (Nat.sub_eq_zero_of_le (Nat.not_lt.1 hfewer))]
  case stack => exact hstack
  case maxSize => rw [hrun, Stack.maxSize_ofTop]
  case together =>
    intro o
    rw [Stack.uses, hstack, Stack.uses, htop, Item.usesInAll_append, Reply.uses,
      Item.usesInAll, Item.usesInAll, Item.uses]
    omega
  case givenUp => exact hgives
  case strong =>
    obtain ⟨lost, hloss, hlost⟩ := hgives
    intro o hunheld
    have hcount := hloss.strong_of_unheld hunheld
    have hsplit := hlost o
    omega

/-- A removal of an array hands out the references of the type that are among its children, in
their order, and gives up all others. An item of another kind is given up, and a stack without an
item stays as it is. -/
theorem Operation.pop_array_settled (a : Accessor) (type : HostType) {m : Machine}
    {mine : Multiset Interop} (hc : m.Counts mine) :
    let step := (Operation.call a (.pop (.array type))).run m
    (∀ rest children, m.stack.toList = rest ++ [.array children] →
      ∃ values, step.1 = .ok (.references (some values)) ∧
        m.Filters type rest children values step.2) ∧
    (∀ rest item, m.stack.toList = rest ++ [item] → item.kind ≠ .array →
      step.1 = .ok (.references none) ∧ step.2.stack.toList = rest ∧
        step.2.stack.maxSize = m.stack.maxSize ∧
        m.heap.GivesUp step.2.heap (item.uses ·) (step.2.heap.freedSince m.heap)) ∧
    (m.stack.toList = [] → step =
      (.error (.stack .underflow), { m with events := m.events ++ [.popOnEmptyStack] })) := by
  intro step
  refine ⟨?_, ?_, ?_⟩
  · intro rest children htop
    exact ⟨_, Operation.pop_array_filters a type hc htop⟩
  · intro rest item htop hkind
    have hrun : step = _ := Operation.run_pop_top a (.array type) htop
    have hnone : item.array? = none := by
      cases item with
      | array children => exact absurd rfl hkind
      | boolean _ | integer _ | byteArray _ | interop _ => rfl
    rw [hrun, Pop.reply, Pop.leftover, hnone]
    refine ⟨rfl, ?_, rfl, item.givesUp (hc.top htop)⟩
    rw [Stack.toList_ofTop, List.reverse_reverse]
  · intro hempty
    have hpop : m.stack.pop = .error .underflow := by
      have hstack := m.stack.ofTop_fromTop
      rw [Stack.fromTop, hempty] at hstack
      rw [← hstack]
      exact Stack.pop_ofTop_nil _
    have hrun : step = _ := Operation.run_pop a (.array type) m
    rw [hrun, hpop]
    rfl

/-- The object in the inner array is freed, and what it held is handed out twice. -/
theorem Operation.pop_array_settled_nested :
    let value : Ref := ⟨⟨0⟩, .host "T"⟩
    let holder : Ref := ⟨⟨1⟩, .host "U"⟩
    let children : List Item := [.array [.interop (.ofRef holder)], .interop (.ofRef value),
      .integer 3, .interop (.ofRef value)]
    let m := Machine.nesting value holder (.array children)
    let step := (Operation.call (.ofStack .standard .zero) (.pop (.array (.host "T")))).run m
    m.Counts {.ofRef value} ∧ m.stack.toList = [.integer 7] ++ [.array children] ∧
      step.1 = .ok (.references (some [value, value])) ∧
      step.2.heap.freedSince m.heap = [holder.object] ∧ step.2.heap.strong value.object = 3 ∧
      m.Filters (.host "T") [.integer 7] children [value, value] step.2 := by
  intro value holder children m step
  have hcounts : m.Counts {.ofRef value} := Machine.nesting_counts rfl
  have htop : m.stack.toList = [.integer 7] ++ [.array children] := rfl
  obtain ⟨values, hreply, hfilters⟩ :=
    (Operation.pop_array_settled (.ofStack .standard .zero) (.host "T") hcounts).1 _ _ htop
  have hvalues : step.1 = .ok (.references (some [value, value])) := by cbv
  obtain rfl : values = [value, value] := by
    cases hvalues.symm.trans hreply
    rfl
  exact ⟨hcounts, htop, hvalues, by cbv, by cbv, hfilters⟩

end HostStack
