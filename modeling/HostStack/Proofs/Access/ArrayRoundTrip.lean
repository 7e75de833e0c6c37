import HostStack.Proofs.Access.PlainItems
import HostStack.Proofs.Access.Programs
import HostStack.Proofs.Access.Removal
import HostStack.Proofs.Heap.Order

/-!
# Arrays of references come back

References that are pushed as an array come off the stack in the same order, and with as many
repetitions, whatever a program does in between, as long as it comes back to the array. For the
stack that is the rule for brackets: the item on top is the one that was pushed.

The counts take more, since the program may do as it likes with the references of the host, and free
what nobody owns any longer. But each count is a sum over the stack, the host and the objects that
are alive, before and afterwards, and what the stack adds is known. So the counts differ by the
references in the array and by what has changed elsewhere; and if the host has references to the
same objects as before, nothing has changed inside of objects, however many came and went.
-/

namespace HostStack

/-! ### References in the hands of others -/

/-- How often an object is held by the host and by objects that are alive. -/
def Heap.elsewhere (h : Heap) (mine : Multiset Interop) (o : ObjectId) : Nat :=
  (mine.map Interop.object).count o + (h.live.map fun p => h.usesIn p o).sum

theorem Heap.Balanced.strong_eq {h : Heap} {os : List ObjectId} {mine : Multiset Interop}
    (hb : h.Balanced (os + mine.map Interop.object)) (o : ObjectId) :
    h.strong o = os.count o + h.elsewhere mine o := by
  rw [hb.counts, hb.held_eq, Multiset.count_add, Multiset.coe_count, Heap.elsewhere,
    Nat.add_assoc]

/-- Where the same objects have owners, live objects hold the same references. What is different
elsewhere is with the host. -/
theorem Heap.Balanced.elsewhere_congr {h later : Heap} {owners owners' : Multiset ObjectId}
    (hb : h.Balanced owners) (hb' : later.Balanced owners') (hx : h.Extends later)
    (howners : ∀ o, o ∈ owners' ↔ o ∈ owners) (mine mine' : Multiset Interop) (o : ObjectId) :
    later.elsewhere mine' o + (mine.map Interop.object).count o =
      h.elsewhere mine o + (mine'.map Interop.object).count o := by
  have hheld := hb.held_congr hb' hx howners o
  rw [hb.held_eq, hb'.held_eq] at hheld
  rw [Heap.elsewhere, Heap.elsewhere]
  omega

/-! ### The items of the array -/

variable {type : HostType} {values : List ObjectId}

theorem Interop.map_object_ofAll (type : HostType) (values : List ObjectId) :
    (Interop.ofAll type values).map Interop.object = values := by
  rw [Interop.ofAll, List.map_map]
  exact List.map_id values

theorem Interop.leaves_ofAll (type : HostType) (values : List ObjectId) :
    (Item.array ((Interop.ofAll type values).map .interop)).leaves = Interop.ofAll type values := by
  rw [Item.leaves, Item.leavesOfAll_eq_flatMap, List.flatMap_map]
  exact List.flatMap_singleton' _

/-- An array of references, when it is taken apart at some type. -/
theorem Interop.divide_ofAll (type wanted : HostType) (values : List ObjectId) :
    let items := (Interop.ofAll type values).map Item.interop
    items.filterMap (·.reference? wanted) =
        (if type = wanted then values.map fun o => ⟨o, type⟩ else []) ∧
      items.flatMap (Item.leftover wanted) =
        if type = wanted then [] else Interop.ofAll type values := by
  intro items
  have hitems : items = values.map fun o => .interop (.ofRef ⟨o, type⟩) := List.map_map
  rw [hitems, List.filterMap_map, List.flatMap_map]
  by_cases htype : type = wanted
  · have href : ∀ o, (Item.interop (.ofRef ⟨o, type⟩)).reference? wanted = some ⟨o, type⟩ := by
      intro o
      exact Item.reference?_eq_some.2 (.reference htype)
    rw [if_pos htype, if_pos htype]
    simp [Item.leftover, href]
  · have href : ∀ o, (Item.interop (.ofRef ⟨o, type⟩)).reference? wanted = none := by
      intro o
      refine Option.eq_none_iff_forall_ne_some.2 ?_
      intro value hvalue
      cases Item.reference?_eq_some.1 hvalue with
      | reference heq => exact htype heq
    rw [if_neg htype, if_neg htype]
    refine ⟨by simp [href], ?_⟩
    simp only [Item.leftover, href]
    exact List.map_eq_flatMap.symm

/-! ### The way back -/

/-- On `m` some references of the host were pushed as an array, and on `e` that array is the top of
the same stack. -/
structure Machine.ComesBack (m e : Machine) (mine mine' : Multiset Interop) (type : HostType)
    (values : List ObjectId) : Prop where
  before : m.Counts mine
  shared : ∀ w ∈ Interop.ofAll type values, w ∈ mine
  after : e.Counts mine'
  stack : e.stack =
    .ofTop (.array ((Interop.ofAll type values).map .interop) :: m.stack.fromTop) m.stack.maxSize
  later : m.heap.Extends e.heap

/-- What pops find on such a machine. -/
structure Machine.ArrayReturns (m e : Machine) (mine mine' : Multiset Interop) (type : HostType)
    (values : List ObjectId) : Prop where
  same : ∀ b : Accessor,
    let popped := (Operation.call b (.pop (.array type))).run e
    popped.1 = .ok (.references (some (values.map fun o => ⟨o, type⟩))) ∧
      popped.2.stack = m.stack ∧ popped.2.heap = e.heap
  /-- At another type there is nothing to find, and all references are released. -/
  other : ∀ (b : Accessor) (wanted : HostType), wanted ≠ type →
    let popped := (Operation.call b (.pop (.array wanted))).run e
    popped.1 = .ok (.references (some [])) ∧ popped.2.stack = m.stack ∧
      popped.2.heap = e.heap.release values
  held : ∀ o, e.heap.strong o + m.heap.elsewhere mine o =
    m.heap.strong o + values.count o + e.heap.elsewhere mine' o
  released : e.heap.GivesUp (e.heap.release values) (fun o => values.count o)
    ((e.heap.release values).freedSince e.heap)
  dropped : ∀ o, (e.heap.release values).strong o + m.heap.elsewhere mine o =
    m.heap.strong o + (e.heap.release values).elsewhere mine' o
  /-- As long as the host has a reference to the same objects, it makes no difference what was
  freed on the way. -/
  owners : (∀ o, o ∈ mine'.map Interop.object ↔ o ∈ mine.map Interop.object) → ∀ o,
    let before := (mine.map Interop.object).count o
    let after := (mine'.map Interop.object).count o
    e.heap.strong o + before = m.heap.strong o + values.count o + after ∧
      (e.heap.release values).strong o + before = m.heap.strong o + after
  /-- The program neither keeps nor gives up a reference. -/
  restored : mine' = mine → ∀ o, e.heap.strong o = m.heap.strong o + values.count o ∧
    (e.heap.release values).strong o = m.heap.strong o

namespace Machine.ComesBack

variable {m e : Machine} {mine mine' : Multiset Interop}

theorem start (h : m.ComesBack e mine mine' type values) :
    m.heap.Balanced (m.stack.objects + mine.map Interop.object) := by
  have hc := h.before
  rw [Machine.Counts, Multiset.map_add, Multiset.map_coe, m.stack.map_object_leaves] at hc
  exact hc

/-- The references in the array, apart from all others. -/
theorem split (h : m.ComesBack e mine mine' type values) :
    e.heap.Balanced (values + (m.stack.objects + mine'.map Interop.object)) := by
  have hc := h.after
  rw [Machine.Counts, h.stack, Stack.leaves_ofTop_cons, Stack.ofTop_fromTop, Interop.leaves_ofAll,
    add_assoc, Multiset.map_add, Multiset.map_add, Multiset.map_coe, Multiset.map_coe,
    Interop.map_object_ofAll, m.stack.map_object_leaves] at hc
  exact hc

theorem rest (h : m.ComesBack e mine mine' type values) :
    (e.heap.release values).Balanced (m.stack.objects + mine'.map Interop.object) :=
  h.split.release

theorem held (h : m.ComesBack e mine mine' type values) (o : ObjectId) :
    e.heap.strong o + m.heap.elsewhere mine o =
      m.heap.strong o + values.count o + e.heap.elsewhere mine' o := by
  have hsplit := h.split
  rw [← add_assoc, Multiset.coe_add] at hsplit
  rw [hsplit.strong_eq, h.start.strong_eq, List.count_append]
  omega

theorem dropped (h : m.ComesBack e mine mine' type values) (o : ObjectId) :
    (e.heap.release values).strong o + m.heap.elsewhere mine o =
      m.heap.strong o + (e.heap.release values).elsewhere mine' o := by
  rw [h.rest.strong_eq, h.start.strong_eq]
  omega

theorem owners (h : m.ComesBack e mine mine' type values)
    (hsame : ∀ o, o ∈ mine'.map Interop.object ↔ o ∈ mine.map Interop.object) (o : ObjectId) :
    let before := (mine.map Interop.object).count o
    let after := (mine'.map Interop.object).count o
    e.heap.strong o + before = m.heap.strong o + values.count o + after ∧
      (e.heap.release values).strong o + before = m.heap.strong o + after := by
  intro before after
  have hvalues : ∀ x ∈ values, x ∈ mine.map Interop.object := by
    intro x hx
    rw [← Interop.map_object_ofAll type values] at hx
    obtain ⟨w, hw, rfl⟩ := List.mem_map.1 hx
    exact Multiset.mem_map_of_mem _ (h.shared w hw)
  have hsplit := h.start.elsewhere_congr h.split h.later ?_ mine mine' o
  have hrest := h.start.elsewhere_congr h.rest (h.later.trans (Heap.extends_release _ _)) ?_
    mine mine' o
  · have hheld := h.held o
    have hdropped := h.dropped o
    omega
  · intro x
    rw [Multiset.mem_add, Multiset.mem_add, hsame]
  · intro x
    rw [Multiset.mem_add, Multiset.mem_add, Multiset.mem_add, Multiset.mem_coe, hsame]
    exact ⟨fun hx => hx.elim (fun hx => .inr (hvalues x hx)) id, .inr⟩

theorem same (h : m.ComesBack e mine mine' type values) (b : Accessor) :
    let popped := (Operation.call b (.pop (.array type))).run e
    popped.1 = .ok (.references (some (values.map fun o => ⟨o, type⟩))) ∧
      popped.2.stack = m.stack ∧ popped.2.heap = e.heap := by
  obtain ⟨hresult, hstack, hheap⟩ := Operation.run_pop_ofTop b (.array type) h.stack
  obtain ⟨hpicked, hleft⟩ := Interop.divide_ofAll type type values
  rw [if_pos rfl] at hpicked hleft
  refine ⟨?_, hstack.trans m.stack.ofTop_fromTop, ?_⟩
  · rw [hresult, Pop.reply, Item.array?, Option.map_some, hpicked]
  · rw [hheap, Pop.leftover, Item.array?]
    dsimp only
    rw [hleft, List.map_nil, Heap.release_nil]

theorem other (h : m.ComesBack e mine mine' type values) (b : Accessor) {wanted : HostType}
    (hne : wanted ≠ type) :
    let popped := (Operation.call b (.pop (.array wanted))).run e
    popped.1 = .ok (.references (some [])) ∧ popped.2.stack = m.stack ∧
      popped.2.heap = e.heap.release values := by
  obtain ⟨hresult, hstack, hheap⟩ := Operation.run_pop_ofTop b (.array wanted) h.stack
  obtain ⟨hpicked, hleft⟩ := Interop.divide_ofAll type wanted values
  rw [if_neg hne.symm] at hpicked hleft
  refine ⟨?_, hstack.trans m.stack.ofTop_fromTop, ?_⟩
  · rw [hresult, Pop.reply, Item.array?, Option.map_some, hpicked]
  · rw [hheap, Pop.leftover, Item.array?]
    dsimp only
    rw [hleft, Interop.map_object_ofAll]

theorem returns (h : m.ComesBack e mine mine' type values) :
    m.ArrayReturns e mine mine' type values where
  same := h.same
  other b _ hne := h.other b hne
  held := h.held
  released := h.split.givesUp
  dropped := h.dropped
  owners := h.owners
  restored hsame o := by
    have hcounts := h.owners (fun x => by rw [hsame]) o
    rw [hsame] at hcounts
    exact ⟨Nat.add_right_cancel hcounts.1, Nat.add_right_cancel hcounts.2⟩

theorem run {program : List Operation} {mine'' : Multiset Interop}
    (h : m.ComesBack e mine mine' type values) (hfair : Operation.FairAll program e mine' mine'')
    (habove : ∀ k, e.stack.size ≤ (Operation.runAll (program.take k) e).2.stack.size)
    (hend : (Operation.runAll program e).2.stack.size = e.stack.size) :
    m.ComesBack (Operation.runAll program e).2 mine mine'' type values where
  before := h.before
  shared := h.shared
  after := hfair.counts h.after
  stack := (Operation.bracket_eq habove hend).trans h.stack
  later := h.later.trans hfair.trade.later

end Machine.ComesBack

/-- The push itself. -/
theorem Operation.push_comesBack {a : Accessor} (hplain : a.factory.Plain) {type : HostType}
    {values : List ObjectId} {m : Machine} {mine : Multiset Interop} (hc : m.Counts mine)
    (hvalues : ∀ w ∈ Interop.ofAll type values, w ∈ mine)
    (hroom : m.stack.size < m.stack.maxSize) :
    let push := (Operation.call a (.pushInteropArray type values)).run m
    push.1 = .ok .done ∧ m.ComesBack push.2 mine mine type values := by
  intro push
  have hsize : m.stack.fromTop.length < m.stack.maxSize := by rwa [m.stack.length_fromTop]
  have hitem : (Call.pushInteropArray type values).item? =
      some (.array ((Interop.ofAll type values).map .interop)) := rfl
  obtain ⟨hresult, hstack, -⟩ :=
    Operation.run_push_plain hplain hitem m.stack.ofTop_fromTop.symm hsize
  have hpush := Operation.call_trade hplain.conserves (.pushInteropArray type values) m hvalues
  have hout : Pop.out push.1 = [] := congrArg Pop.out hresult
  have htrade : Heap.Trade (m.stack.leaves + mine) m.heap (push.2.stack.leaves + mine)
      push.2.heap := by
    refine (Heap.Trade.of_eq (nothing_add _).symm).trans (hpush.trans (.of_eq ?_))
    rw [show Pop.out _ = _ from hout, nothing_add]
  exact ⟨hresult, hc, hvalues, htrade.balanced hc, hstack, htrade.later⟩

/-- What a push of references as an array does, and what is found of it after any program that
comes back to the array. -/
theorem Operation.array_round_trips {a : Accessor} (hplain : a.factory.Plain) (type : HostType)
    {values : List ObjectId} {m : Machine} {mine : Multiset Interop} (hc : m.Counts mine)
    (hvalues : ∀ w ∈ Interop.ofAll type values, w ∈ mine)
    (hroom : m.stack.size < m.stack.maxSize) :
    let push := (Operation.call a (.pushInteropArray type values)).run m
    push.1 = .ok .done ∧ push.2.stack.size = m.stack.size + 1 ∧
      (∀ o, push.2.heap.strong o = m.heap.strong o + values.count o) ∧
      ∀ program mine', Operation.FairAll program push.2 mine mine' →
        (∀ k, push.2.stack.size ≤ (Operation.runAll (program.take k) push.2).2.stack.size) →
        (Operation.runAll program push.2).2.stack.size = push.2.stack.size →
        m.ArrayReturns (Operation.runAll program push.2).2 mine mine' type values := by
  intro push
  obtain ⟨hresult, hcomes⟩ := Operation.push_comesBack hplain hc hvalues hroom
  refine ⟨hresult, ?_, ?_, ?_⟩
  · rw [hcomes.stack, Stack.size_ofTop, List.length_cons, m.stack.length_fromTop]
  · exact fun o => (hcomes.returns.restored rfl o).1
  · intro program mine' hfair habove hend
    exact (hcomes.run hfair habove hend).returns

/-- The same object twice. The program looks at something else on the way, and gives up the
reference that the host has: then only the array keeps the object. -/
theorem Operation.array_round_trips_alone :
    let a : Accessor := .ofStack .standard .zero
    let value : Ref := ⟨⟨0⟩, .host "T"⟩
    let m : Machine := ⟨(Heap.empty.alloc value.type .unit).2, ⟨#[.integer 7], 3⟩, [], []⟩
    let values := [value.object, value.object]
    let program := [.call a (.push (.boolean true)), .call a (.pop .integer),
      .direct (.host fun h => h.release [value.object])]
    let e := (Operation.runAll program
      ((Operation.call a (.pushInteropArray value.type values)).run m).2).2
    m.Counts {.ofRef value} ∧ e.heap.strong value.object = 2 ∧
      ((Operation.call a (.pop (.array value.type))).run e).1 =
        .ok (.references (some [value, value])) ∧
      ((Operation.call a (.pop (.array (.host "U")))).run e).2.heap.freed = [value.object] ∧
      m.ArrayReturns e {.ofRef value} 0 value.type values := by
  intro a value m values program e
  have hplain : a.factory.Plain := ItemFactory.standard_plain
  have hcounts : m.Counts {.ofRef value} := by
    have hempty : Heap.empty.Balanced ((Payload.unit.objects : Multiset ObjectId) + 0) :=
      Heap.balanced_empty
    exact hempty.alloc
  have hvalues : ∀ w ∈ Interop.ofAll value.type values,
      w ∈ ({.ofRef value} : Multiset Interop) := by
    simp [Interop.ofAll, values, value]
  have hreturns := (Operation.array_round_trips hplain value.type hcounts hvalues (by decide)).2.2.2
    program 0
  have hfair : Operation.FairAll program
      ((Operation.call a (.pushInteropArray value.type values)).run m).2 {.ofRef value} 0 := by
    refine .cons (.scalar hplain.conserves (by simp [Call.copies]) rfl rfl)
      (.cons (.scalar hplain.conserves (by simp [Call.copies]) rfl ?_) (.cons (.host ?_) .nil))
    · rfl
    · refine .trans (.of_eq ?_) (.drop [.ofRef value])
      rw [add_zero, add_comm]
      rfl
  have hshort : ∀ k < 3, 2 ≤ (Operation.runAll (program.take k)
      ((Operation.call a (.pushInteropArray value.type values)).run m).2).2.stack.size := by
    decide
  have habove : ∀ k, 2 ≤ (Operation.runAll (program.take k)
      ((Operation.call a (.pushInteropArray value.type values)).run m).2).2.stack.size := by
    intro k
    rcases Nat.lt_or_ge k 3 with hk | hk
    · exact hshort k hk
    · have hall : program.take k = program := List.take_of_length_le hk
      rw [hall]
      decide
  exact ⟨hcounts, by cbv, by cbv, by cbv, hreturns hfair habove (by decide)⟩

end HostStack
