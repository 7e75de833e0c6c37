import HostStack.Proofs.Access.Effect
import HostStack.Proofs.Ownership.Trade
import Mathlib.Tactic.Abel

/-!
# Operations of an accessor are trades

Each operation starts with what its caller gives it and ends with what its reply owns, and all
that happens between is a trade: wrappers move between the caller, the stack and the reply, and
what is in none of the three afterwards was released. This holds on every way out. A push that is
refused has built its item from what it was given, and releases the item; a removal that fails has
released what it removed; a look that finds another type gives back the reference that it took to
find that out.

The factory builds the items, so it has to be one that neither loses a wrapper nor makes one up.
Owners who take no part are carried along as `rest`; a push of an array copies references that it
finds there.
-/

namespace HostStack

open Heap (Trade)

/-- The items of a factory own what the factory was given to build them from. -/
structure ItemFactory.Conserves (factory : ItemFactory) : Prop where
  boolean : ∀ value built, ((factory.boolean value).run built).1.leaves = []
  integer : ∀ value built, ((factory.integer value).run built).1.leaves = []
  byteArray : ∀ bytes built, ((factory.byteArray bytes).run built).1.leaves = []
  interop : ∀ w built, ((factory.interop w).run built).1.leaves = [w]
  array : ∀ items built,
    ((factory.array items).run built).1.leaves.Perm (Item.leavesOfAll items)

theorem ItemFactory.standard_conserves : ItemFactory.standard.Conserves where
  boolean _ _ := rfl
  integer _ _ := rfl
  byteArray _ _ := rfl
  interop _ _ := rfl
  array _ _ := .refl _

/-- Noting the calls of a factory does not change what it builds. -/
theorem ItemFactory.Conserves.recording {inner : ItemFactory} (hinner : inner.Conserves) :
    (ItemFactory.recording inner).Conserves where
  boolean value built := hinner.boolean value (built ++ [FactoryMethod.boolean])
  integer value built := hinner.integer value (built ++ [FactoryMethod.integer])
  byteArray bytes built := hinner.byteArray bytes (built ++ [FactoryMethod.byteArray])
  interop w built := hinner.interop w (built ++ [FactoryMethod.interop])
  array items built := hinner.array items (built ++ [FactoryMethod.array])

/-! ### What the stack owns -/

theorem Stack.leaves_ofTop (items : List Item) (maxSize : Nat) :
    (↑(Stack.ofTop items maxSize).leaves : Multiset Interop) = ↑(Item.leavesOfAll items) := by
  rw [Multiset.coe_eq_coe, Stack.leaves, Stack.toList_ofTop, Item.leavesOfAll_eq_flatMap,
    Item.leavesOfAll_eq_flatMap]
  exact (List.reverse_perm items).flatMap_right _

theorem Stack.leaves_ofTop_cons (item : Item) (items : List Item) (maxSize : Nat) :
    (↑(Stack.ofTop (item :: items) maxSize).leaves : Multiset Interop) =
      ↑item.leaves + ↑(Stack.ofTop items maxSize).leaves := by
  rw [Stack.leaves_ofTop, Stack.leaves_ofTop, Item.leavesOfAll, Multiset.coe_add]

/-- What lies at some depth belongs to the stack. -/
theorem Stack.mem_leaves_of_item? {s : Stack} {depth : Nat} {item : Item}
    (h : s.item? depth = some item) {w : Interop} (hw : w ∈ item.leaves) : w ∈ s.leaves := by
  obtain ⟨items, maxSize, rfl⟩ := s.exists_ofTop
  rw [Stack.item?_ofTop] at h
  rw [← Multiset.mem_coe, Stack.leaves_ofTop, Multiset.mem_coe]
  exact Item.leaves_subset (List.mem_of_getElem? h) hw

theorem nothing_add (owners : Multiset Interop) :
    (↑([] : List Interop) : Multiset Interop) + owners = owners :=
  zero_add owners

/-! ### How operations end -/

/-- Whichever way a run ends, it ends in a state as wanted. -/
def Ends (result : EStateM.Result ε σ α) (returned : α → σ → Prop) (failed : σ → Prop) : Prop :=
  match result with
  | .ok a s => returned a s
  | .error _ s => failed s

/-- An operation trades what it is given, together with what the stack owns, for what it hands
out, together with what the stack owns then. A failure hands nothing out. -/
def Access.Trades (operation : Access α) (m : Machine) (given : List Interop)
    (out : α → List Interop) (rest : Multiset Interop) : Prop :=
  Ends (operation.run m)
    (fun a m' => Trade (given + (m.stack.leaves + rest)) m.heap
      (out a + (m'.stack.leaves + rest)) m'.heap)
    (fun m' => Trade (given + (m.stack.leaves + rest)) m.heap (m'.stack.leaves + rest) m'.heap)

theorem Heap.ask_trade {h : Heap} {owners : Multiset Interop} {w : Interop} (hw : w ∈ owners)
    (type : HostType) :
    Trade owners h ((w.reference? type).toList.map Interop.ofRef + owners) (h.ask w type) := by
  have hcopy : Trade owners h ([w] + owners) (h.retain [w.object]) :=
    .copy [w] fun v hv => by rwa [List.mem_singleton.1 hv]
  rw [Heap.ask, Interop.reference?, Interop.unwrap_eq]
  by_cases htype : w.value.type = type
  · rw [if_pos htype, if_pos htype]
    exact hcopy.trans (.rewrap w)
  · rw [if_neg htype, if_neg htype]
    exact hcopy.trans ((Trade.drop [w]).trans (.of_eq (nothing_add _).symm))

/-! ### Pushing -/

/-- What the caller of an operation gives away. -/
def Call.given : Call → List Interop
  | .pushInterop value => [.ofRef value]
  | _ => []

theorem ItemFactory.Conserves.interops {factory : ItemFactory} (hf : factory.Conserves)
    (type : HostType) (values : List ObjectId) (built : List FactoryMethod) :
    Item.leavesOfAll ((factory.interops type values).run built).1 =
      values.map fun o => Interop.ofRef ⟨o, type⟩ := by
  induction values generalizing built with
  | nil => rfl
  | cons o os ih =>
      have hitem := hf.interop (.ofRef ⟨o, type⟩) built
      have hitems := ih ((factory.interop (.ofRef ⟨o, type⟩)).run built).2
      have hcons : Item.leavesOfAll ((factory.interops type (o :: os)).run built).1 =
          ((factory.interop (.ofRef ⟨o, type⟩)).run built).1.leaves ++
            Item.leavesOfAll ((factory.interops type os).run
              ((factory.interop (.ofRef ⟨o, type⟩)).run built).2).1 := rfl
      rw [hcons, hitem, hitems]
      rfl

theorem Accessor.leaves_assemble {a : Accessor} (hf : a.factory.Conserves) {call : Call}
    {build : Build Item} (hbuild : a.assemble? call = some build) (built : List FactoryMethod) :
    (build.run built).1.leaves.Perm (call.copies ++ call.given) := by
  cases call with
  | push value =>
      injection hbuild with hbuild
      subst hbuild
      cases value with
      | boolean value => exact .of_eq (hf.boolean value built)
      | integer _ value _ => exact .of_eq (hf.integer value built)
      | bytes _ data => exact .of_eq (hf.byteArray data built)
  | pushInterop value =>
      injection hbuild with hbuild
      subst hbuild
      exact .of_eq (hf.interop (.ofRef value) built)
  | pushInteropArray type values =>
      injection hbuild with hbuild
      subst hbuild
      have hitems := hf.interops type values built
      have hgiven : (Call.pushInteropArray type values).given = [] := rfl
      rw [hgiven, List.append_nil, Call.copies, ← hitems]
      exact hf.array _ _
  | peek how => cases hbuild
  | pop how => cases hbuild

/-- A stack takes over what an item owns, or the item is released. -/
theorem Access.pushItem_trades (item : Item) (m : Machine) (rest : Multiset Interop) :
    (Access.pushItem item).Trades m item.leaves (fun _ => []) rest := by
  rw [Access.Trades, Access.pushItem_run]
  obtain ⟨items, maxSize, hstack⟩ := m.stack.exists_ofTop
  rw [hstack, Stack.push_ofTop]
  by_cases hroom : items.length < maxSize
  · rw [if_pos hroom]
    refine .of_eq ?_
    rw [Stack.leaves_ofTop_cons, Multiset.coe_nil, zero_add, add_assoc]
  · rw [if_neg hroom]
    refine (Trade.drop item.leaves).trans (.of_eq ?_)
    rw [Machine.refusedPush, Machine.released, hstack]

theorem Accessor.perform_push_trades {a : Accessor} (hf : a.factory.Conserves) {call : Call}
    {build : Build Item} (hbuild : a.assemble? call = some build) (m : Machine)
    {rest : Multiset Interop} (hcopies : ∀ w ∈ call.copies, w ∈ rest) :
    (a.perform call).Trades m call.given Reply.leaves rest := by
  rw [Access.Trades, Accessor.perform_push_run hbuild]
  have hleaves : (↑(build.run m.built).1.leaves : Multiset Interop) =
      ↑call.copies + ↑call.given := by
    rw [Multiset.coe_add, Multiset.coe_eq_coe]
    exact Accessor.leaves_assemble hf hbuild m.built
  -- How the item was built does not matter from here on, only what it owns.
  generalize (build.run m.built).1 = item at hleaves
  generalize (build.run m.built).2 = built
  have hready : Trade (call.given + (m.stack.leaves + rest)) m.heap
      (item.leaves + (m.stack.leaves + rest)) (m.prepared call item built).heap := by
    rw [hleaves, add_assoc]
    exact .copy call.copies fun w hw =>
      Multiset.mem_add.2 (.inr (Multiset.mem_add.2 (.inr (hcopies w hw))))
  have hpush := Access.pushItem_trades item (m.prepared call item built) rest
  have hstack : (m.prepared call item built).stack = m.stack := rfl
  rw [Access.Trades, Access.pushItem_run, hstack] at hpush
  dsimp only
  cases htop : m.stack.push item with
  | ok stack =>
      rw [htop] at hpush
      exact hready.trans hpush
  | error cause =>
      rw [htop] at hpush
      exact hready.trans hpush

/-! ### Looking -/

theorem Access.downcast_trades {w : Interop} (type : HostType) (m : Machine)
    {rest : Multiset Interop} (hw : w ∈ ↑m.stack.leaves + rest) :
    (Access.downcast w type).Trades m [] (fun value => (Reply.reference value).leaves) rest := by
  rw [Access.Trades, Access.downcast_run]
  have hask := (Trade.of_eq (nothing_add _)).trans (m.heap.ask_trade hw type)
  cases href : w.reference? type with
  | some value =>
      rw [href] at hask
      exact hask
  | none =>
      rw [href] at hask
      exact hask

/-- A wrapper that is asked for a reference is one of the stack, and the reply owns the reference
if there is one. -/
theorem Peek.asked?_some {how : Peek} {s : Stack} {w : Interop} {type : HostType}
    (h : how.asked? s = some (w, type)) :
    w ∈ s.leaves ∧ (how.reply s).leaves = (w.reference? type).toList.map Interop.ofRef := by
  have hspec : ∀ wanted depth, (Peek.reference wanted depth).asked? s = some (w, type) →
      w ∈ s.leaves ∧ ((Peek.reference wanted depth).reply s).leaves =
        (w.reference? type).toList.map Interop.ofRef := by
    intro wanted depth hasked
    rw [Peek.asked?] at hasked
    rw [Peek.reply]
    cases hitem : s.item? depth with
    | none =>
        rw [hitem] at hasked
        cases hasked
    | some item =>
        rw [hitem] at hasked
        cases item with
        | interop v =>
            cases hasked
            refine ⟨Stack.mem_leaves_of_item? hitem (List.mem_singleton_self w), ?_⟩
            rw [Option.bind_some, Item.interop?, Option.bind_some]
            cases w.reference? type with
            | some value => rfl
            | none => rfl
        | boolean _ | integer _ | byteArray _ | array _ => cases hasked
  cases how with
  | byteArray _ | byteArrayTop | integer _ | boolean _ => cases h
  | reference wanted depth => exact hspec wanted depth h
  | referenceTop wanted => exact hspec wanted 0 h

theorem Peek.asked?_none {how : Peek} {s : Stack} (h : how.asked? s = none) :
    (how.reply s).leaves = [] := by
  have hspec : ∀ wanted depth, (Peek.reference wanted depth).asked? s = none →
      ((Peek.reference wanted depth).reply s).leaves = [] := by
    intro wanted depth hasked
    rw [Peek.asked?, Option.map_eq_none_iff] at hasked
    rw [Peek.reply, hasked]
    rfl
  cases how with
  | byteArray _ | byteArrayTop | integer _ | boolean _ => rfl
  | reference wanted depth => exact hspec wanted depth h
  | referenceTop wanted => exact hspec wanted 0 h

theorem Peek.perform_trades (how : Peek) (m : Machine) (rest : Multiset Interop) :
    how.perform.Trades m [] Reply.leaves rest := by
  rw [Access.Trades, Peek.perform_run]
  refine (Trade.of_eq (nothing_add _)).trans ?_
  cases hasked : how.asked? m.stack with
  | none =>
      refine .of_eq ?_
      rw [Peek.asked?_none hasked, Multiset.coe_nil, zero_add]
  | some asked =>
      obtain ⟨hw, hreply⟩ := Peek.asked?_some hasked
      rw [hreply]
      exact Heap.ask_trade (Multiset.mem_add.2 (.inl hw)) asked.2

/-! ### Removing -/

theorem Item.reference?_trade (item : Item) (type : HostType) (owners : Multiset Interop)
    (h : Heap) :
    Trade (item.leaves + owners) h
      ((item.reference? type).toList.map Interop.ofRef + (item.leftover type + owners)) h := by
  rw [Item.leftover]
  cases href : item.reference? type with
  | none => exact .of_eq (nothing_add _).symm
  | some value =>
      cases Item.reference?_eq_some.1 href with
      | @reference w _ _ =>
          have hrewrap : Trade (w ::ₘ owners) h (.ofRef w.value ::ₘ owners) h := .rewrap w
          exact hrewrap.trans (.of_eq (congrArg (Multiset.cons _) (nothing_add owners).symm))

/-- Picking the references of a type out of some items leaves the rest to be released. -/
theorem Item.references_trade (type : HostType) (items : List Item)
    (owners : Multiset Interop) (h : Heap) :
    Trade (Item.leavesOfAll items + owners) h
      ((items.filterMap (·.reference? type)).map Interop.ofRef +
        (items.flatMap (Item.leftover type) + owners)) h := by
  induction items generalizing owners with
  | nil => exact .of_eq (nothing_add _).symm
  | cons item rest ih =>
      have hitem := item.reference?_trade type (Item.leavesOfAll rest + owners) h
      have hrest := (ih owners).frame
        ((item.reference? type).toList.map Interop.ofRef + item.leftover type)
      have hpicked : (item :: rest).filterMap (·.reference? type) =
          (item.reference? type).toList ++ rest.filterMap (·.reference? type) := by
        rw [List.filterMap_cons]
        cases item.reference? type with
        | some value => rfl
        | none => rfl
      rw [Item.leavesOfAll, ← Multiset.coe_add, add_assoc]
      refine hitem.trans ((Trade.of_eq ?_).trans (hrest.trans (.of_eq ?_)))
      · abel
      · rw [hpicked, List.map_append, List.flatMap_cons, ← Multiset.coe_add, ← Multiset.coe_add]
        abel

/-- What the result of an operation owns. A failure owns nothing. -/
def Pop.out : Except AccessError Reply → List Interop
  | .ok reply => reply.leaves
  | .error _ => []

/-- What is made of an item owns what the item did. -/
theorem Target.taken_trade {target : Target} {item : Item} {taken : Extracted}
    (htaken : target.accept? item = some taken) (owners : Multiset Interop) (h : Heap) :
    Trade (item.leaves + owners) h (taken.leaves + owners) h := by
  cases Target.accept?_eq_some.1 htaken with
  | @reference w _ _ => exact .rewrap w
  | item _ | wrapper _ => exact .refl

/-- A removal divides what the item owns between its reply and what is to be released. -/
theorem Pop.divide_trade (how : Pop) (item : Item) (owners : Multiset Interop) (h : Heap) :
    Trade (item.leaves + owners) h
      (Pop.out (how.reply item) + (how.leftover item + owners)) h := by
  cases how with
  | integer | byteArray | boolean => exact .of_eq (nothing_add _).symm
  | value target =>
      rw [Pop.reply, Pop.leftover]
      cases htaken : target.accept? item with
      | some taken =>
          refine (Target.taken_trade htaken owners h).trans (.of_eq (congrArg _ ?_))
          exact (nothing_add owners).symm
      | none => exact .of_eq (nothing_add _).symm
  | array type =>
      cases item with
      | array children => exact Item.references_trade type children owners h
      | boolean _ | integer _ | byteArray _ | interop _ => exact .of_eq (nothing_add _).symm

theorem Pop.perform_trades (how : Pop) (m : Machine) (rest : Multiset Interop) :
    how.perform.Trades m [] Reply.leaves rest := by
  obtain ⟨heap, stack, events, built⟩ := m
  obtain ⟨items, maxSize, rfl⟩ := stack.exists_ofTop
  rw [Access.Trades, Pop.perform_run]
  dsimp only
  rw [nothing_add]
  cases items with
  | nil => exact .refl
  | cons item items =>
      rw [Stack.pop_ofTop_cons, Stack.leaves_ofTop_cons, add_assoc]
      have hdivide := how.divide_trade item ((Stack.ofTop items maxSize).leaves + rest) heap
      have htrade := hdivide.trans ((Trade.of_eq (add_left_comm _ _ _)).trans
        (.drop (how.leftover item)))
      dsimp only
      cases hreply : how.reply item with
      | ok reply =>
          rw [hreply] at htrade
          exact htrade
      | error e =>
          rw [hreply] at htrade
          exact htrade.trans (.of_eq (nothing_add _))

theorem Access.takeItem_trades (m : Machine) (rest : Multiset Interop) :
    Access.takeItem.Trades m [] Item.leaves rest := by
  obtain ⟨heap, stack, events, built⟩ := m
  obtain ⟨items, maxSize, rfl⟩ := stack.exists_ofTop
  rw [Access.Trades, Access.takeItem_run]
  dsimp only
  rw [nothing_add]
  cases items with
  | nil => exact .refl
  | cons item items =>
      rw [Stack.pop_ofTop_cons]
      refine .of_eq ?_
      rw [Stack.leaves_ofTop_cons, add_assoc]

theorem Access.clear_trades (m : Machine) (rest : Multiset Interop) :
    Access.clear.Trades m [] (fun _ => []) rest := by
  have hrun : Access.clear.run m =
      .ok () { m with stack := m.stack.clear, heap := m.heap.release m.stack.objects } := rfl
  rw [Access.Trades, hrun, ← m.stack.map_object_leaves]
  refine (Trade.of_eq (nothing_add _)).trans ((Trade.drop m.stack.leaves).trans (.of_eq ?_))
  exact (nothing_add _).symm.trans (nothing_add _).symm

/-! ### Any call -/

theorem Accessor.perform_trades {a : Accessor} (hf : a.factory.Conserves) (call : Call)
    (m : Machine) {rest : Multiset Interop} (hcopies : ∀ w ∈ call.copies, w ∈ rest) :
    (a.perform call).Trades m call.given Reply.leaves rest := by
  cases call with
  | push value => exact Accessor.perform_push_trades hf rfl m hcopies
  | pushInterop value => exact Accessor.perform_push_trades hf rfl m hcopies
  | pushInteropArray type values => exact Accessor.perform_push_trades hf rfl m hcopies
  | peek how => exact how.perform_trades m rest
  | pop how => exact how.perform_trades m rest

end HostStack
