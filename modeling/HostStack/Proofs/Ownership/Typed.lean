import HostStack.Proofs.Ownership.Trade

/-!
# Wrappers and the types of their objects

A wrapper carries two tags, the type that it compares with and the name that it shows, and neither
is taken from the object when the wrapper is used. The object has a type of its own, from when it
was made. A heap is typed for some owners when both tags agree with it, in every wrapper that is
owned and in every wrapper that an object was made with.

No trade changes a wrapper that exists, and no heap operation changes the type of an object. So all
there is to show is that the wrappers a trade adds are typed: a copy has the tags of its original, a
wrapper that is made anew takes its name from the type of the reference, and a new object is wrapped
at the type it is made at.
-/

namespace HostStack

namespace Heap

/-- The type that an object was made at. -/
def type? (h : Heap) (o : ObjectId) : Option HostType :=
  (h.cell? o).map Cell.type

/-- Both tags of a wrapper are those of its object. -/
structure Types (h : Heap) (w : Interop) : Prop where
  type : h.type? w.object = some w.value.type
  name : w.typeName = w.value.type.name

structure Typed (h : Heap) (owners : Multiset Interop) : Prop where
  owned : ∀ w ∈ owners, h.Types w
  inside : ∀ o cell, h.cell? o = some cell → ∀ w ∈ cell.payload.leaves, h.Types w

variable {h h' : Heap} {owners owners' : Multiset Interop}

theorem typed_empty : Heap.empty.Typed 0 where
  owned w hw := absurd hw (Multiset.notMem_zero w)
  inside o cell hcell := by simp [cell?, Heap.empty] at hcell

theorem Extends.type?_eq (hx : h.Extends h') {o : ObjectId} {type : HostType}
    (htype : h.type? o = some type) : h'.type? o = some type := by
  rw [Heap.type?, Option.map_eq_some_iff] at htype
  obtain ⟨cell, hcell, rfl⟩ := htype
  obtain ⟨n, hn⟩ := hx.cell o cell hcell
  rw [Heap.type?, hn]
  rfl

theorem Types.mono {w : Interop} (hw : h.Types w) (hx : h.Extends h') : h'.Types w :=
  ⟨hx.type?_eq hw.type, hw.name⟩

/-- An object that was there before has the payload that it had. -/
theorem Extends.payload (hx : h.Extends h') {o : ObjectId} (hmade : h.Made o) {cell : Cell}
    (hcell : h'.cell? o = some cell) :
    ∃ old, h.cell? o = some old ∧ old.payload = cell.payload := by
  obtain ⟨old, hold⟩ := made_iff.1 hmade
  obtain ⟨n, hn⟩ := hx.cell o old hold
  rw [hcell] at hn
  cases hn
  exact ⟨old, hold, rfl⟩

/-- With no new object, whatever is owned afterwards only has to be typed before. -/
theorem Typed.of_extends (ht : h.Typed owners) (hx : h.Extends h')
    (hsize : h'.cells.size = h.cells.size) (howned : ∀ w ∈ owners', h.Types w) :
    h'.Typed owners' where
  owned w hw := (howned w hw).mono hx
  inside o cell hcell w hw := by
    have hmade : h.Made o := by
      have hmade := made_iff.2 ⟨cell, hcell⟩
      rwa [Made, hsize] at hmade
    obtain ⟨old, hold, hpayload⟩ := hx.payload hmade hcell
    rw [← hpayload] at hw
    exact (ht.inside o old hold w hw).mono hx

theorem type?_alloc (h : Heap) (type : HostType) (payload : Payload) :
    (h.alloc type payload).2.type? h.next = some type := by
  rw [type?, cell?_alloc, if_pos rfl]
  rfl

/-- The induction is on the trade. Only `make` has an object that was not there before. -/
theorem Trade.typed (ht : Trade owners h owners' h') (hwt : h.Typed owners) :
    h'.Typed owners' := by
  induction ht with
  | refl => exact hwt
  | trans _ _ ih ih' => exact ih' (ih hwt)
  | @rewrap owners h w =>
      refine ⟨?_, hwt.inside⟩
      intro v hv
      rcases Multiset.mem_cons.1 hv with rfl | hv
      · exact ⟨(hwt.owned w (Multiset.mem_cons_self w owners)).type, rfl⟩
      · exact hwt.owned v (Multiset.mem_cons_of_mem hv)
  | copy ws hws =>
      refine hwt.of_extends (extends_retain _ _) (size_retain _ _) ?_
      intro w hw
      rcases Multiset.mem_add.1 hw with hw | hw
      · exact hwt.owned w (hws w (Multiset.mem_coe.1 hw))
      · exact hwt.owned w hw
  | drop ws =>
      refine hwt.of_extends (extends_release _ _) (size_release _ _) ?_
      intro w hw
      exact hwt.owned w (Multiset.mem_add.2 (.inr hw))
  | @make owners h type payload =>
      have hx := extends_alloc h type payload
      constructor
      · intro w hw
        rcases Multiset.mem_cons.1 hw with rfl | hw
        · exact ⟨type?_alloc h type payload, rfl⟩
        · exact (hwt.owned w (Multiset.mem_add.2 (.inr hw))).mono hx
      · intro o cell hcell w hw
        rw [cell?_alloc] at hcell
        by_cases ho : o = h.next
        · rw [if_pos ho] at hcell
          cases hcell
          exact (hwt.owned w (Multiset.mem_add.2 (.inl (Multiset.mem_coe.2 hw)))).mono hx
        · rw [if_neg ho] at hcell
          exact (hwt.inside o cell hcell w hw).mono hx

end Heap

end HostStack
