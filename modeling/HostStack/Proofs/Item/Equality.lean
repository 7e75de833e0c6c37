import HostStack.Item.Equality
import HostStack.Proofs.Ownership.Typed

/-!
# When items are equal

Equality of items is computed from the outside in, and says nothing of what it comes to. Here it is
a relation with a rule for each kind: scalars are equal to themselves alone, wrappers are equal if
they share their object, and arrays if they have as many elements and these are equal one by one.
The relation is an equivalence, by induction on its rules, and the computation decides it.

The one rule that does not ask for all that a wrapper has is the one for wrappers: neither the type
that a wrapper compares with nor the name that it shows has to be the same. Where the wrappers are
typed they are nevertheless, since both are settled by the object. So items that are equal cannot be
told apart by anything in them.
-/

namespace HostStack

namespace Item

/-- Items of one kind with equal payloads. -/
inductive Same : Item → Item → Prop
  | boolean (value : Bool) : Same (.boolean value) (.boolean value)
  | integer (value : Int) : Same (.integer value) (.integer value)
  | byteArray (bytes : List UInt8) : Same (.byteArray bytes) (.byteArray bytes)
  /-- Host objects are compared by identity. -/
  | interop {v w : Interop} (hobject : v.object = w.object) : Same (.interop v) (.interop w)
  | array {as bs : List Item} (hlength : as.length = bs.length)
      (helements : ∀ (i : Nat) a b, as[i]? = some a → bs[i]? = some b → Same a b) :
      Same (.array as) (.array bs)

theorem same_refl (item : Item) : item.Same item := by
  cases item with
  | boolean value => exact .boolean value
  | integer value => exact .integer value
  | byteArray bytes => exact .byteArray bytes
  | interop w => exact .interop rfl
  | array items =>
      refine .array rfl ?_
      intro i a b ha hb
      cases ha.symm.trans hb
      have hmem := List.mem_of_getElem? ha
      exact same_refl a
termination_by sizeOf item
decreasing_by
  have hlt := List.sizeOf_lt_of_mem hmem
  simp only [Item.array.sizeOf_spec]
  omega

variable {a b c : Item}

theorem Same.symm (h : a.Same b) : b.Same a := by
  induction h with
  | boolean value => exact .boolean value
  | integer value => exact .integer value
  | byteArray bytes => exact .byteArray bytes
  | interop hobject => exact .interop hobject.symm
  | array hlength _ ih => exact .array hlength.symm fun i b a hb ha => ih i a b ha hb

theorem Same.trans (h : a.Same b) (h' : b.Same c) : a.Same c := by
  induction h generalizing c with
  | boolean _ | integer _ | byteArray _ => exact h'
  | interop hobject =>
      cases h' with
      | interop hobject' => exact .interop (hobject.trans hobject')
  | @array as bs hlength _ ih =>
      cases h' with
      | @array _ cs hlength' helements' =>
          refine .array (hlength.trans hlength') ?_
          intro i a c ha hc
          -- There is an element in the middle as well, since the lengths agree.
          have hi : i < bs.length := hlength ▸ (List.getElem?_eq_some_iff.1 ha).1
          have hb : bs[i]? = some bs[i] := List.getElem?_eq_getElem hi
          exact ih i a bs[i] ha hb (helements' i bs[i] c hb hc)

theorem Same.kind_eq (h : a.Same b) : a.kind = b.kind := by
  cases h <;> rfl

/-! ### The computation decides it -/

mutual

theorem equal_iff (a b : Item) : a.equal b = true ↔ a.Same b := by
  match a with
  | .boolean x =>
      cases b with
      | boolean y =>
          rw [equal, beq_iff_eq]
          exact ⟨fun h => h ▸ .boolean x, fun h => by cases h; rfl⟩
      | integer _ | byteArray _ | interop _ | array _ =>
          exact ⟨fun h => by simp [equal] at h, fun h => by cases h⟩
  | .integer x =>
      cases b with
      | integer y =>
          rw [equal, beq_iff_eq]
          exact ⟨fun h => h ▸ .integer x, fun h => by cases h; rfl⟩
      | boolean _ | byteArray _ | interop _ | array _ =>
          exact ⟨fun h => by simp [equal] at h, fun h => by cases h⟩
  | .byteArray x =>
      cases b with
      | byteArray y =>
          rw [equal, beq_iff_eq]
          exact ⟨fun h => h ▸ .byteArray x, fun h => by cases h; rfl⟩
      | boolean _ | integer _ | interop _ | array _ =>
          exact ⟨fun h => by simp [equal] at h, fun h => by cases h⟩
  | .interop v =>
      cases b with
      | interop w =>
          rw [equal]
          show decide (v.object = w.object) = true ↔ _
          rw [decide_eq_true_iff]
          exact ⟨fun h => .interop h, fun h => by cases h; assumption⟩
      | boolean _ | integer _ | byteArray _ | array _ =>
          exact ⟨fun h => by simp [equal] at h, fun h => by cases h⟩
  | .array as =>
      cases b with
      | array bs =>
          rw [equal, equalAll_iff as bs]
          exact ⟨fun h => .array h.1 h.2, fun h => by cases h; exact ⟨‹_›, ‹_›⟩⟩
      | boolean _ | integer _ | byteArray _ | interop _ =>
          exact ⟨fun h => by simp [equal] at h, fun h => by cases h⟩

theorem equalAll_iff (as bs : List Item) :
    equalAll as bs = true ↔
      as.length = bs.length ∧ ∀ (i : Nat) a b, as[i]? = some a → bs[i]? = some b → a.Same b := by
  match as, bs with
  | [], [] => simp [equalAll]
  | [], b :: bs => simp [equalAll]
  | a :: as, [] => simp [equalAll]
  | a :: as, b :: bs =>
      rw [equalAll, Bool.and_eq_true, equal_iff a b, equalAll_iff as bs, List.length_cons,
        List.length_cons, Nat.add_right_cancel_iff]
      constructor
      · rintro ⟨hfirst, hlength, hrest⟩
        refine ⟨hlength, ?_⟩
        intro i x y hx hy
        cases i with
        | zero =>
            cases hx
            cases hy
            exact hfirst
        | succ i => exact hrest i x y hx hy
      · rintro ⟨hlength, hall⟩
        exact ⟨hall 0 a b rfl rfl, hlength, fun i x y hx hy => hall (i + 1) x y hx hy⟩

end

theorem beq_iff_same (a b : Item) : (a == b) = true ↔ a.Same b :=
  equal_iff a b

end Item

/-- Stacks have the same items if they have as many and these are equal one by one. -/
theorem Stack.sameItems_iff (s t : Stack) :
    s.sameItems t = true ↔ (Item.array s.toList).Same (.array t.toList) := by
  rw [Stack.sameItems, Item.equalAll_iff]
  exact ⟨fun h => .array h.1 h.2, fun h => by cases h; exact ⟨‹_›, ‹_›⟩⟩

/-! ### Where the object settles the type -/

/-- Typed wrappers of one object are the same. -/
theorem Heap.Types.eq {h : Heap} {v w : Interop} (hv : h.Types v) (hw : h.Types w)
    (hobject : v.object = w.object) : v = w := by
  obtain ⟨⟨o, type⟩, name⟩ := v
  obtain ⟨⟨o', type'⟩, name'⟩ := w
  obtain rfl : o = o' := hobject
  obtain rfl : type = type' := Option.some.inj (hv.type.symm.trans hw.type)
  obtain rfl : name = name' := hv.name.trans hw.name.symm
  rfl

theorem Item.Same.eq {h : Heap} {a b : Item} (hsame : a.Same b) (ha : ∀ w ∈ a.leaves, h.Types w)
    (hb : ∀ w ∈ b.leaves, h.Types w) : a = b := by
  induction hsame with
  | boolean _ | integer _ | byteArray _ => rfl
  | @interop v w hobject =>
      have hv := ha v (List.mem_singleton_self v)
      have hw := hb w (List.mem_singleton_self w)
      rw [hv.eq hw hobject]
  | @array as bs hlength _ ih =>
      rw [Item.leaves] at ha hb
      refine congrArg Item.array (List.ext_getElem hlength ?_)
      intro i hi hi'
      refine ih i _ _ (List.getElem?_eq_getElem hi) (List.getElem?_eq_getElem hi') ?_ ?_
      · exact fun w hw => ha w (Item.leaves_subset (List.getElem_mem hi) hw)
      · exact fun w hw => hb w (Item.leaves_subset (List.getElem_mem hi') hw)

end HostStack
