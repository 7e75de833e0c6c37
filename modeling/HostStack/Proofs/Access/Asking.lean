import HostStack.Proofs.Access.Clone
import HostStack.Proofs.Ownership.Typed

/-!
# Asking for a type

There are three ways to find out if a wrapper is of a type: to test it, to look at it, and to take
it apart. They compare the same tag, so they agree. A wrapper that was taken apart in vain is put
together of the same two parts again. To look at it takes a reference to the object before the tag
is looked at, which is given up if the tag is another one, and this leaves no trace as long as the
wrapper itself keeps the object alive.

An item that is asked for a type is taken apart no further than that. If it fits, what comes out of
it has all the references that were in it.
-/

namespace HostStack

/-! ### Wrappers -/

/-- A wrapper that was asked for references in vain, any number of times. -/
inductive Interop.Tried (w : Interop) : Interop → Prop
  | refl : Tried w w
  | again {v back type} : Tried w v → v.unwrap type = .error back → Tried w back

theorem Interop.eq_of_unwrap_error {w back : Interop} {type : HostType}
    (h : w.unwrap type = .error back) : back = w := by
  rw [unwrap_eq] at h
  split at h <;> cases h
  rfl

theorem Interop.eq_of_unwrap_ok {w : Interop} {type : HostType} {value : Ref}
    (h : w.unwrap type = .ok value) : value = ⟨w.object, type⟩ := by
  rw [unwrap_eq] at h
  split at h <;> cases h
  next htype => rw [← htype, object]

theorem Interop.Tried.eq {w back : Interop} (h : w.Tried back) : back = w := by
  induction h with
  | refl => rfl
  | again _ hback ih => exact (eq_of_unwrap_error hback).trans ih

theorem Interop.is_iff {w : Interop} {type : HostType} : w.is type = true ↔ w.value.type = type :=
  decide_eq_true_iff

theorem Interop.is_iff_unwrap {w : Interop} {type : HostType} :
    w.is type = true ↔ ∃ value, w.unwrap type = .ok value := by
  rw [is_iff, unwrap_eq]
  by_cases htype : w.value.type = type
  · simp [htype]
  · simp [htype]

theorem Interop.unwrap_of_is {w : Interop} {type : HostType} (his : w.is type = true) :
    w.unwrap type = .ok ⟨w.object, type⟩ := by
  obtain ⟨value, hvalue⟩ := is_iff_unwrap.1 his
  rw [hvalue, eq_of_unwrap_ok hvalue]

theorem Interop.unwrap_of_is_not {w : Interop} {type : HostType} (his : w.is type = false) :
    w.unwrap type = .error w := by
  cases hunwrap : w.unwrap type with
  | ok value =>
      rw [is_iff_unwrap.2 ⟨value, hunwrap⟩] at his
      cases his
  | error back => rw [eq_of_unwrap_error hunwrap]

theorem Interop.reference?_eq (w : Interop) (type : HostType) :
    w.reference? type = if w.is type then some ⟨w.object, type⟩ else none := by
  rw [reference?, unwrap_eq]
  by_cases htype : w.value.type = type
  · rw [if_pos htype, if_pos (is_iff.2 htype), ← htype]
    rfl
  · rw [if_neg htype, if_neg (mt is_iff.1 htype)]
    rfl

theorem Interop.reference?_of_is {w : Interop} {type : HostType} (his : w.is type = true) :
    w.reference? type = some ⟨w.object, type⟩ := by
  rw [reference?_eq, his]
  rfl

theorem Interop.reference?_of_is_not {w : Interop} {type : HostType} (his : w.is type = false) :
    w.reference? type = none := by
  rw [reference?_eq, his]
  rfl

theorem Heap.ask_of_is {h : Heap} {w : Interop} {type : HostType} (his : w.is type = true) :
    h.ask w type = h.retain [w.object] :=
  if_pos (Interop.is_iff.1 his)

/-- The reference that was taken too early is given up, and nothing is freed by that. -/
theorem Heap.ask_of_is_not {h : Heap} {w : Interop} {type : HostType} (his : w.is type = false)
    (hlive : h.strong w.object ≠ 0) : h.ask w type = h := by
  have htype : w.value.type ≠ type := fun htype => by
    rw [Interop.is_iff.2 htype] at his
    cases his
  rw [ask, if_neg htype]
  refine release_retain (.refl _) fun o ho => ?_
  rw [List.mem_singleton.1 ho]
  exact hlive

theorem Heap.strong_retain_one {h : Heap} {o : ObjectId} (hlive : h.strong o ≠ 0) (x : ObjectId) :
    (h.retain [o]).strong x = h.strong x + if x = o then 1 else 0 := by
  have halive : ∀ y ∈ [o], h.strong y ≠ 0 := fun y hy => by
    rw [List.mem_singleton.1 hy]
    exact hlive
  rw [strong_retain halive]
  by_cases hx : x = o
  · rw [hx, if_pos rfl, List.count_singleton_self]
  · rw [if_neg hx, List.count_eq_zero_of_not_mem (mt List.mem_singleton.1 hx)]

namespace Target

variable {target : Target} {x : Item}

theorem accept_ok_iff {taken : Extracted} :
    target.accept x = .ok taken ↔ target.Takes x taken := by
  rw [← accept?_eq_some, accept_eq]
  cases target.accept? x with
  | some value => simp
  | none => simp

theorem eq_of_accept_error {back : Item} (h : target.accept x = .error back) : back = x := by
  rw [accept_eq] at h
  split at h <;> cases h
  rfl

theorem accept_of_not_takes (h : ∀ taken, ¬ target.Takes x taken) : target.accept x = .error x := by
  rw [accept_eq, Option.eq_none_iff_forall_ne_some.2 fun taken htaken =>
    h taken (accept?_eq_some.1 htaken)]

/-- All references of an item are in what it turns into. -/
theorem Takes.objects_eq {taken : Extracted} (h : target.Takes x taken) :
    taken.objects = x.objects := by
  cases h with
  | reference _ | item _ | wrapper _ => rfl

theorem Takes.leaves_eq {taken : Extracted} {h : Heap} (htakes : target.Takes x taken)
    (htypes : ∀ w ∈ x.leaves, h.Types w) : taken.leaves = x.leaves := by
  cases htakes with
  | item _ | wrapper _ => rfl
  | @reference w _ _ =>
      obtain ⟨value, typeName⟩ := w
      obtain rfl : typeName = value.type.name := (htypes _ (List.mem_singleton_self _)).name
      rfl

end Target

end HostStack
