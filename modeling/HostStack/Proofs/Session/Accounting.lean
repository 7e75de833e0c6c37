import HostStack.Proofs.Ownership.Uses
import HostStack.Proofs.Session.Runs
import Mathlib

/-!
# The counts of host objects

The count of a host object is the number of references to it, wherever they are: in handles, in
items on the stack, in copies of the stack, in registers, and in host objects that are alive.
-/

namespace HostStack

theorem Session.count_owned (s : Session) (o : ObjectId) :
    s.owned.count o =
      s.handles.values.countP (fun value => value.object = o) + s.stack.uses o +
        (s.registers.values.map (Register.uses o)).sum + (s.saves.values.map (Stack.uses o)).sum := by
  have hregisters : List.count o ∘ Register.objects = Register.uses o :=
    funext fun register => (register.uses_eq o).symm
  have hsaves : List.count o ∘ Stack.objects = Stack.uses o :=
    funext fun save => (save.uses_eq o).symm
  rw [Session.owned, List.count_append, List.count_append, List.count_append,
    Ref.count_object, List.count_flatMap, List.count_flatMap, Stack.uses_eq, hregisters, hsaves]

/-- In every state that a host can be in, the count of an object is the number of references to it:
those of handles, those in items on the stack, in registers and in copies of the stack, and those
that live objects were made with. -/
theorem Session.Arises.strong_eq_uses {s : Session} (h : s.Arises) (o : ObjectId) :
    s.heap.strong o =
      s.handles.values.countP (fun value => value.object = o) + s.stack.uses o +
        (s.registers.values.map (Register.uses o)).sum +
        (s.saves.values.map (Stack.uses o)).sum +
        (s.heap.live.map fun p => s.heap.usesIn p o).sum := by
  rw [h.balanced.counts o, Multiset.coe_count, s.count_owned, h.balanced.held_eq]

/-- An object that a handle has, that lies on the stack twice, and that another object wraps. -/
def Session.shared : Session :=
  ((Session.start .standard .zero default .stack).run
    [.create "a" (.host "T") .unit, .stackPush (.array [.object "a", .object "a"]),
      .create "b" .wrapper (.wrapper "a")]).2

theorem Session.shared_arises : shared.Arises :=
  (Arises.start ItemFactory.standard_conserves .zero default .stack).run _

theorem Session.strong_eq_uses_shared :
    shared.Arises ∧ shared.heap.strong ⟨0⟩ = 4 ∧
      shared.heap.strong ⟨0⟩ =
        shared.handles.values.countP (fun value => value.object = ⟨0⟩) + shared.stack.uses ⟨0⟩ +
          (shared.registers.values.map (Register.uses ⟨0⟩)).sum +
          (shared.saves.values.map (Stack.uses ⟨0⟩)).sum +
          (shared.heap.live.map fun p => shared.heap.usesIn p ⟨0⟩).sum :=
  ⟨shared_arises, by cbv, shared_arises.strong_eq_uses ⟨0⟩⟩

end HostStack
