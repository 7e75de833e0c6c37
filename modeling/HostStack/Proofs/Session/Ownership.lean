import HostStack.Proofs.Access.Trade
import HostStack.Session.Perform

/-!
# What a session owns

A session owns the leaves of its handles, its stack, its registers and its saves, and every
operation of a host is a trade with them. An operation may be given references that its caller has
in hand, and may leave some in the caller's hand when it returns; a failure leaves nothing in
anybody's hand. Operations that only read are the ones that may fail while nothing is in hand, and
all of them come first in a step. That is why nothing leaks where a step breaks off.
-/

namespace HostStack

open Heap (Trade)

/-- The leaves of all things that go by name. -/
def Named.leaves {α : Type} (owns : α → List Interop) (things : Named α) : Multiset Interop :=
  things.values.flatMap owns

theorem Named.leaves_put {α : Type} (owns : α → List Interop) (name : String) (a : α)
    (things : Named α) :
    (things.put name a).leaves owns = owns a + (things.erase name).leaves owns := by
  rw [Named.leaves, Named.values_put, List.flatMap_cons, ← Multiset.coe_add]
  rfl

theorem Named.leaves_eq {α : Type} (owns : α → List Interop) (things : Named α)
    (name : String) :
    things.leaves owns =
      (things.get? name).toList.flatMap owns + (things.erase name).leaves owns := by
  rw [Named.leaves, Named.leaves, Multiset.coe_add, Multiset.coe_eq_coe, ← List.flatMap_append]
  exact (things.values_perm name).flatMap_right owns

theorem Named.leaves_of_get? {α : Type} (owns : α → List Interop) {things : Named α}
    {name : String} {a : α} (h : things.get? name = some a) :
    things.leaves owns = owns a + (things.erase name).leaves owns := by
  rw [things.leaves_eq owns name, h, Option.toList_some, List.flatMap_singleton]

/-- Whoever puts something under a name gives it away, and gets what was there before. -/
theorem Named.leaves_exchange {α : Type} (owns : α → List Interop) (name : String) (a : α)
    (things : Named α) :
    owns a + things.leaves owns =
      (things.get? name).toList.flatMap owns + (things.put name a).leaves owns := by
  rw [Named.leaves_put, things.leaves_eq owns name, add_left_comm]

/-- A reference owns the wrapper that would be made of it. -/
def Ref.leaves (value : Ref) : List Interop :=
  [.ofRef value]

namespace Session

/-- What a session owns besides its stack. -/
def kept (s : Session) : Multiset Interop :=
  s.handles.leaves Ref.leaves + s.registers.leaves Register.leaves + s.saves.leaves Stack.leaves

def leaves (s : Session) : Multiset Interop :=
  s.stack.leaves + s.kept

theorem map_object_leaves (s : Session) : s.leaves.map Interop.object = ↑s.owned := by
  have hhandles : s.handles.values.flatMap Ref.leaves = s.handles.values.map Interop.ofRef := by
    induction s.handles.values with
    | nil => rfl
    | cons value rest ih => rw [List.flatMap_cons, ih]; rfl
  simp only [leaves, kept, Named.leaves, owned, hhandles, ← Multiset.coe_add, Multiset.map_add,
    Multiset.map_coe, List.map_flatMap, List.map_map, Stack.map_object_leaves,
    Register.map_object_leaves]
  rw [show Interop.object ∘ Interop.ofRef = Ref.object from rfl]
  abel

theorem leaves_handles (s : Session) : s.leaves =
    (s.stack.leaves + s.registers.leaves Register.leaves + s.saves.leaves Stack.leaves) +
      s.handles.leaves Ref.leaves := by
  rw [leaves, kept]
  abel

theorem leaves_registers (s : Session) : s.leaves =
    (s.stack.leaves + s.handles.leaves Ref.leaves + s.saves.leaves Stack.leaves) +
      s.registers.leaves Register.leaves := by
  rw [leaves, kept]
  abel

theorem leaves_saves (s : Session) : s.leaves =
    (s.stack.leaves + s.handles.leaves Ref.leaves + s.registers.leaves Register.leaves) +
      s.saves.leaves Stack.leaves := by
  rw [leaves, kept]
  abel

/-- What is exchanged for some of the leaves is exchanged with the whole session, if the rest stays
as it is. -/
theorem leaves_exchange {s s' : Session} {rest mine mine' : Multiset Interop}
    {given out : List Interop} (hs : s.leaves = rest + mine) (hs' : s'.leaves = rest + mine')
    (h : given + mine = out + mine') : given + s.leaves = out + s'.leaves := by
  rw [hs, hs', add_left_comm, h, add_left_comm]

/-- A session changes by a trade, from what is in hand at first to what is in hand at last. -/
def Trades (s s' : Session) (given out : List Interop) : Prop :=
  Trade (given + s.leaves) s.heap (out + s'.leaves) s'.heap ∧ s'.factory = s.factory

theorem Trades.trans {s s' s'' : Session} {given mid out : List Interop}
    (h : s.Trades s' given mid) (h' : s'.Trades s'' mid out) : s.Trades s'' given out :=
  ⟨h.1.trans h'.1, h'.2.trans h.2⟩

theorem Trades.refl (s : Session) (given : List Interop) : s.Trades s given given :=
  ⟨.refl, rfl⟩

/-- Nothing but the owner of some references changes. -/
theorem trades_of_leaves {s s' : Session} {given out : List Interop}
    (hleaves : given + s.leaves = out + s'.leaves) (hheap : s'.heap = s.heap)
    (hfactory : s'.factory = s.factory) : s.Trades s' given out := by
  refine ⟨?_, hfactory⟩
  rw [hheap]
  exact .of_eq hleaves

end Session

namespace Run

variable {α β : Type}

def Trades (operation : Run α) (s : Session) (given : List Interop) (out : α → List Interop) :
    Prop :=
  Ends (operation.run s) (fun a s' => s.Trades s' given (out a)) (fun s' => s.Trades s' given [])

/-- An operation that leaves the session as it is, whether it returns or fails. -/
def Reads (operation : Run α) (s : Session) : Prop :=
  Ends (operation.run s) (fun _ s' => s' = s) (fun s' => s' = s)

theorem Trades.bind {operation : Run α} {next : α → Run β} {s : Session}
    {given : List Interop} {mid : α → List Interop} {out : β → List Interop}
    (h : operation.Trades s given mid)
    (hnext : ∀ a s', operation.run s = .ok a s' → (next a).Trades s' (mid a) out) :
    (operation >>= next).Trades s given out := by
  rw [Trades, EStateM.run_bind]
  rw [Trades] at h
  cases hrun : operation.run s with
  | error e s' =>
      rw [hrun] at h
      exact h
  | ok a s' =>
      rw [hrun] at h
      have hthen := hnext a s' hrun
      rw [Trades] at hthen
      dsimp only
      cases hrun' : (next a).run s' with
      | ok b s'' =>
          rw [hrun'] at hthen
          exact h.trans hthen
      | error e s'' =>
          rw [hrun'] at hthen
          exact h.trans hthen

theorem Reads.trades {operation : Run α} {s : Session} (h : operation.Reads s) :
    operation.Trades s [] (fun _ => []) := by
  rw [Trades]
  rw [Reads] at h
  cases hrun : operation.run s with
  | ok a s' =>
      rw [hrun] at h
      exact h ▸ .refl s []
  | error e s' =>
      rw [hrun] at h
      exact h ▸ .refl s []

theorem Reads.bind {operation : Run α} {next : α → Run β} {s : Session}
    {out : β → List Interop} (h : operation.Reads s)
    (hnext : ∀ a, operation.run s = .ok a s → (next a).Trades s [] out) :
    (operation >>= next).Trades s [] out := by
  refine h.trades.bind ?_
  intro a s' hrun
  rw [Reads, hrun] at h
  cases h
  exact hnext a hrun

theorem Reads.then {operation : Run α} {next : α → Run β} {s : Session}
    (h : operation.Reads s) (hnext : ∀ a, (next a).Reads s) : (operation >>= next).Reads s := by
  rw [Reads, EStateM.run_bind]
  rw [Reads] at h
  cases hrun : operation.run s with
  | error e s' =>
      rw [hrun] at h
      exact h
  | ok a s' =>
      rw [hrun] at h
      cases h
      exact hnext a

/-- What returns from two operations returns from both. -/
theorem exists_of_bind_ok {operation : Run α} {next : α → Run β} {s s'' : Session} {b : β}
    (h : (operation >>= next).run s = .ok b s'') :
    ∃ a s', operation.run s = .ok a s' ∧ (next a).run s' = .ok b s'' := by
  rw [EStateM.run_bind] at h
  cases hrun : operation.run s with
  | error e s' =>
      rw [hrun] at h
      cases h
  | ok a s' =>
      rw [hrun] at h
      exact ⟨a, s', rfl, h⟩

theorem trades_pure {s : Session} (a : α) {out : α → List Interop} :
    (pure a : Run α).Trades s (out a) out :=
  .refl s (out a)

theorem trades_done {s : Session} (a : α) : (pure a : Run α).Trades s [] (fun _ => []) :=
  .refl s []

theorem trades_get {next : Session → Run β} {s : Session} {given : List Interop}
    {out : β → List Interop} (h : (next s).Trades s given out) :
    (get >>= next : Run β).Trades s given out := h

theorem trades_set {s s' : Session} {given out : List Interop} (h : s.Trades s' given out) :
    (set s' : Run PUnit).Trades s given (fun _ => out) := h

theorem trades_modify {s : Session} {f : Session → Session} {given out : List Interop}
    (h : s.Trades (f s) given out) : (modify f : Run PUnit).Trades s given (fun _ => out) := h

theorem trades_throw {s : Session} (e : SessionError) {out : α → List Interop} :
    (throw e : Run α).Trades s [] out :=
  .refl s []

end Run

end HostStack
