import HostStack.Proofs.Heap.Reach
import HostStack.Proofs.Session.Accounting

/-!
# When host objects are freed

A host object is freed in the step in which the last reference to it goes, whoever had that one. So
no step frees what is still reached, no object is freed twice, and when a host has let go of all
that it kept, every object it ever made is freed. All this follows from the counts: an object that
is not freed is one with references, and a reference has an owner, or a live holder that is younger.

What an object was made with never changes. When it is freed its own references are released in the
same step, and the objects that these were the last references to are freed with it.
-/

namespace HostStack

open Heap (LetsGo Paid Trade)

namespace Session

/-- A host keeps a reference to an object itself, and not just inside another object. -/
inductive Keeps (s : Session) (o : ObjectId) : Prop
  | handle {value} : value ∈ s.handles.values → value.object = o → Keeps s o
  | stack : 0 < s.stack.uses o → Keeps s o
  | register {register} : register ∈ s.registers.values → 0 < register.uses o → Keeps s o
  | save {save} : save ∈ s.saves.values → 0 < save.uses o → Keeps s o

/-- Somebody has a reference to an object: the host, or an object that is alive. -/
def Holds (s : Session) (o : ObjectId) : Prop :=
  s.Keeps o ∨ ∃ p ∈ s.heap.live, 0 < s.heap.usesIn p o

theorem keeps_iff {s : Session} {o : ObjectId} : s.Keeps o ↔ o ∈ s.owned := by
  simp only [owned, List.mem_append, List.mem_map, List.mem_flatMap, ← Stack.uses_pos_iff,
    ← Register.uses_pos_iff]
  constructor
  · intro hkeeps
    cases hkeeps with
    | handle hvalue ho => exact .inl (.inl (.inl ⟨_, hvalue, ho⟩))
    | stack huse => exact .inl (.inl (.inr huse))
    | register hmem huse => exact .inl (.inr ⟨_, hmem, huse⟩)
    | save hmem huse => exact .inr ⟨_, hmem, huse⟩
  · rintro (((⟨value, hvalue, ho⟩ | huse) | ⟨register, hmem, huse⟩) | ⟨save, hmem, huse⟩)
    · exact .handle hvalue ho
    · exact .stack huse
    · exact .register hmem huse
    · exact .save hmem huse

theorem keeps_eq (s : Session) : s.Keeps = fun o => o ∈ (↑s.owned : Multiset ObjectId) :=
  funext fun _ => propext (keeps_iff.trans Multiset.mem_coe.symm)

theorem Arises.holds_iff {s : Session} (h : s.Arises) {o : ObjectId} :
    s.Holds o ↔ o ∈ s.heap.live := by
  rw [h.balanced.live_iff, Holds, keeps_iff, Multiset.mem_coe]

theorem Arises.reaches_iff {s : Session} (h : s.Arises) {o : ObjectId} :
    s.heap.Reaches s.Keeps o ↔ o ∈ s.heap.live := by
  rw [h.balanced.live_iff_reaches, keeps_eq]

theorem Arises.made_of_freed {s : Session} (h : s.Arises) {o : ObjectId}
    (hfreed : o ∈ s.heap.freed) : s.heap.Made o :=
  ((h.balanced.freed_iff o).1 hfreed).1

/-! ### From one state to another -/

/-- From one state to another, the objects that were freed are those that lost their last
reference. -/
structure Frees (s s' : Session) (gone : List ObjectId) : Prop where
  log : s'.heap.freed = gone ++ s.heap.freed
  /-- Somebody had a reference before, or the object is new, and nobody has one now. -/
  last : ∀ o, o ∈ gone ↔ (s.Holds o ∨ ¬ s.heap.Made o ∧ s'.heap.Made o) ∧ ¬ s'.Holds o
  /-- What only objects that were freed had references to was freed with them. -/
  inside : ∀ p ∈ gone, ∀ o, 0 < s'.heap.usesIn p o → ¬ s'.Holds o → o ∈ gone
  fixed : ∀ p, s.heap.Made p → s'.heap.usesIn p = s.heap.usesIn p

/-- A host gets from one state to another. -/
structure Leads (s s' : Session) : Prop where
  before : s.Arises
  after : s'.Arises
  trade : Trade s.leaves s.heap s'.leaves s'.heap

theorem Arises.leads_step {s : Session} (h : s.Arises) (step : Step) : s.Leads (s.step step).2 :=
  ⟨h, h.step step, h.trade_step step⟩

theorem Arises.leads_place {s : Session} (h : s.Arises) {item : Item}
    (hitem : ∀ w ∈ item.leaves, w ∈ s.leaves) : s.Leads (s.after (Run.place item)) :=
  ⟨h, h.place item hitem, trade_place hitem⟩

namespace Leads

variable {s s' : Session}

theorem mem_freedSince (hl : s.Leads s') (o : ObjectId) :
    o ∈ s'.heap.freedSince s.heap ↔ o ∈ s'.heap.freed ∧ o ∉ s.heap.freed :=
  hl.trade.later.mem_freedSince hl.after.balanced.once o

theorem mem_freedSince_iff_lost (hl : s.Leads s') (o : ObjectId) :
    o ∈ s'.heap.freedSince s.heap ↔
      (s.Holds o ∨ ¬ s.heap.Made o ∧ s'.heap.Made o) ∧ ¬ s'.Holds o := by
  rw [hl.mem_freedSince, hl.before.holds_iff, hl.after.holds_iff, Heap.mem_live, Heap.mem_live]
  constructor
  · rintro ⟨hfreed', hfreed⟩
    refine ⟨?_, fun hlive => hlive.2 hfreed'⟩
    by_cases ho : s.heap.Made o
    · exact .inl ⟨ho, hfreed⟩
    · exact .inr ⟨ho, hl.after.made_of_freed hfreed'⟩
  · rintro ⟨⟨ho, hfreed⟩ | ⟨ho, ho'⟩, hlost⟩
    · refine ⟨?_, hfreed⟩
      by_contra hlive
      exact hlost ⟨hl.trade.later.made ho, hlive⟩
    · refine ⟨?_, fun hfreed => ho (hl.before.made_of_freed hfreed)⟩
      by_contra hlive
      exact hlost ⟨ho', hlive⟩

theorem usesIn_eq (hl : s.Leads s') {p : ObjectId} (hp : s.heap.Made p) :
    s'.heap.usesIn p = s.heap.usesIn p := by
  funext o
  rw [Heap.usesIn_eq, Heap.usesIn_eq, hl.trade.later.holds hp]

/-- What an object that is freed was made with was held before, or is new like the object. -/
theorem holds_of_freed_holder (hl : s.Leads s') {p o : ObjectId}
    (hp : p ∈ s'.heap.freedSince s.heap)
    (huse : 0 < s'.heap.usesIn p o) : s.Holds o ∨ ¬ s.heap.Made o ∧ s'.heap.Made o := by
  obtain ⟨hpfreed', hpfreed⟩ := (hl.mem_freedSince p).1 hp
  have hpmade := hl.after.made_of_freed hpfreed'
  by_cases ho : s.heap.Made o
  · refine .inl (hl.before.holds_iff.2 (Heap.mem_live.2 ⟨ho, ?_⟩))
    intro hfreed
    -- An object that was freed before can only be in a payload that was there as well.
    have hb := hl.before.balanced_leaves
    have hpmade := hl.trade.made_of_holds_freed hb hfreed (Heap.usesIn_pos_iff.1 huse)
    rw [hl.usesIn_eq hpmade] at huse
    have hlive := hl.before.balanced.live_iff.2 (.inr ⟨p, Heap.mem_live.2 ⟨hpmade, hpfreed⟩, huse⟩)
    exact (Heap.mem_live.1 hlive).2 hfreed
  · have hlt := hl.after.balanced.usesIn_lt huse
    refine .inr ⟨ho, ?_⟩
    rw [Heap.Made] at hpmade ⊢
    omega

theorem frees (hl : s.Leads s') : s.Frees s' (s'.heap.freedSince s.heap) where
  log := hl.trade.later.log_eq
  last := hl.mem_freedSince_iff_lost
  inside _ hp o huse hlost :=
    (hl.mem_freedSince_iff_lost o).2 ⟨hl.holds_of_freed_holder hp huse, hlost⟩
  fixed _ hp := hl.usesIn_eq hp

end Leads

/-! ### All states -/

/-- Objects are freed when nobody has a reference to them any more, not before, and once. -/
structure FreesExactly (s : Session) : Prop where
  once : s.heap.freed.Nodup
  /-- What is reached is not freed, and what is not freed is reached. -/
  reached : ∀ o, s.heap.Reaches s.Keeps o ↔ s.heap.Made o ∧ o ∉ s.heap.freed
  step : ∀ step : Step, s.Frees (s.step step).2 ((s.step step).2.heap.freedSince s.heap)
  place : ∀ item : Item, (∀ w ∈ item.leaves, w ∈ s.leaves) →
    s.Frees (s.after (Run.place item)) ((s.after (Run.place item)).heap.freedSince s.heap)
  /-- Letting go of some references is a cascade that ends, and that releases what the objects it
  frees were made with. -/
  cascade : ∀ os rest, (os ++ rest).Perm s.owned →
    Relation.ReflTransGen LetsGo (s.heap, os) (s.heap.release os, []) ∧
      Acc (fun after before => LetsGo before after) (s.heap, os) ∧
      ∃ gone, Paid (s.heap, os) (s.heap.release os, []) gone
  /-- Letting go of all references, in any order, leaves every object freed once. -/
  all : ∀ os, os.Perm s.owned → ∀ o, s.heap.Made o → (s.heap.release os).freed.count o = 1

theorem Arises.frees_exactly {s : Session} (h : s.Arises) : s.FreesExactly where
  once := h.balanced.once
  reached _ := h.reaches_iff.trans Heap.mem_live
  step step := (h.leads_step step).frees
  place _ hitem := (h.leads_place hitem).frees
  cascade os rest hos := by
    have hb := h.balanced
    rw [← Multiset.coe_eq_coe.2 hos, ← Multiset.coe_add] at hb
    exact ⟨hb.cascade, Heap.letsGo_wellFounded.apply _, Heap.paid_of_cascade hb.cascade⟩
  all os hos o hmade := by
    have hb := h.balanced
    rw [← Multiset.coe_eq_coe.2 hos, ← add_zero (↑os : Multiset ObjectId)] at hb
    have hend := hb.release
    have hmade' : (s.heap.release os).Made o := by
      rw [Heap.Made, Heap.size_release]
      exact hmade
    exact List.count_eq_one_of_mem hend.once (hend.freed_of_unowned hmade')

/-- An object that only another one wraps, after that one is removed from the stack. -/
def wrapped : Session :=
  ((start .standard .zero default .stack).run
    [.create "a" (.host "T") .unit, .create "b" .wrapper (.wrapper "a"), .pushInterop "b",
      .releaseHandle "a", .releaseHandle "b", .pop .boolean none false]).2

theorem wrapped_arises : wrapped.Arises :=
  (Arises.start ItemFactory.standard_conserves .zero default .stack).run _

theorem frees_exactly_wrapped :
    wrapped.Arises ∧ wrapped.heap.freed = [⟨0⟩, ⟨1⟩] ∧ wrapped.FreesExactly :=
  ⟨wrapped_arises, by cbv, wrapped_arises.frees_exactly⟩

end Session

end HostStack
