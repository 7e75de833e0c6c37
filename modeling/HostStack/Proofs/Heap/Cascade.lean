import HostStack.Proofs.Heap.Balance
import Mathlib.Logic.Relation

/-!
# Cascades of releases

A release is a cascade: each reference that is let go lowers a count, and one that was the last puts
what its object holds in front of what is still to be released. The measure that ends every
cascade is the total of all counts, which no object that is freed can raise again.

Read as single steps, a cascade has no step for a reference to an object that is gone already. In a
balanced heap none is needed, so what the release does is such a cascade, from its first reference
to the point where nothing is left to release.
-/

namespace HostStack

namespace Heap

inductive LetsGo : Heap × List ObjectId → Heap × List ObjectId → Prop
  | lower {h : Heap} {o pending count} (hcount : h.strong o = count + 2) :
      LetsGo (h, o :: pending) (h.setStrong o (count + 1), pending)
  | free {h : Heap} {o pending} (hone : h.strong o = 1) :
      LetsGo (h, o :: pending) ((h.setStrong o 0).logFreed o, h.holds o ++ pending)

theorem LetsGo.totalStrong_lt {before after : Heap × List ObjectId} (hstep : LetsGo before after) :
    after.1.totalStrong < before.1.totalStrong := by
  cases hstep with
  | lower hcount => exact totalStrong_setStrong_lt (by omega)
  | free hone =>
      rw [totalStrong_logFreed]
      exact totalStrong_setStrong_lt (by omega)

/-- Every cascade ends. -/
theorem letsGo_wellFounded : WellFounded fun after before => LetsGo before after :=
  Subrelation.wf LetsGo.totalStrong_lt
    (InvImage.wf (fun state : Heap × List ObjectId => state.1.totalStrong) Nat.lt_wfRel.wf)

variable {owners : Multiset ObjectId} {before after : Heap × List ObjectId}

/-- What is still to be released counts as owned until its turn comes. -/
theorem LetsGo.balanced (hstep : LetsGo before after)
    (hb : before.1.Balanced (before.2 + owners)) : after.1.Balanced (after.2 + owners) := by
  cases hstep with
  | lower hcount =>
      rw [← Multiset.cons_coe, Multiset.cons_add] at hb
      exact hb.lower hcount
  | free hone =>
      rw [← Multiset.cons_coe, Multiset.cons_add] at hb
      rw [← Multiset.coe_add, Multiset.add_assoc]
      exact hb.free hone

theorem Balanced.cascade {h : Heap} {os : List ObjectId} (hb : h.Balanced (os + owners)) :
    Relation.ReflTransGen LetsGo (h, os) (h.release os, []) := by
  fun_induction Heap.release h os with
  | case1 h => exact .refl
  | case2 h o pending hzero ih =>
      rw [← Multiset.cons_coe, Multiset.cons_add] at hb
      exact absurd hzero (hb.strong_ne_zero (Multiset.mem_cons_self _ _))
  | case3 h o pending hone ih =>
      have hstep : LetsGo (h, o :: pending) _ := .free hone
      exact .head hstep (ih (hstep.balanced hb))
  | case4 h o pending count hcount ih =>
      have hstep : LetsGo (h, o :: pending) _ := .lower hcount
      exact .head hstep (ih (hstep.balanced hb))

theorem balanced_of_cascade (hrun : Relation.ReflTransGen LetsGo before after)
    (hb : before.1.Balanced (before.2 + owners)) : after.1.Balanced (after.2 + owners) := by
  induction hrun with
  | refl => exact hb
  | tail _ hstep ih => exact hstep.balanced ih

/-- Owners may give references up. -/
theorem Balanced.release {h : Heap} {os : List ObjectId} (hb : h.Balanced (os + owners)) :
    (h.release os).Balanced owners := by
  have hend := balanced_of_cascade hb.cascade hb
  rw [Multiset.coe_nil, Multiset.zero_add] at hend
  exact hend

/-! ### What a cascade costs -/

/-- From one point of a cascade to another, some objects were freed, and each count went down by the
references that were given up and by those that these objects were made with. What is to be
released at the end has not been given up yet. -/
structure Paid (before after : Heap × List ObjectId) (gone : List ObjectId) : Prop where
  freed : after.1.freed = gone ++ before.1.freed
  holds : after.1.holds = before.1.holds
  counts : ∀ o, after.1.strong o + before.2.count o + (gone.flatMap before.1.holds).count o =
    before.1.strong o + after.2.count o

theorem Paid.trans {a b c : Heap × List ObjectId} {gone gone' : List ObjectId}
    (hab : Paid a b gone) (hbc : Paid b c gone') : Paid a c (gone' ++ gone) := by
  refine ⟨?_, hbc.holds.trans hab.holds, ?_⟩
  · rw [hbc.freed, hab.freed, List.append_assoc]
  · intro o
    have hfirst := hab.counts o
    have hsecond := hbc.counts o
    rw [hab.holds] at hsecond
    rw [List.flatMap_append, List.count_append]
    omega

theorem LetsGo.paid (hstep : LetsGo before after) : ∃ gone, Paid before after gone := by
  cases hstep with
  | @lower h o pending count hcount =>
      have hmade : h.Made o := made_of_strong (by omega)
      refine ⟨[], rfl, funext fun p => holds_setStrong h o p (count + 1), ?_⟩
      intro x
      dsimp only
      rw [strong_setStrong hmade, List.flatMap_nil, List.count_nil]
      by_cases heq : x = o
      · subst heq
        rw [if_pos rfl, List.count_cons_self]
        omega
      · rw [if_neg heq, List.count_cons_of_ne (Ne.symm heq)]
        omega
  | @free h o pending hone =>
      have hmade : h.Made o := made_of_strong (by omega)
      refine ⟨[o], rfl, funext fun p => holds_setStrong h o p 0, ?_⟩
      intro x
      dsimp only
      rw [strong_logFreed, strong_setStrong hmade, List.flatMap_singleton, List.count_append]
      by_cases heq : x = o
      · subst heq
        rw [if_pos rfl, List.count_cons_self]
        omega
      · rw [if_neg heq, List.count_cons_of_ne (Ne.symm heq)]
        omega

/-- So a release lowers each count by the references that its owners give up, and by those that the
objects it frees were made with. -/
theorem paid_of_cascade (hrun : Relation.ReflTransGen LetsGo before after) :
    ∃ gone, Paid before after gone := by
  induction hrun with
  | refl => exact ⟨[], rfl, rfl, fun _ => rfl⟩
  | tail _ hstep ih =>
      obtain ⟨gone, hpaid⟩ := ih
      obtain ⟨gone', hpaid'⟩ := hstep.paid
      exact ⟨gone' ++ gone, hpaid.trans hpaid'⟩

end Heap

end HostStack
