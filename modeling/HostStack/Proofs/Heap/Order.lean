import HostStack.Proofs.Heap.Reach
import HostStack.Proofs.Ownership.Trade

/-!
# The order of releases makes no difference

Which objects are freed, and how many references the others keep, is settled by who has references
in the end. In a balanced heap the objects that are not freed are those that are reached from the
owners, and their counts are those of the owners and of the objects that are reached; what an object
was made with never changes. So two heaps that came from the same one without a new object, and
that are balanced against the same owners, are the same but for the order in which objects were
freed. There is no need to follow the releases through, or to swap two of them.

A release may then go on in any way. Whichever reference is released next, and whenever what a freed
object holds has its turn, it does not stop before nothing is left, and what it leaves is always the
same.
-/

namespace HostStack

namespace Heap

/-- The same objects with the same counts, and the same ones freed, in whatever order. -/
structure Alike (h h' : Heap) : Prop where
  cells : h.cells = h'.cells
  freed : h.freed.Perm h'.freed

/-- What a heap can become when nothing is made, balanced against some owners. -/
structure Settles (h later : Heap) (owners : Multiset ObjectId) : Prop where
  objects : h.Extends later
  size : later.cells.size = h.cells.size
  balanced : later.Balanced owners

variable {h later later' : Heap} {owners : Multiset ObjectId}

theorem cell?_eq_none {o : ObjectId} : h.cell? o = none ↔ ¬ h.Made o :=
  Array.getElem?_eq_none_iff.trans Nat.not_lt.symm

theorem Extends.usesIn (hx : h.Extends later) {p : ObjectId} (hp : h.Made p) (o : ObjectId) :
    later.usesIn p o = h.usesIn p o := by
  rw [usesIn_eq, usesIn_eq, hx.holds hp]

namespace Settles

theorem made_iff (hs : h.Settles later owners) (o : ObjectId) : later.Made o ↔ h.Made o := by
  rw [Made, Made, hs.size]

/-- What is reached afterwards was reached by the same ways before. -/
theorem reaches_iff (hs : h.Settles later owners) {kept : ObjectId → Prop} {o : ObjectId} :
    later.Reaches kept o ↔ h.Reaches kept o := by
  -- An index without an object holds nothing in either heap.
  have hsame : later.usesIn = h.usesIn := by
    funext p o
    by_cases hp : h.Made p
    · exact hs.objects.usesIn hp o
    · have hp' := fun hmade => hp ((hs.made_iff p).1 hmade)
      rw [usesIn_eq, usesIn_eq, List.count_eq_zero_of_not_mem fun hmem => hp (made_of_holds hmem),
        List.count_eq_zero_of_not_mem fun hmem => hp' (made_of_holds hmem)]
  constructor
  · intro hreach
    induction hreach with
    | kept ho => exact .kept ho
    | inside _ huse ih => exact .inside ih (hsame ▸ huse)
  · intro hreach
    induction hreach with
    | kept ho => exact .kept ho
    | inside _ huse ih => exact .inside ih (hsame ▸ huse)

/-- The objects that are freed are those that no owner reaches. -/
theorem mem_freed_iff (hs : h.Settles later owners) {o : ObjectId} :
    o ∈ later.freed ↔ h.Made o ∧ ¬ h.Reaches (· ∈ owners) o := by
  have hlive := hs.balanced.live_iff_reaches (o := o)
  rw [mem_live, hs.reaches_iff, hs.made_iff] at hlive
  have hmade := (hs.balanced.freed_iff o).1
  rw [hs.made_iff] at hmade
  tauto

theorem live_eq (hs : h.Settles later owners) (hs' : h.Settles later' owners) :
    later.live = later'.live := by
  rw [live, live, hs.size, hs'.size]
  refine List.filter_congr fun o _ => decide_eq_decide.2 (not_congr ?_)
  rw [hs.mem_freed_iff, hs'.mem_freed_iff]

theorem strong_eq (hs : h.Settles later owners) (hs' : h.Settles later' owners) (o : ObjectId) :
    later.strong o = later'.strong o := by
  rw [hs.balanced.counts, hs'.balanced.counts, hs.balanced.held_eq, hs'.balanced.held_eq,
    hs.live_eq hs']
  congr 2
  refine List.map_congr_left fun p hp => ?_
  have hmade := (hs'.made_iff p).1 (mem_live.1 hp).1
  rw [hs.objects.usesIn hmade, hs'.objects.usesIn hmade]

theorem cell?_eq (hs : h.Settles later owners) (hs' : h.Settles later' owners) (o : ObjectId) :
    later.cell? o = later'.cell? o := by
  cases hcell : h.cell? o with
  | none =>
      rw [cell?_eq_none] at hcell
      rw [cell?_eq_none.2 (mt (hs.made_iff o).1 hcell),
        cell?_eq_none.2 (mt (hs'.made_iff o).1 hcell)]
  | some cell =>
      obtain ⟨n, hn⟩ := hs.objects.cell o cell hcell
      obtain ⟨n', hn'⟩ := hs'.objects.cell o cell hcell
      have hcount := hs.strong_eq hs' o
      rw [Heap.strong_eq hn, Heap.strong_eq hn'] at hcount
      obtain rfl : n = n' := hcount
      rw [hn, hn']

/-- What is left, and what was freed, is settled by the owners. -/
theorem alike (hs : h.Settles later owners) (hs' : h.Settles later' owners) :
    later.Alike later' where
  cells := Array.ext_getElem? fun i => hs.cell?_eq hs' ⟨i⟩
  freed := by
    refine (List.perm_ext_iff_of_nodup hs.balanced.once hs'.balanced.once).2 fun o => ?_
    rw [hs.mem_freed_iff, hs'.mem_freed_iff]

end Settles

theorem nodup_live (h : Heap) : h.live.Nodup := by
  refine (List.nodup_range.map ?_).filter _
  intro i j hij
  injection hij

/-- What live objects hold is settled by which objects have owners, and not by how many. The later
heap may have new objects; none of them is left that nobody owns. -/
theorem Balanced.held_congr {owners' : Multiset ObjectId} (hb : h.Balanced owners)
    (hb' : later.Balanced owners') (hx : h.Extends later)
    (howners : ∀ o, o ∈ owners' ↔ o ∈ owners) (o : ObjectId) : later.held o = h.held o := by
  have hlive : ∀ p, p ∈ later.live ↔ p ∈ h.live := by
    intro p
    rw [hb.live_iff_reaches, hb'.live_iff_reaches]
    constructor
    · intro hreach
      induction hreach with
      | kept howned => exact .kept ((howners _).1 howned)
      | inside _ huse ih =>
          have hmade := (mem_live.1 (hb.live_iff_reaches.2 ih)).1
          exact .inside ih (hx.usesIn hmade _ ▸ huse)
    · intro hreach
      induction hreach with
      | kept howned => exact .kept ((howners _).2 howned)
      | inside _ huse ih =>
          have hmade := made_of_holds (usesIn_pos_iff.1 huse)
          exact .inside ih ((hx.usesIn hmade _).symm ▸ huse)
  have hperm := (List.perm_ext_iff_of_nodup later.nodup_live h.nodup_live).2 hlive
  rw [hb.held_eq, hb'.held_eq, (hperm.map _).sum_eq]
  refine congrArg List.sum (List.map_congr_left fun p hp => ?_)
  exact hx.usesIn (mem_live.1 hp).1 o

theorem Balanced.settles {os : List ObjectId} (hb : h.Balanced (os + owners)) :
    h.Settles (h.release os) owners :=
  ⟨h.extends_release os, h.size_release os, hb.release⟩

/-- References may be released in any order. -/
theorem Balanced.release_perm {os os' : List ObjectId} (hb : h.Balanced (os + owners))
    (hperm : os'.Perm os) : (h.release os').Alike (h.release os) := by
  have hb' := hb
  rw [← Multiset.coe_eq_coe.2 hperm] at hb'
  exact hb'.settles.alike hb.settles

/-! ### One reference at a time -/

/-- One of the references that are still to be released is released, whichever it is. -/
inductive Releases : Heap × Multiset ObjectId → Heap × Multiset ObjectId → Prop
  | lower {h : Heap} {o pending count} (hcount : h.strong o = count + 2) :
      Releases (h, o ::ₘ pending) (h.setStrong o (count + 1), pending)
  | free {h : Heap} {o pending} (hone : h.strong o = 1) :
      Releases (h, o ::ₘ pending) ((h.setStrong o 0).logFreed o, h.holds o + pending)

variable {before after : Heap × Multiset ObjectId}

theorem Releases.settles (hstep : Releases before after)
    (hb : before.1.Balanced (before.2 + owners)) :
    before.1.Settles after.1 (after.2 + owners) := by
  cases hstep with
  | @lower h o pending count hcount =>
      rw [Multiset.cons_add] at hb
      exact ⟨h.extends_setStrong o _, h.size_setStrong o _, hb.lower hcount⟩
  | @free h o pending hone =>
      rw [Multiset.cons_add] at hb
      refine ⟨(h.extends_setStrong o 0).trans (extends_logFreed _ o), h.size_setStrong o 0, ?_⟩
      rw [Multiset.add_assoc]
      exact hb.free hone

theorem settles_of_releases (hrun : Relation.ReflTransGen Releases before after)
    (hb : before.1.Balanced (before.2 + owners)) :
    before.1.Settles after.1 (after.2 + owners) := by
  induction hrun with
  | refl => exact ⟨.refl _, rfl, hb⟩
  | tail _ hstep ih =>
      have hnext := hstep.settles ih.balanced
      exact ⟨ih.objects.trans hnext.objects, hnext.size.trans ih.size, hnext.balanced⟩

/-- As long as a reference is left, it can be released. -/
theorem Balanced.exists_releases {pending : Multiset ObjectId}
    (hb : h.Balanced (pending + owners)) (hpending : pending ≠ 0) :
    ∃ next, Releases (h, pending) next := by
  obtain ⟨o, ho⟩ := Multiset.exists_mem_of_ne_zero hpending
  obtain ⟨rest, rfl⟩ := Multiset.exists_cons_of_mem ho
  have hpos := hb.strong_ne_zero (Multiset.mem_add.2 (.inl ho))
  match hcount : h.strong o with
  | 0 => exact absurd hcount hpos
  | 1 => exact ⟨_, .free hcount⟩
  | count + 2 => exact ⟨_, .lower hcount⟩

/-- In whatever order references are released, none is left when it cannot go on, and the heap is
the one that they are released to in their own order. -/
theorem Balanced.releases_alike {os : List ObjectId} (hb : h.Balanced (os + owners))
    (hrun : Relation.ReflTransGen Releases (h, ↑os) after)
    (hend : ∀ next, ¬ Releases after next) : after.2 = 0 ∧ after.1.Alike (h.release os) := by
  have hsettled := settles_of_releases hrun hb
  have hnone : after.2 = 0 := by
    by_contra hpending
    obtain ⟨next, hnext⟩ := hsettled.balanced.exists_releases hpending
    exact hend next hnext
  refine ⟨hnone, ?_⟩
  rw [hnone, Multiset.zero_add] at hsettled
  exact hsettled.alike hb.settles

end Heap

end HostStack
