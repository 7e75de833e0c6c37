/-!
# Things that go by name

A host keeps things under names. A name stands for one thing at most: whatever is put under a name
takes the place of what was there. So all things together are the one of a name, if there is one,
and all others.
-/

namespace HostStack

/-- Things that go by name. No name occurs twice. -/
structure Named (α : Type) where
  entries : List (String × α)
  distinct : (entries.map Prod.fst).Nodup

namespace Named

variable {α : Type}

def empty : Named α := ⟨[], List.nodup_nil⟩

def get? (name : String) (things : Named α) : Option α :=
  things.entries.lookup name

/-- All things but the one of a name. -/
def erase (name : String) (things : Named α) : Named α where
  entries := things.entries.filter fun thing => thing.1 ≠ name
  distinct := things.distinct.sublist (List.filter_sublist.map _)

def put (name : String) (a : α) (things : Named α) : Named α where
  entries := (name, a) :: (things.erase name).entries
  distinct := by
    refine List.nodup_cons.2 ⟨?_, (things.erase name).distinct⟩
    simp [erase]

def values (things : Named α) : List α :=
  things.entries.map Prod.snd

def nameOf? (p : α → Bool) (things : Named α) : Option String :=
  (things.entries.find? fun thing => p thing.2).map Prod.fst

@[simp]
theorem values_put (name : String) (a : α) (things : Named α) :
    (things.put name a).values = a :: (things.erase name).values := rfl

/-- All things are the one of a name and all others. -/
theorem values_perm (things : Named α) (name : String) :
    things.values.Perm ((things.get? name).toList ++ (things.erase name).values) := by
  obtain ⟨entries, distinct⟩ := things
  simp only [values, get?, erase]
  induction entries with
  | nil => simp
  | cons thing rest ih =>
      obtain ⟨key, a⟩ := thing
      obtain ⟨hkey, hrest⟩ := List.nodup_cons.1 distinct
      by_cases h : key = name
      · subst h
        have hfilter : rest.filter (fun thing => thing.1 ≠ key) = rest := by
          refine List.filter_eq_self.2 fun thing hthing => ?_
          have hne : thing.1 ≠ key := fun heq => hkey (List.mem_map.2 ⟨thing, hthing, heq⟩)
          simpa using hne
        rw [List.filter_cons_of_neg (by simp), hfilter]
        simp
      · have hlookup : (name == key) = false := by simpa using Ne.symm h
        simp only [List.lookup_cons, hlookup, List.map_cons]
        rw [List.filter_cons_of_pos (by simpa using h), List.map_cons]
        exact ((ih hrest).cons a).trans List.perm_middle.symm

end Named

end HostStack
