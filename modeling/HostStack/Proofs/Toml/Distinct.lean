import HostStack.Toml.Document
import Mathlib.Data.List.Nodup

/-!
# No key stands twice in a document

Every line of a document either puts a value under a key that is still free, behind all others, or
changes the value of a key in its place. The one line that does neither is the header of a table
that came about through longer headers: its entry is taken out and put behind the others. So the
keys of the top-level table are distinct at every line.
-/

namespace HostStack.Toml

namespace Entries

def keys (entries : Entries) : List String :=
  entries.map Prod.fst

def Distinct (entries : Entries) : Prop :=
  entries.keys.Nodup

theorem lookup_eq_none {entries : Entries} {key : String} :
    entries.lookup key = none ↔ key ∉ entries.keys := by
  rw [List.lookup_eq_none_iff, keys, List.mem_map]
  constructor
  · rintro hall ⟨entry, hentry, rfl⟩
    simpa using hall entry hentry
  · intro hnone entry hentry
    rw [bne_iff_ne]
    rintro rfl
    exact hnone ⟨entry, hentry, rfl⟩

theorem keys_append (key : String) (value : Value) (entries : Entries) :
    (entries.append key value).keys = entries.keys ++ [key] :=
  List.map_append

theorem keys_replace (key : String) (value : Value) (entries : Entries) :
    (entries.replace key value).keys = entries.keys := by
  rw [keys, replace, List.map_map]
  refine List.map_congr_left ?_
  rintro ⟨k, v⟩ -
  show (if k = key then (k, value) else (k, v)).1 = k
  split <;> rfl

theorem keys_erase (key : String) (entries : Entries) :
    (entries.erase key).keys = entries.keys.filter (· ≠ key) := by
  rw [keys, keys, List.filter_map]
  rfl

theorem Distinct.append {entries : Entries} (hd : entries.Distinct) {key : String}
    (hfree : key ∉ entries.keys) (value : Value) : (entries.append key value).Distinct := by
  rw [Distinct, keys_append, List.nodup_append_comm]
  exact List.nodup_cons.2 ⟨hfree, hd⟩

theorem Distinct.value_eq {entries : Entries} (hd : entries.Distinct) {key : String}
    {value value' : Value} (h : (key, value) ∈ entries) (h' : (key, value') ∈ entries) :
    value = value' :=
  congrArg Prod.snd (List.inj_on_of_nodup_map hd h h' rfl)

/-- The entries with a value under a key: behind all others if the key is new, or in its place. -/
def Puts (key : String) (entries entries' : Entries) : Prop :=
  ∃ value, (key ∉ entries.keys ∧ entries' = entries.append key value) ∨
    entries' = entries.replace key value

theorem Distinct.puts {entries entries' : Entries} (hd : entries.Distinct) {key : String}
    (hput : Puts key entries entries') : entries'.Distinct := by
  rcases hput with ⟨value, ⟨hfree, rfl⟩ | rfl⟩
  · exact hd.append hfree value
  · rw [Distinct, keys_replace]
    exact hd

/-! ### What one line does -/

theorem puts_of_define {name : String} {value : Value} {entries entries' : Entries}
    (h : entries.define name value = some entries') : Puts name entries entries' := by
  rw [define] at h
  split at h
  · cases h
  · next hfree =>
      rw [Bool.not_eq_true, Option.isSome_eq_false_iff, Option.isNone_iff_eq_none] at hfree
      injection h with h
      exact ⟨value, .inl ⟨lookup_eq_none.1 hfree, h.symm⟩⟩

/-- What is found nowhere is new, and put behind all others. -/
theorem puts_append {key : String} {entries entries' : Entries} {result : Option Entries}
    {wrap : Entries → Value} (hlook : entries.lookup key = none)
    (h : result.map (fun inner => entries.append key (wrap inner)) = some entries') :
    Puts key entries entries' := by
  obtain ⟨inner, -, rfl⟩ := Option.map_eq_some_iff.1 h
  exact ⟨_, .inl ⟨lookup_eq_none.1 hlook, rfl⟩⟩

theorem puts_replace {α : Type} {key : String} {entries entries' : Entries} {result : Option α}
    {wrap : α → Value}
    (h : result.map (fun inner => entries.replace key (wrap inner)) = some entries') :
    Puts key entries entries' := by
  obtain ⟨inner, -, rfl⟩ := Option.map_eq_some_iff.1 h
  exact ⟨_, .inr rfl⟩

theorem puts_of_insertDotted {name : String} {value : Value} {path : List String}
    {entries entries' : Entries} (h : insertDotted name value path entries = some entries') :
    ∃ key, Puts key entries entries' := by
  cases path with
  | nil => exact ⟨name, puts_of_define h⟩
  | cons step path =>
      refine ⟨step, ?_⟩
      rw [insertDotted] at h
      split at h
      · next hlook => exact puts_append hlook h
      · exact puts_replace h
      · split at h
        · cases h
        · exact puts_replace h
      · split at h
        · cases h
        · exact puts_replace h
      · cases h

theorem Distinct.insertDotted {name : String} {value : Value} {path : List String}
    {entries entries' : Entries} (hd : entries.Distinct)
    (h : Entries.insertDotted name value path entries = some entries') : entries'.Distinct := by
  obtain ⟨key, hput⟩ := puts_of_insertDotted h
  exact hd.puts hput

theorem Distinct.openTable {name : String} {entries entries' : Entries} (hd : entries.Distinct)
    (h : entries.openTable name = some entries') : entries'.Distinct := by
  rw [Entries.openTable] at h
  split at h
  · next hlook =>
      injection h with h
      rw [← h]
      exact hd.append (lookup_eq_none.1 hlook) _
  · injection h with h
    rw [← h]
    refine Distinct.append ?_ ?_ _
    · rw [Distinct, keys_erase]
      exact hd.filter _
    · simp [keys_erase]
  · cases h

theorem Distinct.openElement {name : String} {entries entries' : Entries} (hd : entries.Distinct)
    (h : entries.openElement name = some entries') : entries'.Distinct := by
  rw [Entries.openElement] at h
  split at h
  · next hlook =>
      injection h with h
      exact hd.puts ⟨_, .inl ⟨lookup_eq_none.1 hlook, h.symm⟩⟩
  · injection h with h
    exact hd.puts ⟨_, .inr h.symm⟩
  · cases h

/-- A change below the top level is one in its place for the top level. -/
theorem Distinct.changeAt {change : Entries → Option Entries}
    (hchange : ∀ entries entries', entries.Distinct → change entries = some entries' →
      entries'.Distinct)
    {path : List String} {entries entries' : Entries} (hd : entries.Distinct)
    (h : Entries.changeAt change path entries = some entries') : entries'.Distinct := by
  cases path with
  | nil => exact hchange _ _ hd h
  | cons step path =>
      rw [Entries.changeAt] at h
      split at h
      · next hlook => exact hd.puts (puts_append hlook h)
      · cases h
      · exact hd.puts (puts_replace h)
      · exact hd.puts (puts_replace h)
      · cases h

end Entries

/-! ### Documents -/

theorem Draft.add_distinct {draft draft' : Draft} {statement : Statement}
    (hd : draft.root.Distinct) (h : draft.add statement = some draft') :
    draft'.root.Distinct := by
  cases statement with
  | assign key value =>
      obtain ⟨root, hroot, rfl⟩ := Option.map_eq_some_iff.1 h
      exact Entries.Distinct.changeAt (fun _ _ hd hchange => hd.insertDotted hchange) hd hroot
  | table key =>
      obtain ⟨root, hroot, rfl⟩ := Option.map_eq_some_iff.1 h
      exact Entries.Distinct.changeAt (fun _ _ hd hchange => hd.openTable hchange) hd hroot
  | element key =>
      obtain ⟨root, hroot, rfl⟩ := Option.map_eq_some_iff.1 h
      exact Entries.Distinct.changeAt (fun _ _ hd hchange => hd.openElement hchange) hd hroot

theorem Draft.distinct_of_foldlM {statements : List Statement} {draft draft' : Draft}
    (hd : draft.root.Distinct) (h : statements.foldlM Draft.add draft = some draft') :
    draft'.root.Distinct := by
  induction statements generalizing draft with
  | nil =>
      injection h with h
      rwa [← h]
  | cons statement statements ih =>
      rw [List.foldlM_cons] at h
      obtain ⟨next, hadd, hrest⟩ := Option.bind_eq_some_iff.1 h
      exact ih (Draft.add_distinct hd hadd) hrest

theorem parse?_distinct {text : String} {entries : Entries} (h : parse? text = some entries) :
    entries.Distinct := by
  obtain ⟨statements, -, hstatements⟩ := Option.bind_eq_some_iff.1 h
  obtain ⟨draft, hdraft, rfl⟩ := Option.map_eq_some_iff.1 hstatements
  have hempty : Draft.empty.root.Distinct := List.nodup_nil
  exact Draft.distinct_of_foldlM hempty hdraft

end HostStack.Toml
