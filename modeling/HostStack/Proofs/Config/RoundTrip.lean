import HostStack.Config.Writing
import HostStack.Proofs.Config.Outcome
import HostStack.Proofs.Toml.Written

/-!
# Written limits are read back

The document of some limits is two lines of the kind that is read as it is written, and both keys
are new where they stand. So loading it comes to checking the limits that were written: sound ones
are returned as they are, and others end with their first fault. No text is written of limits that
are too large for a document.
-/

namespace HostStack.StackConfig

open Toml (Bare Entries Writable writeAssignment writeLine writeLines)

theorem fault?_eq_none {config : StackConfig} : config.fault? = none ↔ config.Sound := by
  rw [fault?, Sound, maxInitialCapacity]
  split_ifs <;> simp <;> omega

theorem validate_of_sound {config : StackConfig} (h : config.Sound) :
    config.validate = .ok config := by
  rw [validate, fault?_eq_none.2 h]

theorem validate_of_not_sound {config : StackConfig} (h : ¬config.Sound) :
    ∃ fault, config.fault? = some fault ∧ config.validate = .error (.invalid fault) := by
  obtain ⟨fault, hfault⟩ := Option.ne_none_iff_exists'.1 (mt fault?_eq_none.1 h)
  exact ⟨fault, hfault, by rw [validate, hfault]⟩

/-- The limits as the keys and numbers of their document. -/
def numbers (config : StackConfig) : List (String × Nat) :=
  [(sizeKey, config.maxStackSize), (capacityKey, config.initialCapacity)]

theorem bare_sizeKey : Bare sizeKey.toList :=
  ⟨by decide, by simp [sizeKey, Toml.isBareChar]⟩

theorem bare_capacityKey : Bare capacityKey.toList :=
  ⟨by decide, by simp [capacityKey, Toml.isBareChar]⟩

theorem writable_numbers {config : StackConfig} (hsize : config.maxStackSize ≤ maxWritable)
    (hcapacity : config.initialCapacity ≤ maxWritable) : Writable config.numbers where
  bare := by
    intro entry hentry
    rw [numbers, List.mem_pair] at hentry
    rcases hentry with rfl | rfl
    · exact bare_sizeKey
    · exact bare_capacityKey
  small := by
    intro entry hentry
    rw [numbers, List.mem_pair] at hentry
    rcases hentry with rfl | rfl
    · exact hsize
    · exact hcapacity
  distinct := by
    show [sizeKey, capacityKey].Nodup
    decide

theorem assignment_eq (key : String) (n : Nat) :
    key ++ " = " ++ toString n = String.ofList (writeAssignment key.toList n) := by
  have hdigits : toString n = String.ofList (Nat.toDigits 10 n) := Nat.repr_eq_ofList_toDigits
  rw [String.ext_iff, String.toList_ofList, hdigits]
  simp [writeAssignment]

theorem writeEntry_eq (key : String) (n : Nat) :
    writeEntry key n = String.ofList (writeLine key.toList n) := by
  rw [writeEntry, assignment_eq, writeLine, String.ofList_append]

theorem toText?_eq {config : StackConfig} (hsize : config.maxStackSize ≤ maxWritable)
    (hcapacity : config.initialCapacity ≤ maxWritable) :
    config.toText? = some (String.ofList (writeLines config.numbers)) := by
  rw [toText?, if_pos ⟨hsize, hcapacity⟩, writeEntry_eq, writeEntry_eq, ← String.ofList_append]
  simp [writeLines, numbers]

/-- The limits as the entries of their document. -/
def entries (config : StackConfig) : Entries :=
  config.numbers.map fun entry => (entry.1, .integer entry.2)

theorem listed_entries (config : StackConfig) : listed config.entries = config.entries := by
  simp [listed, entries, numbers]

theorem foldlM_entries (config : StackConfig) :
    config.entries.foldlM takeEntry default = .ok config := by
  rw [entries, numbers, List.map_cons, List.foldlM_cons, takeEntry_size]
  show List.foldlM takeEntry { (default : StackConfig) with maxStackSize := config.maxStackSize }
    [(capacityKey, .integer config.initialCapacity)] = _
  rw [List.foldlM_cons, takeEntry_capacity]
  rfl

theorem ofText_writeLines {config : StackConfig} (hsize : config.maxStackSize ≤ maxWritable)
    (hcapacity : config.initialCapacity ≤ maxWritable) :
    ofText (String.ofList (writeLines config.numbers)) = config.validate := by
  have hparse : Toml.parse? (String.ofList (writeLines config.numbers)) = some config.entries :=
    Toml.parse?_writeLines (writable_numbers hsize hcapacity)
  rw [ofText_eq hparse, listed_entries, foldlM_entries]
  rfl

/-- Loading the document of some limits returns them if they are sound, and otherwise their first
fault; limits beyond 64 bits with sign have no document. -/
theorem written_reads_back (config : StackConfig) :
    (config.maxStackSize ≤ 9223372036854775807 → config.initialCapacity ≤ 9223372036854775807 →
      ∃ text, config.toText? = some text ∧ ofText text = config.validate ∧
        (config.Sound → ofText text = .ok config) ∧
        (¬config.Sound → ∃ fault, config.fault? = some fault ∧
          ofText text = .error (.invalid fault))) ∧
    (9223372036854775807 < config.maxStackSize ∨ 9223372036854775807 < config.initialCapacity →
      config.toText? = none) := by
  constructor
  · intro hsize hcapacity
    have hload := ofText_writeLines hsize hcapacity
    refine ⟨_, toText?_eq hsize hcapacity, hload, ?_, ?_⟩
    · intro hsound
      rw [hload, validate_of_sound hsound]
    · intro hfaulty
      rw [hload]
      exact validate_of_not_sound hfaulty
  · intro hlarge
    refine if_neg ?_
    rw [maxWritable]
    omega

/-- The largest size that can be written, with the largest capacity that is sound; a size of zero
with a capacity that is too large; and a size that is too large by one. -/
theorem written_reads_back_largest :
    (∃ text, toText? ⟨9223372036854775807, 65536⟩ = some text ∧
      ofText text = .ok ⟨9223372036854775807, 65536⟩) ∧
    (∃ text, toText? ⟨0, 9223372036854775807⟩ = some text ∧
      ofText text = .error (.invalid .zeroSize)) ∧
    toText? ⟨9223372036854775808, 64⟩ = none := by
  refine ⟨?_, ?_, ?_⟩
  · obtain ⟨text, htext, -, hsound, -⟩ :=
      (written_reads_back ⟨9223372036854775807, 65536⟩).1 (by decide) (by decide)
    exact ⟨text, htext, hsound ⟨by decide, by decide, by decide⟩⟩
  · obtain ⟨text, htext, hload, -⟩ :=
      (written_reads_back ⟨0, 9223372036854775807⟩).1 (by decide) (by decide)
    exact ⟨text, htext, hload⟩
  · exact (written_reads_back ⟨9223372036854775808, 64⟩).2 (.inl (by decide))

end HostStack.StackConfig
