import HostStack.Proofs.Config.RoundTrip

/-!
# A size and nothing else

There are two ways to come by limits from a size alone. Made from a number, the limits have no more
capacity than that, and they are sound for every size but zero. Loaded from a document that has no
more than the size in it, they have the default capacity, which is not cut down to the size. So the
two agree from the default capacity on. Below it every such document is refused, although the limits
that it stands for could be written and would be read back.
-/

namespace HostStack.StackConfig

open Toml (writeAssignment)

variable {n : Nat}

theorem sound_withMaxStackSize (hpos : 1 ≤ n) : (withMaxStackSize n).Sound := by
  refine ⟨hpos, ?_, ?_⟩
  · exact (Nat.min_le_left _ _).trans (by decide)
  · exact Nat.min_le_right _ _

/-- A line with a size is a document, however it ends. -/
theorem parse?_size (hsmall : n ≤ 9223372036854775807) {ending : String}
    (hstop : ∀ c ∈ ending.toList.head?, Toml.isWordChar c = false)
    (hend : Toml.finishLine ending.toList = some []) :
    Toml.parse? ("max_stack_size = " ++ toString n ++ ending) = some [(sizeKey, .integer n)] := by
  have htext : "max_stack_size = " ++ toString n ++ ending =
      String.ofList (writeAssignment sizeKey.toList n ++ ending.toList) := by
    have hline : "max_stack_size = " ++ toString n = _ := assignment_eq sizeKey n
    rw [hline, String.ofList_append, String.ofList_toList]
  rw [htext]
  exact Toml.parse?_writeAssignment bare_sizeKey hsmall hstop hend

/-- The capacity is the default one, whatever the size. -/
theorem ofText_size {text : String} (h : Toml.parse? text = some [(sizeKey, .integer n)]) :
    ofText text = validate ⟨n, 64⟩ := by
  have hlisted : listed [(sizeKey, .integer n)] = [(sizeKey, .integer n)] := by simp [listed]
  rw [ofText_eq h, hlisted, List.foldlM_cons, takeEntry_size]
  rfl

theorem ofText_size_eq (hpos : 1 ≤ n) {text : String}
    (h : Toml.parse? text = some [(sizeKey, .integer n)]) :
    ofText text =
      if n < 64 then .error (.invalid (.capacityBeyondSize 64 n)) else .ok (withMaxStackSize n) := by
  rw [ofText_size h, validate_eq, if_neg (by omega), if_neg (by decide)]
  by_cases hbelow : n < 64
  · rw [if_pos hbelow, if_pos hbelow]
  · have hcapacity : min defaultInitialCapacity n = 64 := Nat.min_eq_left (Nat.not_lt.1 hbelow)
    rw [if_neg hbelow, if_neg hbelow, withMaxStackSize, hcapacity]

/-- Limits that are made of a size are sound, and their document is loaded as what they are. A
document with nothing but the size is loaded as the same limits from 64 on, and refused below. -/
theorem size_only_settled (n : Nat) (hpos : 1 ≤ n) (hsmall : n ≤ 9223372036854775807) :
    withMaxStackSize n = ⟨n, min 64 n⟩ ∧
    (withMaxStackSize n).validate = .ok (withMaxStackSize n) ∧
    (∃ text, (withMaxStackSize n).toText? = some text ∧ ofText text = .ok (withMaxStackSize n)) ∧
    (∀ ending ∈ ["", "\n", "\r\n", " # no capacity"],
      Toml.parse? ("max_stack_size = " ++ toString n ++ ending) =
        some [("max_stack_size", .integer n)]) ∧
    ∀ text, Toml.parse? text = some [("max_stack_size", .integer n)] →
      ofText text =
        if n < 64 then .error (.invalid (.capacityBeyondSize 64 n))
        else .ok (withMaxStackSize n) := by
  have hsound := validate_of_sound (sound_withMaxStackSize hpos)
  refine ⟨rfl, hsound, ?_, ?_, fun text => ofText_size_eq hpos⟩
  · have hcapacity : (withMaxStackSize n).initialCapacity ≤ maxWritable :=
      (Nat.min_le_right _ _).trans hsmall
    exact ⟨_, toText?_eq hsmall hcapacity, (ofText_writeLines hsmall hcapacity).trans hsound⟩
  · have hendings : ∀ ending ∈ ["", "\n", "\r\n", " # no capacity"],
        ending.toList.head?.all (fun c => !Toml.isWordChar c) ∧
          Toml.finishLine ending.toList = some [] := by
      decide
    intro ending hending
    obtain ⟨hstop, hend⟩ := hendings ending hending
    exact parse?_size hsmall (by simpa [Option.all_eq_true] using hstop) hend

/-- The largest size that is refused and the smallest that is not. -/
theorem size_only_settled_default :
    ofText "max_stack_size = 63" = .error (.invalid (.capacityBeyondSize 64 63)) ∧
      ofText "max_stack_size = 64\n" = .ok (withMaxStackSize 64) := by
  obtain ⟨-, -, -, hparse, hload⟩ := size_only_settled 63 (by decide) (by decide)
  obtain ⟨-, -, -, hparseNext, hloadNext⟩ := size_only_settled 64 (by decide) (by decide)
  exact ⟨hload _ (hparse "" (by simp)), hloadNext _ (hparseNext "\n" (by simp))⟩

/-- A size of sixteen makes limits that are sound, but a document with that size and nothing else is
refused. -/
theorem size_only_refused :
    ofText "max_stack_size = 16" = .error (.invalid (.capacityBeyondSize 64 16)) ∧
      ofText "max_stack_size = 16" ≠ .ok (withMaxStackSize 16) ∧
      (withMaxStackSize 16).validate = .ok ⟨16, 16⟩ := by
  have hparse : Toml.parse? "max_stack_size = 16" = some [(sizeKey, .integer (16 : Nat))] := by cbv
  have hload : ofText "max_stack_size = 16" = .error (.invalid (.capacityBeyondSize 64 16)) :=
    ofText_size_eq (by decide) hparse
  refine ⟨hload, ?_, rfl⟩
  rw [hload]
  rintro ⟨⟩

end HostStack.StackConfig
