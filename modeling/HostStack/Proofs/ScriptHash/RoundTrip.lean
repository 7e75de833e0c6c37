import HostStack.Proofs.ScriptHash.Grammar
import Mathlib.Data.List.Forall2

/-!
# Script hashes and their texts

A hash is written in one way and can be spelled in many. A text is read as a hash exactly if, when
its marker is removed and its letters are put into lower case, it is the digits that the hash is
written with. So every spelling of a hash is read as the hash and nothing else is, and two texts
stand for the same hash if they differ in nothing but their markers and the case of their letters.
-/

namespace HostStack.ScriptHash

open Hex (Spells lowerDigits)

/-- The digits that a hash is written with. -/
def digits (hash : ScriptHash) : String :=
  String.ofList (Hex.encode hash.bytes.reverse)

variable {hash hash' : ScriptHash} {text rest : String}

theorem toText_eq (hash : ScriptHash) : hash.toText = "0x" ++ hash.digits := by
  rw [eq_lower_iff, toText, digits, String.toList_ofList, String.toList_ofList]

theorem length_digits (hash : ScriptHash) : hash.digits.length = 40 := by
  rw [← String.length_toList, digits, String.toList_ofList, Hex.length_encode,
    List.length_reverse, hash.length_bytes]

theorem mem_lowerDigits (hash : ScriptHash) : ∀ c ∈ hash.digits.toList, c ∈ lowerDigits := by
  intro c hc
  rw [digits, String.toList_ofList] at hc
  exact Hex.mem_lowerDigits_of_mem_encode hc

/-- What a text spells can be told from its letters in lower case. -/
theorem toLower_eq_digits_iff :
    text.toLower = hash.digits ↔ Spells text.toList hash.bytes.reverse := by
  have hlower : text.toLower.toList = text.toList.map Char.toLower := String.toList_map
  rw [Hex.spells_iff, ← hlower, digits, String.ext_iff, String.toList_ofList]

/-- A text is read as a hash if and only if it is the digits of the hash, but for a marker and the
case of its letters. -/
theorem Unmarked.ofText_eq_ok_iff_toLower (h : Unmarked text rest) :
    ofText text = .ok hash ↔ rest.toLower = hash.digits :=
  h.ofText_eq_ok_iff.trans toLower_eq_digits_iff.symm

/-! ### Spellings -/

/-- The digits of a hash, any of them in upper case. -/
def Spelling (hash : ScriptHash) (text : String) : Prop :=
  List.Forall₂ (fun c d => d = c ∨ d = c.toUpper) hash.digits.toList text.toList

theorem map_toLower_of_forall₂ {cs ds : List Char}
    (h : List.Forall₂ (fun c d => d = c ∨ d = c.toUpper) cs ds)
    (hcs : ∀ c ∈ cs, c ∈ lowerDigits) : ds.map Char.toLower = cs := by
  induction h with
  | nil => rfl
  | @cons c d cs ds hd _ ih =>
      have hc := hcs c List.mem_cons_self
      have hrest := ih fun c hc => hcs c (List.mem_cons_of_mem _ hc)
      rcases hd with rfl | rfl
      · rw [List.map_cons, hrest, Hex.toLower_of_mem_lowerDigits _ hc]
      · rw [List.map_cons, hrest, Hex.toLower_toUpper_of_mem_lowerDigits _ hc]

theorem Spelling.spells (h : hash.Spelling text) : Spells text.toList hash.bytes.reverse := by
  have hlower := map_toLower_of_forall₂ h hash.mem_lowerDigits
  rwa [digits, String.toList_ofList, ← Hex.spells_iff] at hlower

theorem spelling_digits (hash : ScriptHash) : hash.Spelling hash.digits :=
  List.forall₂_same.2 fun _ _ => .inl rfl

theorem ofText_spelling {marker : String} (hmarker : marker ∈ markers) (h : hash.Spelling text) :
    ofText (marker ++ text) = .ok hash :=
  (unmarked_of_digits hmarker h.spells.isDigit).ofText_eq_ok_iff.2 h.spells

theorem ofText_toText (hash : ScriptHash) : ofText hash.toText = .ok hash := by
  rw [toText_eq]
  exact ofText_spelling (by simp [markers]) hash.spelling_digits

theorem toText_injective (h : hash.toText = hash'.toText) : hash = hash' := by
  have hread := hash.ofText_toText
  rw [h, hash'.ofText_toText, Except.ok.injEq] at hread
  exact hread.symm

theorem Unmarked.toText_eq (h : Unmarked text rest) (hread : ofText text = .ok hash) :
    hash.toText = "0x" ++ rest.toLower := by
  rw [hash.toText_eq, h.ofText_eq_ok_iff_toLower.1 hread]

/-- A hash is written as `0x` and forty digits in lower case, and no other hash is written so. Its
digits are read as the hash, in whatever case, behind either marker or none. And what is read as a
hash is written as its own digits in lower case, so two texts are read as the same hash exactly if
they are the same but for marker and case. -/
theorem text_round_trips :
    (∀ hash : ScriptHash, ofText hash.toText = .ok hash ∧
      ∃ digits : String, hash.toText = "0x" ++ digits ∧ digits.length = 40 ∧
        (∀ c ∈ digits.toList, c ∈ "0123456789abcdef".toList) ∧
        ∀ marker ∈ ["", "0x", "0X"], ∀ text : String,
          List.Forall₂ (fun c d => d = c ∨ d = c.toUpper) digits.toList text.toList →
          ofText (marker ++ text) = .ok hash) ∧
    (∀ hash hash' : ScriptHash, hash.toText = hash'.toText → hash = hash') ∧
    ∀ text hash rest, ofText text = .ok hash → Unmarked text rest →
      hash.toText = "0x" ++ rest.toLower ∧
        ∀ text' hash' rest', ofText text' = .ok hash' → Unmarked text' rest' →
          (hash = hash' ↔ rest.toLower = rest'.toLower) := by
  refine ⟨?_, fun hash hash' => toText_injective, ?_⟩
  · intro hash
    refine ⟨hash.ofText_toText, hash.digits, hash.toText_eq, hash.length_digits,
      hash.mem_lowerDigits, ?_⟩
    intro marker hmarker text hspelling
    exact ofText_spelling hmarker hspelling
  · intro text hash rest hread hrest
    refine ⟨hrest.toText_eq hread, ?_⟩
    intro text' hash' rest' hread' hrest'
    rw [hrest.ofText_eq_ok_iff_toLower] at hread
    rw [hrest'.ofText_eq_ok_iff_toLower] at hread'
    constructor
    · rintro rfl
      rw [hread, hread']
    · intro hsame
      refine toText_injective ?_
      rw [hash.toText_eq, hash'.toText_eq, ← hread, ← hread', hsame]

/-- Two spellings of one hash, with both cases in each. -/
theorem text_round_trips_mixed :
    let hash : ScriptHash := ⟨List.replicate 20 0xab, List.length_replicate⟩
    let upperFirst := "AbAbAbAbAbAbAbAbAbAbAbAbAbAbAbAbAbAbAbAb"
    let lowerFirst := "aBaBaBaBaBaBaBaBaBaBaBaBaBaBaBaBaBaBaBaB"
    ofText ("0X" ++ upperFirst) = .ok hash ∧ ofText ("0x" ++ lowerFirst) = .ok hash ∧
      hash.toText = "0x" ++ upperFirst.toLower ∧ upperFirst.toLower = lowerFirst.toLower := by
  intro hash upperFirst lowerFirst
  have hupper : ofText ("0X" ++ upperFirst) = .ok hash :=
    (Unmarked.upper upperFirst).ofText_eq_ok_iff.2 (Hex.spells_iff.2 (by decide))
  have hlower : ofText ("0x" ++ lowerFirst) = .ok hash :=
    (Unmarked.lower lowerFirst).ofText_eq_ok_iff.2 (Hex.spells_iff.2 (by decide))
  have hread := text_round_trips.2.2 _ hash _ hupper (.upper upperFirst)
  exact ⟨hupper, hlower, hread.1, (hread.2 _ hash _ hlower (.lower lowerFirst)).1 rfl⟩

end HostStack.ScriptHash
