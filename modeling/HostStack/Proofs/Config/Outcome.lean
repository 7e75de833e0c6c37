import HostStack.Config.Loading
import HostStack.Proofs.Toml.Distinct
import Mathlib

/-!
# How loading limits ends

Loading a file is loading the text that its bytes encode. That they encode one at all, and that
there is a file, comes before anything that a text says.

A text that is no document is malformed, whatever else it says. Of a document only the entries under
the two keys count, in their order. The first of them that is not an integer from zero on ends the
loading, and nothing that the limits are checked for can come before that. If there is none, each
limit is the integer under its key or else the default, and the limits are returned unless they are
at fault. Since no key stands twice in a document, there is only one way to read a limit.

An error is described by its kind and by its words. What is said of a wrong value depends on what it
is, so the words are written out here for every sort of value.
-/

namespace HostStack

namespace Toml.Value

/-- The values that are sizes. -/
def IsSize (value : Value) : Prop :=
  ∃ n : Nat, value = .integer n

theorem size?_integer (n : Nat) : (Value.integer n).size? = some n := by
  rw [size?, if_pos (Int.natCast_nonneg n), Int.toNat_natCast]

theorem size?_eq_none {value : Value} (h : ¬value.IsSize) : value.size? = none := by
  cases value with
  | integer n =>
      refine if_neg fun hpos => h ?_
      exact ⟨n.toNat, by rw [Int.toNat_of_nonneg hpos]⟩
  | boolean _ | float _ | string _ | dateTime _ | array _ | table _ _ | tables _ => rfl

end Toml.Value

namespace StackConfig

open Toml (Entries Value)

/-- The entries under the two keys. -/
def listed (entries : Entries) : Entries :=
  entries.filter fun entry => entry.1 = sizeKey ∨ entry.1 = capacityKey

/-- A limit as some entries give it: the integer under a key, or the default if there is none. -/
def Gives (entries : Entries) (key : String) (default n : Nat) : Prop :=
  (key, .integer n) ∈ entries ∨ key ∉ entries.keys ∧ n = default

theorem sizeKey_ne_capacityKey : sizeKey ≠ capacityKey := by decide

/-! ### Single entries -/

theorem takeEntry_size (config : StackConfig) (n : Nat) :
    config.takeEntry (sizeKey, .integer n) = .ok { config with maxStackSize := n } := by
  rw [takeEntry, if_pos (.inl rfl), Value.size?_integer]
  dsimp only
  rw [if_pos rfl]

theorem takeEntry_capacity (config : StackConfig) (n : Nat) :
    config.takeEntry (capacityKey, .integer n) = .ok { config with initialCapacity := n } := by
  rw [takeEntry, if_pos (.inr rfl), Value.size?_integer]
  dsimp only
  rw [if_neg sizeKey_ne_capacityKey.symm]

theorem takeEntry_misfit (config : StackConfig) {key : String} {value : Value}
    (hkey : key = sizeKey ∨ key = capacityKey) (hvalue : ¬value.IsSize) :
    config.takeEntry (key, value) = .error (.notASize value) := by
  rw [takeEntry, if_pos hkey, Value.size?_eq_none hvalue]

theorem takeEntry_other (config : StackConfig) {entry : String × Value}
    (hkey : ¬(entry.1 = sizeKey ∨ entry.1 = capacityKey)) :
    config.takeEntry entry = .ok config := by
  obtain ⟨key, value⟩ := entry
  rw [takeEntry, if_neg hkey]

/-! ### All entries -/

theorem foldlM_listed (entries : Entries) (config : StackConfig) :
    (listed entries).foldlM takeEntry config = entries.foldlM takeEntry config := by
  induction entries generalizing config with
  | nil => rfl
  | cons entry rest ih =>
      by_cases hkey : entry.1 = sizeKey ∨ entry.1 = capacityKey
      · have hlisted : listed (entry :: rest) = entry :: listed rest :=
          List.filter_cons_of_pos (by simpa using hkey)
        rw [hlisted, List.foldlM_cons, List.foldlM_cons]
        exact bind_congr fun next => ih next
      · have hlisted : listed (entry :: rest) = listed rest :=
          List.filter_cons_of_neg (by simpa using hkey)
        rw [hlisted, List.foldlM_cons, takeEntry_other config hkey]
        exact ih config

theorem Gives.head {rest : Entries} {key : String} {default n m : Nat}
    (h : Gives rest key n m) : Gives ((key, .integer n) :: rest) key default m := by
  rcases h with hmem | ⟨-, rfl⟩
  · exact .inl (List.mem_cons_of_mem _ hmem)
  · exact .inl List.mem_cons_self

theorem Gives.tail {rest : Entries} {key : String} {default m : Nat} (h : Gives rest key default m)
    {entry : String × Value} (hkey : key ≠ entry.1) : Gives (entry :: rest) key default m := by
  rcases h with hmem | ⟨hnone, heq⟩
  · exact .inl (List.mem_cons_of_mem _ hmem)
  · refine .inr ⟨?_, heq⟩
    rw [Entries.keys, List.map_cons, List.mem_cons]
    rintro (hhead | htail)
    · exact hkey hhead
    · exact hnone htail

theorem foldlM_sizes {known : Entries}
    (hkeys : ∀ entry ∈ known, entry.1 = sizeKey ∨ entry.1 = capacityKey)
    (hsizes : ∀ entry ∈ known, entry.2.IsSize) (config : StackConfig) :
    ∃ size capacity, known.foldlM takeEntry config = .ok ⟨size, capacity⟩ ∧
      Gives known sizeKey config.maxStackSize size ∧
      Gives known capacityKey config.initialCapacity capacity := by
  induction known generalizing config with
  | nil =>
      refine ⟨config.maxStackSize, config.initialCapacity, rfl, ?_, ?_⟩
      · exact .inr ⟨List.not_mem_nil, rfl⟩
      · exact .inr ⟨List.not_mem_nil, rfl⟩
  | cons entry rest ih =>
      obtain ⟨key, value⟩ := entry
      obtain ⟨n, rfl⟩ : value.IsSize := hsizes _ List.mem_cons_self
      have hrest := ih (fun entry hmem => hkeys entry (List.mem_cons_of_mem _ hmem))
        (fun entry hmem => hsizes entry (List.mem_cons_of_mem _ hmem))
      rw [List.foldlM_cons]
      rcases hkeys _ List.mem_cons_self with hkey | hkey
      · obtain rfl : key = sizeKey := hkey
        obtain ⟨size, capacity, hrun, hsize, hcapacity⟩ := hrest { config with maxStackSize := n }
        rw [takeEntry_size]
        exact ⟨size, capacity, hrun, hsize.head, hcapacity.tail sizeKey_ne_capacityKey.symm⟩
      · obtain rfl : key = capacityKey := hkey
        obtain ⟨size, capacity, hrun, hsize, hcapacity⟩ :=
          hrest { config with initialCapacity := n }
        rw [takeEntry_capacity]
        exact ⟨size, capacity, hrun, hsize.tail sizeKey_ne_capacityKey, hcapacity.head⟩

/-- The first value that is no size ends the loading, whatever comes behind it. -/
theorem foldlM_misfit {known before after : Entries} {key : String} {value : Value}
    (hkeys : ∀ entry ∈ known, entry.1 = sizeKey ∨ entry.1 = capacityKey)
    (hknown : known = before ++ (key, value) :: after)
    (hsizes : ∀ entry ∈ before, entry.2.IsSize) (hvalue : ¬value.IsSize) (config : StackConfig) :
    known.foldlM takeEntry config = .error (.notASize value) := by
  subst hknown
  obtain ⟨size, capacity, hbefore, -⟩ :=
    foldlM_sizes (fun entry hmem => hkeys entry (List.mem_append_left _ hmem)) hsizes config
  have hkey := hkeys (key, value) (by simp)
  rw [List.foldlM_append, hbefore]
  show (takeEntry _ _).bind _ = _
  rw [takeEntry_misfit _ hkey hvalue]
  rfl

/-! ### Texts and files -/

theorem mem_listed {entries : Entries} {entry : String × Value} :
    entry ∈ listed entries ↔
      entry ∈ entries ∧ (entry.1 = sizeKey ∨ entry.1 = capacityKey) := by
  rw [listed, List.mem_filter, decide_eq_true_eq]

theorem Gives.of_listed {entries : Entries} {key : String} {default n : Nat}
    (hkey : key = sizeKey ∨ key = capacityKey) (h : Gives (listed entries) key default n) :
    Gives entries key default n := by
  rcases h with hmem | ⟨hnone, heq⟩
  · exact .inl (mem_listed.1 hmem).1
  · refine .inr ⟨fun hsome => hnone ?_, heq⟩
    obtain ⟨entry, hentry, rfl⟩ := List.mem_map.1 hsome
    exact List.mem_map_of_mem (mem_listed.2 ⟨hentry, hkey⟩)

/-- What is given for a limit is given for good, since no key stands twice. -/
theorem Gives.iff_eq {entries : Entries} {key : String} {default n : Nat}
    (h : Gives entries key default n) (hd : entries.Distinct) (m : Nat) :
    Gives entries key default m ↔ m = n := by
  refine ⟨fun h' => ?_, fun heq => heq ▸ h⟩
  rcases h with hn | ⟨hnone, hn⟩
  · rcases h' with hm | ⟨hnone', -⟩
    · have hint := hd.value_eq hm hn
      injection hint with hint
      exact Int.ofNat_inj.1 hint
    · exact absurd (List.mem_map_of_mem hn) hnone'
  · rcases h' with hm | ⟨-, hm⟩
    · exact absurd (List.mem_map_of_mem hm) hnone
    · exact hm.trans hn.symm

theorem validate_eq (size capacity : Nat) :
    validate ⟨size, capacity⟩ =
      if size = 0 then .error (.invalid .zeroSize)
      else if 65536 < capacity then .error (.invalid (.capacityBeyondLimit capacity))
      else if size < capacity then .error (.invalid (.capacityBeyondSize capacity size))
      else .ok ⟨size, capacity⟩ := by
  rw [validate, fault?, maxInitialCapacity]
  dsimp only
  split_ifs <;> rfl

theorem ofText_eq {text : String} {entries : Entries} (h : Toml.parse? text = some entries) :
    ofText text = ((listed entries).foldlM takeEntry default).bind validate := by
  rw [ofText, h, foldlM_listed]
  rfl

/-- Limits that are not at fault. -/
def Sound (config : StackConfig) : Prop :=
  0 < config.maxStackSize ∧ config.initialCapacity ≤ 65536 ∧
    config.initialCapacity ≤ config.maxStackSize

theorem sound_of_validate {config config' : StackConfig} (h : config.validate = .ok config') :
    config'.Sound := by
  obtain ⟨size, capacity⟩ := config
  rw [validate_eq] at h
  split_ifs at h with hzero hlimit hsize
  injection h with h
  subst h
  refine ⟨?_, ?_, ?_⟩ <;> dsimp only <;> omega

theorem sound_of_ofText {text : String} {config : StackConfig} (h : ofText text = .ok config) :
    config.Sound := by
  cases hparse : Toml.parse? text with
  | none =>
      rw [ofText, hparse] at h
      cases h
  | some entries =>
      rw [ofText_eq hparse] at h
      cases hrun : (listed entries).foldlM takeEntry default with
      | error e =>
          rw [hrun] at h
          cases h
      | ok config' =>
          rw [hrun] at h
          exact sound_of_validate h

theorem sound_of_ofFile {file : FileState} {config : StackConfig} (h : ofFile file = .ok config) :
    config.Sound := by
  cases file with
  | missing | directory => cases h
  | contents bytes =>
      rw [ofFile] at h
      split at h
      · exact sound_of_ofText h
      · cases h

/-! ### Files -/

theorem fromUTF8?_toUTF8 (text : String) : String.fromUTF8? text.toUTF8 = some text := by
  rw [String.fromUTF8?, String.toUTF8_eq_toByteArray, dif_pos text.isValidUTF8]
  rfl

theorem toUTF8_of_fromUTF8? {bytes : ByteArray} {text : String}
    (h : String.fromUTF8? bytes = some text) : text.toUTF8 = bytes := by
  rw [String.fromUTF8?] at h
  split at h
  · cases h
    rfl
  · cases h

theorem ofFile_toUTF8 (text : String) :
    ofFile (.contents text.toUTF8.data.toList) = ofText text := by
  have hread : String.fromUTF8? ⟨text.toUTF8.data⟩ = some text := fromUTF8?_toUTF8 text
  rw [ofFile, Array.toArray_toList, hread]

theorem ofFile_not_toUTF8 {bytes : List UInt8}
    (h : ∀ text : String, text.toUTF8.data.toList ≠ bytes) :
    ofFile (.contents bytes) = .error .invalidText := by
  rw [ofFile]
  cases hread : String.fromUTF8? ⟨bytes.toArray⟩ with
  | none => rfl
  | some text =>
      refine absurd ?_ (h text)
      rw [toUTF8_of_fromUTF8? hread]

/-! ### Errors in words -/

/-- What is said of a value in the place of a size. Of a size nothing is said. -/
inductive Complaint : Value → String → Prop
  | negative {n : Int} : n < 0 →
      Complaint (.integer n) ("invalid value: integer `" ++ toString n ++ "`")
  | yes : Complaint (.boolean true) "invalid type: boolean `true`"
  | no : Complaint (.boolean false) "invalid type: boolean `false`"
  | float (x : Float) :
      Complaint (.float x) ("invalid type: floating point `" ++ Decimal.floatText x ++ "`")
  | string (s : String) : Complaint (.string s) ("invalid type: string " ++ Text.quotedString s)
  | array (elements : List Value) : Complaint (.array elements) "invalid type: sequence"
  | tables (elements : List Entries) : Complaint (.tables elements) "invalid type: sequence"
  | table (origin : Toml.Origin) (entries : Entries) :
      Complaint (.table origin entries) "invalid type: map"
  | dateTime (written : String) : Complaint (.dateTime written) "invalid type: map"

/-- Loading ends with an error, which is of a kind and has certain words, if it has words. -/
structure Fails (outcome : Except ConfigError StackConfig) (e : ConfigError)
    (kind : ConfigErrorKind) (words : Option String) : Prop where
  error : outcome = .error e
  kind : e.kind = kind
  words : e.message? = words

theorem complaint_misfit {value : Value} (h : ¬value.IsSize) : Complaint value value.misfit := by
  cases value with
  | integer n =>
      refine .negative (Int.not_le.1 fun hpos => h ⟨n.toNat, ?_⟩)
      rw [Int.toNat_of_nonneg hpos]
  | boolean b =>
      cases b with
      | true => exact .yes
      | false => exact .no
  | float x => exact .float x
  | string s => exact .string s
  | array elements => exact .array elements
  | tables elements => exact .tables elements
  | table origin entries => exact .table origin entries
  | dateTime written => exact .dateTime written

/-- What two limits come to: their first fault, or the limits as they are. -/
structure Checks (size capacity : Nat) (outcome : Except ConfigError StackConfig) : Prop where
  zero : size = 0 → Fails outcome (.invalid .zeroSize) .invalid
    (some "Invalid config: max_stack_size must be greater than zero")
  beyondLimit : 0 < size → 65536 < capacity →
    Fails outcome (.invalid (.capacityBeyondLimit capacity)) .invalid
      (some ("Invalid config: initial_capacity (" ++ toString capacity ++
        ") exceeds the preallocation limit (65536)"))
  beyondSize : 0 < size → capacity ≤ 65536 → size < capacity →
    Fails outcome (.invalid (.capacityBeyondSize capacity size)) .invalid
      (some ("Invalid config: initial_capacity (" ++ toString capacity ++
        ") exceeds max_stack_size (" ++ toString size ++ ")"))
  sound : 0 < size → capacity ≤ 65536 → capacity ≤ size → outcome = .ok ⟨size, capacity⟩

theorem checks_validate (size capacity : Nat) : Checks size capacity (validate ⟨size, capacity⟩) := by
  have htail : ") exceeds the preallocation limit (" ++ toString maxInitialCapacity ++ ")" =
      ") exceeds the preallocation limit (65536)" := by decide
  rw [validate_eq]
  constructor
  case zero =>
    intro hzero
    rw [if_pos hzero]
    exact ⟨rfl, rfl, rfl⟩
  case beyondLimit =>
    intro hsize hcapacity
    rw [if_neg (by omega), if_pos hcapacity]
    refine ⟨rfl, rfl, ?_⟩
    rw [← htail, ← String.append_assoc, ← String.append_assoc]
    rfl
  case beyondSize =>
    intro hsize hcapacity hbeyond
    rw [if_neg (by omega), if_neg (by omega), if_pos hbeyond]
    exact ⟨rfl, rfl, rfl⟩
  case sound =>
    intro hsize hcapacity hwithin
    rw [if_neg (by omega), if_neg (by omega), if_neg (by omega)]

/-! ### The whole of it -/

/-- How loading a document with some entries ends. -/
structure Settles (entries : Entries) (outcome : Except ConfigError StackConfig) : Prop where
  /-- The first value that is no size is reported. -/
  misfit : ∀ before key value after, listed entries = before ++ (key, value) :: after →
    (∀ entry ∈ before, entry.2.IsSize) → ¬value.IsSize →
    ∃ complaint, Complaint value complaint ∧
      Fails outcome (.notASize value) .parse (some (complaint ++ ", expected usize"))
  /-- If there is none, the limits that are given are checked, and returned as they are. -/
  sizes : (∀ entry ∈ listed entries, entry.2.IsSize) →
    ∃ size capacity, (∀ n, Gives entries sizeKey 2048 n ↔ n = size) ∧
      (∀ n, Gives entries capacityKey 64 n ↔ n = capacity) ∧ Checks size capacity outcome

/-- How loading what is under the name of a file ends. -/
structure SettlesFiles : Prop where
  text : ∀ text : String, ofFile (.contents text.toUTF8.data.toList) = ofText text
  noText : ∀ bytes, (∀ text : String, text.toUTF8.data.toList ≠ bytes) →
    Fails (ofFile (.contents bytes)) .invalidText .io
      (some "IO error: stream did not contain valid UTF-8")
  missing : Fails (ofFile .missing) .fileMissing .io
    (some "IO error: No such file or directory (os error 2)")
  directory : Fails (ofFile .directory) .isDirectory .io
    (some "IO error: Is a directory (os error 21)")

theorem settles_ofText {text : String} {entries : Entries} (h : Toml.parse? text = some entries) :
    Settles entries (ofText text) where
  misfit before key value after hlisted hbefore hvalue := by
    refine ⟨value.misfit, complaint_misfit hvalue, ?_, rfl, rfl⟩
    rw [ofText_eq h, foldlM_misfit (fun _ h => (mem_listed.1 h).2) hlisted hbefore hvalue]
    rfl
  sizes hsizes := by
    obtain ⟨size, capacity, hrun, hsize, hcapacity⟩ :=
      foldlM_sizes (fun _ h => (mem_listed.1 h).2) hsizes default
    have hd := Toml.parse?_distinct h
    refine ⟨size, capacity, (hsize.of_listed (.inl rfl)).iff_eq hd,
      (hcapacity.of_listed (.inr rfl)).iff_eq hd, ?_⟩
    rw [ofText_eq h, hrun]
    exact checks_validate size capacity

theorem settlesFiles : SettlesFiles where
  text := ofFile_toUTF8
  noText _ h := ⟨ofFile_not_toUTF8 h, rfl, rfl⟩
  missing := ⟨rfl, rfl, rfl⟩
  directory := ⟨rfl, rfl, rfl⟩

/-- Loading a file is loading its text. Loading a text is settled by the entries under the two keys,
and limits that are returned are never at fault. -/
theorem loading_settled :
    (∀ text, Toml.parse? text = none → Fails (ofText text) .malformed .parse none) ∧
    (∀ text entries, Toml.parse? text = some entries →
      entries.Distinct ∧ Settles entries (ofText text) ∧
        ∀ other others, Toml.parse? other = some others → listed others = listed entries →
          ofText other = ofText text) ∧
    SettlesFiles ∧
    (∀ text config, ofText text = .ok config → config.Sound) ∧
    ∀ file config, ofFile file = .ok config → config.Sound := by
  refine ⟨?_, ?_, settlesFiles, fun _ _ => sound_of_ofText, fun _ _ => sound_of_ofFile⟩
  · intro text hparse
    refine ⟨?_, rfl, rfl⟩
    rw [ofText, hparse]
  · intro text entries hparse
    refine ⟨Toml.parse?_distinct hparse, settles_ofText hparse, ?_⟩
    intro other others hother hsame
    rw [ofText_eq hother, ofText_eq hparse, hsame]

/-- The byte 255 stands in no text. -/
theorem toUTF8_ne_ff (text : String) : text.toUTF8.data.toList ≠ [0xff] := by
  intro h
  have hbytes : text.toByteArray = ⟨#[0xff]⟩ := by
    rw [← String.toUTF8_eq_toByteArray]
    exact ByteArray.ext (Array.toList_inj.1 h)
  have hvalid := text.isValidUTF8
  rw [hbytes] at hvalid
  exact absurd hvalid (by decide)

/-- Files with a negative capacity before a size that is a string, with and without other entries;
with a size that is a string with a quote in it; with a size below the default capacity, which a
table of its own does not change; with a size alone; and with a byte that stands in no text. -/
theorem loading_settled_foreign :
    let load := fun text : String => ofFile (.contents text.toUTF8.data.toList)
    let text := "b=[]\ninitial_capacity=-1\nmax_stack_size='x'\n[a]\nmax_stack_size=1"
    load "initial_capacity=-1\nmax_stack_size='x'" = load text ∧
      Fails (load text) (.notASize (.integer (-1))) .parse
        (some "invalid value: integer `-1`, expected usize") ∧
      Fails (load "max_stack_size='a\"b'") (.notASize (.string "a\"b")) .parse
        (some "invalid type: string \"a\\\"b\", expected usize") ∧
      Fails (load "max_stack_size=8\n[a]\ninitial_capacity=4")
        (.invalid (.capacityBeyondSize 64 8)) .invalid
        (some "Invalid config: initial_capacity (64) exceeds max_stack_size (8)") ∧
      load "max_stack_size = 512\n" = .ok ⟨512, 64⟩ ∧
      Fails (ofFile (.contents [0xff])) .invalidText .io
        (some "IO error: stream did not contain valid UTF-8") := by
  have hparsed := loading_settled.2.1
  have hfiles := loading_settled.2.2.1
  have hnegative : Toml.parse? "initial_capacity=-1\nmax_stack_size='x'" =
      some [(capacityKey, .integer (-1)), (sizeKey, .string "x")] := by cbv
  have htext : Toml.parse?
      "b=[]\ninitial_capacity=-1\nmax_stack_size='x'\n[a]\nmax_stack_size=1" =
      some [("b", .array []), (capacityKey, .integer (-1)), (sizeKey, .string "x"),
        ("a", .table .header [(sizeKey, .integer 1)])] := by cbv
  have hquoted : Toml.parse? "max_stack_size='a\"b'" = some [(sizeKey, .string "a\"b")] := by cbv
  have hsmall : Toml.parse? "max_stack_size=8\n[a]\ninitial_capacity=4" =
      some [(sizeKey, .integer 8), ("a", .table .header [(capacityKey, .integer 4)])] := by cbv
  have halone : Toml.parse? "max_stack_size = 512\n" = some [(sizeKey, .integer 512)] := by cbv
  intro load text
  have hload : ∀ text, load text = ofText text := hfiles.text
  rw [hload, hload, hload, hload, hload]
  refine ⟨?_, ?_, ?_, ?_, ?_, ?_⟩
  · exact (hparsed _ _ htext).2.2 _ _ hnegative rfl
  · have hmisfit : ¬(Value.integer (-1)).IsSize := by
      rintro ⟨n, hn⟩
      injection hn with hn
      omega
    obtain ⟨complaint, hcomplaint, hfails⟩ :=
      (hparsed _ _ htext).2.1.misfit [] capacityKey (.integer (-1)) _ rfl (by simp) hmisfit
    cases hcomplaint
    exact hfails
  · have hmisfit : ¬(Value.string "a\"b").IsSize := by
      rintro ⟨n, hn⟩
      cases hn
    obtain ⟨complaint, hcomplaint, hfails⟩ :=
      (hparsed _ _ hquoted).2.1.misfit [] sizeKey (.string "a\"b") _ rfl (by simp) hmisfit
    cases hcomplaint
    exact hfails
  · obtain ⟨size, capacity, hsize, hcapacity, hchecks⟩ :=
      (hparsed _ _ hsmall).2.1.sizes (List.forall_mem_singleton.2 ⟨8, rfl⟩)
    obtain rfl : 8 = size := (hsize 8).1 (.inl List.mem_cons_self)
    obtain rfl : 64 = capacity := (hcapacity 64).1 (.inr ⟨by decide, rfl⟩)
    exact hchecks.beyondSize (by decide) (by decide) (by decide)
  · obtain ⟨size, capacity, hsize, hcapacity, hchecks⟩ :=
      (hparsed _ _ halone).2.1.sizes (List.forall_mem_singleton.2 ⟨512, rfl⟩)
    obtain rfl : 512 = size := (hsize 512).1 (.inl List.mem_cons_self)
    obtain rfl : 64 = capacity := (hcapacity 64).1 (.inr ⟨by decide, rfl⟩)
    exact hchecks.sound (by decide) (by decide) (by decide)
  · exact hfiles.noText _ toUTF8_ne_ff

end StackConfig

end HostStack
