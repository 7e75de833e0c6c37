import HostStack.Text.Hex
import Mathlib.Data.Bool.AllAny
import Mathlib.Data.List.Basic
import Mathlib.Tactic.SplitIfs

/-!
# What hexadecimal text spells

A text spells some bytes if it has two digits for each of them. That is said without a word about
how a text is read: in which order the digits are looked at, and what happens where there is none.
Reading returns what the text spells if it spells anything. If not, the first byte that is no digit
is told, unless the number of bytes is odd, which is told before any byte is looked at.

Digits are characters and the reader works on bytes, so each byte is taken as the character of the
same number. In UTF-8 nothing is lost by that. A character beyond the ASCII range is written in
bytes that are beyond it as well, and no digit is there.

A text spells some bytes exactly when it is, in lower case, what these bytes are written as. All
that is said about spelling bytes in several ways follows from that.
-/

namespace HostStack.Hex

/-! ### Digits -/

def lowerDigits : List Char :=
  "0123456789abcdef".toList

def upperDigits : List Char :=
  "0123456789ABCDEF".toList

/-- A digit of either case stands for its place among the digits of that case. -/
def Digit (c : Char) (n : Nat) : Prop :=
  lowerDigits[n]? = some c ∨ upperDigits[n]? = some c

def IsDigit (c : Char) : Prop :=
  c ∈ lowerDigits ∨ c ∈ upperDigits

instance (c : Char) : Decidable (IsDigit c) :=
  inferInstanceAs (Decidable (_ ∨ _))

theorem isDigit_iff {c : Char} : IsDigit c ↔ ∃ n, Digit c n := by
  rw [IsDigit, List.mem_iff_getElem?, List.mem_iff_getElem?, ← exists_or]
  rfl

/-- Where the digits of a case are, by their numbers. -/
theorem getElem?_eq_some_iff_toNat {digits : List Char} {letters : Nat}
    (hcodes : digits.map Char.toNat = List.range' 48 10 ++ List.range' letters 6) {c : Char}
    {n : Nat} :
    digits[n]? = some c ↔
      n < 10 ∧ c.toNat = 48 + n ∨ (10 ≤ n ∧ n < 16) ∧ c.toNat + 10 = letters + n := by
  have hcode : digits[n]? = some c ↔ (digits.map Char.toNat)[n]? = some c.toNat := by
    rw [List.getElem?_map, Option.map_eq_some_iff]
    constructor
    · intro h
      exact ⟨c, h, rfl⟩
    · rintro ⟨d, hd, heq⟩
      rw [hd, Char.toNat_inj.1 heq]
  rw [hcode, hcodes]
  by_cases hn : n < 10
  · rw [List.getElem?_append_left (by simpa using hn), List.getElem?_range' hn, Option.some.injEq]
    omega
  · rw [List.getElem?_append_right (by simpa using hn), List.length_range']
    by_cases hn' : n < 16
    · rw [List.getElem?_range' (by omega), Option.some.injEq]
      omega
    · rw [List.getElem?_eq_none (by rw [List.length_range']; omega)]
      simp
      omega

theorem digit_iff {c : Char} {n : Nat} :
    Digit c n ↔ n < 10 ∧ c.toNat = 48 + n ∨
      (10 ≤ n ∧ n < 16) ∧ (c.toNat = 87 + n ∨ c.toNat = 55 + n) := by
  have hlower : lowerDigits.map Char.toNat = List.range' 48 10 ++ List.range' 97 6 := rfl
  have hupper : upperDigits.map Char.toNat = List.range' 48 10 ++ List.range' 65 6 := rfl
  rw [Digit, getElem?_eq_some_iff_toNat hlower, getElem?_eq_some_iff_toNat hupper]
  omega

theorem Digit.lt {c : Char} {n : Nat} (h : Digit c n) : n < 16 := by
  rw [digit_iff] at h
  omega

theorem Digit.unique {c : Char} {m n : Nat} (hm : Digit c m) (hn : Digit c n) : m = n := by
  rw [digit_iff] at hm hn
  omega

theorem IsDigit.ascii {c : Char} (h : IsDigit c) : c.toNat < 128 := by
  obtain ⟨n, hn⟩ := isDigit_iff.1 h
  rw [digit_iff] at hn
  omega

theorem toNat_ofUInt8 (b : UInt8) : (Char.ofUInt8 b).toNat = b.toNat :=
  UInt8.toNat_toUInt32 b

theorem digitValue?_eq_some_iff {b : UInt8} {n : Nat} :
    digitValue? b = some n ↔ Digit (Char.ofUInt8 b) n := by
  rw [digit_iff, toNat_ofUInt8, digitValue?]
  simp only [show '0'.toNat = 48 from rfl, show '9'.toNat = 57 from rfl,
    show 'a'.toNat = 97 from rfl, show 'f'.toNat = 102 from rfl, show 'A'.toNat = 65 from rfl,
    show 'F'.toNat = 70 from rfl]
  split_ifs <;> simp <;> omega

theorem digitValue?_eq_none_iff {b : UInt8} :
    digitValue? b = none ↔ ¬IsDigit (Char.ofUInt8 b) := by
  rw [isDigit_iff, not_exists, Option.eq_none_iff_forall_ne_some]
  exact forall_congr' fun n => not_congr digitValue?_eq_some_iff

/-! ### Upper and lower case -/

theorem toNat_digitChar {n : Nat} (hn : n < 16) :
    (digitChar n).toNat = if n < 10 then 48 + n else 87 + n := by
  revert n
  decide

theorem toNat_toLower (c : Char) :
    c.toLower.toNat = if 65 ≤ c.toNat ∧ c.toNat ≤ 90 then c.toNat + 32 else c.toNat := by
  have hupper : c.val ≥ 'A'.val ∧ c.val ≤ 'Z'.val ↔ 65 ≤ c.toNat ∧ c.toNat ≤ 90 := by
    rw [ge_iff_le, UInt32.le_iff_toNat_le, UInt32.le_iff_toNat_le]
    rfl
  by_cases hc : c.val ≥ 'A'.val ∧ c.val ≤ 'Z'.val
  · have hlower : c.toLower.val = c.val + ('a'.val - 'A'.val) := congrArg Char.val (dif_pos hc)
    have hle := (hupper.1 hc).2
    rw [if_pos (hupper.1 hc), Char.toNat, hlower, UInt32.toNat_add]
    exact Nat.mod_eq_of_lt (show c.toNat + 32 < 4294967296 by omega)
  · have hlower : c.toLower = c := dif_neg hc
    rw [if_neg (mt hupper.2 hc), hlower]

/-- A digit is, in lower case, the one that its number is written as. -/
theorem digit_iff_toLower {c : Char} {n : Nat} : Digit c n ↔ n < 16 ∧ c.toLower = digitChar n := by
  rw [digit_iff, ← Char.toNat_inj, toNat_toLower]
  constructor
  · intro h
    have hn : n < 16 := by omega
    rw [toNat_digitChar hn]
    split_ifs <;> omega
  · rintro ⟨hn, heq⟩
    rw [toNat_digitChar hn] at heq
    split_ifs at heq <;> omega

-- A quantifier over characters would be decided by going through all of them.
theorem toLower_of_mem_lowerDigits : ∀ c ∈ lowerDigits, c.toLower = c :=
  List.all_iff_forall_prop.1 rfl

theorem toLower_toUpper_of_mem_lowerDigits : ∀ c ∈ lowerDigits, c.toUpper.toLower = c :=
  List.all_iff_forall_prop.1 rfl

/-! ### What a text spells -/

/-- Two digits for each byte, the high half first. -/
inductive Spells : List Char → List UInt8 → Prop
  | nil : Spells [] []
  | cons {high low : Char} {m n : Nat} {text : List Char} {bytes : List UInt8} :
      Digit high m → Digit low n → Spells text bytes →
      Spells (high :: low :: text) (UInt8.ofNat (16 * m + n) :: bytes)

/-- What the two digits from a place on stand for. -/
def Pair (text : List Char) (i : Nat) (b : UInt8) : Prop :=
  ∃ high low m n, text[i]? = some high ∧ text[i + 1]? = some low ∧ Digit high m ∧ Digit low n ∧
    b.toNat = 16 * m + n

theorem Pair.unique {text : List Char} {i : Nat} {b b' : UInt8} (h : Pair text i b)
    (h' : Pair text i b') : b = b' := by
  obtain ⟨high, low, m, n, hhigh, hlow, hm, hn, hb⟩ := h
  obtain ⟨high', low', m', n', hhigh', hlow', hm', hn', hb'⟩ := h'
  rw [hhigh, Option.some.injEq] at hhigh'
  rw [hlow, Option.some.injEq] at hlow'
  subst hhigh' hlow'
  rw [← UInt8.toNat_inj, hb, hb', hm.unique hm', hn.unique hn']

theorem exists_spells {text : List Char} (heven : text.length % 2 = 0)
    (hdigits : ∀ c ∈ text, IsDigit c) : ∃ bytes, Spells text bytes := by
  match text with
  | [] => exact ⟨[], .nil⟩
  | [c] => cases heven
  | high :: low :: rest =>
      obtain ⟨m, hhigh⟩ := isDigit_iff.1 (hdigits high List.mem_cons_self)
      obtain ⟨n, hlow⟩ := isDigit_iff.1 (hdigits low (by simp))
      obtain ⟨bytes, hrest⟩ := exists_spells ((Nat.add_mod_right _ 2).symm.trans heven) fun c hc =>
        hdigits c (List.mem_cons_of_mem _ (List.mem_cons_of_mem _ hc))
      exact ⟨_, .cons hhigh hlow hrest⟩

theorem toNat_pair {m n : Nat} (hm : m < 16) (hn : n < 16) :
    (UInt8.ofNat (16 * m + n)).toNat = 16 * m + n :=
  UInt8.toNat_ofNat_of_lt' (by show _ < 256; omega)

namespace Spells

variable {text : List Char} {bytes : List UInt8}

theorem length_eq (h : Spells text bytes) : text.length = 2 * bytes.length := by
  induction h with
  | nil => rfl
  | cons _ _ _ ih =>
      simp only [List.length_cons]
      omega

theorem isDigit (h : Spells text bytes) : ∀ c ∈ text, IsDigit c := by
  induction h with
  | nil => simp
  | cons hhigh hlow _ ih => simpa using ⟨isDigit_iff.2 ⟨_, hhigh⟩, isDigit_iff.2 ⟨_, hlow⟩, ih⟩

/-- Each byte is what its own two digits stand for. -/
theorem pair (h : Spells text bytes) {i : Nat} {b : UInt8} (hb : bytes[i]? = some b) :
    Pair text (2 * i) b := by
  induction h generalizing i with
  | nil => cases hb
  | @cons high low m n _ _ hhigh hlow _ ih =>
      match i with
      | 0 =>
          cases hb
          exact ⟨high, low, m, n, rfl, rfl, hhigh, hlow, toNat_pair hhigh.lt hlow.lt⟩
      | i + 1 => exact ih hb

end Spells

/-! ### What bytes are written as -/

theorem mem_lowerDigits_of_mem_encode {bytes : List UInt8} {c : Char} (hc : c ∈ encode bytes) :
    c ∈ lowerDigits := by
  have hdigit : ∀ n < 16, digitChar n ∈ lowerDigits := by decide
  obtain ⟨b, -, hc⟩ := List.mem_flatMap.1 hc
  have hb : b.toNat < 256 := b.toNat_lt
  rw [encodeByte, List.mem_pair] at hc
  rcases hc with rfl | rfl
  · exact hdigit _ (by omega)
  · exact hdigit _ (by omega)

theorem map_toLower_encode (bytes : List UInt8) : (encode bytes).map Char.toLower = encode bytes :=
  (List.map_congr_left fun c hc =>
    toLower_of_mem_lowerDigits c (mem_lowerDigits_of_mem_encode hc)).trans (List.map_id _)

/-- What spells some bytes is, in lower case, what they are written as. -/
theorem spells_iff {text : List Char} {bytes : List UInt8} :
    Spells text bytes ↔ text.map Char.toLower = encode bytes := by
  have hcons : ∀ b rest, encode (b :: rest) =
      digitChar (b.toNat / 16) :: digitChar (b.toNat % 16) :: encode rest := fun _ _ => rfl
  constructor
  · intro h
    induction h with
    | nil => rfl
    | @cons high low m n text bytes hhigh hlow _ ih =>
        obtain ⟨hm, hhigh⟩ := digit_iff_toLower.1 hhigh
        obtain ⟨hn, hlow⟩ := digit_iff_toLower.1 hlow
        rw [hcons, toNat_pair hm hn, List.map_cons, List.map_cons, hhigh, hlow, ih,
          show (16 * m + n) / 16 = m by omega, show (16 * m + n) % 16 = n by omega]
  · intro h
    induction bytes generalizing text with
    | nil =>
        rw [List.map_eq_nil_iff.1 h]
        exact .nil
    | cons b rest ih =>
        have hb : b.toNat < 256 := b.toNat_lt
        rw [hcons, List.map_eq_cons_iff] at h
        obtain ⟨high, _, rfl, hhigh, h⟩ := h
        obtain ⟨low, text, rfl, hlow, htext⟩ := List.map_eq_cons_iff.1 h
        have hspells := Spells.cons (digit_iff_toLower.2 ⟨by omega, hhigh⟩)
          (digit_iff_toLower.2 ⟨by omega, hlow⟩) (ih htext)
        rwa [Nat.div_add_mod, UInt8.ofNat_toNat] at hspells

theorem spells_encode (bytes : List UInt8) : Spells (encode bytes) bytes :=
  spells_iff.2 (map_toLower_encode bytes)

theorem length_encode (bytes : List UInt8) : (encode bytes).length = 2 * bytes.length :=
  (spells_encode bytes).length_eq

/-! ### Text in UTF-8 -/

theorem utf8_eq (s : String) : utf8 s.toList = s.toUTF8.data.toList := by
  rw [String.toUTF8_eq_toByteArray]
  conv => rhs; rw [← String.ofList_toList (s := s)]
  rw [String.toByteArray_ofList, List.utf8Encode, List.data_toByteArray]
  rfl

theorem utf8EncodeChar_of_ascii {c : Char} (hc : c.toNat < 128) :
    (String.utf8EncodeChar c).map Char.ofUInt8 = [c] := by
  have hle : c.val.toNat ≤ 127 := Nat.le_of_lt_succ hc
  rw [String.utf8EncodeChar, if_pos hle, List.map_singleton, List.singleton_inj, ← Char.toNat_inj,
    toNat_ofUInt8]
  exact UInt8.toNat_ofNat_of_lt' (show c.toNat < 256 by omega)

/-- Beyond the ASCII range the last byte of a character is one that only continues it. -/
theorem exists_mem_utf8EncodeChar {c : Char} (hc : 128 ≤ c.toNat) :
    ∃ b ∈ String.utf8EncodeChar c, 128 ≤ b.toNat := by
  refine ⟨UInt8.ofNat (c.val.toNat % 64 + 128), ?_, ?_⟩
  · have hlarge : ¬c.val.toNat ≤ 127 := Nat.not_le.2 hc
    rw [String.utf8EncodeChar, if_neg hlarge]
    split_ifs <;> simp
  · rw [UInt8.toNat_ofNat_of_lt' (by show _ < 256; omega)]
    omega

theorem map_utf8_of_ascii {text : List Char} (h : ∀ c ∈ text, c.toNat < 128) :
    (utf8 text).map Char.ofUInt8 = text := by
  induction text with
  | nil => rfl
  | cons c rest ih =>
      have hc := h c List.mem_cons_self
      have hrest := ih fun c hc => h c (List.mem_cons_of_mem _ hc)
      show (String.utf8EncodeChar c ++ utf8 rest).map Char.ofUInt8 = c :: rest
      rw [List.map_append, utf8EncodeChar_of_ascii hc, hrest, List.singleton_append]

theorem ascii_of_utf8 {text : List Char} (h : ∀ b ∈ utf8 text, IsDigit (Char.ofUInt8 b)) :
    ∀ c ∈ text, c.toNat < 128 := by
  intro c hc
  by_contra hlarge
  obtain ⟨b, hb, hbyte⟩ := exists_mem_utf8EncodeChar (Nat.not_lt.1 hlarge)
  have hdigit := (h b (List.mem_flatMap.2 ⟨c, hc, hb⟩)).ascii
  rw [toNat_ofUInt8] at hdigit
  omega

/-- A text spells what its bytes do. -/
theorem spells_utf8_iff {text : List Char} {bytes : List UInt8} :
    Spells ((utf8 text).map Char.ofUInt8) bytes ↔ Spells text bytes := by
  constructor
  · intro h
    have hascii := ascii_of_utf8 fun b hb => h.isDigit _ (List.mem_map_of_mem hb)
    rwa [map_utf8_of_ascii hascii] at h
  · intro h
    rwa [map_utf8_of_ascii fun c hc => (h.isDigit c hc).ascii]

/-! ### What is read -/

theorem readDigit_eq_ok {index : Nat} {b : UInt8} {n : Nat} (h : Digit (Char.ofUInt8 b) n) :
    readDigit index b = .ok n := by
  rw [readDigit, digitValue?_eq_some_iff.2 h]

theorem readDigit_eq_error {index : Nat} {b : UInt8} (h : ¬IsDigit (Char.ofUInt8 b)) :
    readDigit index b = .error (.invalidCharacter (Char.ofUInt8 b) index) := by
  rw [readDigit, digitValue?_eq_none_iff.2 h]

theorem decodePairs_of_spells {index : Nat} {text bytes : List UInt8}
    (h : Spells (text.map Char.ofUInt8) bytes) : decodePairs index text = .ok bytes := by
  fun_induction decodePairs index text generalizing bytes with
  | case1 index high low rest ih =>
      cases h with
      | cons hhigh hlow hrest =>
          rw [readDigit_eq_ok hhigh, readDigit_eq_ok hlow, ih hrest]
          rfl
  | case2 index =>
      cases h
      rfl
  | case3 index b => cases h

/-- Of several bytes that are no digits, the first one is told. -/
theorem decodePairs_of_wrong {index : Nat} {before after : List UInt8} {b : UInt8}
    (heven : (before ++ b :: after).length % 2 = 0)
    (hbefore : ∀ c ∈ before, IsDigit (Char.ofUInt8 c)) (hb : ¬IsDigit (Char.ofUInt8 b)) :
    decodePairs index (before ++ b :: after) =
      .error (.invalidCharacter (Char.ofUInt8 b) (index + before.length)) := by
  match before, after with
  | [], [] => cases heven
  | [], low :: rest =>
      rw [List.nil_append, decodePairs, readDigit_eq_error hb]
      rfl
  | [high], rest =>
      obtain ⟨m, hhigh⟩ := isDigit_iff.1 (hbefore high List.mem_cons_self)
      rw [List.singleton_append, decodePairs, readDigit_eq_ok hhigh, readDigit_eq_error hb]
      rfl
  | high :: low :: before, after =>
      obtain ⟨m, hhigh⟩ := isDigit_iff.1 (hbefore high List.mem_cons_self)
      obtain ⟨n, hlow⟩ := isDigit_iff.1 (hbefore low (by simp))
      have hrest := @decodePairs_of_wrong (index + 2) before after b
        ((Nat.add_mod_right _ 2).symm.trans heven)
        (fun c hc => hbefore c (List.mem_cons_of_mem _ (List.mem_cons_of_mem _ hc))) hb
      rw [List.cons_append, List.cons_append, decodePairs, readDigit_eq_ok hhigh,
        readDigit_eq_ok hlow, hrest, Nat.add_assoc, Nat.add_comm 2]
      rfl

/-- What comes of reading, whatever the text. -/
inductive Outcome (text : List UInt8) : Except HexError (List UInt8) → Prop
  | odd : text.length % 2 = 1 → Outcome text (.error .oddLength)
  | wrong {before : List UInt8} {b : UInt8} {after : List UInt8} : text.length % 2 = 0 →
      text = before ++ b :: after → (∀ c ∈ before, IsDigit (Char.ofUInt8 c)) →
      ¬IsDigit (Char.ofUInt8 b) →
      Outcome text (.error (.invalidCharacter (Char.ofUInt8 b) before.length))
  | spelled {bytes : List UInt8} : Spells (text.map Char.ofUInt8) bytes → Outcome text (.ok bytes)

theorem Outcome.decode_eq {text : List UInt8} {result : Except HexError (List UInt8)}
    (h : Outcome text result) : decode text = result := by
  cases h with
  | odd hodd => rw [decode, if_pos hodd]
  | wrong heven htext hbefore hb =>
      subst htext
      rw [decode, if_neg (by omega), decodePairs_of_wrong heven hbefore hb, Nat.zero_add]
  | spelled hbytes =>
      have hlength := hbytes.length_eq
      rw [List.length_map] at hlength
      rw [decode, if_neg (by omega), decodePairs_of_spells hbytes]

/-- There is always one of these. -/
theorem exists_outcome (text : List UInt8) : ∃ result, Outcome text result := by
  by_cases hodd : text.length % 2 = 1
  · exact ⟨_, .odd hodd⟩
  · have heven : text.length % 2 = 0 := by omega
    cases hfind : text.find? fun b => !decide (IsDigit (Char.ofUInt8 b)) with
    | none =>
        rw [List.find?_eq_none] at hfind
        obtain ⟨bytes, hbytes⟩ := @exists_spells (text.map Char.ofUInt8)
          (by simpa using heven) (by simpa using hfind)
        exact ⟨_, .spelled hbytes⟩
    | some b =>
        obtain ⟨hb, before, after, htext, hbefore⟩ := List.find?_eq_some_iff_append.1 hfind
        exact ⟨_, .wrong heven htext (by simpa using hbefore) (by simpa using hb)⟩

theorem decode_eq_iff {text : List UInt8} {result : Except HexError (List UInt8)} :
    decode text = result ↔ Outcome text result := by
  refine ⟨?_, Outcome.decode_eq⟩
  rintro rfl
  obtain ⟨result, houtcome⟩ := exists_outcome text
  rwa [houtcome.decode_eq]

/-- A text is read exactly if it spells something. -/
theorem decode_utf8_eq_ok_iff {text : List Char} {bytes : List UInt8} :
    decode (utf8 text) = .ok bytes ↔ Spells text bytes := by
  rw [← spells_utf8_iff, decode_eq_iff]
  constructor
  · rintro ⟨⟩
    assumption
  · exact .spelled

end HostStack.Hex
