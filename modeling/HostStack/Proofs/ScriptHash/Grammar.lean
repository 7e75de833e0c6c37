import HostStack.Proofs.Text.Hex
import HostStack.ScriptHash

/-!
# Which texts are script hashes

The text of a script hash is forty hexadecimal digits in either case, with or without a marker in
front. Any other text is refused for one reason: that it has an odd number of bytes, or else a byte
that is no digit, or else too many digits or too few. At most one marker is removed. A second one
stays where it is, and its letter is no digit.

The last two digits are the byte that is stored first. All of it comes down to one equivalence: a
text is read as a hash exactly if, without its marker, it spells the bytes of the hash from the last
to the first.
-/

namespace HostStack.ScriptHash

open Hex (Digit IsDigit Pair Spells)

/-! ### Markers -/

/-- What is left of a text when one marker is removed, if there is any. -/
inductive Unmarked : String → String → Prop
  | lower (rest : String) : Unmarked ("0x" ++ rest) rest
  | upper (rest : String) : Unmarked ("0X" ++ rest) rest
  | bare {text : String} : (∀ rest, text ≠ "0x" ++ rest) → (∀ rest, text ≠ "0X" ++ rest) →
      Unmarked text text

def markers : List String :=
  ["", "0x", "0X"]

variable {text rest : String} {hash : ScriptHash}

theorem eq_lower_iff : text = "0x" ++ rest ↔ text.toList = '0' :: 'x' :: rest.toList := by
  rw [String.ext_iff, String.toList_append]
  rfl

theorem eq_upper_iff : text = "0X" ++ rest ↔ text.toList = '0' :: 'X' :: rest.toList := by
  rw [String.ext_iff, String.toList_append]
  rfl

theorem exists_unmarked (text : String) : ∃ rest, Unmarked text rest := by
  by_cases hlower : ∃ rest, text = "0x" ++ rest
  · obtain ⟨rest, rfl⟩ := hlower
    exact ⟨rest, .lower rest⟩
  · by_cases hupper : ∃ rest, text = "0X" ++ rest
    · obtain ⟨rest, rfl⟩ := hupper
      exact ⟨rest, .upper rest⟩
    · exact ⟨text, .bare (not_exists.1 hlower) (not_exists.1 hupper)⟩

theorem Unmarked.dropMarker_eq (h : Unmarked text rest) : dropMarker text.toList = rest.toList := by
  cases h with
  | lower rest =>
      rw [String.toList_append]
      rfl
  | upper rest =>
      rw [String.toList_append]
      rfl
  | bare hlower hupper =>
      generalize hchars : text.toList = chars
      fun_cases dropMarker chars with
      | case1 digits =>
          rw [← String.toList_ofList (l := digits), ← eq_lower_iff] at hchars
          exact absurd hchars (hlower _)
      | case2 digits =>
          rw [← String.toList_ofList (l := digits), ← eq_upper_iff] at hchars
          exact absurd hchars (hupper _)
      | case3 => rfl

theorem Unmarked.unique {rest' : String} (h : Unmarked text rest) (h' : Unmarked text rest') :
    rest = rest' := by
  rw [String.ext_iff, ← h.dropMarker_eq, ← h'.dropMarker_eq]

theorem Unmarked.exists_marker (h : Unmarked text rest) :
    ∃ marker ∈ markers, text = marker ++ rest := by
  cases h with
  | lower rest => exact ⟨"0x", by simp [markers], rfl⟩
  | upper rest => exact ⟨"0X", by simp [markers], rfl⟩
  | bare _ _ => exact ⟨"", by simp [markers], (String.empty_append).symm⟩

theorem unmarked_of_digits {marker : String} (hmarker : marker ∈ markers)
    (hdigits : ∀ c ∈ rest.toList, IsDigit c) : Unmarked (marker ++ rest) rest := by
  rw [markers, List.mem_cons, List.mem_pair] at hmarker
  rcases hmarker with rfl | rfl | rfl
  · rw [String.empty_append]
    refine .bare (fun more hmore => ?_) fun more hmore => ?_
    · exact absurd (hdigits 'x' (by simp [eq_lower_iff.1 hmore])) (by decide)
    · exact absurd (hdigits 'X' (by simp [eq_upper_iff.1 hmore])) (by decide)
  · exact .lower rest
  · exact .upper rest

/-! ### What is read -/

theorem ofBytes_eq_ok_iff {bytes : List UInt8} : ofBytes bytes = .ok hash ↔ bytes = hash.bytes := by
  obtain ⟨stored, hlength⟩ := hash
  rw [ofBytes]
  split
  · simp
  · next hbytes =>
      refine iff_of_false (by simp) ?_
      rintro rfl
      exact hbytes hlength

theorem Unmarked.ofText_eq (h : Unmarked text rest) :
    ofText text =
      match Hex.decode (Hex.utf8 rest.toList) with
      | .error cause => .error (.invalidHex cause)
      | .ok bytes => ofBytes bytes.reverse := by
  rw [← h.dropMarker_eq]
  rfl

theorem Unmarked.ofText_eq_ok_iff (h : Unmarked text rest) :
    ofText text = .ok hash ↔ Spells rest.toList hash.bytes.reverse := by
  rw [h.ofText_eq, ← Hex.decode_utf8_eq_ok_iff]
  cases Hex.decode (Hex.utf8 rest.toList) with
  | error cause => simp
  | ok bytes =>
      dsimp only
      rw [ofBytes_eq_ok_iff, Except.ok.injEq, List.reverse_eq_iff]

/-- What comes of reading, whatever the bytes of the text without its marker. -/
inductive Verdict (b : List UInt8) : Except ScriptHashError ScriptHash → Prop
  | odd : b.length % 2 = 1 → Verdict b (.error (.invalidHex .oddLength))
  | wrong {before : List UInt8} {c : UInt8} {after : List UInt8} : b.length % 2 = 0 →
      b = before ++ c :: after → (∀ d ∈ before, IsDigit (Char.ofUInt8 d)) →
      ¬IsDigit (Char.ofUInt8 c) →
      Verdict b (.error (.invalidHex (.invalidCharacter (Char.ofUInt8 c) before.length)))
  | length : b.length % 2 = 0 → (∀ c ∈ b, IsDigit (Char.ofUInt8 c)) → b.length ≠ 40 →
      Verdict b (.error (.invalidLength (b.length / 2)))
  | hash {hash : ScriptHash} : (∀ c ∈ b, IsDigit (Char.ofUInt8 c)) → b.length = 40 →
      (∀ i byte, hash.bytes[i]? = some byte → Pair (b.map Char.ofUInt8) (38 - 2 * i) byte) →
      Verdict b (.ok hash)

/-- The bytes from the last to the first, each from its own two digits. -/
theorem pair_of_spells {chars : List Char} (h : Spells chars hash.bytes.reverse) {i : Nat}
    {byte : UInt8} (hbyte : hash.bytes[i]? = some byte) : Pair chars (38 - 2 * i) byte := by
  have hi : i < 20 := hash.length_bytes ▸ (List.getElem?_eq_some_iff.1 hbyte).1
  have hreverse : hash.bytes.reverse[19 - i]? = some byte := by
    rw [List.getElem?_reverse (by rw [hash.length_bytes]; omega), hash.length_bytes, ← hbyte]
    congr 1
    omega
  have hpair := h.pair hreverse
  rwa [show 2 * (19 - i) = 38 - 2 * i by omega] at hpair

theorem length_of_spells {b bytes : List UInt8} (h : Spells (b.map Char.ofUInt8) bytes) :
    b.length = 2 * bytes.reverse.length := by
  rw [List.length_reverse, ← h.length_eq, List.length_map]

theorem Unmarked.verdict (h : Unmarked text rest) :
    Verdict (Hex.utf8 rest.toList) (ofText text) := by
  rw [h.ofText_eq]
  generalize Hex.utf8 rest.toList = b
  obtain ⟨result, houtcome⟩ := Hex.exists_outcome b
  rw [houtcome.decode_eq]
  cases houtcome with
  | odd hodd => exact .odd hodd
  | wrong heven hb hbefore hc => exact .wrong heven hb hbefore hc
  | @spelled bytes hspells =>
      have hdigits : ∀ c ∈ b, IsDigit (Char.ofUInt8 c) := fun c hc =>
        hspells.isDigit _ (List.mem_map_of_mem hc)
      have hlength := length_of_spells hspells
      dsimp only
      rw [ofBytes]
      split
      · next hbytes =>
          refine .hash hdigits (by omega) fun i byte hbyte => pair_of_spells ?_ hbyte
          rwa [List.reverse_reverse]
      · next hbytes =>
          rw [show bytes.reverse.length = b.length / 2 by omega]
          exact .length (by omega) hdigits (by omega)

theorem Verdict.ofText_eq {result : Except ScriptHashError ScriptHash} (h : Unmarked text rest)
    (hverdict : Verdict (Hex.utf8 rest.toList) result) : ofText text = result := by
  rw [h.ofText_eq]
  generalize Hex.utf8 rest.toList = b at hverdict
  cases hverdict with
  | odd hodd => rw [Hex.decode_eq_iff.2 (.odd hodd)]
  | wrong heven hb hbefore hc => rw [Hex.decode_eq_iff.2 (.wrong heven hb hbefore hc)]
  | length heven hdigits hne =>
      obtain ⟨bytes, hspells⟩ := @Hex.exists_spells (b.map Char.ofUInt8) (by simpa using heven)
        (by simpa using hdigits)
      have hlength := length_of_spells hspells
      rw [Hex.decode_eq_iff.2 (.spelled hspells)]
      dsimp only
      rw [ofBytes, dif_neg (by omega), show bytes.reverse.length = b.length / 2 by omega]
  | @hash hash hdigits hforty hbytes =>
      obtain ⟨bytes, hspells⟩ := @Hex.exists_spells (b.map Char.ofUInt8) (by simp [hforty])
        (by simpa using hdigits)
      have hlength := length_of_spells hspells
      rw [Hex.decode_eq_iff.2 (.spelled hspells)]
      refine ofBytes_eq_ok_iff.2 (List.ext_getElem (by rw [hash.length_bytes]; omega) ?_)
      intro i hi hi'
      have hspelled : Spells (b.map Char.ofUInt8)
          (ScriptHash.mk bytes.reverse (by omega)).bytes.reverse := by
        rwa [List.reverse_reverse]
      exact (pair_of_spells hspelled (List.getElem?_eq_getElem hi)).unique
        (hbytes i _ (List.getElem?_eq_getElem hi'))

/-! ### What is accepted -/

theorem exists_ofText_eq_ok_iff :
    (∃ hash, ofText text = .ok hash) ↔
      ∃ marker ∈ markers, ∃ digits : String, text = marker ++ digits ∧ digits.length = 40 ∧
        ∀ c ∈ digits.toList, IsDigit c := by
  constructor
  · rintro ⟨hash, hread⟩
    obtain ⟨rest, hrest⟩ := exists_unmarked text
    obtain ⟨marker, hmarker, htext⟩ := hrest.exists_marker
    have hspells := hrest.ofText_eq_ok_iff.1 hread
    refine ⟨marker, hmarker, rest, htext, ?_, hspells.isDigit⟩
    rw [← String.length_toList, hspells.length_eq, List.length_reverse, hash.length_bytes]
  · rintro ⟨marker, hmarker, digits, rfl, hlength, hdigits⟩
    rw [← String.length_toList] at hlength
    obtain ⟨bytes, hspells⟩ := Hex.exists_spells (by omega) hdigits
    have hbytes := hspells.length_eq
    refine ⟨⟨bytes.reverse, by rw [List.length_reverse]; omega⟩, ?_⟩
    rw [(unmarked_of_digits hmarker hdigits).ofText_eq_ok_iff, List.reverse_reverse]
    exact hspells

theorem exists_ofText_eq_error (h : ¬∃ hash, ofText text = .ok hash) :
    ∃ e, ofText text = .error e := by
  cases hread : ofText text with
  | ok hash => exact absurd ⟨hash, hread⟩ h
  | error e => exact ⟨e, rfl⟩

/-- Nothing but a letter of a marker may stand in a script hash, if it is no digit. -/
theorem isDigit_of_ofText_eq_ok (h : ofText text = .ok hash) {c : Char} (hc : c ∈ text.toList) :
    IsDigit c ∨ c = 'x' ∨ c = 'X' := by
  obtain ⟨marker, hmarker, digits, rfl, -, hdigits⟩ := exists_ofText_eq_ok_iff.1 ⟨hash, h⟩
  have hletters : ∀ c ∈ markers.flatMap String.toList, IsDigit c ∨ c = 'x' ∨ c = 'X' :=
    List.all_iff_forall_prop.1 rfl
  rw [String.toList_append, List.mem_append] at hc
  rcases hc with hc | hc
  · exact hletters c (List.mem_flatMap.2 ⟨marker, hmarker, hc⟩)
  · exact .inl (hdigits c hc)

/-- A marker behind a marker is not removed. -/
theorem ofText_marked_twice {first second : String} (hfirst : first ∈ ["0x", "0X"])
    (hsecond : second ∈ ["0x", "0X"]) (more : String) :
    ¬∃ hash, ofText (first ++ (second ++ more)) = .ok hash := by
  rintro ⟨hash, hread⟩
  have hunmarked : Unmarked (first ++ (second ++ more)) (second ++ more) := by
    rcases List.mem_pair.1 hfirst with rfl | rfl
    · exact .lower _
    · exact .upper _
  have hdigits := (hunmarked.ofText_eq_ok_iff.1 hread).isDigit
  rcases List.mem_pair.1 hsecond with rfl | rfl
  · exact absurd (hdigits 'x' (by simp)) (by decide)
  · exact absurd (hdigits 'X' (by simp)) (by decide)

/-- Every text has one reading, which its bytes without a marker settle. It is a hash exactly if the
text is forty digits behind at most one marker; so a sign, a space or a character beyond the ASCII
range is always refused, and so is a second marker. -/
theorem ofText_settled (text : String) :
    ∃ rest, Unmarked text rest ∧ (∀ other, Unmarked text other → other = rest) ∧
      (∀ result, ofText text = result ↔ Verdict rest.toUTF8.data.toList result) ∧
      ((∃ hash, ofText text = .ok hash) ↔
        ∃ marker ∈ ["", "0x", "0X"], ∃ digits : String, text = marker ++ digits ∧
          digits.length = 40 ∧ ∀ c ∈ digits.toList, IsDigit c) ∧
      (∀ c ∈ text.toList, ¬IsDigit c → c ≠ 'x' → c ≠ 'X' → ∃ e, ofText text = .error e) ∧
      ∀ first ∈ ["0x", "0X"], ∀ second ∈ ["0x", "0X"], ∀ more, text = first ++ (second ++ more) →
        ∃ e, ofText text = .error e := by
  obtain ⟨rest, hrest⟩ := exists_unmarked text
  refine ⟨rest, hrest, fun other hother => hother.unique hrest, ?_, exists_ofText_eq_ok_iff, ?_, ?_⟩
  · intro result
    rw [← Hex.utf8_eq]
    refine ⟨?_, Verdict.ofText_eq hrest⟩
    rintro rfl
    exact hrest.verdict
  · intro c hc hdigit hlower hupper
    refine exists_ofText_eq_error ?_
    rintro ⟨hash, hread⟩
    have := isDigit_of_ofText_eq_ok hread hc
    tauto
  · rintro first hfirst second hsecond more rfl
    exact exists_ofText_eq_error (ofText_marked_twice hfirst hsecond more)

/-- An `é` is two bytes, so this is an even number of them, and the second one is no digit. -/
theorem ofText_settled_twoBytes :
    ofText "0X0é1" = .error (.invalidHex (.invalidCharacter 'Ã' 1)) := by
  obtain ⟨rest, hrest, -, hsettled, -⟩ := ofText_settled "0X0é1"
  obtain rfl : rest = "0é1" := hrest.unique (.upper "0é1")
  have hfirst : ∀ d ∈ [48], IsDigit (Char.ofUInt8 d) := List.all_iff_forall_prop.1 rfl
  exact (hsettled _).2 (@Verdict.wrong _ [48] 195 [169, 49] rfl rfl hfirst (by decide))

end HostStack.ScriptHash
