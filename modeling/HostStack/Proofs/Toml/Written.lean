import HostStack.Proofs.Toml.Distinct

/-!
# Lines that are read as they are written

The plainest documents are those whose lines are a bare key, an equals sign and a natural number in
decimal. They are read back as they are written: each line as the statement that it was written
for, and the lines together as a table of the same keys and numbers in the same order, as long as no
key is there twice and no number is too large for a document.

That takes two things of the digits of a number. They are a word that is nothing but an integer,
not a date above all, and no zero stands before them that could be left out.
-/

namespace HostStack.Toml

/-! ### Digits -/

theorem isDigit_of_mem_toDigits {n : Nat} {c : Char} (hc : c ∈ Nat.toDigits 10 n) : c.isDigit :=
  Nat.isDigit_of_mem_toDigits (by decide) (by decide) hc

theorem ne_of_isDigit {c d : Char} (hc : c.isDigit) (hd : d.isDigit = false) : c ≠ d := by
  rintro rfl
  rw [hc] at hd
  cases hd

theorem not_mem_toDigits {n : Nat} {c : Char} (hc : c.isDigit = false) :
    c ∉ Nat.toDigits 10 n :=
  fun hmem => ne_of_isDigit (isDigit_of_mem_toDigits hmem) hc rfl

theorem exists_cons_toDigits (n : Nat) :
    ∃ c rest, Nat.toDigits 10 n = c :: rest ∧ c.isDigit := by
  obtain ⟨c, rest, hcons⟩ := List.exists_cons_of_ne_nil (@Nat.toDigits_ne_nil n 10)
  exact ⟨c, rest, hcons, isDigit_of_mem_toDigits (hcons ▸ List.mem_cons_self)⟩

/-- Only the number zero is written with a zero in front. -/
theorem head?_toDigits_ne {n : Nat} (hpos : 0 < n) : (Nat.toDigits 10 n).head? ≠ some '0' := by
  induction n using Nat.strongRecOn with
  | ind n ih =>
      by_cases hsmall : n < 10
      · rw [Nat.toDigits_of_lt_base hsmall, List.head?_cons]
        intro hzero
        have := Nat.digitChar_eq_zero.1 (Option.some.inj hzero)
        omega
      · rw [Nat.toDigits_of_base_le (by decide) (Nat.not_lt.1 hsmall),
          List.head?_append_of_ne_nil _ Nat.toDigits_ne_nil]
        exact ih (n / 10) (by omega) (by omega)

/-- Digits without underscores between them are taken as they are. -/
theorem ungroup?_eq {digits : List Char} (hne : digits ≠ [])
    (hdigits : ∀ c ∈ digits, c.isDigit) : ungroup? Char.isDigit digits = some digits := by
  induction digits with
  | nil => exact absurd rfl hne
  | cons c rest ih =>
      have hc := hdigits c List.mem_cons_self
      have hrest := fun x hx => hdigits x (List.mem_cons_of_mem c hx)
      cases rest with
      | nil => rw [ungroup?, if_pos hc]
      | cons d more =>
          have hd : d ≠ '_' := by
            rintro rfl
            exact absurd (hrest '_' List.mem_cons_self) (by decide)
          rw [ungroup?, if_pos hc, ih (List.cons_ne_nil d more) hrest]
          · rfl
          · exact List.cons_ne_nil d more
          · rintro _ ⟨⟩
            exact hd rfl

theorem hexDigit?_of_isDigit {c : Char} (hc : c.isDigit) :
    hexDigit? c = some (c.toNat - '0'.toNat) :=
  if_pos hc

theorem numberInBase_toDigits (n : Nat) : numberInBase 10 (Nat.toDigits 10 n) = n := by
  -- A digit of base ten stands for the same in both readings, since no letter is among them.
  have hsame : ∀ (digits : List Char) (start : Nat), (∀ c ∈ digits, c.isDigit) →
      digits.foldl (fun n c => 10 * n + (hexDigit? c).getD 0) start =
        Nat.ofDigitChars 10 digits start := by
    intro digits
    induction digits with
    | nil => intro start _; rfl
    | cons c rest ih =>
        intro start hdigits
        rw [List.foldl_cons, hexDigit?_of_isDigit (hdigits c List.mem_cons_self),
          Nat.ofDigitChars_cons]
        exact ih _ fun x hx => hdigits x (List.mem_cons_of_mem c hx)
  rw [numberInBase, hsame _ 0 fun c hc => isDigit_of_mem_toDigits hc]
  exact Nat.ofDigitChars_ten_toDigits

theorem readDecimal?_toDigits (n : Nat) : readDecimal? (Nat.toDigits 10 n) = some n := by
  rw [readDecimal?, ungroup?_eq Nat.toDigits_ne_nil fun c hc => isDigit_of_mem_toDigits hc,
    Option.bind_eq_bind, Option.bind_some]
  split
  · next d rest hzero =>
      -- Only zero has a zero in front, and nothing behind it.
      by_cases hpos : 0 < n
      · exact absurd (by rw [hzero, List.head?_cons]) (head?_toDigits_ne hpos)
      · obtain rfl : n = 0 := by omega
        rw [Nat.toDigits_zero] at hzero
        cases hzero
  · rw [numberInBase_toDigits]

theorem readAnyInteger?_eq {digits : List Char} (hdigits : ∀ c ∈ digits, c.isDigit) :
    readAnyInteger? digits = (readDecimal? digits).map Int.ofNat := by
  have hsign : ∀ c, c.isDigit = false → c ∉ digits :=
    fun c hc hmem => ne_of_isDigit (hdigits c hmem) hc rfl
  fun_cases readAnyInteger? digits with
  | case1 => exact absurd (by simp) (hsign 'x' (by decide))
  | case2 => exact absurd (by simp) (hsign 'o' (by decide))
  | case3 => exact absurd (by simp) (hsign 'b' (by decide))
  | case4 => exact absurd (by simp) (hsign '-' (by decide))
  | case5 => exact absurd (by simp) (hsign '+' (by decide))
  | case6 => rfl

/-- The digits of a number that is not too large are an integer. -/
theorem readInteger?_toDigits {n : Nat} (hn : n ≤ 9223372036854775807) :
    readInteger? (Nat.toDigits 10 n) = some (n : Int) := by
  have hrange : inInt64 n := by
    rw [inInt64, Bool.and_eq_true, decide_eq_true_eq, decide_eq_true_eq]
    omega
  rw [readInteger?, readAnyInteger?_eq fun c hc => isDigit_of_mem_toDigits hc,
    readDecimal?_toDigits, Option.map_some]
  exact Option.filter_some_pos hrange

/-! ### Words -/

theorem twoDigits?_subset {text rest : List Char} {n : Nat}
    (h : twoDigits? text = some (n, rest)) : rest ⊆ text := by
  revert h
  fun_cases twoDigits? text with
  | case1 a b rest' hdigits =>
      rintro ⟨⟩
      exact fun c hc => List.mem_cons_of_mem a (List.mem_cons_of_mem b hc)
  | case2 a b rest' hdigits => rintro ⟨⟩
  | case3 => rintro ⟨⟩

theorem after?_eq_none {expected : Char} {text : List Char} (h : expected ∉ text) :
    after? expected text = none := by
  cases text with
  | nil => rfl
  | cons c rest =>
      refine if_neg ?_
      rintro rfl
      exact h List.mem_cons_self

/-- A date has dashes in it. -/
theorem skipDate?_eq_none {text : List Char} (h : '-' ∉ text) : skipDate? text = none := by
  rw [skipDate?]
  refine Option.bind_eq_none_iff.2 ?_
  rintro ⟨century, rest⟩ hcentury
  refine Option.bind_eq_none_iff.2 ?_
  rintro ⟨year, rest'⟩ hyear
  have hnone := after?_eq_none fun hmem =>
    h (twoDigits?_subset hcentury (twoDigits?_subset hyear hmem))
  dsimp only
  rw [hnone]
  rfl

theorem skipHourMinute?_eq_none {text : List Char} (h : ':' ∉ text) :
    skipHourMinute? text = none := by
  rw [skipHourMinute?]
  refine Option.bind_eq_none_iff.2 ?_
  rintro ⟨hour, rest⟩ hhour
  have hnone := after?_eq_none fun hmem => h (twoDigits?_subset hhour hmem)
  dsimp only
  rw [hnone]
  rfl

/-- A time has colons in it. -/
theorem skipTime?_eq_none {text : List Char} (h : ':' ∉ text) : skipTime? text = none := by
  rw [skipTime?, skipHourMinute?_eq_none h]
  rfl

theorem isDate_toDigits (n : Nat) : isDate (Nat.toDigits 10 n) = false := by
  rw [isDate, skipDate?_eq_none (not_mem_toDigits (by decide))]
  rfl

/-- A word of digits stands for the integer that they spell, and for nothing else. -/
theorem ofWord?_toDigits {n : Nat} (hn : n ≤ 9223372036854775807) :
    ofWord? (Nat.toDigits 10 n) = some (.integer n) := by
  have htime : isTime (Nat.toDigits 10 n) = false := by
    rw [isTime, skipTime?_eq_none (not_mem_toDigits (by decide))]
    rfl
  have hboth : isDateWithTime (Nat.toDigits 10 n) = false := by
    rw [isDateWithTime, skipDate?_eq_none (not_mem_toDigits (by decide))]
  have htrue : Nat.toDigits 10 n ≠ ['t', 'r', 'u', 'e'] := fun heq =>
    not_mem_toDigits (c := 't') (by decide) (heq ▸ List.mem_cons_self)
  have hfalse : Nat.toDigits 10 n ≠ ['f', 'a', 'l', 's', 'e'] := fun heq =>
    not_mem_toDigits (c := 'f') (by decide) (heq ▸ List.mem_cons_self)
  rw [ofWord?, if_neg htrue, if_neg hfalse, isDate_toDigits, htime, hboth,
    readInteger?_toDigits hn]
  rfl

/-- The longest word in front of a sign that cannot stand in it, or of the end, is all that stands
before that. -/
theorem span_word {p : Char → Bool} {word rest : List Char} (hword : ∀ c ∈ word, p c)
    (hstop : ∀ c ∈ rest.head?, p c = false) :
    (word ++ rest).takeWhile p = word ∧ (word ++ rest).dropWhile p = rest := by
  rw [List.takeWhile_append_of_pos hword, List.dropWhile_append_of_pos hword]
  cases rest with
  | nil => exact ⟨List.append_nil word, rfl⟩
  | cons stop more =>
      have hfirst : ¬p stop = true := by simp [hstop stop rfl]
      rw [List.takeWhile_cons_of_neg hfirst, List.dropWhile_cons_of_neg hfirst, List.append_nil]
      exact ⟨rfl, rfl⟩

theorem readWords_toDigits {n : Nat} (hn : n ≤ 9223372036854775807) {rest : List Char}
    (hstop : ∀ c ∈ rest.head?, isWordChar c = false) :
    readWords (Nat.toDigits 10 n ++ rest) = some (.integer n, rest) := by
  have hword : ∀ c ∈ Nat.toDigits 10 n, isWordChar c := by
    intro c hc
    simp [isWordChar, Char.isAlphanum, isDigit_of_mem_toDigits hc]
  obtain ⟨htake, hdrop⟩ := span_word hword hstop
  rw [readWords, htake, hdrop, isDate_toDigits]
  simp only [ofWord?_toDigits hn]
  rfl

theorem readValueWithin_digit (depth : Nat) {c : Char} (hc : c.isDigit) (rest : List Char) :
    readValueWithin depth (c :: rest) = readWords (c :: rest) := by
  have hplain : readValueWithin 0 (c :: rest) = readWords (c :: rest) := by
    rw [readValueWithin]
    · rintro _ ⟨⟩
      exact ne_of_isDigit (d := '"') hc (by decide) rfl
    · rintro _ ⟨⟩
      exact ne_of_isDigit (d := '\'') hc (by decide) rfl
  cases depth with
  | zero => exact hplain
  | succ depth =>
      rw [readValueWithin, hplain]
      · rintro _ ⟨⟩
        exact ne_of_isDigit (d := '[') hc (by decide) rfl
      · rintro _ ⟨⟩
        exact ne_of_isDigit (d := '\x7b') hc (by decide) rfl

theorem readValue_toDigits {n : Nat} (hn : n ≤ 9223372036854775807) {rest : List Char}
    (hstop : ∀ c ∈ rest.head?, isWordChar c = false) :
    readValue (Nat.toDigits 10 n ++ rest) = some (.integer n, rest) := by
  rw [← readWords_toDigits hn hstop, readValue]
  obtain ⟨c, more, hcons, hc⟩ := exists_cons_toDigits n
  rw [hcons]
  exact readValueWithin_digit _ hc _

/-! ### Lines -/

/-- A name that needs no quotes. -/
structure Bare (name : List Char) : Prop where
  ne_nil : name ≠ []
  bare : ∀ c ∈ name, isBareChar c

/-- What gives a key a natural number, up to the end of its line. -/
def writeAssignment (name : List Char) (n : Nat) : List Char :=
  name ++ ' ' :: '=' :: ' ' :: Nat.toDigits 10 n

/-- A line that gives a key a natural number. -/
def writeLine (name : List Char) (n : Nat) : List Char :=
  writeAssignment name n ++ ['\n']

theorem Bare.exists_cons {name : List Char} (hname : Bare name) :
    ∃ c rest, name = c :: rest ∧ ∀ d, isBareChar d = false → c ≠ d := by
  obtain ⟨c, rest, hcons⟩ := List.exists_cons_of_ne_nil hname.ne_nil
  refine ⟨c, rest, hcons, ?_⟩
  rintro d hd rfl
  rw [hname.bare c (hcons ▸ List.mem_cons_self)] at hd
  cases hd

theorem readName_bare {name : List Char} (hname : Bare name) (rest : List Char) :
    readName (name ++ ' ' :: rest) = some (String.ofList name, ' ' :: rest) := by
  have hstop : ∀ c ∈ (' ' :: rest).head?, isBareChar c = false := by
    rintro _ ⟨⟩
    decide
  obtain ⟨htake, hdrop⟩ := span_word hname.bare hstop
  obtain ⟨c, more, hcons, hne⟩ := hname.exists_cons
  rw [readName, htake, hdrop]
  · cases name with
    | nil => cases hcons
    | cons c more => rfl
  · rintro rest' htext
    rw [hcons] at htext
    exact hne '"' (by decide) (List.head_eq_of_cons_eq htext)
  · rintro rest' htext
    rw [hcons] at htext
    exact hne '\'' (by decide) (List.head_eq_of_cons_eq htext)

theorem readKey_bare {name : List Char} (hname : Bare name) (rest : List Char) :
    readKey (name ++ ' ' :: '=' :: rest) = some (⟨[], String.ofList name⟩, '=' :: rest) := by
  have hnames : readNames (name ++ ' ' :: '=' :: rest) =
      some (⟨[], String.ofList name⟩, '=' :: rest) := by
    rw [readNames, readName_bare hname]
    rfl
  rw [readKey, hnames]
  rfl

/-- A bare name starts no blanks, no comment and no line end. -/
theorem finishLine_bare {name : List Char} (hname : Bare name) (rest : List Char) :
    skipBlanks (name ++ rest) = name ++ rest ∧ finishLine (name ++ rest) = none := by
  obtain ⟨c, more, rfl, hne⟩ := hname.exists_cons
  have hblank : skipBlanks (c :: more ++ rest) = c :: more ++ rest := by
    refine List.dropWhile_cons_of_neg ?_
    simp [isBlank, hne ' ' (by decide), hne '\t' (by decide)]
  refine ⟨hblank, ?_⟩
  have hcomment : skipComment (c :: more ++ rest) = c :: more ++ rest := by
    rw [skipComment]
    rintro _ ⟨⟩
    exact hne '#' (by decide) rfl
  rw [finishLine, hblank, hcomment]
  show lineEnd? (c :: (more ++ rest)) = none
  rw [lineEnd?]
  · rintro _ ⟨⟩
    exact hne '\n' (by decide) rfl
  · intro rest' htext
    exact hne '\r' (by decide) (List.head_eq_of_cons_eq htext)

theorem readStatement_assign {name : List Char} (hname : Bare name) (rest : List Char) :
    readStatement (name ++ rest) = (readAssignment readValue (name ++ rest)).bind
      fun ((key, value), rest) => some (.assign key value, rest) := by
  obtain ⟨c, more, rfl, hne⟩ := hname.exists_cons
  rw [readStatement]
  · rfl
  · intro rest' htext
    exact hne '[' (by decide) (List.head_eq_of_cons_eq htext)
  · intro rest' htext
    exact hne '[' (by decide) (List.head_eq_of_cons_eq htext)

/-- What is written for a key and a number is read as the statement it stands for, together with
the rest of its line, which may have a comment or be missing altogether. -/
theorem readLine_writeAssignment {name : List Char} (hname : Bare name) {n : Nat}
    (hn : n ≤ 9223372036854775807) {ending rest : List Char}
    (hstop : ∀ c ∈ ending.head?, isWordChar c = false) (hend : finishLine ending = some rest) :
    readLine (writeAssignment name n ++ ending) =
      some (some (.assign ⟨[], String.ofList name⟩ (.integer n)), rest) := by
  have hline : writeAssignment name n ++ ending =
      name ++ ' ' :: '=' :: ' ' :: (Nat.toDigits 10 n ++ ending) := by
    simp [writeAssignment]
  have hdigit : skipBlanks (' ' :: (Nat.toDigits 10 n ++ ending)) =
      Nat.toDigits 10 n ++ ending := by
    obtain ⟨c, more, hcons, hc⟩ := exists_cons_toDigits n
    rw [hcons, skipBlanks, List.dropWhile_cons_of_pos (by decide)]
    have hspace : c ≠ ' ' := ne_of_isDigit hc (by decide)
    have htab : c ≠ '\t' := ne_of_isDigit hc (by decide)
    exact List.dropWhile_cons_of_neg (by simp [isBlank, hspace, htab])
  have hassign : readAssignment readValue
      (name ++ ' ' :: '=' :: ' ' :: (Nat.toDigits 10 n ++ ending)) =
      some ((⟨[], String.ofList name⟩, .integer n), ending) := by
    rw [readAssignment, readKey_bare hname]
    show (readValue (skipBlanks _)).bind _ = _
    rw [hdigit, readValue_toDigits hn hstop]
    rfl
  obtain ⟨hblank, hfinish⟩ := finishLine_bare hname
    (' ' :: '=' :: ' ' :: (Nat.toDigits 10 n ++ ending))
  rw [readLine, hline, hfinish]
  dsimp only
  rw [hblank, readStatement_assign hname, hassign]
  show (finishLine ending).bind _ = _
  rw [hend]
  rfl

theorem readLine_writeLine {name : List Char} (hname : Bare name) {n : Nat}
    (hn : n ≤ 9223372036854775807) (rest : List Char) :
    readLine (writeLine name n ++ rest) =
      some (some (.assign ⟨[], String.ofList name⟩ (.integer n)), rest) := by
  rw [writeLine, List.append_assoc]
  refine readLine_writeAssignment hname hn ?_ rfl
  rintro _ ⟨⟩
  decide

/-! ### Documents -/

/-- Keys with numbers that can be written as lines of a document. -/
structure Writable (numbers : List (String × Nat)) : Prop where
  bare : ∀ entry ∈ numbers, Bare entry.1.toList
  small : ∀ entry ∈ numbers, entry.2 ≤ 9223372036854775807
  distinct : (numbers.map Prod.fst).Nodup

def writeLines (numbers : List (String × Nat)) : List Char :=
  numbers.flatMap fun entry => writeLine entry.1.toList entry.2

/-- A document is its first line and then a document. -/
theorem readStatements_of_readLine {text rest : List Char} {statement : Option Statement}
    (hline : readLine text = some (statement, rest)) (hlonger : rest.length < text.length) :
    readStatements text = (readStatements rest).map (statement.toList ++ ·) := by
  have hempty : text.isEmpty = false := by
    rw [List.isEmpty_eq_false_iff, ← List.length_pos_iff]
    omega
  rw [readStatements, hempty, hline]
  show (if _h : rest.length < text.length then _ else none) = _
  rw [dif_pos hlonger]
  cases readStatements rest <;> rfl

theorem readStatements_writeLines {numbers : List (String × Nat)}
    (hbare : ∀ entry ∈ numbers, Bare entry.1.toList)
    (hsmall : ∀ entry ∈ numbers, entry.2 ≤ 9223372036854775807) :
    readStatements (writeLines numbers) =
      some (numbers.map fun entry => .assign ⟨[], entry.1⟩ (.integer entry.2)) := by
  induction numbers with
  | nil =>
      rw [readStatements]
      rfl
  | cons entry rest ih =>
      obtain ⟨key, n⟩ := entry
      have hline := readLine_writeLine (hbare _ List.mem_cons_self) (hsmall _ List.mem_cons_self)
        (writeLines rest)
      have hwritten : writeLines ((key, n) :: rest) = writeLine key.toList n ++ writeLines rest :=
        List.flatMap_cons
      have hlonger : (writeLines rest).length < (writeLines ((key, n) :: rest)).length := by
        have hpos : 0 < (writeLine key.toList n).length :=
          List.length_pos_of_ne_nil (by simp [writeLine])
        rw [hwritten, List.length_append]
        omega
      rw [← hwritten] at hline
      rw [readStatements_of_readLine hline hlonger,
        ih (fun entry hmem => hbare entry (List.mem_cons_of_mem _ hmem))
          fun entry hmem => hsmall entry (List.mem_cons_of_mem _ hmem), String.ofList_toList]
      rfl

/-- Each number is put behind the ones before it, since its key is new. -/
theorem foldlM_add_numbers {numbers : List (String × Nat)} {entries : Entries}
    (hdistinct : (entries.keys ++ numbers.map Prod.fst).Nodup) :
    (numbers.map fun entry => Statement.assign ⟨[], entry.1⟩ (.integer entry.2)).foldlM Draft.add
        ⟨entries, []⟩ =
      some ⟨entries ++ numbers.map fun entry => (entry.1, .integer entry.2), []⟩ := by
  induction numbers generalizing entries with
  | nil => simp
  | cons entry rest ih =>
      obtain ⟨key, n⟩ := entry
      have hfree : key ∉ entries.keys := by
        intro hmem
        exact (List.nodup_append.1 hdistinct).2.2 key hmem key List.mem_cons_self rfl
      have hadd : Draft.add ⟨entries, []⟩ (.assign ⟨[], key⟩ (.integer n)) =
          some ⟨entries.append key (.integer n), []⟩ := by
        have hdefine : entries.define key (.integer n) =
            some (entries.append key (.integer n)) := by
          rw [Entries.define, Entries.lookup_eq_none.2 hfree]
          rfl
        show (entries.define key (.integer n)).map _ = _
        rw [hdefine]
        rfl
      rw [List.map_cons, List.foldlM_cons, hadd]
      show List.foldlM Draft.add _ _ = _
      rw [ih]
      · simp [Entries.append]
      · rw [Entries.keys_append, List.append_assoc]
        exact hdistinct

theorem skipByteOrderMark_bare {name : List Char} (hname : Bare name) (rest : List Char) :
    skipByteOrderMark (name ++ rest) = name ++ rest := by
  obtain ⟨c, more, rfl, hne⟩ := hname.exists_cons
  rw [skipByteOrderMark]
  intro text htext
  exact hne '\ufeff' (by decide) (List.head_eq_of_cons_eq htext)

theorem skipByteOrderMark_writeLines {numbers : List (String × Nat)}
    (hbare : ∀ entry ∈ numbers, Bare entry.1.toList) :
    skipByteOrderMark (writeLines numbers) = writeLines numbers := by
  cases numbers with
  | nil => rfl
  | cons entry rest =>
      rw [writeLines, List.flatMap_cons, writeLine, writeAssignment]
      simp only [List.append_assoc]
      exact skipByteOrderMark_bare (hbare _ List.mem_cons_self) _

/-- What is written in lines is read back, in the same order. -/
theorem parse?_writeLines {numbers : List (String × Nat)} (h : Writable numbers) :
    parse? (String.ofList (writeLines numbers)) =
      some (numbers.map fun entry => (entry.1, .integer entry.2)) := by
  have hdistinct : (Entries.keys [] ++ numbers.map Prod.fst).Nodup := h.distinct
  rw [parse?, String.toList_ofList, skipByteOrderMark_writeLines h.bare,
    readStatements_writeLines h.bare h.small]
  show (List.foldlM Draft.add ⟨[], []⟩ _).map Draft.root = _
  rw [foldlM_add_numbers hdistinct]
  rfl

/-- A single line need not be ended. -/
theorem parse?_writeAssignment {key : String} (hkey : Bare key.toList) {n : Nat}
    (hn : n ≤ 9223372036854775807) {ending : List Char}
    (hstop : ∀ c ∈ ending.head?, isWordChar c = false) (hend : finishLine ending = some []) :
    parse? (String.ofList (writeAssignment key.toList n ++ ending)) =
      some [(key, .integer n)] := by
  have hline := readLine_writeAssignment hkey hn hstop hend
  rw [String.ofList_toList] at hline
  have hstart : skipByteOrderMark (writeAssignment key.toList n ++ ending) =
      writeAssignment key.toList n ++ ending := by
    rw [writeAssignment, List.append_assoc]
    exact skipByteOrderMark_bare hkey _
  have hlonger : ([] : List Char).length < (writeAssignment key.toList n ++ ending).length :=
    List.length_pos_of_ne_nil (by simp [writeAssignment])
  have hdistinct : (Entries.keys [] ++ [(key, n)].map Prod.fst).Nodup := List.nodup_singleton key
  rw [parse?, String.toList_ofList, hstart, readStatements_of_readLine hline hlonger,
    readStatements]
  exact congrArg (Option.map Draft.root) (foldlM_add_numbers hdistinct)

end HostStack.Toml
