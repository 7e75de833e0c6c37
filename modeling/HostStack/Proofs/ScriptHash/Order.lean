import HostStack.Proofs.ScriptHash.RoundTrip

/-!
# The order of script hashes

Hashes are ordered as they are stored, and they are written the other way round. So a text has to be
read backwards to see where its hash belongs. Of two texts the last pair of digits that is not the
same settles the order, and nothing that stands before it has a say. The number that the digits show
is a bad guide, since there the first such pair settles which is larger.

The order itself is the lexicographic one on lists of bytes. Both ways to compute it come to that,
step by step, and what is known of it in general carries over.
-/

namespace HostStack

/-- A text spells one list of bytes at most. -/
theorem Hex.Spells.unique {text : List Char} {bytes bytes' : List UInt8}
    (h : Hex.Spells text bytes) (h' : Hex.Spells text bytes') : bytes = bytes' := by
  induction h generalizing bytes' with
  | nil =>
      cases h'
      rfl
  | cons hhigh hlow _ ih =>
      cases h' with
      | cons hhigh' hlow' hrest' => rw [hhigh.unique hhigh', hlow.unique hlow', ih hrest']

namespace ScriptHash

open Hex (Spells)

/-! ### Lists of bytes -/

theorem compareBytes_eq (as bs : List UInt8) : compareBytes as bs = compare as bs := by
  fun_induction compareBytes as bs with
  | case1 => rfl
  | case2 b bs => rfl
  | case3 a as => rfl
  | case4 a as b bs ih => rw [ih, List.compare_cons_cons]

/-- It is never undefined. -/
theorem partialCompareBytes_eq (as bs : List UInt8) :
    partialCompareBytes as bs = some (compare as bs) := by
  fun_induction partialCompareBytes as bs with
  | case1 a as b bs hsame ih =>
      rw [ih, List.compare_cons_cons, hsame]
      rfl
  | case2 a as b bs hother =>
      rw [List.compare_cons_cons]
      cases hfirst : compare a b with
      | lt | gt => rfl
      | eq => exact absurd hfirst hother
  | case3 as bs hshort =>
      cases as with
      | nil => cases bs <;> rfl
      | cons a as =>
          cases bs with
          | nil => rfl
          | cons b bs => exact (hshort a as b bs rfl rfl).elim

/-- Behind what two lists have in common, the first bytes that differ settle their order. -/
theorem compare_append_cons (common : List UInt8) {a b : UInt8} (hne : a ≠ b) (as bs : List UInt8) :
    compare (common ++ a :: as) (common ++ b :: bs) = compare a b := by
  induction common with
  | nil =>
      rw [List.nil_append, List.nil_append, List.compare_cons_cons]
      cases hfirst : compare a b with
      | lt | gt => rfl
      | eq => exact absurd (Std.LawfulEqOrd.eq_of_compare hfirst) hne
  | cons c common ih =>
      rw [List.cons_append, List.cons_append, List.compare_cons_cons, Std.ReflOrd.compare_self, ih]
      rfl

/-- Read backwards, the last bytes that differ settle it. -/
theorem compare_reverse {as bs : List UInt8} {i : Nat} {a b : UInt8} (ha : as[i]? = some a)
    (hb : bs[i]? = some b) (hne : a ≠ b) (hlater : ∀ j, i < j → as[j]? = bs[j]?) :
    compare as.reverse bs.reverse = compare a b := by
  have hsplit : ∀ {xs : List UInt8} {x : UInt8}, xs[i]? = some x →
      xs.reverse = (xs.drop (i + 1)).reverse ++ x :: (xs.take i).reverse := by
    intro xs x hx
    obtain ⟨hi, hx⟩ := List.getElem?_eq_some_iff.1 hx
    have hxs : xs = xs.take i ++ xs[i] :: xs.drop (i + 1) := by simp
    rw [hx] at hxs
    conv => lhs; rw [hxs]
    simp
  have hdrop : as.drop (i + 1) = bs.drop (i + 1) := by
    refine List.ext_getElem? fun k => ?_
    rw [List.getElem?_drop, List.getElem?_drop]
    exact hlater _ (by omega)
  rw [hsplit ha, hsplit hb, hdrop]
  exact compare_append_cons _ hne _ _

/-! ### The laws of the order -/

theorem compare_eq (a b : ScriptHash) : compare a b = compare a.bytes b.bytes :=
  compareBytes_eq a.bytes b.bytes

theorem partialCompare_eq (a b : ScriptHash) : a.partialCompare b = some (compare a b) := by
  rw [partialCompare, partialCompareBytes_eq, compare_eq]

instance : Std.TransOrd ScriptHash where
  eq_swap := by
    intro a b
    rw [compare_eq, compare_eq]
    exact Std.OrientedCmp.eq_swap
  isLE_trans := by
    intro a b c hab hbc
    rw [compare_eq] at hab hbc ⊢
    exact Std.TransCmp.isLE_trans hab hbc

instance : Std.LawfulEqOrd ScriptHash where
  compare_self := by
    intro a
    rw [compare_eq]
    exact Std.ReflCmp.compare_self
  eq_of_compare := by
    rintro ⟨as, ha⟩ ⟨bs, hb⟩ hsame
    rw [compare_eq] at hsame
    obtain rfl : as = bs := Std.LawfulEqCmp.eq_of_compare hsame
    rfl

theorem compare_swap (a b : ScriptHash) : compare b a = (compare a b).swap :=
  Std.OrientedOrd.eq_swap

theorem isLE_total (a b : ScriptHash) : (compare a b).isLE ∨ (compare b a).isLE := by
  rw [compare_swap a b]
  cases compare a b with
  | lt | eq => exact .inl rfl
  | gt => exact .inr rfl

theorem isLE_antisymm {a b : ScriptHash} (hab : (compare a b).isLE) (hba : (compare b a).isLE) :
    a = b := by
  rw [compare_swap a b] at hba
  refine Std.LawfulEqOrd.eq_of_compare ?_
  cases hcompare : compare a b with
  | eq => rfl
  | lt =>
      rw [hcompare] at hba
      cases hba
  | gt =>
      rw [hcompare] at hab
      cases hab

theorem max_eq (a b : ScriptHash) : max a b = if compare a b = .gt then a else b := by
  show (if (compare a b).isGT then a else b) = _
  cases compare a b <;> rfl

/-- The larger of two hashes is one of them, and neither of them is above it. -/
theorem max_spec (a b : ScriptHash) :
    (max a b = a ∨ max a b = b) ∧ (compare a (max a b)).isLE ∧ (compare b (max a b)).isLE := by
  have hself : ∀ x : ScriptHash, (compare x x).isLE := by
    intro x
    rw [Std.ReflOrd.compare_self]
    rfl
  rw [max_eq]
  by_cases hgt : compare a b = .gt
  · rw [if_pos hgt, compare_swap a b, hgt]
    exact ⟨.inl rfl, hself a, rfl⟩
  · rw [if_neg hgt]
    exact ⟨.inr rfl, Ordering.isLE_iff_ne_gt.2 hgt, hself b⟩

/-! ### The pairs of a text -/

/-- What the digits of a text stand for, pair by pair, its marker left aside. -/
def Pairs (text : String) (pairs : List UInt8) : Prop :=
  ∃ rest, Unmarked text rest ∧ Spells rest.toList pairs

/-- The number that pairs of digits show, the first pair weighing most. -/
def shown (pairs : List UInt8) : Nat :=
  pairs.foldl (fun n b => 256 * n + b.toNat) 0

variable {text : String} {pairs : List UInt8} {hash : ScriptHash}

theorem Pairs.ofText_eq_ok_iff (h : Pairs text pairs) :
    ofText text = .ok hash ↔ pairs = hash.bytes.reverse := by
  obtain ⟨rest, hrest, hpairs⟩ := h
  rw [hrest.ofText_eq_ok_iff]
  constructor
  · exact hpairs.unique
  · rintro rfl
    exact hpairs

theorem exists_pairs (h : ofText text = .ok hash) : ∃ pairs, Pairs text pairs ∧ pairs.length = 20 := by
  obtain ⟨rest, hrest⟩ := exists_unmarked text
  refine ⟨hash.bytes.reverse, ⟨rest, hrest, hrest.ofText_eq_ok_iff.1 h⟩, ?_⟩
  rw [List.length_reverse, hash.length_bytes]

theorem pairs_toText (hash : ScriptHash) : Pairs hash.toText hash.bytes.reverse := by
  refine ⟨hash.digits, ?_, hash.spelling_digits.spells⟩
  rw [toText_eq]
  exact .lower _

theorem compare_digit (m n : Nat) (a b : UInt8) :
    compare (256 * m + a.toNat) (256 * n + b.toNat) = (compare m n).then (compare a b) := by
  have ha : a.toNat < 256 := a.toNat_lt
  have hb : b.toNat < 256 := b.toNat_lt
  rcases Nat.lt_trichotomy m n with hlt | rfl | hgt
  · rw [Nat.compare_eq_lt.2 hlt, Nat.compare_eq_lt.2 (by omega)]
    rfl
  · rw [Nat.compare_eq_eq.2 rfl, UInt8.compare_eq_toNat_compare_toNat, Ordering.eq_then]
    rcases Nat.lt_trichotomy a.toNat b.toNat with hlt | heq | hgt
    · rw [Nat.compare_eq_lt.2 hlt, Nat.compare_eq_lt.2 (by omega)]
    · rw [Nat.compare_eq_eq.2 heq, Nat.compare_eq_eq.2 (by omega)]
    · rw [Nat.compare_eq_gt.2 hgt, Nat.compare_eq_gt.2 (by omega)]
  · rw [Nat.compare_eq_gt.2 hgt, Nat.compare_eq_gt.2 (by omega)]
    rfl

/-- Of numbers with as many digits, the first pair that differs settles which is larger. -/
theorem compare_shown {as bs : List UInt8} (hlength : as.length = bs.length) :
    compare (shown as) (shown bs) = compare as bs := by
  -- The digits in front, which the induction has passed, come first.
  have hfold : ∀ m n : Nat, compare (as.foldl (fun n b => 256 * n + b.toNat) m)
      (bs.foldl (fun n b => 256 * n + b.toNat) n) = (compare m n).then (compare as bs) := by
    induction as generalizing bs with
    | nil =>
        intro m n
        obtain rfl := List.length_eq_zero_iff.1 hlength.symm
        exact Ordering.then_eq.symm
    | cons a as ih =>
        intro m n
        cases bs with
        | nil => cases hlength
        | cons b bs =>
            rw [List.foldl_cons, List.foldl_cons, ih (Nat.succ.inj hlength), compare_digit,
              Ordering.then_assoc, List.compare_cons_cons]
  exact hfold 0 0

/-! ### The order of texts -/

/-- The laws of a total order, for all the ways in which hashes are compared. -/
structure Ordered (a b c : ScriptHash) : Prop where
  swap : compare b a = (compare a b).swap
  antisymm : (compare a b).isLE → (compare b a).isLE → a = b
  trans : (compare a b).isLE → (compare b c).isLE → (compare a c).isLE
  total : (compare a b).isLE ∨ (compare b a).isLE
  eq : compare a b = .eq ↔ (a == b) = true
  text : (a == b) = true ↔ a.toText = b.toText
  partly : a.partialCompare b = some (compare a b)
  lt : a < b ↔ compare a b = .lt
  le : a ≤ b ↔ (compare a b).isLE
  larger : max a b = if compare a b = .gt then a else b
  /-- The larger one is one of the two, and neither is above it. -/
  largest : (max a b = a ∨ max a b = b) ∧
    (compare a (max a b)).isLE ∧ (compare b (max a b)).isLE

/-- Hashes are totally ordered. Where two texts that are read belong is settled by their pairs from
the last to the first, and in particular by the last pair that is not the same. The numbers that the
texts show go by the pairs from the first to the last, and may be the other way round. -/
theorem ordered_backwards :
    (∀ a b c : ScriptHash, Ordered a b c) ∧
    (∀ text hash, ofText text = .ok hash → ∃ pairs, Pairs text pairs ∧ pairs.length = 20) ∧
    (∀ text hash pairs text' hash' pairs', ofText text = .ok hash → Pairs text pairs →
      ofText text' = .ok hash' → Pairs text' pairs' →
      compare hash hash' = compare pairs.reverse pairs'.reverse ∧
        (∀ (i : Nat) byte byte', pairs[i]? = some byte → pairs'[i]? = some byte' → byte ≠ byte' →
          (∀ j, i < j → pairs[j]? = pairs'[j]?) → compare hash hash' = compare byte byte') ∧
        compare (shown pairs) (shown pairs') = compare pairs pairs') ∧
    ∃ text hash pairs text' hash' pairs', ofText text = .ok hash ∧ Pairs text pairs ∧
      ofText text' = .ok hash' ∧ Pairs text' pairs' ∧
      shown pairs < shown pairs' ∧ compare hash hash' = .gt := by
  refine ⟨?_, fun text hash => exists_pairs, ?_, ?_⟩
  · intro a b c
    constructor
    case swap => exact compare_swap a b
    case antisymm => exact isLE_antisymm
    case trans => exact Std.TransOrd.isLE_trans
    case total => exact isLE_total a b
    case eq => exact Std.LawfulEqOrd.compare_eq_iff_eq.trans beq_iff_eq.symm
    case text => exact beq_iff_eq.trans ⟨congrArg toText, toText_injective⟩
    case partly => exact partialCompare_eq a b
    case lt => exact Iff.rfl
    case le => exact Iff.rfl
    case larger => exact max_eq a b
    case largest => exact max_spec a b
  · intro text hash pairs text' hash' pairs' hread hpairs hread' hpairs'
    have hbytes := hpairs.ofText_eq_ok_iff.1 hread
    have hbytes' := hpairs'.ofText_eq_ok_iff.1 hread'
    have hcompare : compare hash hash' = compare pairs.reverse pairs'.reverse := by
      rw [compare_eq, hbytes, hbytes', List.reverse_reverse, List.reverse_reverse]
    refine ⟨hcompare, ?_, compare_shown ?_⟩
    · intro i byte byte' hbyte hbyte' hne hlater
      rw [hcompare]
      exact compare_reverse hbyte hbyte' hne hlater
    · rw [hbytes, hbytes', List.length_reverse, List.length_reverse, hash.length_bytes,
        hash'.length_bytes]
  · -- A one in the last pair shows the number one, and is stored first.
    let low : ScriptHash := ⟨1 :: List.replicate 19 0, rfl⟩
    let high : ScriptHash := ⟨List.replicate 19 0 ++ [1], rfl⟩
    exact ⟨_, low, _, _, high, _, low.ofText_toText, low.pairs_toText, high.ofText_toText,
      high.pairs_toText, by decide, rfl⟩

/-- The last pair of the first text is below that of the second, and all its other pairs are
above. -/
theorem ordered_backwards_spellings :
    let text := "0X" ++ "FfFfFfFfFfFfFfFfFfFfFfFfFfFfFfFfFfFfFf9a"
    let text' := "0x" ++ "00000000000000000000000000000000000000Ab"
    ∃ hash hash', ofText text = .ok hash ∧ ofText text' = .ok hash' ∧ compare hash hash' = .lt := by
  intro text text'
  have hpairs : Pairs text (List.replicate 19 0xff ++ [0x9a]) :=
    ⟨_, .upper _, Hex.spells_iff.2 (by decide)⟩
  have hpairs' : Pairs text' (List.replicate 19 0 ++ [0xab]) :=
    ⟨_, .lower _, Hex.spells_iff.2 (by decide)⟩
  let hash : ScriptHash := ⟨0x9a :: List.replicate 19 0xff, rfl⟩
  let hash' : ScriptHash := ⟨0xab :: List.replicate 19 0, rfl⟩
  have hread : ofText text = .ok hash := hpairs.ofText_eq_ok_iff.2 rfl
  have hread' : ofText text' = .ok hash' := hpairs'.ofText_eq_ok_iff.2 rfl
  have hlast := (ordered_backwards.2.2.1 _ _ _ _ _ _ hread hpairs hread' hpairs').2.1 19 0x9a 0xab
    rfl rfl (by decide)
  refine ⟨hash, hash', hread, hread', (hlast fun j hj => ?_).trans rfl⟩
  rw [List.getElem?_eq_none hj, List.getElem?_eq_none hj]

end ScriptHash

end HostStack
