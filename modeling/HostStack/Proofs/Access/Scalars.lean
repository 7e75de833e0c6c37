import HostStack.Proofs.Access.PlainItems
import HostStack.Proofs.Item.Equality
import HostStack.Proofs.Stack.Bounded

/-!
# Scalars come back

What is pushed as a native value comes off the stack as the same value: the same truth value, the
same number with its sign, the same bytes. Neither the width of an integer nor the form of a buffer
is part of the item, so nothing is cut off and nothing is told apart that is the same.

A pop for another kind finds nothing, and takes the item all the same. So whatever pops are made
after some pushes, each has to do with one value only: the pops go down the stack one item at a
time, which is the induction here, and what one of them hands out never depends on the others.
-/

namespace HostStack

/-! ### Machine words -/

/-- The signed integers of a width are the machine words of that width as two's complement. -/
theorem IntegerType.contains_signed {bits : Nat} (hbits : 0 < bits) (n : Int) :
    (IntegerType.signed bits).Contains n ↔ ∃ word : BitVec bits, word.toInt = n := by
  constructor
  · intro hrange
    obtain ⟨hlow, hhigh⟩ := hrange
    rw [Int.ofNat_eq_natCast, Nat.pow_eq, Nat.cast_pow, Nat.cast_ofNat] at hlow hhigh
    exact ⟨.ofInt bits n, BitVec.toInt_ofInt_eq_self hbits hlow hhigh⟩
  · intro hword
    obtain ⟨word, rfl⟩ := hword
    rw [Contains, Int.ofNat_eq_natCast, Nat.pow_eq, Nat.cast_pow, Nat.cast_ofNat]
    exact ⟨word.le_toInt, word.toInt_lt⟩

theorem IntegerType.contains_unsigned (bits : Nat) (n : Int) :
    (IntegerType.unsigned bits).Contains n ↔ ∃ word : BitVec bits, (word.toNat : Int) = n := by
  constructor
  · intro hrange
    obtain ⟨hlow, hhigh⟩ := hrange
    obtain ⟨k, rfl⟩ := Int.eq_ofNat_of_zero_le hlow
    have hk : k < 2 ^ bits := Int.ofNat_lt.1 hhigh
    exact ⟨.ofNat bits k, by rw [BitVec.toNat_ofNat, Nat.mod_eq_of_lt hk]⟩
  · intro hword
    obtain ⟨word, rfl⟩ := hword
    exact ⟨Int.natCast_nonneg _, Int.ofNat_lt.2 word.isLt⟩

/-! ### The three kinds -/

inductive ScalarKind where
  | boolean
  | integer
  | byteArray
  deriving DecidableEq

def ScalarKind.pop : ScalarKind → Pop
  | .boolean => .boolean
  | .integer => .integer
  | .byteArray => .byteArray

/-- What the pop of a kind hands out when the item is not of that kind. -/
def ScalarKind.nothing : ScalarKind → Reply
  | .boolean => .boolean none
  | .integer => .integer none
  | .byteArray => .bytes none

namespace Native

def kind : Native → ScalarKind
  | .boolean _ => .boolean
  | .integer _ _ _ => .integer
  | .bytes _ _ => .byteArray

/-- The value as it comes off the stack. -/
def reply : Native → Reply
  | .boolean value => .boolean (some value)
  | .integer _ value _ => .integer (some value)
  | .bytes _ data => .bytes (some data)

/-- What the pop of a kind makes of a value. -/
def answer (value : Native) (kind : ScalarKind) : Reply :=
  if kind = value.kind then value.reply else kind.nothing

/-- Values of one kind that are the same, whatever the width or the form. -/
inductive Same : Native → Native → Prop
  | boolean (value : Bool) : Same (.boolean value) (.boolean value)
  | integer {type type' : IntegerType} {value : Int} (contains : type.Contains value)
      (contains' : type'.Contains value) :
      Same (.integer type value contains) (.integer type' value contains')
  | bytes (form form' : BufferForm) (data : List UInt8) :
      Same (.bytes form data) (.bytes form' data)

theorem reply_pop (value : Native) (kind : ScalarKind) :
    kind.pop.reply value.item = .ok (value.answer kind) := by
  cases value <;> cases kind <;> rfl

theorem leftover_pop (value : Native) (kind : ScalarKind) : kind.pop.leftover value.item = [] := by
  cases value <;> cases kind <;> rfl

theorem beq_item_iff (v w : Native) : (v.item == w.item) = true ↔ v.Same w := by
  rw [Item.beq_iff_same]
  constructor
  · intro hsame
    cases v with
    | boolean x =>
        cases w with
        | boolean y => cases hsame; exact .boolean x
        | integer _ _ _ | bytes _ _ => cases hsame
    | integer type x hx =>
        cases w with
        | integer type' y hy => cases hsame; exact .integer hx hy
        | boolean _ | bytes _ _ => cases hsame
    | bytes form xs =>
        cases w with
        | bytes form' ys => cases hsame; exact .bytes form form' xs
        | boolean _ | integer _ _ _ => cases hsame
  · intro hsame
    cases hsame with
    | boolean value => exact .boolean value
    | integer _ _ => exact .integer _
    | bytes _ _ data => exact .byteArray data

end Native

/-! ### Pushes, and pops -/

def Accessor.pushes (a : Accessor) (values : List Native) : List Operation :=
  values.map fun value => .call a (.push value)

def Accessor.pops (a : Accessor) (kinds : List ScalarKind) : List Operation :=
  kinds.map fun kind => .call a (.pop kind.pop)

variable {a : Accessor} {m : Machine} {values : List Native} {items : List Item} {maxSize : Nat}

theorem Accessor.run_pushes (hplain : a.factory.Plain) (hstack : m.stack = .ofTop items maxSize)
    (hroom : items.length + values.length ≤ maxSize) :
    let run := Operation.runAll (a.pushes values) m
    run.1 = values.map (fun _ => .ok .done) ∧
      run.2.stack = .ofTop (values.reverse.map Native.item ++ items) maxSize ∧
      run.2.heap = m.heap := by
  induction values generalizing m items with
  | nil => exact ⟨rfl, hstack, rfl⟩
  | cons value values ih =>
      rw [List.length_cons] at hroom
      have hitem : (Call.push value).item? = some value.item := rfl
      obtain ⟨hresult, hpushed, hheap⟩ :=
        Operation.run_push_plain hplain hitem hstack (by omega)
      obtain ⟨hresults, hend, hheap'⟩ := ih hpushed (by rw [List.length_cons]; omega)
      have hcons : a.pushes (value :: values) = .call a (.push value) :: a.pushes values := rfl
      rw [hcons, Operation.runAll_cons]
      refine ⟨?_, ?_, hheap'.trans hheap⟩
      · rw [hresult, hresults]
        rfl
      · rw [hend, List.reverse_cons, List.map_append, List.append_assoc]
        rfl

/-- Pops of any kinds. They take one value each. -/
theorem Accessor.run_pops (a : Accessor) {kinds : List ScalarKind}
    (hlength : kinds.length = values.length)
    (hstack : m.stack = .ofTop (values.map Native.item ++ items) maxSize) :
    let run := Operation.runAll (a.pops kinds) m
    run.1 = List.zipWith (fun value kind => .ok (value.answer kind)) values kinds ∧
      run.2.stack = .ofTop items maxSize ∧ run.2.heap = m.heap := by
  induction values generalizing m kinds with
  | nil =>
      obtain rfl := List.length_eq_zero_iff.1 hlength
      exact ⟨rfl, hstack, rfl⟩
  | cons value values ih =>
      cases kinds with
      | nil => cases hlength
      | cons kind kinds =>
          rw [List.length_cons, List.length_cons] at hlength
          obtain ⟨hresult, hpopped, hheap⟩ := Operation.run_pop_ofTop a kind.pop hstack
          obtain ⟨hresults, hend, hheap'⟩ := ih (Nat.succ.inj hlength) hpopped
          rw [value.leftover_pop, List.map_nil, Heap.release_nil] at hheap
          have hcons : a.pops (kind :: kinds) = .call a (.pop kind.pop) :: a.pops kinds := rfl
          rw [hcons, Operation.runAll_cons]
          refine ⟨?_, hend, hheap'.trans hheap⟩
          rw [hresult, hresults, value.reply_pop]
          rfl

/-- What comes of some pushes, and as many pops. -/
structure Accessor.ScalarsReturn (a : Accessor) (values : List Native) (m : Machine) : Prop where
  /-- Pops of the values' own kinds, the last value first. -/
  own :
    let run := Operation.runAll (a.pushes values ++ a.pops (values.reverse.map Native.kind)) m
    run.1 = values.map (fun _ => .ok .done) ++ values.reverse.map (fun value => .ok value.reply) ∧
      run.2.stack = m.stack ∧ run.2.heap = m.heap
  /-- Pops of any kinds. -/
  mixed : ∀ kinds : List ScalarKind, kinds.length = values.length →
    let run := Operation.runAll (a.pushes values ++ a.pops kinds) m
    run.1 = values.map (fun _ => .ok .done) ++
        List.zipWith (fun value kind => .ok (value.answer kind)) values.reverse kinds ∧
      run.2.stack = m.stack ∧ run.2.heap = m.heap
  /-- One pop for another kind. -/
  replaced : ∀ i value, values.reverse[i]? = some value → ∀ other, other ≠ value.kind →
    let kinds := values.reverse.map Native.kind
    let run := Operation.runAll (a.pushes values ++ a.pops kinds) m
    let run' := Operation.runAll (a.pushes values ++ a.pops (kinds.set i other)) m
    run'.1 = run.1.set (values.length + i) (.ok other.nothing) ∧
      run'.2.stack = run.2.stack ∧ run'.2.heap = run.2.heap
  /-- The items of two values are equal if the values are the same. -/
  equal : ∀ (v w : Native) (built built' : List FactoryMethod),
    (((v.toItem a.factory).run built).1 == ((w.toItem a.factory).run built').1) = true ↔ v.Same w
  signed : ∀ bits, 0 < bits → ∀ n,
    (IntegerType.signed bits).Contains n ↔ ∃ word : BitVec bits, word.toInt = n
  unsigned : ∀ bits n,
    (IntegerType.unsigned bits).Contains n ↔ ∃ word : BitVec bits, (word.toNat : Int) = n

theorem Accessor.run_scalars (hplain : a.factory.Plain)
    (hroom : m.stack.size + values.length ≤ m.stack.maxSize) {kinds : List ScalarKind}
    (hlength : kinds.length = values.length) :
    let run := Operation.runAll (a.pushes values ++ a.pops kinds) m
    run.1 = values.map (fun _ => .ok .done) ++
        List.zipWith (fun value kind => .ok (value.answer kind)) values.reverse kinds ∧
      run.2.stack = m.stack ∧ run.2.heap = m.heap := by
  obtain ⟨items, maxSize, hstack⟩ := m.stack.exists_ofTop
  rw [hstack, Stack.size_ofTop, Stack.maxSize_ofTop] at hroom
  obtain ⟨hpushed, htop, hheap⟩ := Accessor.run_pushes hplain hstack hroom
  have hreverse : kinds.length = values.reverse.length := by rw [hlength, List.length_reverse]
  obtain ⟨hpopped, hend, hheap'⟩ := a.run_pops hreverse htop
  rw [Operation.runAll_append]
  exact ⟨by rw [hpushed, hpopped], hend.trans hstack.symm, hheap'.trans hheap⟩

theorem Native.answer_own (value : Native) : value.answer value.kind = value.reply :=
  if_pos rfl

theorem Native.answers_own (values : List Native) :
    List.zipWith (fun value kind => (.ok (value.answer kind) : Except AccessError Reply)) values
        (values.map Native.kind) =
      values.map fun value => .ok value.reply := by
  rw [List.zipWith_map_right, List.zipWith_self]
  exact List.map_congr_left fun value _ => congrArg _ value.answer_own

theorem Native.answers_set {i : Nat} {value : Native} (hvalue : values[i]? = some value)
    {other : ScalarKind} (hother : other ≠ value.kind) :
    List.zipWith (fun value kind => (.ok (value.answer kind) : Except AccessError Reply)) values
        ((values.map Native.kind).set i other) =
      (values.map fun value => .ok value.reply).set i (.ok other.nothing) := by
  induction values generalizing i with
  | nil => cases hvalue
  | cons head values ih =>
      cases i with
      | zero =>
          obtain rfl := Option.some.inj hvalue
          rw [List.map_cons, List.set_cons_zero, List.zipWith_cons_cons, Native.answers_own,
            Native.answer, if_neg hother]
          rfl
      | succ i =>
          rw [List.map_cons, List.set_cons_succ, List.zipWith_cons_cons, ih hvalue,
            head.answer_own]
          rfl

theorem Accessor.scalars_return {a : Accessor} (hplain : a.factory.Plain) {m : Machine}
    {values : List Native} (hroom : m.stack.size + values.length ≤ m.stack.maxSize) :
    a.ScalarsReturn values m where
  own := by
    intro run
    have hlength : (values.reverse.map Native.kind).length = values.length := by
      rw [List.length_map, List.length_reverse]
    have hrun := Accessor.run_scalars hplain hroom hlength
    rw [Native.answers_own] at hrun
    exact hrun
  mixed kinds hlength := Accessor.run_scalars hplain hroom hlength
  replaced i value hvalue other hother := by
    intro kinds run run'
    have hlength : kinds.length = values.length := by rw [List.length_map, List.length_reverse]
    obtain ⟨hresults, hstack, hheap⟩ := Accessor.run_scalars hplain hroom hlength
    have hset : (kinds.set i other).length = values.length := by rw [List.length_set, hlength]
    obtain ⟨hresults', hstack', hheap'⟩ := Accessor.run_scalars hplain hroom hset
    rw [Native.answers_own] at hresults
    rw [Native.answers_set hvalue hother] at hresults'
    refine ⟨?_, hstack'.trans hstack.symm, hheap'.trans hheap.symm⟩
    show run'.1 = _
    rw [hresults', hresults, List.set_append_right _ _ (by rw [List.length_map]; omega),
      List.length_map, Nat.add_sub_cancel_left]
  equal v w built built' := by
    rw [hplain.toItem, hplain.toItem]
    exact Native.beq_item_iff v w
  signed bits hbits n := IntegerType.contains_signed hbits n
  unsigned := IntegerType.contains_unsigned

/-- The smallest and the largest number of two widths, and an empty buffer. The largest number is
asked for as a truth value. -/
theorem Accessor.scalars_return_widths :
    let a : Accessor := .ofStack (.recording .standard) .zero
    let m : Machine := ⟨.empty, ⟨#[.integer 7], 5⟩, [], []⟩
    let values : List Native :=
      [.boolean true, .integer (.signed 8) (-128) (by decide),
        .integer (.unsigned 128) (2 ^ 128 - 1) (by decide), .bytes .slice []]
    let run := Operation.runAll (a.pushes values ++
      a.pops [.byteArray, .boolean, .integer, .boolean]) m
    a.factory.Plain ∧ m.stack.size + values.length ≤ m.stack.maxSize ∧
      run.1 = [.ok .done, .ok .done, .ok .done, .ok .done, .ok (.bytes (some [])),
        .ok (.boolean none), .ok (.integer (some (-128))), .ok (.boolean (some true))] ∧
      a.ScalarsReturn values m := by
  intro a m values run
  have hplain : a.factory.Plain := ItemFactory.standard_plain.recording
  have hroom : m.stack.size + values.length ≤ m.stack.maxSize := by decide
  have hreturn := Accessor.scalars_return hplain hroom
  have hresults := (hreturn.mixed [.byteArray, .boolean, .integer, .boolean] rfl).1
  exact ⟨hplain, hroom, hresults, hreturn⟩

end HostStack
