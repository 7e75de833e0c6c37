import HostStack.Proofs.Access.Moves
import HostStack.Proofs.Access.Recording
import HostStack.Proofs.Heap.Undo

/-!
# Looks and refused operations can be left out

A look whose result is let go of, a removal that finds no item and a push that is refused leave
nothing behind but their events. So they can be left out of a run: the stack and the heap at the end
are the same, and every other call ends in the same way, frees the same objects and logs the same
events. Of a refused push there remains that the reference its caller gave away is gone.

That a refused push leaves no trace in the counts is not seen from the stack, which refuses the item
only when it is there, with all references that it was built with. They are given back one by one
when the item is released. What keeps this from freeing anything is that the host has references of
its own to what it pushes, and the stack to what is looked at. So the runs here are those of a host
that only uses what it owns, on a heap that counts the references of host and stack.
-/

namespace HostStack

/-! ### Leaving out calls -/

/-- A call that can be left out: the stack refused it, or it was a look and the result is gone. -/
def Trace.idle (t : Trace) : Bool :=
  match t.result, t.call with
  | .error (.stack _), _ => true
  | _, .peek _ => !t.keep
  | _, _ => false

namespace Move

/-- What is done in the place of a call that is left out: the host lets go of the reference that it
would have given away. -/
def residue : Move → List Move
  | .call _ (.pushInterop value) _ => [.own fun h => h.release [value.object]]
  | _ => []

/-- A run without the calls that can be left out. -/
def erase : List Move → Machine → List Move
  | [], _ => []
  | move :: moves, m =>
    (if (move.run m).1.any Trace.idle then move.residue else [move]) ++ erase moves (move.run m).2

end Move

/-! ### Calls that leave nothing behind -/

/-- A look only takes what it hands out. -/
theorem Peek.undo (a : Accessor) (how : Peek) {m : Machine}
    (halive : ∀ w ∈ m.stack.leaves, m.heap.strong w.object ≠ 0) :
    (((Operation.call a (.peek how)).run m).2.released (how.reply m.stack).leaves).heap =
      m.heap := by
  rw [Operation.run_peek, Machine.released]
  cases hasked : how.asked? m.stack with
  | none => rw [Peek.asked?_none hasked, List.map_nil, Heap.release_nil]
  | some asked =>
      obtain ⟨w, type⟩ := asked
      obtain ⟨hw, hreply⟩ := Peek.asked?_some hasked
      have hundo : (m.heap.retain [w.object]).release [w.object] = m.heap := by
        refine Heap.release_retain (.refl _) fun o ho => ?_
        rw [List.mem_singleton.1 ho]
        exact halive w hw
      rw [hreply, Interop.reference?, Interop.unwrap_eq]
      dsimp only
      rw [Heap.ask]
      by_cases htype : w.value.type = type
      · rw [if_pos htype, if_pos htype]
        exact hundo
      · rw [if_neg htype, if_neg htype]
        exact (Heap.release_nil _).trans hundo

/-- A refused item gives back what was copied for it. -/
theorem Accessor.undo_push {a : Accessor} (hf : a.factory.Conserves) {call : Call}
    {build : Build Item} (hbuild : a.assemble? call = some build) {m : Machine}
    (halive : ∀ w ∈ call.copies, m.heap.strong w.object ≠ 0) (built : List FactoryMethod) :
    (m.heap.retain (call.copies.map Interop.object)).release
        ((build.run built).1.leaves.map Interop.object) =
      m.heap.release (call.given.map Interop.object) := by
  have hperm := Accessor.leaves_assemble hf hbuild built
  generalize (build.run built).1.leaves = leaves at hperm
  cases call with
  | push value =>
      rw [List.perm_nil.1 hperm]
      rfl
  | pushInterop value =>
      rw [List.perm_singleton.1 hperm]
      rfl
  | pushInteropArray type values =>
      have hgiven : (Call.pushInteropArray type values).given = [] := rfl
      rw [hgiven, List.append_nil] at hperm
      rw [hgiven, List.map_nil, Heap.release_nil]
      refine Heap.release_retain (hperm.map _) fun o ho => ?_
      obtain ⟨w, hw, rfl⟩ := List.mem_map.1 ho
      exact halive w hw
  | peek how => cases hbuild
  | pop how => cases hbuild

/-- A refused push has done nothing but to build, and to let go of what it was given. -/
theorem Operation.refused_push {a : Accessor} (hf : a.factory.Conserves) {call : Call}
    {build : Build Item} (hbuild : a.assemble? call = some build) {m : Machine}
    (halive : ∀ w ∈ call.copies, m.heap.strong w.object ≠ 0) {cause : StackError} :
    let step := (Operation.call a call).run m
    step.1 = .error (.stack cause) →
      step.2.stack = m.stack ∧ step.2.heap = m.heap.release (call.given.map Interop.object) ∧
        step.2.built = (build.run m.built).2 := by
  have hundo := Accessor.undo_push hf hbuild halive m.built
  rw [Operation.run_push hbuild]
  dsimp only
  cases m.stack.push (build.run m.built).1 with
  | ok stack => rintro ⟨⟩
  | error _ => exact fun _ => ⟨rfl, hundo, rfl⟩

/-- A fair host has references to what is copied for it. -/
theorem Move.Fair.copies_alive {a : Accessor} {call : Call} {keep : Bool} {m : Machine}
    {mine mine' : Multiset Interop} (hfair : (Move.call a call keep).Fair m mine mine')
    (hc : m.Counts mine) :
    a.factory.Conserves ∧ ∀ w ∈ call.copies, m.heap.strong w.object ≠ 0 := by
  cases hfair with
  | call hf hs hcopies =>
      refine ⟨hf, fun w hw => hc.alive (.inr ?_)⟩
      exact Multiset.mem_add.2 (.inr (hcopies w hw))

/-- Where a call is idle, the stack is as before, and so is the heap but for what was given. -/
theorem Move.Fair.idle {a : Accessor} {call : Call} {keep : Bool} {m : Machine}
    {mine mine' : Multiset Interop} (hfair : (Move.call a call keep).Fair m mine mine')
    (hc : m.Counts mine) (hidle : ((Move.call a call keep).run m).1.any Trace.idle) :
    ((Move.call a call keep).run m).2.stack = m.stack ∧
      ((Move.call a call keep).run m).2.heap =
        m.heap.release (call.given.map Interop.object) := by
  obtain ⟨hf, hcopies⟩ := hfair.copies_alive hc
  rw [Move.run_call] at hidle ⊢
  rcases a.assemble?_cases call with ⟨build, hbuild⟩ | ⟨how, rfl⟩ | ⟨how, rfl⟩
  · dsimp only at hidle ⊢
    cases hresult : ((Operation.call a call).run m).1 with
    | ok reply =>
        rw [hresult] at hidle
        cases call <;> cases hbuild <;> cases hidle
    | error e =>
        rw [hresult] at hidle
        cases e with
        | typeMismatch expected got => cases call <;> cases hbuild <;> cases hidle
        | stack cause =>
            obtain ⟨hstack, hheap, -⟩ := Operation.refused_push hf hbuild hcopies hresult
            rw [Pop.out, released_nil, ite_self]
            exact ⟨hstack, hheap⟩
  · cases keep with
    | true =>
        rw [Operation.run_peek] at hidle
        cases hidle
    | false =>
        have hundo := how.undo a fun w hw => hc.alive (.inl hw)
        rw [Operation.run_peek] at hundo ⊢
        exact ⟨rfl, hundo.trans (Heap.release_nil _).symm⟩
  · rw [Operation.run_pop] at hidle ⊢
    cases hpop : m.stack.pop with
    | ok top =>
        rw [hpop] at hidle
        dsimp only at hidle
        rcases how.ends top.1 with ⟨_, hreply, -⟩ | ⟨_, hreply, -⟩
        · rw [hreply] at hidle
          cases hidle
        · rw [hreply] at hidle
          cases hidle
    | error cause =>
        dsimp only [Pop.out]
        rw [released_nil, ite_self]
        exact ⟨rfl, (Heap.release_nil _).symm⟩

/-! ### Runs with and without them -/

namespace Move

theorem runAll_residue (a : Accessor) (call : Call) (keep : Bool) (m : Machine) :
    runAll (Move.call a call keep).residue m =
      ([], { m with heap := m.heap.release (call.given.map Interop.object) }) := by
  have hnothing : m = { m with heap := m.heap.release [] } := by rw [Heap.release_nil]
  cases call with
  | pushInterop value => rfl
  | push _ | pushInteropArray _ _ | peek _ | pop _ => exact congrArg (Prod.mk []) hnothing

theorem AllFair.erase {moves : List Move} {m m' : Machine} {mine : Multiset Interop}
    (hfair : AllFair moves m mine) (hc : m.Counts mine) (hm : m.Agrees m') :
    let run := runAll moves m
    let run' := runAll (Move.erase moves m) m'
    run'.1 = run.1.filter (!·.idle) ∧ run.2.Agrees run'.2 := by
  induction hfair generalizing m' with
  | nil => exact ⟨rfl, hm⟩
  | @cons move moves m mine mine' hmove _ ih =>
      have hc' := hmove.counts hc
      rw [Move.erase, runAll_append, runAll_cons]
      dsimp only
      rw [List.filter_append]
      by_cases hidle : (move.run m).1.any Trace.idle
      · rw [if_pos hidle]
        cases move with
        | own change => cases hidle
        | call a call keep =>
            -- What is left of the call brings the machine to where the call has left it.
            obtain ⟨hstack, hheap⟩ := hmove.idle hc hidle
            rw [runAll_residue]
            have hrest := @ih { m' with heap := m'.heap.release _ } hc'
              ⟨hstack.trans hm.stack, hheap.trans (congrArg (Heap.release · _) hm.heap)⟩
            refine ⟨hrest.1.trans ?_, hrest.2⟩
            rw [Move.run_call] at hidle ⊢
            simpa using hidle
      · rw [if_neg hidle]
        obtain ⟨htrace, hstep⟩ := hmove.agrees hm
        have hrest := ih hc' hstep
        rw [runAll_singleton]
        refine ⟨?_, hrest.2⟩
        rw [hrest.1, ← htrace]
        cases htrace : (move.run m).1 with
        | none => rfl
        | some trace =>
            have hkept : trace.idle = false := by simpa [htrace] using hidle
            simp [hkept]

end Move

theorem ItemFactory.interops_recording (type : HostType) (values : List ObjectId)
    (built : List FactoryMethod) :
    (((ItemFactory.recording .standard).interops type values).run built).2 =
      built ++ values.map fun _ => .interop := by
  obtain ⟨items, hrun⟩ := ItemFactory.notes_interops type values
  rw [(hrun built).2, List.map_const']

/-- A refused array takes nothing with it, although it was built with all its wrappers. -/
theorem Operation.array_refused {a : Accessor} (hf : a.factory.Conserves) {type : HostType}
    {values : List ObjectId} {m : Machine} (halive : ∀ o ∈ values, m.heap.strong o ≠ 0)
    {cause : StackError} :
    let step := (Operation.call a (.pushInteropArray type values)).run m
    step.1 = .error (.stack cause) →
      step.2.heap = m.heap ∧ step.2.stack = m.stack ∧
        (a.factory = .recording .standard →
          step.2.built = m.built ++ values.map (fun _ => .interop) ++ [.array]) := by
  intro step hresult
  have hcopies : ∀ w ∈ (Call.pushInteropArray type values).copies, m.heap.strong w.object ≠ 0 := by
    intro w hw
    obtain ⟨o, ho, rfl⟩ := List.mem_map.1 hw
    exact halive o ho
  obtain ⟨hstack, hheap, hbuilt⟩ := Operation.refused_push hf rfl hcopies hresult
  refine ⟨hheap.trans (Heap.release_nil _), hstack, fun hrecording => ?_⟩
  rw [hbuilt, hrecording, ← ItemFactory.interops_recording type]
  rfl

/-- Without the calls that can be left out a run ends with the same stack and the same heap, and
each of its other calls ends as before, frees the same objects and logs the same events. -/
theorem Move.erasure {moves : List Move} {m : Machine} {mine : Multiset Interop}
    (hc : m.Counts mine) (hfair : AllFair moves m mine) :
    let run := runAll moves m
    let run' := runAll (erase moves m) m
    run'.2.stack = run.2.stack ∧ run'.2.heap = run.2.heap ∧
      run'.1 = run.1.filter (!·.idle) ∧
      ∀ before a type values keep after max,
        moves = before ++ .call a (.pushInteropArray type values) keep :: after →
        let m' := (runAll before m).2
        let step := (Operation.call a (.pushInteropArray type values)).run m'
        step.1 = .error (.stack (.overflow max)) →
          step.2.heap = m'.heap ∧ step.2.stack = m'.stack ∧
            (a.factory = .recording .standard →
              step.2.built = m'.built ++ values.map (fun _ => .interop) ++ [.array]) := by
  intro run run'
  obtain ⟨htraces, hend⟩ := hfair.erase hc ⟨rfl, rfl⟩
  refine ⟨hend.stack.symm, hend.heap.symm, htraces, ?_⟩
  rintro before a type values keep after max rfl
  obtain ⟨mine', hc', hafter⟩ := hfair.after hc
  cases hafter with
  | cons hmove _ =>
      obtain ⟨hf, hcopies⟩ := hmove.copies_alive hc'
      exact Operation.array_refused hf fun o ho => hcopies _ (List.mem_map_of_mem ho)

/-- On a full stack with an integer, by a host with two references to one object: an array and an
object that are refused, looks, and more removals than there are items. -/
theorem Move.erasure_full :
    let h := (Heap.empty.alloc (.host "T") .unit).2.retain [⟨0⟩]
    let m : Machine := ⟨h, ⟨#[.integer 7], 1⟩, [], []⟩
    let a := Accessor.ofStack (.recording .standard) .zero
    let value : Ref := ⟨⟨0⟩, .host "T"⟩
    let mine : Multiset Interop := {.ofRef value, .ofRef value}
    let array : Call := .pushInteropArray (.host "T") [⟨0⟩, ⟨0⟩]
    let moves : List Move := [.call a array false, .call a (.peek (.integer 0)) false,
      .call a (.pop .integer) false, .call a (.pop .boolean) false,
      .call a (.pushInterop value) false, .call a (.peek (.referenceTop (.host "T"))) false,
      .call a (.pushInterop value) false, .call a (.pop (.value (.reference (.host "T")))) false]
    m.Counts mine ∧ AllFair moves m mine ∧
      (runAll moves m).1.map Trace.idle = [true, true, false, true, false, true, true, false] ∧
      (runAll (erase moves m) m).1 = (runAll moves m).1.filter (!·.idle) ∧
      (runAll (erase moves m) m).2.heap = (runAll moves m).2.heap ∧
      let step := (Operation.call a array).run m
      step.1 = .error (.stack (.overflow 1)) ∧ step.2.built = [.interop, .interop, .array] ∧
        step.2.heap = m.heap := by
  intro h m a value mine array moves
  have hmade : (Heap.empty.alloc (.host "T") .unit).2.Balanced {⟨0⟩} :=
    @Heap.Balanced.alloc _ 0 _ _ Heap.balanced_empty
  have hcounts : m.Counts mine := @Heap.Balanced.retain _ _ hmade [⟨0⟩] (by simp)
  have hf : a.factory.Conserves := ItemFactory.standard_conserves.recording
  have hs : a.factory.Steady := ItemFactory.standard_steady.recording
  have hfair : AllFair moves m mine := by
    have hnothing : ∀ {rest : Multiset Interop}, ∀ w ∈ ([] : List Interop), w ∈ rest := by simp
    have hcopies : ∀ w ∈ array.copies, w ∈ mine := by simp [array, Call.copies, mine, value]
    refine .cons (@Fair.call a array _ _ mine hf hs hcopies) ?_
    refine .cons (@Fair.call a (.peek _) _ _ mine hf hs hnothing) ?_
    refine .cons (@Fair.call a (.pop _) _ _ mine hf hs hnothing) ?_
    refine .cons (@Fair.call a (.pop _) _ _ mine hf hs hnothing) ?_
    refine .cons (@Fair.call a (.pushInterop _) _ _ {.ofRef value} hf hs hnothing) ?_
    refine .cons (@Fair.call a (.peek _) _ _ {.ofRef value} hf hs hnothing) ?_
    refine .cons (@Fair.call a (.pushInterop _) _ _ 0 hf hs hnothing) ?_
    exact .cons (@Fair.call a (.pop _) _ _ 0 hf hs hnothing) .nil
  have herased := Move.erasure hcounts hfair
  refine ⟨hcounts, hfair, rfl, herased.2.2.1, herased.2.1, rfl, rfl, ?_⟩
  have hrefused := herased.2.2.2 [] a _ _ _ _ 1 rfl rfl
  exact hrefused.1

end HostStack
