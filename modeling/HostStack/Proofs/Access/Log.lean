import HostStack.Access.Program
import HostStack.Proofs.Access.Effect

/-!
# What a call leaves in the log

A call adds its events at the end of the log, and which ones these are depends on the stack and the
factory alone. A look adds none. A removal logs the item it took, and then what came of it; if there
was none to take, the stack says so. A push is announced before the stack decides, and a refusal is
logged behind the announcement.
-/

namespace HostStack

/-! ### How a call ends -/

theorem Operation.run_of_ok {operation : Operation} {m m' : Machine} {reply : Reply}
    (h : operation.perform.run m = .ok reply m') : operation.run m = (.ok reply, m') := by
  rw [Operation.run, h]

theorem Operation.run_of_error {operation : Operation} {m m' : Machine} {e : AccessError}
    (h : operation.perform.run m = .error e m') : operation.run m = (.error e, m') := by
  rw [Operation.run, h]

theorem Operation.run_peek (a : Accessor) (how : Peek) (m : Machine) :
    (Operation.call a (.peek how)).run m =
      (.ok (how.reply m.stack),
        { m with heap :=
          match how.asked? m.stack with
          | some (w, type) => m.heap.ask w type
          | none => m.heap }) :=
  Operation.run_of_ok (how.perform_run m)

theorem Operation.run_pop (a : Accessor) (how : Pop) (m : Machine) :
    (Operation.call a (.pop how)).run m =
      match m.stack.pop with
      | .error cause => (.error (.stack cause), m.refusedPop)
      | .ok (item, stack) =>
        (how.reply item,
          { (m.taken item stack).released (how.leftover item) with
            events := (m.taken item stack).events ++ how.events item }) := by
  have hrun : (Operation.call a (.pop how)).perform.run m = _ := how.perform_run m
  rw [Operation.run, hrun]
  cases m.stack.pop with
  | error cause => rfl
  | ok top =>
      dsimp only
      cases how.reply top.1 with
      | ok reply => rfl
      | error e => rfl

theorem Operation.run_push {a : Accessor} {call : Call} {build : Build Item}
    (hbuild : a.assemble? call = some build) (m : Machine) :
    (Operation.call a call).run m =
      let item := (build.run m.built).1
      let ready := m.prepared call item (build.run m.built).2
      match m.stack.push item with
      | .ok stack => (.ok .done, { ready with stack })
      | .error cause => (.error (.stack cause), ready.refusedPush item) := by
  have hrun : (Operation.call a call).perform.run m = _ := Accessor.perform_push_run hbuild m
  rw [Operation.run, hrun]
  dsimp only
  cases m.stack.push _ with
  | ok stack => rfl
  | error cause => rfl

/-- A call pushes something that is put together for it, or it is a look or a removal. -/
theorem Accessor.assemble?_cases (a : Accessor) (call : Call) :
    (∃ build, a.assemble? call = some build) ∨ (∃ how, call = .peek how) ∨
      ∃ how, call = .pop how := by
  cases call with
  | push _ | pushInterop _ | pushInteropArray _ _ => exact .inl ⟨_, rfl⟩
  | peek how => exact .inr (.inl ⟨how, rfl⟩)
  | pop how => exact .inr (.inr ⟨how, rfl⟩)

/-- A removal that has an item replies, and may have skipped something, or it tells the mismatch. -/
theorem Pop.ends (how : Pop) (item : Item) :
    (∃ reply, how.reply item = .ok reply ∧
      (how.events item = [] ∨
        ∃ name dropped, how.events item = [.popArraySkippedChildren name dropped])) ∨
    ∃ expected, how.reply item = .error (.typeMismatch expected item.kind) ∧
      how.events item = [.popTypeMismatch expected item.kind] := by
  cases how with
  | integer | byteArray | boolean => exact .inl ⟨_, rfl, .inl rfl⟩
  | value target =>
      rw [Pop.reply, Pop.events]
      cases target.accept? item with
      | some taken => exact .inl ⟨_, rfl, .inl rfl⟩
      | none => exact .inr ⟨_, rfl, rfl⟩
  | array type =>
      refine .inl ⟨_, rfl, ?_⟩
      rw [Pop.events]
      cases item.array? with
      | none => exact .inl rfl
      | some items =>
          dsimp only
          split
          · exact .inr ⟨_, _, rfl⟩
          · exact .inl rfl

/-! ### The events -/

def Stack.refusal (s : Stack) (item : Item) : List Event :=
  match s.push item with
  | .ok _ => []
  | .error _ => [.stackOverflow s.maxSize]

/-- What a removal logs. -/
def Pop.log (s : Stack) (how : Pop) : List Event :=
  match s.pop with
  | .ok (item, _) => .pop item.kind :: how.events item
  | .error _ => [.popOnEmptyStack]

def Accessor.log (a : Accessor) (call : Call) (m : Machine) : List Event :=
  match a.assemble? call, call with
  | some build, _ =>
    let item := (build.run m.built).1
    call.announce item ++ m.stack.refusal item
  | none, .pop how => how.log m.stack
  | none, _ => []

theorem Accessor.log_push {a : Accessor} {call : Call} {build : Build Item}
    (hbuild : a.assemble? call = some build) (m : Machine) :
    a.log call m =
      call.announce (build.run m.built).1 ++ m.stack.refusal (build.run m.built).1 := by
  simp only [Accessor.log, hbuild]

theorem Accessor.events_eq (a : Accessor) (call : Call) (m : Machine) :
    ((Operation.call a call).run m).2.events = m.events ++ a.log call m := by
  rcases a.assemble?_cases call with ⟨build, hbuild⟩ | ⟨how, rfl⟩ | ⟨how, rfl⟩
  · rw [Operation.run_push hbuild, Accessor.log_push hbuild, Stack.refusal]
    dsimp only
    cases m.stack.push (build.run m.built).1 with
    | ok stack => simp [Machine.prepared]
    | error cause => simp [Machine.refusedPush, Machine.prepared]
  · rw [Operation.run_peek]
    exact (List.append_nil _).symm
  · rw [Operation.run_pop]
    simp only [Accessor.log, Accessor.assemble?, Pop.log]
    cases m.stack.pop with
    | error cause => rfl
    | ok top => simp [Machine.taken]

end HostStack
