import HostStack.Proofs.Access.Log
import HostStack.Proofs.Stack.Bounded

/-!
# The log replays the stack

Whoever knows of what kinds the items of a stack are at first can keep track of them from the log
alone. The one difficulty is that a push is announced before the stack decides. A reader of the log
puts the item there at once, remembers for the time of one event what was there before, and goes
back to that if the next event says that the stack has refused. This is right because nothing is
logged between an announcement and the refusal that belongs to it, and because a refusal follows
nothing else.

The errors of a run can be read off the log as well, in their order and with all they say.
-/

namespace HostStack

/-- The kinds of the items from the top. -/
def Stack.kinds (s : Stack) : List ItemKind :=
  s.fromTop.map Item.kind

/-- What a reader of the log knows: the kinds from the top, and those before the push that was
announced just now. -/
structure Replay where
  kinds : List ItemKind
  undo : Option (List ItemKind)

namespace Replay

def put (r : Replay) (kind : ItemKind) : Replay :=
  ⟨kind :: r.kinds, some r.kinds⟩

/-- After one more event; nothing if the event contradicts what is known. -/
def read (r : Replay) : Event → Option Replay
  | .push kind => some (r.put kind)
  | .pushInterop _ => some (r.put .interop)
  | .pushInteropArray _ _ => some (r.put .array)
  | .stackOverflow _ => r.undo.map (⟨·, none⟩)
  | .pop kind =>
    match r.kinds with
    | top :: rest => if top = kind then some ⟨rest, none⟩ else none
    | [] => none
  | .popOnEmptyStack => if r.kinds = [] then some ⟨[], none⟩ else none
  | .popTypeMismatch _ _ | .popArraySkippedChildren _ _ => some ⟨r.kinds, none⟩

def readAll (r : Replay) (log : List Event) : Option Replay :=
  log.foldlM read r

/-- The kinds after a log, from those before it. -/
def kinds? (start : List ItemKind) (log : List Event) : Option (List ItemKind) :=
  (readAll ⟨start, none⟩ log).map kinds

theorem readAll_cons (r : Replay) (event : Event) (log : List Event) :
    r.readAll (event :: log) = (r.read event).bind (·.readAll log) := rfl

theorem readAll_append (r : Replay) (xs ys : List Event) :
    r.readAll (xs ++ ys) = (r.readAll xs).bind (·.readAll ys) := by
  rw [readAll, List.foldlM_append]
  rfl

end Replay

@[simp]
theorem Stack.kinds_ofTop (items : List Item) (maxSize : Nat) :
    (Stack.ofTop items maxSize).kinds = items.map Item.kind := by
  rw [Stack.kinds, Stack.fromTop_ofTop]

/-! ### One call -/

/-- The standard factory builds what the log announces. -/
theorem Accessor.announce_eq {a : Accessor} (hf : a.factory = .standard) {call : Call}
    {build : Build Item} (hbuild : a.assemble? call = some build) (built : List FactoryMethod)
    (r : Replay) :
    ∃ event, call.announce (build.run built).1 = [event] ∧
      r.read event = some (r.put (build.run built).1.kind) := by
  cases call with
  | push value =>
      injection hbuild with hbuild
      subst hbuild
      exact ⟨_, rfl, rfl⟩
  | pushInterop value | pushInteropArray type values =>
      injection hbuild with hbuild
      subst hbuild
      refine ⟨_, rfl, ?_⟩
      rw [hf]
      rfl
  | peek how => cases hbuild
  | pop how => cases hbuild

/-- What came of an item does not concern the reader. -/
theorem Pop.readAll_events (how : Pop) (item : Item) (kinds : List ItemKind) :
    Replay.readAll ⟨kinds, none⟩ (how.events item) = some ⟨kinds, none⟩ := by
  rcases how.ends item with ⟨_, -, hnone | ⟨_, _, hskipped⟩⟩ | ⟨_, -, hmismatch⟩
  · rw [hnone]
    rfl
  · rw [hskipped]
    rfl
  · rw [hmismatch]
    rfl

theorem Accessor.log_replays_call {a : Accessor} (hf : a.factory = .standard) (call : Call)
    (m : Machine) {r : Replay} (hr : r.kinds = m.stack.kinds) :
    ∃ r', r.readAll (a.log call m) = some r' ∧
      r'.kinds = ((Operation.call a call).run m).2.stack.kinds := by
  rcases a.assemble?_cases call with ⟨build, hbuild⟩ | ⟨how, rfl⟩ | ⟨how, rfl⟩
  · obtain ⟨event, hannounce, hread⟩ := Accessor.announce_eq hf hbuild m.built r
    rw [Accessor.log_push hbuild, hannounce, Operation.run_push hbuild, List.singleton_append,
      Replay.readAll_cons, hread, Option.bind_some, Stack.refusal]
    dsimp only
    generalize (build.run m.built).1 = item
    obtain ⟨items, maxSize, hstack⟩ := m.stack.exists_ofTop
    rw [hstack, Stack.kinds_ofTop] at hr
    rw [hstack, Stack.push_ofTop]
    by_cases hroom : items.length < maxSize
    · rw [if_pos hroom]
      refine ⟨_, rfl, ?_⟩
      simp [Replay.put, hr]
    · rw [if_neg hroom]
      refine ⟨⟨r.kinds, none⟩, rfl, ?_⟩
      simp [Machine.refusedPush, Machine.released, Machine.prepared, hstack, hr]
  · refine ⟨r, rfl, ?_⟩
    rw [Operation.run_peek]
    exact hr
  · show ∃ r', r.readAll (how.log m.stack) = some r' ∧ _
    rw [Operation.run_pop, Pop.log]
    obtain ⟨items, maxSize, hstack⟩ := m.stack.exists_ofTop
    rw [hstack, Stack.kinds_ofTop] at hr
    rw [hstack]
    cases items with
    | nil =>
        refine ⟨⟨[], none⟩, ?_, ?_⟩
        · simp [Stack.pop_ofTop_nil, Replay.readAll, Replay.read, hr]
        · simp [Stack.pop_ofTop_nil, Machine.refusedPop, hstack]
    | cons item items =>
        rw [Stack.pop_ofTop_cons]
        refine ⟨⟨items.map Item.kind, none⟩, ?_, ?_⟩
        · rw [Replay.readAll_cons, Replay.read, hr, List.map_cons]
          simp [Pop.readAll_events]
        · simp [Machine.released, Machine.taken]

/-- The error that an event tells of. -/
def Event.error? : Event → Option AccessError
  | .stackOverflow maxSize => some (.stack (.overflow maxSize))
  | .popOnEmptyStack => some (.stack .underflow)
  | .popTypeMismatch expected got => some (.typeMismatch expected got)
  | _ => none

namespace AccessError

def isOverflow : AccessError → Bool
  | .stack (.overflow _) => true
  | _ => false

def isUnderflow : AccessError → Bool
  | .stack .underflow => true
  | _ => false

def isMismatch : AccessError → Bool
  | .typeMismatch _ _ => true
  | .stack _ => false

end AccessError

def errorOf? : Except AccessError Reply → Option AccessError
  | .ok _ => none
  | .error e => some e

theorem Pop.errors_events (how : Pop) (item : Item) :
    (how.events item).filterMap Event.error? = (errorOf? (how.reply item)).toList := by
  rcases how.ends item with ⟨_, hreply, hnone | ⟨_, _, hskipped⟩⟩ | ⟨_, hreply, hmismatch⟩
  · rw [hreply, hnone]
    rfl
  · rw [hreply, hskipped]
    rfl
  · rw [hreply, hmismatch]
    rfl

/-- An error is logged once, and nothing is logged as an error that is none. -/
theorem Accessor.errors_log (a : Accessor) (call : Call) (m : Machine) :
    (a.log call m).filterMap Event.error? =
      (errorOf? ((Operation.call a call).run m).1).toList := by
  rcases a.assemble?_cases call with ⟨build, hbuild⟩ | ⟨how, rfl⟩ | ⟨how, rfl⟩
  · have hannounce : ∀ item, (call.announce item).filterMap Event.error? = [] := by
      intro item
      cases call <;> rfl
    rw [Accessor.log_push hbuild, List.filterMap_append, hannounce, List.nil_append,
      Operation.run_push hbuild, Stack.refusal]
    dsimp only
    obtain ⟨items, maxSize, hstack⟩ := m.stack.exists_ofTop
    rw [hstack, Stack.push_ofTop]
    by_cases hroom : items.length < maxSize
    · rw [if_pos hroom]
      rfl
    · rw [if_neg hroom]
      rfl
  · rw [Operation.run_peek]
    rfl
  · show (how.log m.stack).filterMap Event.error? = _
    rw [Operation.run_pop, Pop.log]
    obtain ⟨items, maxSize, hstack⟩ := m.stack.exists_ofTop
    rw [hstack]
    cases items with
    | nil => rfl
    | cons item items =>
        rw [Stack.pop_ofTop_cons]
        exact how.errors_events item

/-- What one call logs about its end. -/
structure Call.Explains (call : Call) (top : Option Item) (result : Except AccessError Reply)
    (log : List Event) : Prop where
  mismatch : ∀ expected got, .popTypeMismatch expected got ∈ log →
    log = [.pop got, .popTypeMismatch expected got] ∧
      result = .error (.typeMismatch expected got)
  /-- Skipped children are logged if there are any, with their number. -/
  skipped : ∀ name dropped, .popArraySkippedChildren name dropped ∈ log ↔
    ∃ type items values, call = .pop (.array type) ∧ top = some (.array items) ∧
      result = .ok (.references (some values)) ∧ values.length < items.length ∧
      name = type.name ∧ dropped = items.length - values.length
  once : log.Nodup
  looks : ∀ how, call = .peek how → log = []

theorem Accessor.explains_push {a : Accessor} {call : Call} {build : Build Item}
    (hbuild : a.assemble? call = some build) (m : Machine) (top : Option Item)
    (result : Except AccessError Reply) :
    call.Explains top result (a.log call m) := by
  rw [Accessor.log_push hbuild, Stack.refusal]
  generalize (build.run m.built).1 = item
  cases call with
  | push _ | pushInterop _ | pushInteropArray _ _ =>
      cases m.stack.push item with
      | ok stack => constructor <;> simp [Call.announce]
      | error cause => constructor <;> simp [Call.announce]
  | peek how => cases hbuild
  | pop how => cases hbuild

theorem Pop.explains (how : Pop) (item : Item) :
    (Call.pop how).Explains (some item) (how.reply item) (.pop item.kind :: how.events item) := by
  cases how with
  | integer | byteArray | boolean => constructor <;> simp [Pop.events]
  | value target =>
      rw [Pop.reply, Pop.events]
      cases target.accept? item with
      | some taken => constructor <;> simp
      | none => constructor <;> simp
  | array type =>
      rw [Pop.reply, Pop.events]
      cases item with
      | array items =>
          dsimp only [Item.array?, Option.map_some]
          generalize hvalues : items.filterMap (·.reference? type) = values
          by_cases hkept : values.length < items.length
          · rw [if_pos hkept]
            refine ⟨by simp, ?_, by simp, by simp⟩
            intro name dropped
            constructor
            · intro hmem
              obtain ⟨rfl, rfl⟩ : name = type.name ∧ dropped = items.length - values.length := by
                simpa using hmem
              exact ⟨type, items, values, rfl, rfl, rfl, hkept, rfl, rfl⟩
            · rintro ⟨_, _, _, ⟨⟩, ⟨⟩, ⟨⟩, -, rfl, rfl⟩
              simp
          · rw [if_neg hkept]
            refine ⟨by simp, ?_, by simp, by simp⟩
            intro name dropped
            constructor
            · intro hmem
              simp at hmem
            · rintro ⟨_, _, _, ⟨⟩, ⟨⟩, ⟨⟩, hless, -, -⟩
              exact absurd hless hkept
      | boolean _ | integer _ | byteArray _ | interop _ => constructor <;> simp [Item.array?]

/-- Every call explains its end. -/
theorem Accessor.explains (a : Accessor) (call : Call) (m : Machine) :
    call.Explains (m.stack.item? 0) ((Operation.call a call).run m).1 (a.log call m) := by
  rcases a.assemble?_cases call with ⟨build, hbuild⟩ | ⟨how, rfl⟩ | ⟨how, rfl⟩
  · exact Accessor.explains_push hbuild m _ _
  · constructor <;> simp [Accessor.log, Accessor.assemble?]
  · show (Call.pop how).Explains _ _ (how.log m.stack)
    rw [Operation.run_pop, Pop.log]
    obtain ⟨items, maxSize, hstack⟩ := m.stack.exists_ofTop
    rw [hstack, Stack.item?_ofTop]
    cases items with
    | nil => constructor <;> simp [Stack.pop_ofTop_nil]
    | cons item items =>
        rw [Stack.pop_ofTop_cons]
        exact how.explains item

/-! ### Runs -/

/-- The calls of a run, each with the accessor that it goes through. -/
def Operation.ofCalls (calls : List (Accessor × Call)) : List Operation :=
  calls.map fun use => .call use.1 use.2

theorem Operation.log_ofCalls (calls : List (Accessor × Call)) (m : Machine) :
    let run := Operation.runAll (Operation.ofCalls calls) m
    ∃ log, run.2.events = m.events ++ log ∧
      log.filterMap Event.error? = run.1.filterMap errorOf? ∧
      ((∀ use ∈ calls, use.1.factory = .standard) → ∀ r : Replay, r.kinds = m.stack.kinds →
        ∃ r', r.readAll log = some r' ∧ r'.kinds = run.2.stack.kinds) := by
  induction calls generalizing m with
  | nil => exact ⟨[], (List.append_nil _).symm, rfl, fun _ r hr => ⟨r, rfl, hr⟩⟩
  | cons use rest ih =>
      obtain ⟨a, call⟩ := use
      obtain ⟨log, hevents, herrors, hreplay⟩ := ih ((Operation.call a call).run m).2
      refine ⟨a.log call m ++ log, ?_, ?_, ?_⟩
      · rw [a.events_eq, List.append_assoc] at hevents
        exact hevents
      · rw [List.filterMap_append, a.errors_log, herrors]
        show _ = List.filterMap errorOf? (((Operation.call a call).run m).1 :: _)
        rw [List.filterMap_cons]
        cases errorOf? ((Operation.call a call).run m).1 with
        | none => rfl
        | some e => rfl
      · intro hstandard r hr
        have hf : a.factory = .standard := hstandard (a, call) List.mem_cons_self
        obtain ⟨r', hread, hr'⟩ := Accessor.log_replays_call hf call m hr
        rw [Replay.readAll_append, hread, Option.bind_some]
        exact hreplay (fun use huse => hstandard use (List.mem_cons_of_mem _ huse)) r' hr'

/-- The errors that are logged under a message are those of its kind. -/
theorem countP_message {log : List Event} {results : List (Except AccessError Reply)}
    (herrors : log.filterMap Event.error? = results.filterMap errorOf?) {text : String}
    {p : AccessError → Bool}
    (hp : ∀ event : Event, decide (event.message = text) = event.error?.any p) :
    log.countP (·.message = text) = results.countP fun result => (errorOf? result).any p := by
  have hany : ∀ e? : Option AccessError, (e?.map p).getD false = e?.any p := by
    intro e?
    cases e? with
    | none => rfl
    | some e => rfl
  have hcount := congrArg (List.countP p) herrors
  simp only [List.countP_filterMap, hany, ← hp] at hcount
  exact hcount

/-- A reader of the log who knows the kinds of the items at first knows them at the end, if the
factory is the standard one. In any run the errors are logged in their order, and each call explains
its own end: a mismatch right after the item was taken, children that were skipped with their
number, and a look with nothing. -/
theorem Operation.log_tells (calls : List (Accessor × Call)) (m : Machine) :
    let run := Operation.runAll (Operation.ofCalls calls) m
    ∃ log, run.2.events = m.events ++ log ∧
      ((∀ use ∈ calls, use.1.factory = .standard) →
        Replay.kinds? m.stack.kinds log = some run.2.stack.kinds) ∧
      log.filterMap Event.error? = run.1.filterMap errorOf? ∧
      log.countP (·.message = "stack overflow") =
        run.1.countP (fun result => (errorOf? result).any AccessError.isOverflow) ∧
      log.countP (·.message = "pop on empty stack") =
        run.1.countP (fun result => (errorOf? result).any AccessError.isUnderflow) ∧
      log.countP (·.message = "pop type mismatch") =
        run.1.countP (fun result => (errorOf? result).any AccessError.isMismatch) ∧
      ∀ before a call rest, calls = before ++ (a, call) :: rest →
        let m' := (Operation.runAll (Operation.ofCalls before) m).2
        let step := (Operation.call a call).run m'
        ∃ entry, step.2.events = m'.events ++ entry ∧
          call.Explains (m'.stack.item? 0) step.1 entry := by
  intro run
  obtain ⟨log, hevents, herrors, hreplay⟩ := Operation.log_ofCalls calls m
  refine ⟨log, hevents, ?_, herrors, ?_, ?_, ?_, ?_⟩
  · intro hstandard
    obtain ⟨r, hread, hr⟩ := hreplay hstandard ⟨m.stack.kinds, none⟩ rfl
    rw [Replay.kinds?, hread, Option.map_some, hr]
  · exact countP_message herrors (by rintro (_ | _ | _ | _ | _ | _ | _ | _) <;> rfl)
  · exact countP_message herrors (by rintro (_ | _ | _ | _ | _ | _ | _ | _) <;> rfl)
  · exact countP_message herrors (by rintro (_ | _ | _ | _ | _ | _ | _ | _) <;> rfl)
  · intro before a call rest _
    exact ⟨a.log call _, a.events_eq call _, a.explains call _⟩

/-- One push that is refused, a removal as another type, and a removal from the empty stack. -/
theorem Operation.log_tells_refusals :
    let a := Accessor.ofStack .standard .zero
    let calls := [(a, .push (.boolean true)), (a, .push (.bytes .owned [])),
      (a, .pop (.value (.reference (.host "T")))), (a, .pop .integer),
      (a, .pushInteropArray (.host "T") [])]
    let run := Operation.runAll (Operation.ofCalls calls) (.ofConfig ⟨1, 0⟩)
    (∀ use ∈ calls, use.1.factory = .standard) ∧
      run.2.events = [.push .boolean, .push .byteArray, .stackOverflow 1, .pop .boolean,
        .popTypeMismatch "alloc::rc::Rc<T>" .boolean, .popOnEmptyStack,
        .pushInteropArray "T" 0] ∧
      Replay.kinds? [] run.2.events = some run.2.stack.kinds ∧ run.2.stack.kinds = [.array] := by
  intro a calls run
  have hstandard : ∀ use ∈ calls, use.1.factory = .standard := by simp [calls, a, Accessor.ofStack]
  obtain ⟨log, hevents, hreplay, -⟩ := Operation.log_tells calls (.ofConfig ⟨1, 0⟩)
  refine ⟨hstandard, rfl, ?_, rfl⟩
  rw [show run.2.events = log from hevents]
  exact hreplay hstandard

end HostStack
