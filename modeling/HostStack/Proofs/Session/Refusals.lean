import HostStack.Proofs.Access.Asking
import HostStack.Proofs.Session.Snapshots

/-!
# What does not fit is handed back

A host may ask an item or a wrapper for something that it is not. Then it is handed back, and the
host can ask for something else. On the way a wrapper is taken out of its register, and out of its
item, and is put together again; and a wrapper that is only looked at takes a reference before it
looks, and gives it up again. None of this is left over. The heap is the same heap afterwards, its
log included, and the register holds the same wrapper.

So asking in vain can be repeated at will. One step leaves everything as it was, and what the next
step does depends on nothing else.
-/

namespace HostStack

/-! ### What a session shows -/

/-- The same objects are there, and hold the same; the counts may differ. -/
def Heap.Shows (h h' : Heap) : Prop :=
  ∀ o, (h'.cell? o).map Cell.payload = (h.cell? o).map Cell.payload

theorem Heap.shows_ask (h : Heap) {w : Interop} {type : HostType} (his : w.is type = true) :
    h.Shows (h.ask w type) := by
  intro o
  rw [ask_of_is his, cell?_retain, Option.map_map]
  rfl

theorem Heap.Shows.content_eq {h h' : Heap} (hshows : h.Shows h') (showObject : Interop → View)
    (payload : Payload) : payload.content h' showObject = payload.content h showObject := by
  cases payload with
  | reference value => rw [Payload.content, Payload.content, number?, number?, hshows]
  | record _ _ | text _ | integer _ | unit | item _ | wrapper _ => rfl

namespace Session

theorem viewWithin_succ (s : Session) (depth : Nat) (w : Interop) :
    s.viewWithin (depth + 1) w =
      .object w.typeName (s.handleOf? w.object)
        ((((s.heap.cell? w.object).map Cell.payload).map fun payload =>
          payload.content s.heap (s.viewWithin depth)).getD .unit) := by
  rw [viewWithin, Option.map_map]
  rfl

/-- Registers, counts and logs are not in a view. -/
theorem viewObject_eq {s s' : Session} (hshows : s.heap.Shows s'.heap)
    (hhandles : s'.handles = s.handles) : s'.viewObject = s.viewObject := by
  have hwithin : ∀ depth, s'.viewWithin depth = s.viewWithin depth := by
    intro depth
    induction depth with
    | zero =>
        funext w
        rw [viewWithin, viewWithin, handleOf?, handleOf?, hhandles]
    | succ depth ih =>
        funext w
        simp only [viewWithin_succ, handleOf?, hhandles, hshows w.object, ih, hshows.content_eq]
  funext w
  rw [viewObject, viewObject, hwithin]

/-- A session without one of its registers, and the references in it. -/
def without (s : Session) (name : String) : Session :=
  { s with registers := s.registers.erase name }

/-- A session with something in a register, and the references in that. -/
def withRegister (s : Session) (name : String) (value : Register) : Session :=
  { s with registers := s.registers.put name value }

def withHeap (s : Session) (heap : Heap) : Session :=
  { s with machine := { s.machine with heap } }

theorem withRegister_without (s : Session) (name : String) (value : Register) :
    (s.without name).withRegister name value = s.withRegister name value := by
  rw [withRegister, withRegister, without, s.registers.put_erase]

end Session

/-! ### The steps that ask -/

namespace Run

variable {s : Session} {name kept : String} {w : Interop} {type : HostType} {x : Item}
  {target : Target}

theorem release_run_nil (s : Session) : (release []).run s = .ok () s := by
  show EStateM.Result.ok () (s.withHeap (s.heap.release [])) = _
  rw [Heap.release_nil]
  rfl

theorem putRegister_run (hfree : s.registers.get? name = none) (value : Register) :
    (putRegister name value).run s = .ok () (s.withRegister name value) := by
  show (do
    modify fun s => s.withRegister name value
    release ((s.registers.get? name).toList.flatMap Register.objects) : Run Unit).run s = _
  -- Nothing was there that would be let go of.
  rw [hfree]
  exact release_run_nil (s.withRegister name value)

theorem takeRegister_run (s : Session) (name : String) :
    (takeRegister name).run s = .ok () (s.without name) := rfl

/-- What is put back where it was taken from is there as before. -/
theorem putBack_run (s : Session) (name : String) (value : Register)
    (outcome : Session → Outcome) :
    (do putRegister name value; return outcome (← get) : Run Outcome).run (s.without name) =
      .ok (outcome (s.withRegister name value)) (s.withRegister name value) := by
  have hfree : (s.without name).registers.get? name = none := s.registers.get?_erase_self
  rw [EStateM.run_bind, putRegister_run hfree, s.withRegister_without]
  rfl

/-- Letting go of a reply, or keeping it, does not fail. -/
theorem settle_run (keep : Option String) (reply : Reply) (outcome : Outcome) (s : Session) :
    ∃ s', (do settle keep reply; return outcome : Run Outcome).run s = .ok outcome s' := by
  unfold settle
  split <;> exact ⟨_, rfl⟩

theorem settle_run_none (keep : Option String) (outcome : Outcome) (s : Session) :
    (do settle keep (.reference none); return outcome : Run Outcome).run s = .ok outcome s := by
  have hnothing : settle keep (.reference none) = release [] := by
    cases keep <;> rfl
  rw [hnothing, EStateM.run_bind, release_run_nil]
  rfl

theorem settle_run_some {reply : Reply} {value : Register} (hvalue : reply.register? = some value)
    (hfree : s.registers.get? kept = none) (outcome : Outcome) :
    (do settle (some kept) reply; return outcome : Run Outcome).run s =
      .ok outcome (s.withRegister kept value) := by
  have hput := putRegister_run hfree value
  unfold settle
  rw [hvalue, EStateM.run_bind, hput]
  rfl

theorem wrapperRegister_run (hget : s.registers.get? name = some (.wrapper w)) :
    (wrapperRegister name).run s = .ok w s := by
  rw [wrapperRegister, EStateM.run_bind, Session.run_register hget]
  rfl

theorem itemRegister_run (hget : s.registers.get? name = some (.item x)) :
    (itemRegister name).run s = .ok x s := by
  rw [itemRegister, EStateM.run_bind, Session.run_register hget]
  rfl

theorem unwrap_run_error (hget : s.registers.get? name = some (.wrapper w))
    (his : w.is type = false) (keep : Option String) :
    (Step.unwrap name type keep).perform.run s =
      .ok (.converted false ((s.withRegister name (.wrapper w)).viewObject w))
        (s.withRegister name (.wrapper w)) := by
  rw [Step.perform, unwrap, EStateM.run_bind, wrapperRegister_run hget]
  dsimp only
  rw [Interop.unwrap_of_is_not his, EStateM.run_bind, takeRegister_run]
  exact putBack_run s name (.wrapper w) fun s => .converted false (s.viewObject w)

theorem unwrap_run_ok (hget : s.registers.get? name = some (.wrapper w))
    (his : w.is type = true) (keep : Option String) :
    (Step.unwrap name type keep).perform.run s =
      (do settle keep (.reference (some ⟨w.object, type⟩))
          return .converted true ((s.without name).viewRef ⟨w.object, type⟩) : Run Outcome).run
        (s.without name) := by
  rw [Step.perform, unwrap, EStateM.run_bind, wrapperRegister_run hget]
  dsimp only
  rw [Interop.unwrap_of_is his]
  rfl

theorem convert_run_error (hget : s.registers.get? name = some (.item x))
    (hnot : ∀ taken, ¬ target.Takes x taken) (keep : Option String) :
    (Step.convert name target keep).perform.run s =
      .ok (.converted false ((s.withRegister name (.item x)).viewItem x))
        (s.withRegister name (.item x)) := by
  rw [Step.perform, convert, EStateM.run_bind, itemRegister_run hget]
  dsimp only
  rw [Target.accept_of_not_takes hnot, EStateM.run_bind, takeRegister_run]
  exact putBack_run s name (.item x) fun s => .converted false (s.viewItem x)

theorem convert_run_ok {taken : Extracted} (hget : s.registers.get? name = some (.item x))
    (htakes : target.Takes x taken) (keep : Option String) :
    (Step.convert name target keep).perform.run s =
      (do settle keep (.extracted taken)
          return .converted true (taken.view (s.without name)) : Run Outcome).run
        (s.without name) := by
  rw [Step.perform, convert, EStateM.run_bind, itemRegister_run hget]
  dsimp only
  rw [Target.accept_ok_iff.2 htakes]
  rfl

theorem downcast_run (hget : s.registers.get? name = some (.wrapper w)) (type : HostType)
    (keep : Option String) :
    let asked := s.withHeap (s.heap.ask w type)
    (Step.downcast name type keep).perform.run s =
      (do settle keep (.reference (w.reference? type))
          return .view ((w.reference? type).map asked.viewRef) : Run Outcome).run asked := by
  have hreply : (do return .reference (← Access.downcast w type) : Access Reply).run s.machine =
      .ok (.reference (w.reference? type)) { s.machine with heap := s.heap.ask w type } := by
    rw [EStateM.run_bind, Access.downcast_run]
    rfl
  rw [Step.perform, EStateM.run_bind, wrapperRegister_run hget]
  dsimp only
  rw [handOut, EStateM.run_bind, access_ok hreply]
  rfl

theorem downcast_run_error (hget : s.registers.get? name = some (.wrapper w))
    (his : w.is type = false) (hlive : s.heap.strong w.object ≠ 0) (keep : Option String) :
    (Step.downcast name type keep).perform.run s = .ok (.view none) s := by
  rw [downcast_run hget, Heap.ask_of_is_not his hlive, Interop.reference?_of_is_not his]
  exact settle_run_none keep _ s

end Run

namespace Session

variable {s s' : Session} {name kept : String} {w : Interop} {type : HostType} {x : Item}
  {target : Target}

theorem step_of_run {step : Step} {outcome : Outcome}
    (hrun : step.perform.run s.clearLogs = .ok outcome s') :
    s.step step = (s.report (.ok outcome) s', s') := by
  rw [Session.step, hrun]

theorem outcome_of_run {step : Step} {outcome : Outcome}
    (hrun : ∃ s', step.perform.run s.clearLogs = .ok outcome s') :
    (s.step step).1.outcome = .ok outcome := by
  obtain ⟨s', hrun⟩ := hrun
  rw [step_of_run hrun]
  rfl

/-! ### Asking in vain -/

/-- The objects are the same, with their counts, and so are the stack and all that goes by name. -/
structure Unchanged (s s' : Session) : Prop where
  heap : s'.heap = s.heap
  stack : s'.stack = s.stack
  handles : s'.handles = s.handles
  held : ∀ slot, s'.held? slot = s.held? slot

theorem Unchanged.refl (s : Session) : s.Unchanged s := ⟨rfl, rfl, rfl, fun _ => rfl⟩

theorem Unchanged.trans {s'' : Session} (h : s.Unchanged s') (h' : s'.Unchanged s'') :
    s.Unchanged s'' where
  heap := h'.heap.trans h.heap
  stack := h'.stack.trans h.stack
  handles := h'.handles.trans h.handles
  held slot := (h'.held slot).trans (h.held slot)

theorem Unchanged.get?_eq (h : s.Unchanged s') (name : String) :
    s'.registers.get? name = s.registers.get? name := by
  have hheld := h.held (.register name)
  exact Option.map_injective (fun _ _ heq => Held.register.inj heq) hheld

theorem Unchanged.viewObject_eq (h : s.Unchanged s') : s'.viewObject = s.viewObject :=
  Session.viewObject_eq (fun o => by rw [h.heap]) h.handles

theorem unchanged_clearLogs (s : Session) : s.Unchanged s.clearLogs := by
  refine ⟨rfl, rfl, rfl, ?_⟩
  intro slot
  cases slot <;> rfl

theorem unchanged_withRegister {value : Register} (hget : s.registers.get? name = some value) :
    s.Unchanged (s.withRegister name value) := by
  refine ⟨rfl, rfl, rfl, ?_⟩
  intro slot
  by_cases hslot : slot = .register name
  · subst hslot
    rw [held?, held?, hget, withRegister, s.registers.get?_put]
  · exact Run.held?_putRegister hslot value

/-- A step that asks for what something in a register is not. -/
inductive AsksInVain (s : Session) : Step → Prop
  | unwrap {name w type keep} : s.registers.get? name = some (.wrapper w) → w.is type = false →
      AsksInVain s (.unwrap name type keep)
  | downcast {name w type keep} : s.registers.get? name = some (.wrapper w) → w.is type = false →
      AsksInVain s (.downcast name type keep)
  | convert {name x target keep} : s.registers.get? name = some (.item x) →
      (∀ taken, ¬ target.Takes x taken) → AsksInVain s (.convert name target keep)

theorem AsksInVain.later {step : Step} (hvain : s.AsksInVain step) (h : s.Unchanged s') :
    s'.AsksInVain step := by
  cases hvain with
  | unwrap hget his => exact .unwrap ((h.get?_eq _).trans hget) his
  | downcast hget his => exact .downcast ((h.get?_eq _).trans hget) his
  | convert hget hnot => exact .convert ((h.get?_eq _).trans hget) hnot

theorem AsksInVain.unchanged (h : s.Arises) {step : Step} (hvain : s.AsksInVain step) :
    s.Unchanged (s.step step).2 := by
  refine s.unchanged_clearLogs.trans ?_
  cases hvain with
  | unwrap hget his =>
      rw [step_of_run (Run.unwrap_run_error (s := s.clearLogs) hget his _)]
      exact unchanged_withRegister hget
  | downcast hget his =>
      have hlive := (HasWrapper.of_register hget).strong_ne_zero h
      rw [step_of_run (Run.downcast_run_error (s := s.clearLogs) hget his hlive _)]
      exact .refl _
  | convert hget hnot =>
      rw [step_of_run (Run.convert_run_error (s := s.clearLogs) hget hnot _)]
      exact unchanged_withRegister hget

/-- What was in vain at first is in vain again, since nothing has changed. -/
theorem Arises.unchanged_run (h : s.Arises) {steps : List Step}
    (hvain : ∀ step ∈ steps, s.AsksInVain step) : s.Unchanged (s.run steps).2 := by
  induction steps generalizing s with
  | nil => exact .refl s
  | cons step rest ih =>
      have hfirst := (hvain step List.mem_cons_self).unchanged h
      refine hfirst.trans (ih (h.step step) ?_)
      exact fun next hnext => (hvain next (List.mem_cons_of_mem step hnext)).later hfirst

/-! ### What is answered -/

/-- What a session answers about the wrapper in a register. -/
structure Answers (s : Session) (name : String) (w : Interop) (view : Interop → View) : Prop where
  is : ∀ type, (s.step (.is name type)).1.outcome = .ok (.flag (w.is type))
  downcast : ∀ type keep, (s.step (.downcast name type keep)).1.outcome =
    .ok (.view (if w.is type then some (view (.ofRef ⟨w.object, type⟩)) else none))
  unwrap : ∀ type keep, (s.step (.unwrap name type keep)).1.outcome =
    .ok (if w.is type then .converted true (view (.ofRef ⟨w.object, type⟩))
      else .converted false (view w))
  /-- The wrapper is shown with its name. -/
  inspect : (s.step (.inspect name)).1.outcome = .ok (.wrapper w (view w))
  equal : ∀ other v, s.registers.get? other = some (.wrapper v) →
    (s.step (.equal name other)).1.outcome = .ok (.wrappersEqual (w == v) (w.sameObject v))

theorem outcome_of_refused (hget : s.registers.get? name = some (.item x))
    (hnot : ∀ taken, ¬ target.Takes x taken) (keep : Option String) :
    (s.step (.convert name target keep)).1.outcome = .ok (.converted false (s.viewItem x)) := by
  have hback := s.unchanged_clearLogs.trans (unchanged_withRegister hget)
  have hrun := Run.convert_run_error (s := s.clearLogs) hget hnot keep
  rw [viewItem, hback.viewObject_eq] at hrun
  exact outcome_of_run ⟨_, hrun⟩

theorem outcome_of_downcast (hget : s.registers.get? name = some (.wrapper w)) (type : HostType)
    (keep : Option String) :
    (s.step (.downcast name type keep)).1.outcome =
      .ok (.view (if w.is type then some (s.viewRef ⟨w.object, type⟩) else none)) := by
  refine outcome_of_run ?_
  rw [Run.downcast_run (s := s.clearLogs) hget, Interop.reference?_eq]
  cases his : w.is type with
  | true =>
      have hview : (s.clearLogs.withHeap (s.heap.ask w type)).viewObject = s.viewObject :=
        viewObject_eq (s.heap.shows_ask his) rfl
      rw [if_pos rfl, if_pos rfl, viewRef, ← hview]
      exact Run.settle_run keep _ _ _
  | false => exact Run.settle_run keep _ _ _

/-- What is taken out is shown before it is kept, and what is handed back afterwards. -/
theorem outcome_of_unwrap (hget : s.registers.get? name = some (.wrapper w)) (type : HostType)
    (keep : Option String) :
    (s.step (.unwrap name type keep)).1.outcome =
      .ok (if w.is type then .converted true (s.viewRef ⟨w.object, type⟩)
        else .converted false (s.viewObject w)) := by
  refine outcome_of_run ?_
  cases his : w.is type with
  | true =>
      have hview : (s.clearLogs.without name).viewObject = s.viewObject :=
        viewObject_eq (fun _ => rfl) rfl
      rw [Run.unwrap_run_ok (s := s.clearLogs) hget his, if_pos rfl, viewRef, viewRef, hview]
      exact Run.settle_run keep _ _ _
  | false =>
      have hback := s.unchanged_clearLogs.trans (unchanged_withRegister hget)
      have hrun := Run.unwrap_run_error (s := s.clearLogs) hget his keep
      rw [hback.viewObject_eq] at hrun
      exact ⟨_, hrun⟩

theorem answers (hget : s.registers.get? name = some (.wrapper w)) :
    s.Answers name w s.viewObject := by
  have hregister := run_register (s := s.clearLogs) hget
  constructor
  case is =>
    intro type
    refine outcome_of_run ⟨s.clearLogs, ?_⟩
    rw [Step.perform, EStateM.run_bind, Run.wrapperRegister_run (s := s.clearLogs) hget]
    rfl
  case downcast => exact fun type keep => outcome_of_downcast hget type keep
  case unwrap => exact fun type keep => outcome_of_unwrap hget type keep
  case inspect =>
    refine outcome_of_run ⟨s.clearLogs, ?_⟩
    rw [← s.unchanged_clearLogs.viewObject_eq]
    show (Run.register name >>= _).run s.clearLogs = _
    rw [EStateM.run_bind, hregister]
    rfl
  case equal =>
    intro other v hother
    refine outcome_of_run ⟨s.clearLogs, ?_⟩
    rw [Step.perform, Run.equal, EStateM.run_bind, hregister]
    dsimp only
    rw [EStateM.run_bind, run_register (s := s.clearLogs) hother]
    rfl

/-! ### What fits -/

/-- There is something new in a register, and all else is the same. -/
structure Gains (s s' : Session) (kept : String) (value : Register) : Prop where
  heap : s'.heap = s.heap
  stack : s'.stack = s.stack
  handles : s'.handles = s.handles
  gained : s'.registers.get? kept = some value
  others : ∀ slot, slot ≠ .register kept → s'.held? slot = s.held? slot

theorem gains_withRegister (s : Session) (kept : String) (value : Register) :
    s.Gains (s.withRegister kept value) kept value :=
  ⟨rfl, rfl, rfl, s.registers.get?_put value, fun _ hslot => Run.held?_putRegister hslot value⟩

theorem Gains.of_clearLogs {value : Register} (h : s.clearLogs.Gains s' kept value) :
    s.Gains s' kept value :=
  ⟨h.heap, h.stack, h.handles, h.gained,
    fun slot hslot => (h.others slot hslot).trans (s.unchanged_clearLogs.held slot)⟩

theorem gains_of_unwrap (hget : s.registers.get? name = some (.wrapper w))
    (his : w.is type = true) (hfree : (s.without name).registers.get? kept = none) :
    (s.without name).Gains (s.step (.unwrap name type (some kept))).2 kept
      (.wrapper (.ofRef ⟨w.object, type⟩)) := by
  have hrun := Run.unwrap_run_ok (s := s.clearLogs) hget his (some kept)
  rw [Run.settle_run_some (s := s.clearLogs.without name) rfl hfree] at hrun
  rw [step_of_run hrun]
  exact .of_clearLogs (gains_withRegister _ _ _)

theorem gains_of_convert {taken : Extracted} {value : Register}
    (hget : s.registers.get? name = some (.item x)) (htakes : target.Takes x taken)
    (hvalue : (Reply.extracted taken).register? = some value)
    (hfree : (s.without name).registers.get? kept = none) :
    (s.without name).Gains (s.step (.convert name target (some kept))).2 kept value := by
  have hrun := Run.convert_run_ok (s := s.clearLogs) hget htakes (some kept)
  rw [Run.settle_run_some (s := s.clearLogs.without name) hvalue hfree] at hrun
  rw [step_of_run hrun]
  exact .of_clearLogs (gains_withRegister _ _ _)

theorem gains_of_downcast (hget : s.registers.get? name = some (.wrapper w))
    (his : w.is type = true) (hfree : s.registers.get? kept = none) :
    (s.withHeap (s.heap.retain [w.object])).Gains
      (s.step (.downcast name type (some kept))).2 kept (.wrapper (.ofRef ⟨w.object, type⟩)) := by
  have hrun := Run.downcast_run (s := s.clearLogs) hget type (some kept)
  rw [Interop.reference?_of_is his] at hrun
  dsimp only at hrun
  rw [Run.settle_run_some (s := s.clearLogs.withHeap _) rfl hfree] at hrun
  rw [step_of_run hrun, Heap.ask_of_is his]
  exact .of_clearLogs (gains_withRegister _ _ _)

theorem exists_register_of_extracted (taken : Extracted) :
    ∃ value, (Reply.extracted taken).register? = some value := by
  cases taken with
  | reference _ | item _ | wrapper _ => exact ⟨_, rfl⟩

/-- What becomes of the items and wrappers of a session that are asked for something. -/
structure HandsBack (s : Session) : Prop where
  fits : ∀ (target : Target) x taken, target.accept x = .ok taken ↔ target.Takes x taken
  rejected : ∀ (target : Target) x back, target.accept x = .error back → back = x
  /-- All references of the item are in what it turned into. -/
  accepted : ∀ (target : Target) x taken, target.accept x = .ok taken →
    taken.objects = x.objects ∧ (s.HasItem x → taken.leaves = x.leaves)
  /-- They move to where that is kept. -/
  converted : ∀ name target kept x taken, s.registers.get? name = some (.item x) →
    target.Takes x taken → (s.without name).registers.get? kept = none →
    ∃ value, value.leaves = x.leaves ∧
      (s.without name).Gains (s.step (.convert name target (some kept))).2 kept value
  refused : ∀ name target keep x, s.registers.get? name = some (.item x) →
    (∀ taken, ¬ target.Takes x taken) →
    (s.step (.convert name target keep)).1.outcome = .ok (.converted false (s.viewItem x))
  /-- The three ways to find out a type agree, whatever the machine is like. -/
  tests : ∀ (w : Interop) type (m : Machine),
    (w.is type = true ↔ ∃ value, w.unwrap type = .ok value) ∧
      (w.is type = true ↔ ∃ value m', (Access.downcast w type).run m = .ok (some value) m')
  unwrapped : ∀ (w : Interop) type value, w.unwrap type = .ok value → value = ⟨w.object, type⟩
  tried : ∀ w back : Interop, w.Tried back → back = w
  /-- The reference in a wrapper moves. -/
  moved : ∀ name type kept w, s.registers.get? name = some (.wrapper w) → w.is type = true →
    (s.without name).registers.get? kept = none →
    (s.without name).Gains (s.step (.unwrap name type (some kept))).2 kept
      (.wrapper (.ofRef ⟨w.object, type⟩))
  /-- A new reference is to the object that is wrapped, and is the only one that is new. -/
  found : ∀ w type, s.HasWrapper w → w.is type = true →
    let heap := s.heap.retain [w.object]
    (Access.downcast w type).run s.machine =
        .ok (some ⟨w.object, type⟩) { s.machine with heap } ∧
      (∀ o, heap.strong o = s.heap.strong o + if o = w.object then 1 else 0) ∧
      heap.freed = s.heap.freed ∧ heap.usesIn = s.heap.usesIn
  missed : ∀ w type, s.HasWrapper w → w.is type = false →
    (Access.downcast w type).run s.machine = .ok none s.machine
  /-- The wrapper that a new reference is taken from stays where it is. -/
  shared : ∀ name type kept w, s.registers.get? name = some (.wrapper w) → w.is type = true →
    s.registers.get? kept = none →
    (s.withHeap (s.heap.retain [w.object])).Gains
      (s.step (.downcast name type (some kept))).2 kept (.wrapper (.ofRef ⟨w.object, type⟩))
  /-- However often it is asked in vain, every wrapper answers as it did. -/
  inVain : ∀ steps, (∀ step ∈ steps, s.AsksInVain step) →
    s.Unchanged (s.run steps).2 ∧
      ∀ name w, s.registers.get? name = some (.wrapper w) →
        (s.run steps).2.Answers name w s.viewObject

theorem Arises.hands_back (h : s.Arises) : s.HandsBack := by
  constructor
  case fits => exact fun _ _ _ => Target.accept_ok_iff
  case rejected => exact fun _ _ _ => Target.eq_of_accept_error
  case accepted =>
    intro target x taken haccept
    have htakes := Target.accept_ok_iff.1 haccept
    exact ⟨htakes.objects_eq, fun hx => htakes.leaves_eq (hx.types h)⟩
  case converted =>
    intro name target kept x taken hget htakes hfree
    obtain ⟨value, hvalue⟩ := exists_register_of_extracted taken
    refine ⟨value, ?_, gains_of_convert hget htakes hvalue hfree⟩
    rw [Reply.leaves_of_register? hvalue]
    exact htakes.leaves_eq ((HasItem.register hget).types h)
  case refused => exact fun _ _ keep _ hget hnot => outcome_of_refused hget hnot keep
  case tests =>
    intro w type m
    refine ⟨Interop.is_iff_unwrap, ?_⟩
    rw [Access.downcast_run, Interop.reference?_eq]
    cases w.is type with
    | true => simp
    | false => simp
  case unwrapped => exact fun _ _ _ => Interop.eq_of_unwrap_ok
  case tried => exact fun _ _ => Interop.Tried.eq
  case moved => exact fun _ _ _ _ => gains_of_unwrap
  case found =>
    intro w type hw his heap
    refine ⟨?_, Heap.strong_retain_one (hw.strong_ne_zero h), ?_, ?_⟩
    · rw [Access.downcast_run, Interop.reference?_of_is his, Heap.ask_of_is his]
      rfl
    · exact Heap.freed_retain _ _
    · exact Heap.usesIn_retain _ _
  case missed =>
    intro w type hw his
    have hask : s.machine.heap.ask w type = s.machine.heap :=
      Heap.ask_of_is_not his (hw.strong_ne_zero h)
    rw [Access.downcast_run, Interop.reference?_of_is_not his, hask]
  case shared => exact fun _ _ _ _ => gains_of_downcast
  case inVain =>
    intro steps hvain
    have hsame := h.unchanged_run hvain
    refine ⟨hsame, fun name w hget => ?_⟩
    rw [← hsame.viewObject_eq]
    exact answers ((hsame.get?_eq name).trans hget)

/-- An object that is twice in an item, at different depths, and once in a wrapper. -/
def scattered : Session :=
  ((start .standard .zero default .stack).run
    [.create "a" (.host "T") .unit, .set "x" (.array [.object "a", .array [.object "a"]]),
      .wrap "w" "a"]).2

theorem scattered_arises : scattered.Arises :=
  (Arises.start ItemFactory.standard_conserves .zero default .stack).run _

/-- The count is four with the handle. Only the wrapper that is asked for its own type has a
reference to give, and only a new one is counted. -/
theorem hands_back_scattered :
    let tried := (scattered.run [.unwrap "w" (.host "U") none,
      .convert "x" (.reference (.host "T")) (some "y"), .downcast "w" (.host "U") none]).2
    scattered.Arises ∧ scattered.heap.strong ⟨0⟩ = 4 ∧ tried.heap.strong ⟨0⟩ = 4 ∧
      tried.held? (.register "x") = scattered.held? (.register "x") ∧
      (scattered.step (.downcast "w" (.host "T") (some "y"))).2.heap.strong ⟨0⟩ = 5 ∧
      (scattered.step (.unwrap "w" (.host "T") (some "y"))).2.heap.strong ⟨0⟩ = 4 ∧
      scattered.HandsBack := by
  intro tried
  have hcount : scattered.heap.strong ⟨0⟩ = 4 := by cbv
  have hback := scattered_arises.hands_back
  have hx : scattered.registers.get? "x" = some (.item (.array
    [.interop (.ofRef ⟨⟨0⟩, .host "T"⟩), .array [.interop (.ofRef ⟨⟨0⟩, .host "T"⟩)]])) := by cbv
  have hw : scattered.registers.get? "w" = some (.wrapper (.ofRef ⟨⟨0⟩, .host "T"⟩)) := by cbv
  have hsame : scattered.Unchanged tried := by
    refine (hback.inVain _ ?_).1
    refine List.forall_mem_cons.2 ⟨.unwrap hw rfl, ?_⟩
    refine List.forall_mem_cons.2 ⟨.convert hx ?_, ?_⟩
    · rintro taken ⟨⟩
    · exact List.forall_mem_singleton.2 (.downcast hw rfl)
  have hy : scattered.registers.get? "y" = none := by cbv
  have hfree : (scattered.without "w").registers.get? "y" = none := by cbv
  have hmoved := hback.moved "w" (.host "T") "y" _ hw rfl hfree
  have hshared := hback.shared "w" (.host "T") "y" _ hw rfl hy
  have hfound := hback.found _ (.host "T") (.of_register hw) rfl
  refine ⟨scattered_arises, hcount, ?_, hsame.held _, ?_, ?_, hback⟩
  · rw [hsame.heap, hcount]
  · rw [hshared.heap]
    exact (hfound.2.1 ⟨0⟩).trans (by rw [hcount]; rfl)
  · rw [hmoved.heap]
    exact hcount

end Session

end HostStack
