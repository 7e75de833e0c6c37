import HostStack.Proofs.Session.Items

/-!
# What a step does not touch

A host keeps items in registers and stacks in saves. A step changes only those that it names, and
the stack it works on is none of them; so what is in a register or on a save stays there through any
run that does not name it. The steps are gone through once, along the operations they are made of,
whichever way they end.
-/

namespace HostStack

namespace Named

variable {α : Type} {name other : String} (things : Named α)

theorem get?_put (a : α) : (things.put name a).get? name = some a := by
  simp [get?, put]

theorem get?_erase_self : (things.erase name).get? name = none := by
  rw [get?, List.lookup_eq_none_iff]
  intro thing hthing
  have hne := of_decide_eq_true (List.mem_filter.1 hthing).2
  exact bne_iff_ne.2 (Ne.symm hne)

theorem get?_erase_of_ne (hne : other ≠ name) :
    (things.erase name).get? other = things.get? other := by
  rw [get?, get?]
  show (things.entries.filter fun thing => thing.1 ≠ name).lookup other =
    things.entries.lookup other
  induction things.entries with
  | nil => rfl
  | cons thing rest ih =>
      obtain ⟨key, a⟩ := thing
      by_cases hkey : key = name
      · subst hkey
        have hother : (other == key) = false := by simpa using hne
        rw [List.filter_cons_of_neg (by simp), List.lookup_cons, hother]
        exact ih
      · rw [List.filter_cons_of_pos (by simpa using hkey), List.lookup_cons, List.lookup_cons, ih]

theorem get?_put_of_ne (hne : other ≠ name) (a : α) :
    (things.put name a).get? other = things.get? other := by
  have hother : (other == name) = false := by simpa using hne
  rw [← things.get?_erase_of_ne hne, get?, put, List.lookup_cons, hother]
  rfl

theorem put_erase (a : α) : (things.erase name).put name a = things.put name a := by
  obtain ⟨entries, distinct⟩ := things
  simp [put, erase]

theorem put_put (a b : α) : (things.put name a).put name b = things.put name b := by
  obtain ⟨entries, distinct⟩ := things
  simp [put, erase]

end Named

/-- Where a host keeps something by name. -/
inductive Slot where
  | register (name : String)
  | save (name : String)
  deriving DecidableEq

inductive Held where
  | register (value : Register)
  | save (value : Stack)

def Held.leaves : Held → List Interop
  | .register value => value.leaves
  | .save value => value.leaves

def Session.held? (s : Session) : Slot → Option Held
  | .register name => (s.registers.get? name).map .register
  | .save name => (s.saves.get? name).map .save

/-- The slot that a reply may be kept in. -/
def Slot.ofKeep (keep : Option String) : List Slot :=
  keep.toList.map .register

/-- The slots that a step may change. -/
def Step.slots : Step → List Slot
  | .peek _ keep | .pop _ keep _ | .stackPop keep _ | .downcast _ _ keep => Slot.ofKeep keep
  | .save name | .restore name | .discard name => [.save name]
  | .set name _ | .wrap name _ | .copy _ name | .drop name => [.register name]
  | .unwrap name _ keep | .convert name _ keep => .register name :: Slot.ofKeep keep
  | .times _ step => step.slots
  | _ => []

namespace Run

variable {α β : Type} {s : Session} {slot : Slot}

/-- An operation leaves a slot as it is, whether it returns or fails. -/
def Spares (slot : Slot) (operation : Run α) (s : Session) : Prop :=
  Ends (operation.run s) (fun _ s' => s'.held? slot = s.held? slot)
    (fun s' => s'.held? slot = s.held? slot)

theorem Spares.bind {operation : Run α} {next : α → Run β} (h : operation.Spares slot s)
    (hnext : ∀ a s', (next a).Spares slot s') : (operation >>= next).Spares slot s := by
  rw [Spares, EStateM.run_bind]
  rw [Spares] at h
  cases hrun : operation.run s with
  | error e s' =>
      rw [hrun] at h
      exact h
  | ok a s' =>
      rw [hrun] at h
      have hthen := hnext a s'
      rw [Spares] at hthen
      dsimp only
      cases hrun' : (next a).run s' with
      | ok b s'' =>
          rw [hrun'] at hthen
          exact hthen.trans h
      | error e s'' =>
          rw [hrun'] at hthen
          exact hthen.trans h

/-- What only reads leaves the session as it is for the next operation. -/
theorem Reads.spares {operation : Run α} {next : α → Run β} (h : operation.Reads s)
    (hnext : ∀ a, (next a).Spares slot s) : (operation >>= next).Spares slot s := by
  rw [Spares, EStateM.run_bind]
  rw [Reads] at h
  cases hrun : operation.run s with
  | error e s' =>
      rw [hrun] at h
      exact congrArg (·.held? slot) h
  | ok a s' =>
      rw [hrun] at h
      cases h
      exact hnext a

theorem spares_access (operation : Access α) : (access operation).Spares slot s := by
  cases hrun : operation.run s.machine with
  | ok a machine =>
      rw [Spares, access_ok hrun]
      cases slot <;> rfl
  | error cause machine =>
      rw [Spares, access_error hrun]
      cases slot <;> rfl

theorem spares_done (a : α) : (pure a : Run α).Spares slot s := by
  rw [Spares]
  rfl

theorem spares_throw (e : SessionError) : (throw e : Run α).Spares slot s := by
  rw [Spares]
  rfl

theorem spares_get {next : Session → Run β} (h : (next s).Spares slot s) :
    (get >>= next : Run β).Spares slot s := h

theorem spares_set {s' : Session} (h : s'.held? slot = s.held? slot) :
    (set s' : Run PUnit).Spares slot s := h

theorem spares_modify {f : Session → Session} (h : (f s).held? slot = s.held? slot) :
    (modify f : Run PUnit).Spares slot s := h

/-! ### Putting things in their places -/

theorem spares_release (objects : List ObjectId) : (release objects).Spares slot s :=
  spares_access _

theorem spares_retain (objects : List ObjectId) : (retain objects).Spares slot s :=
  spares_access _

theorem held?_putRegister {name : String} (hslot : slot ≠ .register name) (value : Register) :
    { s with registers := s.registers.put name value }.held? slot = s.held? slot := by
  cases slot with
  | register other =>
      have hne : other ≠ name := fun heq => hslot (by rw [heq])
      rw [Session.held?, Session.held?, s.registers.get?_put_of_ne hne]
  | save other => rfl

theorem held?_takeRegister {name : String} (hslot : slot ≠ .register name) :
    { s with registers := s.registers.erase name }.held? slot = s.held? slot := by
  cases slot with
  | register other =>
      have hne : other ≠ name := fun heq => hslot (by rw [heq])
      rw [Session.held?, Session.held?, s.registers.get?_erase_of_ne hne]
  | save other => rfl

theorem held?_putSave {name : String} (hslot : slot ≠ .save name) (value : Stack) :
    { s with saves := s.saves.put name value }.held? slot = s.held? slot := by
  cases slot with
  | register other => rfl
  | save other =>
      have hne : other ≠ name := fun heq => hslot (by rw [heq])
      rw [Session.held?, Session.held?, s.saves.get?_put_of_ne hne]

theorem held?_takeSave {name : String} (hslot : slot ≠ .save name) (machine : Machine) :
    { s with machine, saves := s.saves.erase name }.held? slot = s.held? slot := by
  cases slot with
  | register other => rfl
  | save other =>
      have hne : other ≠ name := fun heq => hslot (by rw [heq])
      rw [Session.held?, Session.held?, s.saves.get?_erase_of_ne hne]

theorem spares_putHandle (id : String) (value : Ref) : (putHandle id value).Spares slot s := by
  have hheld : { s with handles := s.handles.put id value }.held? slot = s.held? slot := by
    cases slot <;> rfl
  exact spares_get (Spares.bind (spares_modify hheld) fun _ _ => spares_release _)

theorem spares_putRegister {name : String} (hslot : slot ≠ .register name) (value : Register) :
    (putRegister name value).Spares slot s :=
  spares_get (Spares.bind (spares_modify (held?_putRegister hslot value)) fun _ _ =>
    spares_release _)

theorem spares_putSave {name : String} (hslot : slot ≠ .save name) (value : Stack) :
    (putSave name value).Spares slot s :=
  spares_get (Spares.bind (spares_modify (held?_putSave hslot value)) fun _ _ => spares_release _)

theorem spares_takeRegister {name : String} (hslot : slot ≠ .register name) :
    (takeRegister name).Spares slot s :=
  spares_modify (held?_takeRegister hslot)

theorem spares_settle {keep : Option String} (hslot : slot ∉ Slot.ofKeep keep) (reply : Reply) :
    (settle keep reply).Spares slot s := by
  cases keep with
  | none => exact spares_release _
  | some name =>
      unfold settle
      cases reply.register? with
      | none => exact spares_release _
      | some value =>
          have hne := mt List.mem_singleton.2 hslot
          exact spares_putRegister hne value

theorem spares_handOut {keep : Option String} (hslot : slot ∉ Slot.ofKeep keep) (quiet : Bool)
    (operation : Access Reply) : (handOut keep quiet operation).Spares slot s :=
  (spares_access operation).bind fun reply _ => spares_get <|
    (spares_settle hslot reply).bind fun _ _ => spares_done _

theorem spares_build (expr : ItemExpr) : (build expr).Spares slot s :=
  spares_get <| (reads_ofExcept _ s).spares fun item =>
    (spares_retain item.objects).bind fun _ _ => spares_done _

/-! ### Steps -/

theorem spares_create (id : String) (type : HostType) (blueprint : Blueprint) :
    (create id type blueprint).Spares slot s := by
  rw [create]
  refine spares_get ((reads_ofExcept _ s).spares fun payload => ?_)
  refine (spares_retain payload.objects).bind fun _ _ => (spares_access _).bind fun o _ => ?_
  exact (spares_putHandle id ⟨o, type⟩).bind fun _ _ => spares_done _

theorem spares_restore {name : String} (hslot : slot ≠ .save name) :
    (restore name).Spares slot s := by
  rw [restore]
  refine spares_get ((reads_named name s.saves s).spares fun save => ?_)
  refine (spares_set (held?_takeSave hslot _)).bind fun _ _ => ?_
  exact (spares_release _).bind fun _ _ => spares_done _

theorem spares_discard {name : String} (hslot : slot ≠ .save name) :
    (discard name).Spares slot s := by
  rw [discard]
  refine spares_get ((reads_named name s.saves s).spares fun save => ?_)
  refine (spares_set (held?_takeSave hslot s.machine)).bind fun _ _ => ?_
  exact (spares_release _).bind fun _ _ => spares_done _

theorem spares_clear : clear.Spares slot s := by
  rw [clear]
  refine spares_get ?_
  dsimp only
  split
  · exact spares_throw _
  · exact (spares_access _).bind fun _ _ => spares_done _

theorem spares_unwrap {name : String} {keep : Option String} (hslot : slot ≠ .register name)
    (hkeep : slot ∉ Slot.ofKeep keep) (type : HostType) :
    (unwrap name type keep).Spares slot s := by
  rw [unwrap]
  refine (reads_wrapperRegister name s).spares fun w => ?_
  refine (spares_takeRegister hslot).bind fun _ s' => ?_
  cases w.unwrap type with
  | ok value => exact spares_get ((spares_settle hkeep _).bind fun _ _ => spares_done _)
  | error back =>
      exact (spares_putRegister hslot _).bind fun _ s'' => spares_get (spares_done _)

theorem spares_convert {name : String} {keep : Option String} (hslot : slot ≠ .register name)
    (hkeep : slot ∉ Slot.ofKeep keep) (target : Target) :
    (convert name target keep).Spares slot s := by
  rw [convert]
  refine (reads_itemRegister name s).spares fun item => ?_
  refine (spares_takeRegister hslot).bind fun _ s' => ?_
  cases target.accept item with
  | ok value => exact spares_get ((spares_settle hkeep _).bind fun _ _ => spares_done _)
  | error back =>
      exact (spares_putRegister hslot _).bind fun _ s'' => spares_get (spares_done _)

theorem spares_times {action : Run Outcome} (haction : ∀ s, action.Spares slot s)
    (count done : Nat) (last : Option Outcome) : (times action done last count).Spares slot s := by
  induction count generalizing done last s with
  | zero => exact spares_done _
  | succ count ih =>
      have hspares := haction s
      rw [Spares] at hspares
      rw [times]
      refine spares_get ?_
      cases hrun : action.run s with
      | ok outcome s' =>
          rw [hrun] at hspares
          exact (spares_set hspares).bind fun _ _ => ih _ _
      | error e s' =>
          rw [hrun] at hspares
          exact (spares_set hspares).bind fun _ _ => spares_done _

end Run

/-- A step leaves everything as it is that it does not name. The induction is on the steps inside
others. -/
theorem Step.perform_spares (step : Step) {slot : Slot} (hslot : slot ∉ step.slots) (s : Session) :
    step.perform.Spares slot s := by
  open Run in
  induction step generalizing s with
  | create id type blueprint => exact spares_create id type blueprint
  | releaseHandle id =>
      rw [Step.perform]
      refine (reads_handle id s).spares fun value => ?_
      have herase : { s with handles := s.handles.erase id }.held? slot = s.held? slot := by
        cases slot <;> rfl
      exact (spares_modify herase).bind fun _ _ => (spares_release _).bind fun _ _ => spares_done _
  | count id => exact (reads_handle id s).spares fun value => spares_get (spares_done _)
  | push value => exact spares_get (spares_handOut List.not_mem_nil false _)
  | pushInterop id =>
      refine (reads_handle id s).spares fun value => (spares_retain _).bind fun _ s' => ?_
      exact spares_get (spares_handOut List.not_mem_nil false _)
  | pushInteropArray type ids =>
      refine (reads_handlesOf type ids s).spares fun objects => ?_
      exact spares_get (spares_handOut List.not_mem_nil false _)
  | peek how keep => exact spares_get (spares_handOut hslot false _)
  | pop how keep quiet => exact spares_get (spares_handOut hslot quiet _)
  | scriptHash | stackInfo | dump | debug => exact spares_get (spares_done _)
  | stackPush expr =>
      exact (spares_build expr).bind fun _ _ => (spares_access _).bind fun _ _ => spares_done _
  | stackPop keep quiet => exact spares_handOut hslot quiet _
  | stackPeek depth =>
      rw [Step.perform]
      refine spares_get ?_
      cases s.stack.peek depth with
      | ok item => exact spares_done _
      | error cause => exact spares_throw _
  | clear => exact spares_clear
  | save name =>
      have hne := mt List.mem_singleton.2 hslot
      refine spares_get ((spares_retain _).bind fun _ _ => ?_)
      exact (spares_putSave hne _).bind fun _ _ => spares_done _
  | restore name => exact spares_restore (mt List.mem_singleton.2 hslot)
  | discard name => exact spares_discard (mt List.mem_singleton.2 hslot)
  | sameAs name =>
      exact spares_get ((reads_named name s.saves s).spares fun save => spares_done _)
  | set name expr =>
      have hne := mt List.mem_singleton.2 hslot
      exact (spares_build expr).bind fun _ _ =>
        (spares_putRegister hne _).bind fun _ _ => spares_done _
  | wrap name id =>
      have hne := mt List.mem_singleton.2 hslot
      refine (reads_handle id s).spares fun value => (spares_retain _).bind fun _ _ => ?_
      exact (spares_putRegister hne _).bind fun _ _ => spares_done _
  | copy name target =>
      have hne := mt List.mem_singleton.2 hslot
      refine (reads_register name s).spares fun value => (spares_retain _).bind fun _ _ => ?_
      exact (spares_putRegister hne _).bind fun _ _ => spares_done _
  | drop name =>
      have hne := mt List.mem_singleton.2 hslot
      refine (reads_register name s).spares fun value =>
        (spares_takeRegister hne).bind fun _ _ => ?_
      exact (spares_release _).bind fun _ _ => spares_done _
  | inspect name =>
      rw [Step.perform, Run.inspect]
      refine spares_get ((reads_register name s).spares fun value => ?_)
      cases value with
      | item _ | wrapper _ | wrappers _ => exact spares_done _
  | equal a b =>
      rw [Step.perform, Run.equal]
      refine (reads_register a s).spares fun x => (reads_register b s).spares fun y => ?_
      cases x with
      | item _ =>
          cases y with
          | item _ => exact spares_done _
          | wrapper _ | wrappers _ => exact spares_throw _
      | wrapper _ =>
          cases y with
          | wrapper _ => exact spares_done _
          | item _ | wrappers _ => exact spares_throw _
      | wrappers _ => exact spares_throw _
  | is name type => exact (reads_wrapperRegister name s).spares fun w => spares_done _
  | downcast name type keep =>
      exact (reads_wrapperRegister name s).spares fun w => spares_handOut hslot false _
  | unwrap name type keep =>
      exact spares_unwrap (List.ne_of_not_mem_cons hslot) (List.not_mem_of_not_mem_cons hslot) type
  | convert name target keep =>
      exact spares_convert (List.ne_of_not_mem_cons hslot) (List.not_mem_of_not_mem_cons hslot)
        target
  | times count step ih => exact spares_times (fun s => ih hslot s) count 0 none

end HostStack
