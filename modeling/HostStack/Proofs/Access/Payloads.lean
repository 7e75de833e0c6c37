import HostStack.Proofs.Access.Recording
import HostStack.Proofs.Stack.Shape
import Mathlib

/-!
# Payloads are never looked at

What an operation does is settled by shapes. Take two machines with stacks of the same shape, on
heaps that are the same but for the payloads of items, and do the same on both, where the values and
items that are pushed may differ in their payloads too. Then both operations end in the same way,
hand out the same references, free the same objects and log the same events, and leave machines
that differ in no more than they did before. So it goes on for every run, and none of what is
logged, reported or freed says anything about a payload.

The one place where a payload could matter is the factory. It has to build values of one kind to
items of one shape, as the standard factory does, and a recording one if the factory behind it does.
-/

namespace HostStack

/-! ### Factories that do not look -/

/-- What is built has the same shape, and is built with the same calls. -/
def BuildsAlike (build build' : Build Item) : Prop :=
  ∀ built, (build.run built).1.shape = (build'.run built).1.shape ∧
    (build.run built).2 = (build'.run built).2

theorem BuildsAlike.refl (build : Build Item) : BuildsAlike build build :=
  fun _ => ⟨rfl, rfl⟩

namespace ItemFactory

/-- The payload of a value makes no difference to the shape of its item. -/
structure Blind (factory : ItemFactory) : Prop where
  boolean : ∀ value value', BuildsAlike (factory.boolean value) (factory.boolean value')
  integer : ∀ value value', BuildsAlike (factory.integer value) (factory.integer value')
  byteArray : ∀ bytes bytes', BuildsAlike (factory.byteArray bytes) (factory.byteArray bytes')

theorem standard_blind : standard.Blind where
  boolean _ _ _ := ⟨rfl, rfl⟩
  integer _ _ _ := ⟨rfl, rfl⟩
  byteArray _ _ _ := ⟨rfl, rfl⟩

theorem Blind.recording {inner : ItemFactory} (hinner : inner.Blind) :
    (ItemFactory.recording inner).Blind where
  boolean value value' _ := hinner.boolean value value' _
  integer value value' _ := hinner.integer value value' _
  byteArray bytes bytes' _ := hinner.byteArray bytes bytes' _

end ItemFactory

/-! ### The same but for payloads -/

/-- Calls that are the same but for the payload of a value that is pushed. -/
inductive Call.Resembles : Call → Call → Prop
  | push {value value' : Native} (h : value.method = value'.method) :
      Resembles (.push value) (.push value')
  | same (call : Call) : Resembles call call

/-- Operations that are the same but for payloads. What the host does with its objects may depend on
the payloads of the items in them, as long as it does not show in anything else. -/
inductive Operation.Resembles : Operation → Operation → Prop
  | call {a : Accessor} {call call' : Call} (hblind : a.factory.Blind)
      (hcall : call.Resembles call') : Resembles (.call a call) (.call a call')
  | push {item item' : Item} (h : item.shape = item'.shape) :
      Resembles (.direct (.push item)) (.direct (.push item'))
  | pop : Resembles (.direct .pop) (.direct .pop)
  | peek (depth : Nat) : Resembles (.direct (.peek depth)) (.direct (.peek depth))
  | clear : Resembles (.direct .clear) (.direct .clear)
  | host {change change' : Heap → Heap}
      (h : ∀ heap heap', heap.shape = heap'.shape → (change heap).shape = (change' heap').shape) :
      Resembles (.direct (.host change)) (.direct (.host change'))

/-- Letting go of what was handed out is an operation of this kind. -/
theorem Operation.Resembles.release (os : List ObjectId) :
    Resembles (.direct (.host fun h => h.release os)) (.direct (.host fun h => h.release os)) := by
  refine .host fun heap heap' h => ?_
  rw [Heap.shape_release, Heap.shape_release, h]

/-- Machines that are the same but for payloads and for what they have logged so far. -/
structure Machine.Resembles (m m' : Machine) : Prop where
  stack : m.stack.shape = m'.stack.shape
  heap : m.heap.shape = m'.heap.shape
  built : m.built = m'.built

theorem Call.Resembles.assemble {a : Accessor} (hblind : a.factory.Blind) {call call' : Call}
    (h : call.Resembles call') {build : Build Item} (hbuild : a.assemble? call = some build) :
    ∃ build', a.assemble? call' = some build' ∧ BuildsAlike build build' := by
  cases h with
  | @push value value' hmethod =>
      injection hbuild with hbuild
      subst hbuild
      refine ⟨_, rfl, ?_⟩
      cases value with
      | boolean b =>
          cases value' with
          | boolean b' => exact hblind.boolean b b'
          | integer _ _ _ | bytes _ _ => cases hmethod
      | integer _ n _ =>
          cases value' with
          | integer _ n' _ => exact hblind.integer n n'
          | boolean _ | bytes _ _ => cases hmethod
      | bytes _ data =>
          cases value' with
          | bytes _ data' => exact hblind.byteArray data data'
          | boolean _ | integer _ _ _ => cases hmethod
  | same => exact ⟨build, hbuild, .refl build⟩

theorem Call.Resembles.copies {call call' : Call} (h : call.Resembles call') :
    call.copies = call'.copies := by
  cases h <;> rfl

theorem Call.Resembles.announce {call call' : Call} (h : call.Resembles call') {item item' : Item}
    (hitem : item.shape = item'.shape) : call.announce item = call'.announce item' := by
  have hkind : item.kind = item'.kind := by rw [← item.kind_shape, hitem, item'.kind_shape]
  cases h with
  | push _ => rw [Call.announce, Call.announce, hkind]
  | same call =>
      cases call with
      | push _ => rw [Call.announce, Call.announce, hkind]
      | pushInterop _ | pushInteropArray _ _ | peek _ | pop _ => rfl

/-! ### Single operations -/

/-- Two operations that end on machines which resemble each other, with the same error or with
replies of the same shape, and with the same events. -/
structure EndsAlike (m m' : Machine) (step step' : Except AccessError Reply × Machine) : Prop where
  result : step.1.map Reply.shape = step'.1.map Reply.shape
  after : step.2.Resembles step'.2
  events : ∃ events, step.2.events = m.events ++ events ∧ step'.2.events = m'.events ++ events

variable {m m' : Machine}

theorem Machine.Resembles.released (h : m.Resembles m') {leaves leaves' : List Interop}
    (hleaves : leaves = leaves') : (m.released leaves).Resembles (m'.released leaves') := by
  subst hleaves
  refine ⟨h.stack, ?_, h.built⟩
  rw [Machine.released, Machine.released, Heap.shape_release, Heap.shape_release, h.heap]

/-- Operations that log nothing. -/
theorem EndsAlike.silent {step step' : Except AccessError Reply × Machine}
    (hresult : step.1.map Reply.shape = step'.1.map Reply.shape)
    (hafter : step.2.Resembles step'.2) (hevents : step.2.events = m.events)
    (hevents' : step'.2.events = m'.events) : EndsAlike m m' step step' :=
  ⟨hresult, hafter, [], by rw [hevents, List.append_nil], by rw [hevents', List.append_nil]⟩

/-- How an operation ends that has made an item and pushes it. -/
def Machine.pushed (ready : Machine) (item : Item) : Except AccessError Reply × Machine :=
  match ready.stack.push item with
  | .ok stack => (.ok .done, { ready with stack })
  | .error cause => (.error (.stack cause), ready.refusedPush item)

theorem EndsAlike.pushed {ready ready' : Machine} (hready : ready.Resembles ready')
    {item item' : Item} (hitem : item.shape = item'.shape) {events : List Event}
    (hevents : ready.events = m.events ++ events) (hevents' : ready'.events = m'.events ++ events) :
    EndsAlike m m' (ready.pushed item) (ready'.pushed item') := by
  have hleaves : item.leaves = item'.leaves := by
    rw [← item.leaves_shape, hitem, item'.leaves_shape]
  have hmax : ready.stack.maxSize = ready'.stack.maxSize :=
    (congrArg Stack.maxSize hready.stack :)
  rw [Machine.pushed, Machine.pushed]
  rcases Stack.push_of_shape_eq hready.stack hitem with
    ⟨cause, hpush, hpush'⟩ | ⟨stack, stack', hpush, hpush', hstack⟩
  · rw [hpush, hpush']
    have hreleased := hready.released hleaves
    refine ⟨rfl, ⟨hreleased.stack, hreleased.heap, hreleased.built⟩,
      events ++ [.stackOverflow ready.stack.maxSize], ?_, ?_⟩
    · rw [← List.append_assoc, ← hevents]
      rfl
    · rw [← List.append_assoc, ← hevents', hmax]
      rfl
  · rw [hpush, hpush']
    exact ⟨rfl, ⟨hstack, hready.heap, hready.built⟩, events, hevents, hevents'⟩

theorem Machine.Resembles.push (h : m.Resembles m') {a : Accessor} (hblind : a.factory.Blind)
    {call call' : Call} (hcall : call.Resembles call') {build : Build Item}
    (hbuild : a.assemble? call = some build) :
    EndsAlike m m' ((Operation.call a call).run m) ((Operation.call a call').run m') := by
  obtain ⟨build', hbuild', halike⟩ := hcall.assemble hblind hbuild
  obtain ⟨hitem, hbuilt⟩ := halike m.built
  rw [Operation.run_push hbuild, Operation.run_push hbuild', ← h.built]
  have hready : (m.prepared call (build.run m.built).1 (build.run m.built).2).Resembles
      (m'.prepared call' (build'.run m.built).1 (build'.run m.built).2) := by
    refine ⟨h.stack, ?_, hbuilt⟩
    rw [Machine.prepared, Machine.prepared, Heap.shape_retain, Heap.shape_retain, h.heap,
      hcall.copies]
  refine EndsAlike.pushed hready hitem rfl ?_
  rw [hcall.announce hitem]
  rfl

theorem Machine.Resembles.peek (h : m.Resembles m') (a : Accessor) (how : Peek) :
    EndsAlike m m' ((Operation.call a (.peek how)).run m)
      ((Operation.call a (.peek how)).run m') := by
  have hreply : (how.reply m.stack).shape = (how.reply m'.stack).shape := by
    rw [← how.reply_shape, h.stack, how.reply_shape]
  have hasked : how.asked? m.stack = how.asked? m'.stack := by
    rw [← how.asked?_shape, h.stack, how.asked?_shape]
  rw [Operation.run_peek, Operation.run_peek, hasked]
  refine .silent (congrArg Except.ok hreply) ⟨h.stack, ?_, h.built⟩ rfl rfl
  cases how.asked? m'.stack with
  | none => exact h.heap
  | some asked =>
      dsimp only
      rw [Heap.shape_ask, Heap.shape_ask, h.heap]

theorem Machine.Resembles.pop (h : m.Resembles m') (a : Accessor) (how : Pop) :
    EndsAlike m m' ((Operation.call a (.pop how)).run m)
      ((Operation.call a (.pop how)).run m') := by
  rw [Operation.run_pop, Operation.run_pop]
  rcases Stack.pop_of_shape_eq h.stack with
    ⟨hpop, hpop'⟩ | ⟨item, rest, item', rest', hpop, hpop', hitem, hrest⟩
  · rw [hpop, hpop']
    exact ⟨rfl, ⟨h.stack, h.heap, h.built⟩, _, rfl, rfl⟩
  · have hresult : (how.reply item).map Reply.shape = (how.reply item').map Reply.shape := by
      rw [← how.reply_shape, hitem, how.reply_shape]
    have hleft : how.leftover item = how.leftover item' := by
      rw [← how.leftover_shape, hitem, how.leftover_shape]
    have hevents : .pop item.kind :: how.events item = .pop item'.kind :: how.events item' := by
      rw [← item.kind_shape, ← how.events_shape, hitem, item'.kind_shape, how.events_shape]
    have htaken : (m.taken item rest).Resembles (m'.taken item' rest') :=
      ⟨hrest, h.heap, h.built⟩
    have hreleased := htaken.released hleft
    rw [hpop, hpop']
    refine ⟨hresult, ⟨hreleased.stack, hreleased.heap, hreleased.built⟩,
      .pop item.kind :: how.events item, ?_, ?_⟩
    · exact List.append_assoc _ _ _
    · rw [hevents]
      exact List.append_assoc _ _ _

theorem result_of_shape_eq {item item' : Item} (h : item.shape = item'.shape) :
    (Except.ok (Reply.extracted (.item item)) : Except AccessError Reply).map Reply.shape =
      (Except.ok (Reply.extracted (.item item'))).map Reply.shape :=
  congrArg (fun item => Except.ok (Reply.extracted (.item item))) h

/-- Operations that are the same but for payloads end alike on machines that are. -/
theorem Operation.Resembles.run {op op' : Operation} (hop : op.Resembles op')
    (h : m.Resembles m') : EndsAlike m m' (op.run m) (op'.run m') := by
  cases hop with
  | @call a call call' hblind hcall =>
      rcases a.assemble?_cases call with ⟨build, hbuild⟩ | ⟨how, rfl⟩ | ⟨how, rfl⟩
      · exact h.push hblind hcall hbuild
      · cases hcall with
        | same => exact h.peek a how
      · cases hcall with
        | same => exact h.pop a how
  | @push item item' hitem =>
      rw [Direct.run_push, Direct.run_push]
      exact EndsAlike.pushed h hitem (List.append_nil _).symm (List.append_nil _).symm
  | pop =>
      rw [Direct.run_pop, Direct.run_pop]
      rcases Stack.pop_of_shape_eq h.stack with
        ⟨hpop, hpop'⟩ | ⟨item, rest, item', rest', hpop, hpop', hitem, hrest⟩
      · rw [hpop, hpop']
        exact ⟨rfl, ⟨h.stack, h.heap, h.built⟩, _, rfl, rfl⟩
      · rw [hpop, hpop']
        exact .silent (result_of_shape_eq hitem) ⟨hrest, h.heap, h.built⟩ rfl rfl
  | peek depth =>
      rw [Direct.run_peek, Direct.run_peek]
      rcases Stack.peek_of_shape_eq h.stack depth with
        ⟨hpeek, hpeek'⟩ | ⟨item, item', hpeek, hpeek', hitem⟩
      · rw [hpeek, hpeek']
        exact .silent rfl h rfl rfl
      · rw [hpeek, hpeek']
        exact .silent (result_of_shape_eq hitem) h rfl rfl
  | clear =>
      have hobjects : m.stack.objects = m'.stack.objects := by
        rw [← m.stack.objects_shape, h.stack, m'.stack.objects_shape]
      have hclear : m.stack.clear.shape = m'.stack.clear.shape := by
        rw [Stack.shape_clear, h.stack, Stack.shape_clear]
      have hrelease : (m.heap.release m.stack.objects).shape =
          (m'.heap.release m'.stack.objects).shape := by
        rw [Heap.shape_release, Heap.shape_release, h.heap, hobjects]
      exact .silent rfl ⟨hclear, hrelease, h.built⟩ rfl rfl
  | @host change change' hchange =>
      exact .silent rfl ⟨h.stack, hchange _ _ h.heap, h.built⟩ rfl rfl

/-! ### Runs -/

theorem Machine.Resembles.freedSince (h : m.Resembles m') {n n' : Machine} (hn : n.Resembles n') :
    n.heap.freedSince m.heap = n'.heap.freedSince m'.heap := by
  have hbefore : m.heap.freed = m'.heap.freed :=
    (congrArg Heap.freed h.heap :)
  have hafter : n.heap.freed = n'.heap.freed :=
    (congrArg Heap.freed hn.heap :)
  rw [Heap.freedSince, Heap.freedSince, hbefore, hafter]

/-- Two runs that are the same but for payloads, in operations that end alike one by one. -/
theorem Operation.runAll_resembles {ops ops' : List Operation}
    (hops : List.Forall₂ Operation.Resembles ops ops') (h : m.Resembles m') :
    (Operation.runAll ops m).1.map (Except.map Reply.shape) =
        (Operation.runAll ops' m').1.map (Except.map Reply.shape) ∧
      (Operation.runAll ops m).2.Resembles (Operation.runAll ops' m').2 ∧
      ∃ events, (Operation.runAll ops m).2.events = m.events ++ events ∧
        (Operation.runAll ops' m').2.events = m'.events ++ events := by
  induction hops generalizing m m' with
  | nil => exact ⟨rfl, h, [], (List.append_nil _).symm, (List.append_nil _).symm⟩
  | cons hop _ ih =>
      obtain ⟨hresult, hafter, events, hevents, hevents'⟩ := hop.run h
      obtain ⟨hresults, hend, more, hmore, hmore'⟩ := ih hafter
      rw [Operation.runAll_cons, Operation.runAll_cons]
      refine ⟨?_, hend, events ++ more, ?_, ?_⟩
      · rw [List.map_cons, List.map_cons, hresult, hresults]
      · rw [hmore, hevents, List.append_assoc]
      · rw [hmore', hevents', List.append_assoc]

/-- The results of a run owe nothing to payloads but the payloads that are handed out, and at no
time has a run logged other events or freed other objects than one that is the same but for
payloads, or left a stack of another shape. -/
theorem Operation.payloads_unseen {ops ops' : List Operation} {m m' : Machine}
    (hops : List.Forall₂ Operation.Resembles ops ops') (h : m.Resembles m') :
    let results := (Operation.runAll ops m).1
    let results' := (Operation.runAll ops' m').1
    results.map (Except.map Reply.shape) = results'.map (Except.map Reply.shape) ∧
      results.map (Except.map Reply.objects) = results'.map (Except.map Reply.objects) ∧
      ∀ k,
        let n := (Operation.runAll (ops.take k) m).2
        let n' := (Operation.runAll (ops'.take k) m').2
        n.Resembles n' ∧ n.heap.freedSince m.heap = n'.heap.freedSince m'.heap ∧
          ∃ events, n.events = m.events ++ events ∧ n'.events = m'.events ++ events := by
  intro results results'
  obtain ⟨hresults, -⟩ := Operation.runAll_resembles hops h
  refine ⟨hresults, ?_, fun k => ?_⟩
  · have hobjects : ∀ result : Except AccessError Reply,
        (result.map Reply.shape).map Reply.objects = result.map Reply.objects := by
      rintro (e | reply)
      · rfl
      · exact congrArg Except.ok reply.objects_shape
    have hboth := congrArg (List.map (Except.map Reply.objects)) hresults
    rw [List.map_map, List.map_map] at hboth
    simpa only [Function.comp_def, hobjects] using hboth
  · obtain ⟨-, hafter, hevents⟩ := Operation.runAll_resembles (List.forall₂_take k hops) h
    exact ⟨hafter, h.freedSince hafter, hevents⟩

/-- On a stack with an array and an integer: a removal that fits, a push of a longer buffer, a push
that is refused, and a removal as another kind. The array is taken apart, and the host lets go of
the reference that it got. -/
theorem Operation.payloads_unseen_mixed :
    let heap := (Heap.empty.alloc (.host "T") .unit).2
    let w : Interop := .ofRef ⟨⟨0⟩, .host "T"⟩
    let m : Machine := ⟨heap, ⟨#[.array [.boolean true, .interop w], .integer 7], 2⟩, [], []⟩
    let m' : Machine := ⟨heap, ⟨#[.array [.boolean false, .interop w], .integer (-1)], 2⟩, [], []⟩
    let a := Accessor.ofStack (.recording .standard) .zero
    let ops : List UInt8 → List Operation := fun data =>
      [.call a (.pop .integer), .call a (.push (.bytes .slice data)),
        .call a (.push (.bytes .array data)), .call a (.pop (.value .wrapper)),
        .call a (.pop (.array (.host "T"))), .direct (.host fun h => h.release [⟨0⟩])]
    let run := Operation.runAll (ops []) m
    let run' := Operation.runAll (ops [1, 2]) m'
    run.1.map (Except.map Reply.shape) = run'.1.map (Except.map Reply.shape) ∧
      run.2.heap.freedSince m.heap = [⟨0⟩] ∧ run'.2.heap.freedSince m'.heap = [⟨0⟩] ∧
      run.2.events = [.pop .integer, .push .byteArray, .push .byteArray, .stackOverflow 2,
        .pop .byteArray, .popTypeMismatch "vm_interop::item::InteropObject" .byteArray,
        .pop .array, .popArraySkippedChildren "T" 1] ∧ run'.2.events = run.2.events := by
  intro heap w m m' a ops run run'
  have hblind : a.factory.Blind := ItemFactory.standard_blind.recording
  have hops : List.Forall₂ Operation.Resembles (ops []) (ops [1, 2]) := by
    refine .cons (.call hblind (.same _)) ?_
    refine .cons (.call hblind (.push rfl)) ?_
    refine .cons (.call hblind (.push rfl)) ?_
    refine .cons (.call hblind (.same _)) ?_
    refine .cons (.call hblind (.same _)) ?_
    exact .cons (.release [⟨0⟩]) .nil
  have hm : m.Resembles m' := ⟨by simp [m, m', Stack.shape, Item.shape, Item.shapes], rfl, rfl⟩
  obtain ⟨hresults, -, hsteps⟩ := Operation.payloads_unseen hops hm
  have hrun : Operation.runAll ((ops []).take 6) m = run := rfl
  have hrun' : Operation.runAll ((ops [1, 2]).take 6) m' = run' := rfl
  have hend := hsteps 6
  rw [hrun, hrun'] at hend
  obtain ⟨-, hfreed, events, hevents, hevents'⟩ := hend
  have hgone : run.2.heap.freedSince m.heap = [⟨0⟩] := by cbv
  refine ⟨hresults, hgone, ?_, ?_, ?_⟩
  · exact hfreed.symm.trans hgone
  · cbv
  · rw [hevents, hevents']

end HostStack
