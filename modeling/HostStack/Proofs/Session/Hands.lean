import HostStack.Proofs.Session.Ownership

/-!
# What the operations of a host have in hand

For each operation that a step is made of: which leaves it is given and which it leaves in the hand
of its caller. Copies can be taken of whatever the session owns, and the things that go by a name
are found among what it owns, so a step that looks things up can take copies of them.
-/

namespace HostStack

open Heap (Trade)

namespace Session

theorem mem_kept_of_handle {s : Session} {id : String} {value : Ref}
    (h : s.handles.get? id = some value) : Interop.ofRef value ∈ s.kept := by
  rw [kept, Named.leaves_of_get? Ref.leaves h]
  simp [Ref.leaves]

theorem mem_leaves_of_handle {s : Session} {id : String} {value : Ref}
    (h : s.handles.get? id = some value) : Interop.ofRef value ∈ s.leaves :=
  Multiset.mem_add.2 (.inr (s.mem_kept_of_handle h))

theorem mem_leaves_of_register {s : Session} {name : String} {value : Register}
    (h : s.registers.get? name = some value) {w : Interop} (hw : w ∈ value.leaves) :
    w ∈ s.leaves := by
  rw [leaves, kept, Named.leaves_of_get? Register.leaves h]
  simp [hw]

end Session

/-! ### Expressions -/

theorem exists_of_map_eq_ok {ε α β : Type} {x : Except ε α} {f : α → β} {b : β}
    (h : x.map f = .ok b) : ∃ a, x = .ok a ∧ f a = b := by
  cases x with
  | error e => cases h
  | ok a =>
      injection h with h
      exact ⟨a, rfl, h⟩

theorem Session.wrapperOf_mem {s : Session} {id : String} {w : Interop}
    (h : s.wrapperOf id = .ok w) : w ∈ s.leaves := by
  rw [Session.wrapperOf] at h
  cases hget : s.handles.get? id with
  | none =>
      rw [hget] at h
      cases h
  | some value =>
      rw [hget] at h
      cases h
      exact s.mem_leaves_of_handle hget

mutual

/-- An item that is put together has no leaves but those of things with a name. -/
theorem ItemExpr.eval_mem {s : Session} {expr : ItemExpr} {item : Item}
    (h : expr.eval s = .ok item) : ∀ w ∈ item.leaves, w ∈ s.leaves := by
  intro w hw
  match expr with
  | .boolean _ | .integer _ | .bytes _ =>
      rw [ItemExpr.eval] at h
      cases h
      cases hw
  | .array items =>
      rw [ItemExpr.eval] at h
      obtain ⟨values, hitems, rfl⟩ := exists_of_map_eq_ok h
      exact ItemExpr.evalAll_mem hitems w hw
  | .object id =>
      rw [ItemExpr.eval] at h
      obtain ⟨v, hobject, rfl⟩ := exists_of_map_eq_ok h
      rw [List.mem_singleton.1 hw]
      exact Session.wrapperOf_mem hobject
  | .register name =>
      rw [ItemExpr.eval] at h
      split at h
      · next value hget =>
          cases h
          exact s.mem_leaves_of_register hget hw
      · cases h
      · cases h
  | .nested depth inner =>
      rw [ItemExpr.eval] at h
      obtain ⟨value, hinner, rfl⟩ := exists_of_map_eq_ok h
      rw [Item.leaves_nest] at hw
      exact ItemExpr.eval_mem hinner w hw

theorem ItemExpr.evalAll_mem {s : Session} {exprs : List ItemExpr} {items : List Item}
    (h : ItemExpr.evalAll s exprs = .ok items) :
    ∀ w ∈ Item.leavesOfAll items, w ∈ s.leaves := by
  intro w hw
  match exprs with
  | [] =>
      rw [ItemExpr.evalAll] at h
      cases h
      cases hw
  | expr :: rest =>
      rw [ItemExpr.evalAll] at h
      cases hfirst : expr.eval s with
      | error e =>
          rw [hfirst] at h
          cases h
      | ok first =>
          cases hrest : ItemExpr.evalAll s rest with
          | error e =>
              rw [hfirst, hrest] at h
              cases h
          | ok values =>
              rw [hfirst, hrest] at h
              cases h
              rw [Item.leavesOfAll, List.mem_append] at hw
              rcases hw with hw | hw
              · exact ItemExpr.eval_mem hfirst w hw
              · exact ItemExpr.evalAll_mem hrest w hw

end

/-- Neither has the payload of a new object. -/
theorem Blueprint.eval_mem {s : Session} {label : String} {blueprint : Blueprint}
    {payload : Payload} (h : blueprint.eval s label = .ok payload) :
    ∀ w ∈ payload.leaves, w ∈ s.leaves := by
  intro w hw
  cases blueprint with
  | record _ | text _ | integer _ | unit =>
      cases h
      cases hw
  | reference id =>
      rw [Blueprint.eval, Session.wrapperOf] at h
      obtain ⟨v, hobject, rfl⟩ := exists_of_map_eq_ok h
      cases hget : s.handles.get? id with
      | none =>
          rw [hget] at hobject
          cases hobject
      | some value =>
          rw [hget] at hobject
          cases hobject
          rw [List.mem_singleton.1 hw]
          exact s.mem_leaves_of_handle hget
  | item expr =>
      rw [Blueprint.eval] at h
      obtain ⟨item, hitem, rfl⟩ := exists_of_map_eq_ok h
      exact ItemExpr.eval_mem hitem w hw
  | wrapper id =>
      rw [Blueprint.eval] at h
      obtain ⟨v, hobject, rfl⟩ := exists_of_map_eq_ok h
      rw [List.mem_singleton.1 hw]
      exact Session.wrapperOf_mem hobject

namespace Run

/-! ### Looking things up -/

theorem reads_named {α : Type} (name : String) (things : Named α) (s : Session) :
    (named name things).Reads s := by
  rw [Reads, named]
  cases things.get? name with
  | some a => rfl
  | none => rfl

theorem get?_of_named {α : Type} {name : String} {things : Named α} {s s' : Session} {a : α}
    (h : (named name things).run s = .ok a s') : things.get? name = some a := by
  rw [named] at h
  cases hget : things.get? name with
  | some b =>
      rw [hget] at h
      cases h
      rfl
  | none =>
      rw [hget] at h
      cases h

theorem reads_handle (id : String) (s : Session) : (handle id).Reads s :=
  reads_named id s.handles s

theorem reads_register (name : String) (s : Session) : (register name).Reads s :=
  reads_named name s.registers s

theorem get?_of_handle {id : String} {s s' : Session} {value : Ref}
    (h : (handle id).run s = .ok value s') : s.handles.get? id = some value :=
  get?_of_named (s := s) h

theorem get?_of_register {name : String} {s s' : Session} {value : Register}
    (h : (register name).run s = .ok value s') : s.registers.get? name = some value :=
  get?_of_named (s := s) h

theorem reads_itemRegister (name : String) (s : Session) : (itemRegister name).Reads s := by
  rw [itemRegister]
  refine (reads_register name s).then ?_
  intro value
  cases value with
  | item _ | wrapper _ | wrappers _ => rfl

theorem get?_of_itemRegister {name : String} {s s' : Session} {value : Item}
    (h : (itemRegister name).run s = .ok value s') :
    s.registers.get? name = some (.item value) := by
  rw [itemRegister] at h
  obtain ⟨found, s'', hfound, h⟩ := exists_of_bind_ok h
  cases found with
  | item _ =>
      cases h
      exact get?_of_register hfound
  | wrapper _ | wrappers _ => cases h

theorem reads_wrapperRegister (name : String) (s : Session) : (wrapperRegister name).Reads s := by
  rw [wrapperRegister]
  refine (reads_register name s).then ?_
  intro value
  cases value with
  | item _ | wrapper _ | wrappers _ => rfl

theorem get?_of_wrapperRegister {name : String} {s s' : Session} {value : Interop}
    (h : (wrapperRegister name).run s = .ok value s') :
    s.registers.get? name = some (.wrapper value) := by
  rw [wrapperRegister] at h
  obtain ⟨found, s'', hfound, h⟩ := exists_of_bind_ok h
  cases found with
  | wrapper _ =>
      cases h
      exact get?_of_register hfound
  | item _ | wrappers _ => cases h

theorem reads_ofExcept {α : Type} (result : Except SessionError α) (s : Session) :
    (ofExcept result).Reads s := by
  cases result with
  | ok a => rfl
  | error e => rfl

theorem ok_of_ofExcept {α : Type} {result : Except SessionError α} {s s' : Session} {a : α}
    (h : (ofExcept result).run s = .ok a s') : result = .ok a := by
  cases result with
  | ok b =>
      cases h
      rfl
  | error e => cases h

/-! ### Copying and letting go -/

theorem retain_trades {s : Session} (ws : List Interop) (hws : ∀ w ∈ ws, w ∈ s.leaves) :
    (retain (ws.map Interop.object)).Trades s [] (fun _ => ws) := by
  refine ⟨(Trade.of_eq (nothing_add _)).trans ?_, rfl⟩
  exact .copy ws hws

theorem release_trades (s : Session) (ws : List Interop) :
    (release (ws.map Interop.object)).Trades s ws (fun _ => []) := by
  refine ⟨(Trade.drop ws).trans (.of_eq (nothing_add _).symm), rfl⟩

theorem access_ok {α : Type} {operation : Access α} {s : Session} {a : α} {machine : Machine}
    (hrun : operation.run s.machine = .ok a machine) :
    (access operation).run s = .ok a { s with machine } := by
  rw [access, EStateM.run_bind]
  simp only [EStateM.run_get, hrun]
  rfl

theorem access_error {α : Type} {operation : Access α} {s : Session} {cause : AccessError}
    {machine : Machine} (hrun : operation.run s.machine = .error cause machine) :
    (access operation).run s = .error (.access cause) { s with machine } := by
  rw [access, EStateM.run_bind]
  simp only [EStateM.run_get, hrun]
  rfl

theorem access_trades {α : Type} {operation : Access α} {s : Session} {given : List Interop}
    {out : α → List Interop} (h : operation.Trades s.machine given out s.kept) :
    (access operation).Trades s given out := by
  rw [Access.Trades] at h
  rw [Trades]
  cases hrun : operation.run s.machine with
  | ok a machine =>
      rw [hrun] at h
      rw [access_ok hrun]
      exact ⟨h, rfl⟩
  | error cause machine =>
      rw [hrun] at h
      rw [access_error hrun]
      exact ⟨h.trans (.of_eq (nothing_add _).symm), rfl⟩

/-! ### What goes by name -/

/-- What was in a place is let go of when another takes it. -/
theorem replace_trades {s : Session} {f : Session → Session} {given old : List Interop}
    {objects : List ObjectId} (hput : s.Trades (f s) given old)
    (hold : objects = old.map Interop.object) :
    (do modify f; release objects : Run Unit).Trades s given (fun _ => []) := by
  rw [hold]
  exact Trades.bind (trades_modify hput) fun _ s' _ => release_trades s' old

theorem putHandle_trades (id : String) (value : Ref) (s : Session) :
    (putHandle id value).Trades s [.ofRef value] (fun _ => []) := by
  have hput : s.Trades { s with handles := s.handles.put id value } [.ofRef value]
      ((s.handles.get? id).toList.flatMap Ref.leaves) := by
    refine Session.trades_of_leaves ?_ rfl rfl
    refine Session.leaves_exchange s.leaves_handles (Session.leaves_handles _) ?_
    exact Named.leaves_exchange Ref.leaves id value s.handles
  rw [putHandle]
  refine trades_get (replace_trades hput ?_)
  cases s.handles.get? id with
  | none => rfl
  | some old => rfl

theorem putRegister_trades (name : String) (value : Register) (s : Session) :
    (putRegister name value).Trades s value.leaves (fun _ => []) := by
  have hput : s.Trades { s with registers := s.registers.put name value } value.leaves
      ((s.registers.get? name).toList.flatMap Register.leaves) := by
    refine Session.trades_of_leaves ?_ rfl rfl
    refine Session.leaves_exchange s.leaves_registers (Session.leaves_registers _) ?_
    exact Named.leaves_exchange Register.leaves name value s.registers
  rw [putRegister]
  refine trades_get (replace_trades hput ?_)
  simp only [List.map_flatMap, Register.map_object_leaves]

theorem putSave_trades (name : String) (value : Stack) (s : Session) :
    (putSave name value).Trades s value.leaves (fun _ => []) := by
  have hput : s.Trades { s with saves := s.saves.put name value } value.leaves
      ((s.saves.get? name).toList.flatMap Stack.leaves) := by
    refine Session.trades_of_leaves ?_ rfl rfl
    refine Session.leaves_exchange s.leaves_saves (Session.leaves_saves _) ?_
    exact Named.leaves_exchange Stack.leaves name value s.saves
  rw [putSave]
  refine trades_get (replace_trades hput ?_)
  simp only [List.map_flatMap, Stack.map_object_leaves]

theorem takeRegister_trades {name : String} {value : Register} {s : Session}
    (h : s.registers.get? name = some value) :
    (takeRegister name).Trades s [] (fun _ => value.leaves) := by
  refine trades_modify (Session.trades_of_leaves ?_ rfl rfl)
  refine Session.leaves_exchange s.leaves_registers (Session.leaves_registers _) ?_
  rw [Named.leaves_of_get? Register.leaves h]
  exact nothing_add _

/-- Keeping a reply and letting go of it are both ways to have nothing in hand. -/
theorem settle_trades (keep : Option String) (reply : Reply) (s : Session) :
    (settle keep reply).Trades s reply.leaves (fun _ => []) := by
  have hrelease : (release reply.objects).Trades s reply.leaves (fun _ => []) := by
    rw [← reply.map_object_leaves]
    exact release_trades s reply.leaves
  cases keep with
  | none => exact hrelease
  | some name =>
      cases hregister : reply.register? with
      | none =>
          unfold settle
          rw [hregister]
          exact hrelease
      | some value =>
          unfold settle
          rw [hregister, ← Reply.leaves_of_register? hregister]
          exact putRegister_trades name value s

/-! ### Building and handing out -/

/-- What is built from an expression comes with references of its own. -/
theorem build_trades (expr : ItemExpr) (s : Session) :
    (build expr).Trades s [] Item.leaves := by
  rw [build]
  refine trades_get ((reads_ofExcept _ s).bind ?_)
  intro item hitem
  have hleaves := ItemExpr.eval_mem (ok_of_ofExcept hitem)
  rw [← item.map_object_leaves]
  refine (retain_trades item.leaves hleaves).bind ?_
  intro _ s' _
  exact trades_pure item

/-- An operation on the machine, whatever it hands out, ends with nothing in hand. -/
theorem handOut_trades (keep : Option String) (quiet : Bool) {operation : Access Reply}
    {s : Session} {given : List Interop}
    (h : operation.Trades s.machine given Reply.leaves s.kept) :
    (handOut keep quiet operation).Trades s given (fun _ => []) := by
  rw [handOut]
  refine (access_trades h).bind fun reply s' _ => trades_get ?_
  exact (settle_trades keep reply s').bind fun _ _ _ => trades_done _

/-- The objects of some handles are looked up only, and the session keeps a reference to each. -/
theorem handlesOf_ends (type : HostType) (ids : List String) (s : Session) :
    Ends ((handlesOf type ids).run s)
      (fun objects s' => s' = s ∧ ∀ o ∈ objects, Interop.ofRef ⟨o, type⟩ ∈ s.kept)
      (fun s' => s' = s) := by
  induction ids with
  | nil => exact ⟨rfl, fun o ho => absurd ho List.not_mem_nil⟩
  | cons id rest ih =>
      have hreads := reads_handle id s
      rw [Reads] at hreads
      rw [handlesOf, EStateM.run_bind]
      cases hhandle : (handle id).run s with
      | error e s' =>
          rw [hhandle] at hreads
          exact hreads
      | ok value s' =>
          rw [hhandle] at hreads
          cases hreads
          have hkept := s.mem_kept_of_handle (get?_of_handle hhandle)
          dsimp only
          by_cases htype : value.type = type
          · rw [if_pos htype, EStateM.run_bind]
            cases hrest : (handlesOf type rest).run s with
            | error e s' =>
                rw [hrest] at ih
                exact ih
            | ok objects s' =>
                rw [hrest] at ih
                obtain ⟨rfl, hobjects⟩ := ih
                refine ⟨rfl, ?_⟩
                intro o ho
                rcases List.mem_cons.1 ho with rfl | ho
                · rw [← htype]
                  exact hkept
                · exact hobjects o ho
          · rw [if_neg htype]
            exact rfl

theorem reads_handlesOf (type : HostType) (ids : List String) (s : Session) :
    (handlesOf type ids).Reads s := by
  have hends := handlesOf_ends type ids s
  rw [Reads]
  cases hrun : (handlesOf type ids).run s with
  | ok objects s' =>
      rw [hrun] at hends
      exact hends.1
  | error e s' =>
      rw [hrun] at hends
      exact hends

end Run

end HostStack
