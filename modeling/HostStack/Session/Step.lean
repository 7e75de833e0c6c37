import HostStack.Session.Basic

/-!
# Steps of a session

A step is one thing that a host does: it makes or releases host objects, works on the stack
through the accessor or directly, copies the stack and restores or discards the copy, or looks
into registers. Items and new objects are described by expressions over the names of the session;
what an expression describes can be found without changing anything.
-/

namespace HostStack

inductive ItemExpr where
  | boolean (value : Bool)
  | integer (value : Int)
  | bytes (bytes : List UInt8)
  | array (items : List ItemExpr)
  /-- The object of a handle, wrapped. -/
  | object (handle : String)
  /-- A copy of the item in a register. -/
  | register (name : String)
  /-- An item inside so many arrays of one element. -/
  | nested (depth : Nat) (item : ItemExpr)

inductive Blueprint where
  | record (number : Int)
  | text (value : String)
  | integer (value : Int)
  | unit
  | reference (handle : String)
  | item (item : ItemExpr)
  | wrapper (handle : String)

inductive Step where
  | create (id : String) (type : HostType) (blueprint : Blueprint)
  | releaseHandle (id : String)
  | count (id : String)
  | push (value : Native)
  | pushInterop (id : String)
  | pushInteropArray (type : HostType) (ids : List String)
  | peek (how : Peek) (keep : Option String)
  | pop (how : Pop) (keep : Option String) (quiet : Bool)
  | scriptHash
  | stackPush (item : ItemExpr)
  | stackPop (keep : Option String) (quiet : Bool)
  | stackPeek (depth : Nat)
  | stackInfo
  | dump
  | debug
  | clear
  | save (name : String)
  | restore (name : String)
  | discard (save : String)
  | sameAs (name : String)
  | set (register : String) (item : ItemExpr)
  | wrap (register : String) (id : String)
  | copy (register : String) (target : String)
  | drop (register : String)
  | inspect (register : String)
  | equal (a b : String)
  | is (register : String) (type : HostType)
  | downcast (register : String) (type : HostType) (keep : Option String)
  | unwrap (register : String) (type : HostType) (keep : Option String)
  | convert (register : String) (target : Target) (keep : Option String)
  /-- A step up to so many times, until it fails. -/
  | times (count : Nat) (step : Step)

def Session.wrapperOf (s : Session) (id : String) : Except SessionError Interop :=
  match s.handles.get? id with
  | some value => .ok (.ofRef value)
  | none => .error (.unknownName id)

mutual

def ItemExpr.eval (s : Session) : ItemExpr → Except SessionError Item
  | .boolean value => .ok (.boolean value)
  | .integer value => .ok (.integer value)
  | .bytes data => .ok (.byteArray data)
  | .array items => (ItemExpr.evalAll s items).map .array
  | .object id => (s.wrapperOf id).map .interop
  | .register name =>
    match s.registers.get? name with
    | some (.item value) => .ok value
    | some _ => .error (.unsuited name)
    | none => .error (.unknownName name)
  | .nested depth item => (item.eval s).map (Item.nest depth)

def ItemExpr.evalAll (s : Session) : List ItemExpr → Except SessionError (List Item)
  | [] => .ok []
  | item :: items => do
    let first ← item.eval s
    let rest ← ItemExpr.evalAll s items
    return first :: rest

end

def Blueprint.eval (s : Session) (label : String) : Blueprint → Except SessionError Payload
  | .record number => .ok (.record label number)
  | .text value => .ok (.text value)
  | .integer value => .ok (.integer value)
  | .unit => .ok .unit
  | .reference id => (s.wrapperOf id).map fun w => .reference w.value
  | .item expr => (expr.eval s).map .item
  | .wrapper id => (s.wrapperOf id).map .wrapper

end HostStack
