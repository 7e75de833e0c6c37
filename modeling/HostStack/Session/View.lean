import HostStack.Session.Basic

/-!
# How items and host objects are shown

A view of an item follows it into arrays and host objects. A host object shows the name of its
type, the handle that still holds it, and what it holds; an object inside it is shown in the
same way. As objects hold older ones only, the number of an object bounds how far that goes.
-/

namespace HostStack

mutual

inductive View where
  | boolean (value : Bool)
  | integer (value : Int)
  | bytes (bytes : List UInt8)
  | array (views : List View)
  | object (typeName : String) (handle : Option String) (content : Content)

/-- What a host object holds, as it is shown. -/
inductive Content where
  | number (value : Int)
  | text (value : String)
  | integer (value : Int)
  | unit
  /-- A reference shows the number of the object that it leads to. -/
  | reference (number : Option Int)
  | item (view : View)
  | wrapper (view : View)

end

mutual

/-- The view of an item, given how to show a wrapper. -/
def Item.view (showObject : Interop → View) : Item → View
  | .boolean value => .boolean value
  | .integer value => .integer value
  | .byteArray bytes => .bytes bytes
  | .interop w => showObject w
  | .array items => .array (Item.views showObject items)

def Item.views (showObject : Interop → View) : List Item → List View
  | [] => []
  | item :: items => item.view showObject :: Item.views showObject items

end

/-- The number that an object holds, if it is a record. -/
def Heap.number? (h : Heap) (o : ObjectId) : Option Int :=
  match (h.cell? o).map Cell.payload with
  | some (.record _ number) => some number
  | _ => none

def Payload.content (h : Heap) (showObject : Interop → View) : Payload → Content
  | .record _ number => .number number
  | .text value => .text value
  | .integer value => .integer value
  | .unit => .unit
  | .reference value => .reference (h.number? value.object)
  | .item value => .item (value.view showObject)
  | .wrapper value => .wrapper (showObject value)

namespace Session

/-- The view of a wrapper, through at most `depth` objects. -/
def viewWithin (s : Session) : Nat → Interop → View
  | 0, w => .object w.typeName (s.handleOf? w.object) .unit
  | depth + 1, w =>
    .object w.typeName (s.handleOf? w.object)
      (((s.heap.cell? w.object).map fun cell =>
        cell.payload.content s.heap (s.viewWithin depth)).getD .unit)

def viewObject (s : Session) (w : Interop) : View :=
  s.viewWithin (w.object.index + 1) w

def viewRef (s : Session) (value : Ref) : View :=
  s.viewObject (.ofRef value)

def viewItem (s : Session) (item : Item) : View :=
  item.view s.viewObject

end Session

end HostStack
