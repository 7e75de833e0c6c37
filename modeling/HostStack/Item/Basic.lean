import HostStack.HostType

/-!
# Stack items

An item is a truth value, an integer of any size, a byte sequence, a wrapped host object or an
array of items. A wrapper holds one counted reference to its object and remembers the type that
the object was wrapped at; the name that it shows is kept beside that type and is never what a
type test looks at.

There are two ways to get at what an item holds. A view looks at an item that stays where it is;
an extraction takes the item apart, or hands it back whole if it holds something else.
-/

namespace HostStack

/-- The identity of a host object: how many objects were made before it. -/
structure ObjectId where
  index : Nat
  deriving DecidableEq

/-- A counted reference to a host object, with the object's type. -/
structure Ref where
  object : ObjectId
  type : HostType
  deriving DecidableEq

/-- A host object behind an erased type. -/
structure Interop where
  value : Ref
  typeName : String

inductive ItemKind where
  | boolean
  | integer
  | byteArray
  | interop
  | array
  deriving DecidableEq

/-- The kinds in the order in which they are documented. -/
def ItemKind.all : List ItemKind :=
  [.boolean, .integer, .byteArray, .interop, .array]

def ItemKind.name : ItemKind → String
  | .boolean => "Boolean"
  | .integer => "Integer"
  | .byteArray => "ByteArray"
  | .interop => "Interop"
  | .array => "Array"

inductive Item where
  | boolean (value : Bool)
  | integer (value : Int)
  | byteArray (bytes : List UInt8)
  | interop (object : Interop)
  | array (items : List Item)

namespace Interop

def ofRef (value : Ref) : Interop :=
  ⟨value, value.type.name⟩

def object (w : Interop) : ObjectId :=
  w.value.object

/-- Whether the object was wrapped at the given type. -/
def is (w : Interop) (type : HostType) : Bool :=
  w.value.type = type

/-- Takes the reference out of a wrapper of the given type, or hands the wrapper back. -/
def unwrap (w : Interop) (type : HostType) : Except Interop Ref :=
  if w.value.type = type then .ok w.value else .error ⟨w.value, w.typeName⟩

def sameObject (v w : Interop) : Bool :=
  v.object = w.object

def debugText (w : Interop) : String :=
  "InteropObject(" ++ w.typeName ++ ")"

end Interop

namespace Item

def kind : Item → ItemKind
  | .boolean _ => .boolean
  | .integer _ => .integer
  | .byteArray _ => .byteArray
  | .interop _ => .interop
  | .array _ => .array

/-! ### Views -/

def boolean? : Item → Option Bool
  | .boolean value => some value
  | _ => none

def integer? : Item → Option Int
  | .integer value => some value
  | _ => none

def bytes? : Item → Option (List UInt8)
  | .byteArray bytes => some bytes
  | _ => none

def interop? : Item → Option Interop
  | .interop object => some object
  | _ => none

def array? : Item → Option (List Item)
  | .array items => some items
  | _ => none

/-! ### Extraction -/

/-- The reference that an interop item holds, if its object was wrapped at the given type;
otherwise the item itself. -/
def takeReference (item : Item) (type : HostType) : Except Item Ref :=
  match item with
  | .interop w =>
    match w.unwrap type with
    | .ok value => .ok value
    | .error back => .error (.interop back)
  | other => .error other

/-- The wrapper of an interop item; otherwise the item itself. -/
def takeWrapper : Item → Except Item Interop
  | .interop w => .ok w
  | other => .error other

/-! ### References -/

mutual

/-- The objects an item holds references to, once for each reference. References that are held
by those objects themselves do not count. -/
def objects : Item → List ObjectId
  | .interop w => [w.object]
  | .array items => objectsOfAll items
  | _ => []

def objectsOfAll : List Item → List ObjectId
  | [] => []
  | item :: items => item.objects ++ objectsOfAll items

end

/-- An item inside so many arrays of one element. -/
def nest (depth : Nat) (item : Item) : Item :=
  depth.repeat (fun inner => .array [inner]) item

end Item

/-- What an item was turned into. -/
inductive Extracted where
  | reference (value : Ref)
  | item (value : Item)
  | wrapper (value : Interop)

def Extracted.objects : Extracted → List ObjectId
  | .reference value => [value.object]
  | .item value => value.objects
  | .wrapper value => [value.object]

/-- Turns an item into what is asked for, or hands it back unchanged. -/
def Target.accept (target : Target) (item : Item) : Except Item Extracted :=
  match target with
  | .reference type => (item.takeReference type).map .reference
  | .item => .ok (.item item)
  | .wrapper => item.takeWrapper.map .wrapper

end HostStack
