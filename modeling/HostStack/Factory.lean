import HostStack.Item.Basic
import HostStack.Native

/-!
# Building items

Whoever runs the stack decides how items are built. A factory has one method for each kind of
item, and every method may note in a log that it was called. The standard factory builds the
plain item and notes nothing; a recording factory notes each call and leaves the building to
another one.
-/

namespace HostStack

inductive FactoryMethod where
  | boolean
  | integer
  | byteArray
  | interop
  | array
  deriving DecidableEq

/-- Something that is built while calls are logged. -/
abbrev Build (α : Type) := StateM (List FactoryMethod) α

structure ItemFactory where
  boolean : Bool → Build Item
  integer : Int → Build Item
  byteArray : List UInt8 → Build Item
  interop : Interop → Build Item
  array : List Item → Build Item

namespace ItemFactory

/-- Builds the plain item of each kind. -/
def standard : ItemFactory where
  boolean value := pure (.boolean value)
  integer value := pure (.integer value)
  byteArray bytes := pure (.byteArray bytes)
  interop object := pure (.interop object)
  array items := pure (.array items)

def noted (method : FactoryMethod) (build : Build Item) : Build Item := do
  modify fun calls => calls ++ [method]
  build

/-- Notes each call and hands it on to another factory. -/
def recording (inner : ItemFactory) : ItemFactory where
  boolean value := noted .boolean (inner.boolean value)
  integer value := noted .integer (inner.integer value)
  byteArray bytes := noted .byteArray (inner.byteArray bytes)
  interop object := noted .interop (inner.interop object)
  array items := noted .array (inner.array items)

end ItemFactory

def Native.toItem (factory : ItemFactory) : Native → Build Item
  | .boolean value => factory.boolean value
  | .integer _ value _ => factory.integer value
  | .bytes _ data => factory.byteArray data

end HostStack
