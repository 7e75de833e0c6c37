/-!
# Types of host objects

A host object has one type, fixed when the object is made. Most types are the host's own and
known by name only; three more exist because the stack has them: a counted reference to an
object of some type, an item, and a wrapper. Types are compared as such and never by their
names, so a reference to an object is never mistaken for the object.
-/

namespace HostStack

inductive HostType where
  | host (name : String)
  /-- A counted reference to an object of another type. -/
  | reference (target : HostType)
  | item
  /-- A wrapper of a host object whose type has been erased. -/
  | wrapper
  deriving DecidableEq

def HostType.name : HostType → String
  | .host name => name
  | .reference target => "alloc::rc::Rc<" ++ target.name ++ ">"
  | .item => "vm_interop::item::StackItem"
  | .wrapper => "vm_interop::item::InteropObject"

/-- What a popped item can be asked to become. -/
inductive Target where
  /-- A reference to an object that was wrapped at the given type. -/
  | reference (type : HostType)
  | item
  | wrapper
  deriving DecidableEq

def Target.type : Target → HostType
  | .reference type => .reference type
  | .item => .item
  | .wrapper => .wrapper

def Target.name (target : Target) : String :=
  target.type.name

end HostStack
