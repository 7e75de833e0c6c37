import HostStack.Access.Accessor

/-!
# Operations as data

A program of the host is a list of calls. A call names one operation of the accessor with its
arguments; performing it gives a reply, which says what was handed out and owns the references
in it.
-/

namespace HostStack

inductive Peek where
  | byteArray (depth : Nat)
  | byteArrayTop
  | integer (depth : Nat)
  | boolean (depth : Nat)
  | reference (type : HostType) (depth : Nat)
  | referenceTop (type : HostType)
  deriving DecidableEq

inductive Pop where
  | integer
  | byteArray
  | boolean
  | value (target : Target)
  | array (type : HostType)
  deriving DecidableEq

inductive Call where
  | push (value : Native)
  | pushInterop (value : Ref)
  | pushInteropArray (type : HostType) (values : List ObjectId)
  | peek (how : Peek)
  | pop (how : Pop)

/-- What an operation hands out. -/
inductive Reply where
  | done
  | boolean (value : Option Bool)
  | integer (value : Option Int)
  | bytes (value : Option (List UInt8))
  | reference (value : Option Ref)
  | extracted (value : Extracted)
  | references (values : Option (List Ref))

/-- The objects that a reply owns references to, once for each reference. -/
def Reply.objects : Reply → List ObjectId
  | .reference (some value) => [value.object]
  | .extracted value => value.objects
  | .references (some values) => values.map Ref.object
  | _ => []

def Peek.perform : Peek → Access Reply
  | .byteArray depth => return .bytes (← Access.peekByteArray depth)
  | .byteArrayTop => return .bytes (← Access.peekByteArrayTop)
  | .integer depth => return .integer (← Access.peekInteger depth)
  | .boolean depth => return .boolean (← Access.peekBoolean depth)
  | .reference type depth => return .reference (← Access.peek type depth)
  | .referenceTop type => return .reference (← Access.peekTop type)

def Pop.perform : Pop → Access Reply
  | .integer => return .integer (← Access.popInteger)
  | .byteArray => return .bytes (← Access.popByteArray)
  | .boolean => return .boolean (← Access.popBoolean)
  | .value target => return .extracted (← Access.pop target)
  | .array type => return .references (← Access.popArray type)

def Accessor.perform (a : Accessor) : Call → Access Reply
  | .push value => do
    a.push value
    return .done
  | .pushInterop value => do
    a.pushInterop value
    return .done
  | .pushInteropArray type values => do
    a.pushInteropArray type values
    return .done
  | .peek how => how.perform
  | .pop how => how.perform

end HostStack
