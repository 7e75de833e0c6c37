import HostStack.Session.View

/-!
# Outcomes

The outcome of a step is what there is to see of it. It is made of views, so it stays what it
was when the session goes on.
-/

namespace HostStack

inductive Outcome where
  | nothing
  | number (value : Nat)
  | flag (value : Bool)
  | boolean (value : Option Bool)
  | integer (value : Option Int)
  | bytes (value : Option (List UInt8))
  | view (view : Option View)
  | views (views : Option (List View))
  | kind (kind : ItemKind)
  | text (text : String)
  /-- The hash of the accessor, and whether it is the one of the context. -/
  | hash (hash : ScriptHash) (same : Bool)
  | info (size : Nat) (isEmpty : Bool) (maxSize : Nat)
  /-- An item with all that its views give. -/
  | item (item : Item) (interop : Option View)
  /-- A wrapper with its name, and its object. -/
  | wrapper (wrapper : Interop) (view : View)
  /-- Whether two wrappers are equal, and whether they share their object. -/
  | wrappersEqual (equal same : Bool)
  /-- What an item or a wrapper became, or the item or wrapper itself if it did not fit. -/
  | converted (fits : Bool) (view : View)
  /-- How often a step went well, what the last of those showed, and the failure after it. -/
  | repeated (done : Nat) (last : Option Outcome) (stopped : Option SessionError)

/-- What there is to see of a reply. With `quiet`, only the kind of an item is shown. -/
def Reply.outcome (s : Session) (quiet : Bool) : Reply → Outcome
  | .done => .nothing
  | .boolean value => .boolean value
  | .integer value => .integer value
  | .bytes value => .bytes value
  | .reference value => .view (value.map s.viewRef)
  | .extracted (.reference value) => .view (some (s.viewRef value))
  | .extracted (.item value) => if quiet then .kind value.kind else .view (some (s.viewItem value))
  | .extracted (.wrapper value) => .view (some (s.viewObject value))
  | .references values => .views (values.map fun values => values.map s.viewRef)

def Extracted.view (s : Session) : Extracted → View
  | .reference value => s.viewRef value
  | .item value => s.viewItem value
  | .wrapper value => s.viewObject value

end HostStack
