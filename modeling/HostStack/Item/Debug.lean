import HostStack.Item.Basic

/-!
# Items in logs

The text of an item names its kind and shows its payload in parentheses. Sequences stand in
brackets with commas between their elements. A host object shows the name of its type and
nothing of what it holds.
-/

namespace HostStack

/-- Texts in brackets, with commas between them. -/
def bracketed (texts : List String) : String :=
  "[" ++ ", ".intercalate texts ++ "]"

namespace Item

mutual

def debugText : Item → String
  | .boolean value => "Boolean(" ++ (if value then "true" else "false") ++ ")"
  | .integer value => "Integer(" ++ toString value ++ ")"
  | .byteArray bytes => "ByteArray(" ++ bracketed (bytes.map fun b => toString b.toNat) ++ ")"
  | .interop w => "Interop(" ++ w.debugText ++ ")"
  | .array items => "Array(" ++ bracketed (debugTexts items) ++ ")"

def debugTexts : List Item → List String
  | [] => []
  | item :: items => item.debugText :: debugTexts items

end

end Item

end HostStack
