import HostStack.Config.Basic
import HostStack.Decimal.Shortest
import HostStack.Text.Quoted
import HostStack.Toml.Document

/-!
# Loading limits from a document

The two limits are optional keys of the top-level table of a TOML document; all other keys are
ignored, whatever they hold. Three things can go wrong, and they are looked for in this order:
the text is no document at all, one of the two keys holds something that is no size, and the
limits contradict each other. Of two keys with wrong values the one that the document mentions
first is reported.
-/

namespace HostStack

inductive ConfigError where
  | fileMissing
  | isDirectory
  /-- The bytes of the file are no text. -/
  | invalidText
  | malformed
  /-- One of the two keys holds a value that is no size. -/
  | notASize (value : Toml.Value)
  | invalid (fault : InvalidConfig)

/-- What went wrong: getting at a text, reading it as limits, or the limits themselves. -/
inductive ConfigErrorKind where
  | io
  | parse
  | invalid
  deriving DecidableEq

/-- What there is under the name of a configuration file. -/
inductive FileState where
  | contents (bytes : List UInt8)
  | missing
  | directory

namespace Toml.Value

/-- The size that a value stands for: an integer that is not negative. -/
def size? : Value → Option Nat
  | .integer n => if 0 ≤ n then some n.toNat else none
  | _ => none

/-- What is wrong with a value in the place of a size: a negative integer has the wrong value,
everything else the wrong type. -/
def misfit : Value → String
  | .integer n => "invalid value: integer `" ++ toString n ++ "`"
  | .boolean b => "invalid type: boolean `" ++ (if b then "true" else "false") ++ "`"
  | .float x => "invalid type: floating point `" ++ Decimal.floatText x ++ "`"
  | .string s => "invalid type: string " ++ Text.quotedString s
  | .array _ | .tables _ => "invalid type: sequence"
  | .table _ _ | .dateTime _ => "invalid type: map"

end Toml.Value

namespace ConfigError

def kind : ConfigError → ConfigErrorKind
  | .fileMissing | .isDirectory | .invalidText => .io
  | .malformed | .notASize _ => .parse
  | .invalid _ => .invalid

/-- The error in words. A malformed document has no words of its own. -/
def message? : ConfigError → Option String
  | .fileMissing => some "IO error: No such file or directory (os error 2)"
  | .isDirectory => some "IO error: Is a directory (os error 21)"
  | .invalidText => some "IO error: stream did not contain valid UTF-8"
  | .malformed => none
  | .notASize value => some (value.misfit ++ ", expected usize")
  | .invalid fault => some fault.message

end ConfigError

namespace StackConfig

def sizeKey : String := "max_stack_size"

def capacityKey : String := "initial_capacity"

/-- The limits after one more entry of the top-level table. -/
def takeEntry (config : StackConfig) : String × Toml.Value → Except ConfigError StackConfig
  | (key, value) =>
    if key = sizeKey ∨ key = capacityKey then
      match value.size? with
      | none => .error (.notASize value)
      | some n =>
        .ok (if key = sizeKey then { config with maxStackSize := n }
          else { config with initialCapacity := n })
    else .ok config

/-- The limits that the entries of a top-level table give, the default where they give none. -/
def ofEntries (entries : Toml.Entries) : Except ConfigError StackConfig :=
  entries.foldlM takeEntry default

def validate (config : StackConfig) : Except ConfigError StackConfig :=
  match config.fault? with
  | some fault => .error (.invalid fault)
  | none => .ok config

def ofText (text : String) : Except ConfigError StackConfig :=
  match Toml.parse? text with
  | none => .error .malformed
  | some entries => (ofEntries entries).bind validate

def ofFile : FileState → Except ConfigError StackConfig
  | .missing => .error .fileMissing
  | .directory => .error .isDirectory
  | .contents bytes =>
    match String.fromUTF8? ⟨bytes.toArray⟩ with
    | some text => ofText text
    | none => .error .invalidText

end StackConfig

end HostStack
