import VerbScript.Verb.Basic
import VerbScript.Json.Decoder
import VerbScript.Json.Printer

/-!
# Documents of a verb

A verb is written in one of two forms that know nothing of each other: its definition (id, kinds
and properties) and its runtime state (instruction pointer and progress). This module holds what
can be wrong with such a document; the forms themselves are in `VerbScript.Verb.Definition` and
`VerbScript.Verb.RuntimeState`.
-/

namespace VerbScript

/-- The two forms of a verb's document. -/
inductive DocumentMode where
  | definition
  | runtime
  deriving Repr, DecidableEq

/-- The name of a form. -/
def DocumentMode.name : DocumentMode → String
  | definition => "definition"
  | runtime => "runtime"

/-- Why a verb's document is refused. -/
inductive DocumentError where
  /-- The document does not have the shape of its form. -/
  | malformed (mode : DocumentMode) (misfit : Json.Misfit)
  /-- The kind of an entry is not a text. -/
  | kindNotText (index : Nat) (found : Json)
  /-- The registry refuses an entry. -/
  | entry (index : Nat) (cause : Registry.Error)
  /-- The value of a property is an array or an object. -/
  | nestedValue (index : Nat) (property : String) (found : Json)
  /-- The instruction pointer is not one of a verb with so many steps. -/
  | ipOutOfRange (ip : Int) (steps : Nat)
  /-- An action refuses the progress that it is to take over. -/
  | progressRefused (index : Nat) (kind : String) (cause : ActionError)

namespace DocumentError

/-- The text of a document that does not have the shape of its form. -/
def malformedText (mode : DocumentMode) (place : Json.Place) (message : String) : String :=
  "malformed " ++ mode.name ++ " payload at " ++ place.text ++ ": " ++ message

/-- The text of an error. -/
def message : DocumentError → String
  | malformed mode misfit => malformedText mode misfit.place misfit.mismatch.message
  | kindNotText index found =>
    malformedText .definition [.key "actions", .index index, .key kindKey]
      ("expected a string, got " ++ found.compact)
  | entry index cause => "action " ++ toString index ++ ": " ++ cause.message
  | nestedValue index property found =>
    "action " ++ toString index ++ " property '" ++ property ++ "': unsupported value " ++
      found.compact ++ " (expected string, number or bool)"
  | ipOutOfRange ip steps =>
    "instruction pointer " ++ Number.integerText ip ++ " out of range for " ++ toString steps ++
      " actions"
  | progressRefused index kind cause =>
    "action " ++ toString index ++ " (" ++ kind ++ ") rejected runtime state: " ++ cause.message

end DocumentError

end VerbScript
