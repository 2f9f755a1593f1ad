import VerbScript.Text.Blank

/-!
# Failure policies

What a verb does when one of its steps fails: go on with the next step, or stop and cancel the
verb. A policy is named by a word in any case, blanks around it being ignored.
-/

namespace VerbScript

/-- What a verb does when one of its steps fails. -/
inductive FailurePolicy where
  /-- The failure is logged and the step counts as done. -/
  | proceed
  /-- The failure is logged, the verb is cancelled and the failure is handed to the caller. -/
  | abort
  deriving Repr, DecidableEq

namespace FailurePolicy

/-- The policy where none is chosen. -/
instance : Inhabited FailurePolicy := ⟨proceed⟩

/-- The policy as a record shows it. -/
def text : FailurePolicy → String
  | proceed => "ContinueOnError"
  | abort => "AbortOnError"

/-- The policy that a word names, or the word that names none. -/
structure Unknown where
  word : String
  deriving Repr, DecidableEq

/-- The text of an unknown policy. -/
def Unknown.message (e : Unknown) : String :=
  "unknown failure policy '" ++ e.word ++ "' (expected continue|abort)"

/-- The policy that a word names. -/
def parse (word : String) : Except Unknown FailurePolicy :=
  let name := String.ofList ((Text.trimBlank word.toList).map Char.toLower)
  if name = "continue" then .ok proceed
  else if name = "abort" then .ok abort
  else .error ⟨word⟩

end FailurePolicy

end VerbScript
