import VerbScript.Action.Property
import VerbScript.Log.Event

/-!
# Actions

An action is one step's worth of behaviour: a state `α` that is executed in a world `ω`. The class
`Action` says what an action does; only `execute` has to be given. An action without the other
operations has no properties, cannot be cancelled and has no progress to save.

Setting a property and restoring progress hand back the action that results also when they refuse,
because an action may have changed before it refused.
-/

namespace VerbScript

/-- Why an action refused or failed. -/
structure ActionError where
  message : String
  deriving Repr, DecidableEq

/-- How an execution ended. -/
inductive Status where
  /-- The step is over. -/
  | done
  /-- The step goes on outside; its verb waits to be resumed. -/
  | blocking
  deriving Repr, DecidableEq

/-- What an execution leaves behind. -/
structure Execution (α ω : Type) where
  result : Except ActionError Status
  action : α
  world : ω
  events : List Log.Event := []

/-- The progress of an action that can be saved: its document, and how another one is taken over. -/
structure Progress (α : Type) where
  captured : Json
  restore : Json → Except ActionError Unit × α

/-- The error of an action that has no property of the given name to set. -/
def ActionError.notSettable (name : String) : ActionError :=
  ⟨"property '" ++ name ++ "' is not settable"⟩

/-- What an action with state `α` does in a world `ω`. -/
class Action (α : Type) (ω : outParam Type) where
  /-- Runs the action in a world. -/
  execute : α → ω → Execution α ω
  /-- The value of a property, if it is set. -/
  property? : α → String → Option Property.Value := fun _ _ => none
  /-- Sets a property, or says why it cannot be set. -/
  setProperty : α → String → Property.Value → Except ActionError Unit × α :=
    fun a name _ => (.error (.notSettable name), a)
  /-- The action cancelled, with the events of it, if it can be cancelled. -/
  cancel? : α → Option (α × List Log.Event) := fun _ => none
  /-- The progress of the action, if it is to be saved. -/
  progress? : α → Option (Progress α) := fun _ => none

namespace Execution

variable {α β ω : Type}

/-- The execution with the action that is left changed. -/
def mapAction (f : α → β) (x : Execution α ω) : Execution β ω :=
  ⟨x.result, f x.action, x.world, x.events⟩

end Execution

namespace Progress

variable {α β : Type}

/-- Progress seen from the action around it. -/
def mapAction (f : α → β) (p : Progress α) : Progress β :=
  ⟨p.captured, fun payload => (p.restore payload).map id f⟩

end Progress

/-- A step of a verb: an action and the kind it was made from. -/
structure Step (α : Type) where
  kind : String
  action : α

namespace Step

variable {α : Type}

/-- A step as a listing shows it. -/
def summary (s : Step α) : String :=
  "ActionInstance \x7b kind: " ++ Text.quoted s.kind ++ ", .. \x7d"

end Step

end VerbScript
