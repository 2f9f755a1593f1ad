import VerbScript.Verb.Definition

/-!
# Runtime state of verbs

The runtime state of a verb is its instruction pointer and the progress of each action that has
any, in the order of the steps and without their indices. `Verb.runtimeState` writes it;
`Verb.readRuntimeState` takes it over into steps that are already there: the entries go to the
actions with progress in order, and whichever of the two runs out first ends the reading. Nothing
is undone when an action refuses its entry, so the pointer and the progress before it stay as
read.
-/

namespace VerbScript

open Log (Event)

variable {α ω : Type}

namespace RuntimeState

open Json (Decoder)

/-- The key of a verb's instruction pointer. -/
def ipKey : String := "ip"

/-- The instruction pointer and the progress entries of a runtime state. -/
def envelope : Decoder (Int × List Json) :=
  Decoder.record₂ "RuntimePayload" ⟨ipKey, Decoder.int64⟩
    ⟨Definition.actionsKey, Decoder.items Decoder.any⟩

/-- Why an action refused its entry: its index and kind, and what it said. -/
structure Refusal where
  index : Nat
  kind : String
  cause : ActionError

variable [Action α ω]

/-- The progress entries of steps. -/
def captured (steps : List (Step α)) : List Json :=
  steps.filterMap fun s => (Action.progress? s.action).map (·.captured)

/-- Restores entries into the actions of steps that have progress, the first step having the index
`index`. The count is that of the entries taken over. -/
def restore (index : Nat) :
    List (Step α) → List Json → Except Refusal Nat × List (Step α)
  | [], _ => (.ok 0, [])
  | s :: rest, entries =>
    match Action.progress? s.action with
    | none =>
      let (result, rest) := restore (index + 1) rest entries
      (result, s :: rest)
    | some progress =>
      match entries with
      | [] => (.ok 0, s :: rest)
      | e :: entries =>
        match progress.restore e with
        | (.error cause, action) => (.error ⟨index, s.kind, cause⟩, { s with action } :: rest)
        | (.ok (), action) =>
          let (result, rest) := restore (index + 1) rest entries
          (result.map (· + 1), { s with action } :: rest)

end RuntimeState

namespace Verb

variable [Action α ω]

/-- The runtime state of a verb. -/
def runtimeState (v : Verb α) : Json :=
  .object [(RuntimeState.ipKey, .int v.ip),
    (Definition.actionsKey, .array (RuntimeState.captured v.steps))]

/-- Takes a runtime state over. -/
def readRuntimeState (v : Verb α) (payload : Json) :
    Traced (Except DocumentError Unit × Verb α) :=
  match RuntimeState.envelope payload with
  | .error misfit => ⟨(.error (.malformed .runtime misfit), v), []⟩
  | .ok (ip, entries) =>
    if ip < notStarted ∨ v.steps.length < ip then
      ⟨(.error (.ipOutOfRange ip v.steps.length), v), []⟩
    else
      let (result, steps) := RuntimeState.restore 0 v.steps entries
      let v := { v with steps, ip }
      match result with
      | .error e => ⟨(.error (.progressRefused e.index e.kind e.cause), v), []⟩
      | .ok applied => ⟨(.ok (), v), [.runtimeRead v.id ip applied]⟩

/-- Writes a verb in one of its forms. -/
def write (r : Registry α) (v : Verb α) : DocumentMode → Except DocumentError Json
  | .definition => v.definition r
  | .runtime => .ok v.runtimeState

/-- Reads one of the forms of a document into a verb. -/
def read (r : Registry α) (v : Verb α) (mode : DocumentMode) (payload : Json) :
    Traced (Except DocumentError Unit × Verb α) :=
  match mode with
  | .definition => v.readDefinition r payload
  | .runtime => v.readRuntimeState payload

end Verb

end VerbScript
