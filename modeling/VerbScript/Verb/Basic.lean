import VerbScript.Action.Registry
import VerbScript.Policy

/-!
# Verbs

A `Verb` is a list of steps with an instruction pointer, which is `-1` before the first run, the
index of the step that blocks while the verb is suspended, and the count of steps once it has
finished (`Verb.phase`). `sweep` executes the steps from an index on until one blocks or, under
the aborting policy, one fails; running, resuming and cancelling a verb are built on it
(`Verb.run`, `Verb.resume`, `Verb.cancel`).
-/

namespace VerbScript

open Log (Event)

variable {α ω : Type}

/-- The instruction pointer of a verb that has not run. -/
def notStarted : Int := -1

/-- Where a verb is in its life. -/
inductive Phase where
  | notStarted
  | suspended (ip : Nat)
  | finished
  deriving Repr, DecidableEq

/-- A phase as a listing shows it. -/
def Phase.text : Phase → String
  | notStarted => "not_started"
  | suspended ip => "suspended:" ++ toString ip
  | finished => "finished"

/-- A named list of steps with an instruction pointer. -/
structure Verb (α : Type) where
  id : String
  steps : List (Step α) := []
  ip : Int := notStarted
  policy : FailurePolicy := default

/-- Why a verb does not run on. -/
inductive Verb.Error where
  | alreadyRunning (verb : String) (ip : Nat)
  | notSuspended (verb : String)
  | stepFailed (verb : String) (index : Nat) (kind : String) (cause : ActionError)
  deriving Repr, DecidableEq

/-- The text of an error. -/
def Verb.Error.message : Verb.Error → String
  | alreadyRunning verb ip =>
    "verb '" ++ verb ++ "' is suspended at step " ++ toString ip ++
      "; cancel it before running again"
  | notSuspended verb => "verb '" ++ verb ++ "' is not suspended and cannot be resumed"
  | stepFailed verb index kind cause =>
    "verb '" ++ verb ++ "' step " ++ toString index ++ " (" ++ kind ++ ") failed: " ++ cause.message

/-! ## Sweeps -/

/-- Why a sweep over steps ends. -/
inductive Halt where
  | finished
  | blocked (index : Nat)
  | failed (index : Nat) (kind : String) (cause : ActionError)
  deriving Repr, DecidableEq

/-- What a sweep over steps leaves behind. -/
structure Sweep (α ω : Type) where
  steps : List (Step α)
  world : ω
  halt : Halt
  events : List Event

/-- The sweep with a step before its steps and events before its events. -/
def Sweep.after (s : Step α) (events : List Event) (sweep : Sweep α ω) : Sweep α ω :=
  { sweep with steps := s :: sweep.steps, events := events ++ sweep.events }

/-- Executes the steps of the verb called `verb` in order, the first of them having the index `i`,
until one blocks or one fails under the aborting policy. -/
def sweep [Action α ω] (policy : FailurePolicy) (verb : String) :
    Nat → List (Step α) → ω → Sweep α ω
  | _, [], w => ⟨[], w, .finished, []⟩
  | i, s :: rest, w =>
    let x := Action.execute s.action w
    let s' : Step α := { s with action := x.action }
    let events := Event.stepStarted verb i s.kind :: x.events
    match x.result with
    | .ok .done => (sweep policy verb (i + 1) rest x.world).after s' events
    | .ok .blocking =>
      ⟨s' :: rest, x.world, .blocked i, events ++ [.verbSuspended verb i]⟩
    | .error e =>
      let events := events ++ [.stepFailed verb i s.kind e.message]
      match policy with
      | .proceed => (sweep policy verb (i + 1) rest x.world).after s' events
      | .abort => ⟨s' :: rest, x.world, .failed i s.kind e, events⟩

/-! ## The life of a verb -/

/-- What a call on a verb leaves behind. -/
structure Turn (α ω : Type) where
  outcome : Except Verb.Error Phase
  verb : Verb α
  world : ω
  events : List Event

/-- The steps with every action cancelled that can be, the count of these, and the events of it. -/
def cancelSteps [Action α ω] : List (Step α) → List (Step α) × Nat × List Event
  | [] => ([], 0, [])
  | s :: rest =>
    let (steps, count, events) := cancelSteps rest
    match Action.cancel? s.action with
    | some (action, own) => ({ s with action } :: steps, count + 1, own ++ events)
    | none => (s :: steps, count, events)

namespace Verb

/-- The verb with a step added at the end; it starts anew. -/
def add (v : Verb α) (s : Step α) : Verb α :=
  { v with steps := v.steps ++ [s], ip := notStarted }

/-- The verb with other steps; it starts anew. -/
def replaceSteps (v : Verb α) (steps : List (Step α)) : Verb α :=
  { v with steps, ip := notStarted }

/-- The index of the step at the instruction pointer, if there is one. -/
def current? (v : Verb α) : Option Nat :=
  if 0 ≤ v.ip ∧ v.ip < v.steps.length then some v.ip.toNat else none

/-- Where the verb is in its life. -/
def phase (v : Verb α) : Phase :=
  match v.current? with
  | some ip => .suspended ip
  | none => if v.ip = notStarted then .notStarted else .finished

/-- Whether the verb has run to its end. -/
def isFinished (v : Verb α) : Bool := decide (v.phase = .finished)

/-- A verb as a listing shows it. -/
def summary (v : Verb α) : String :=
  "Verb \x7b id: " ++ Text.quoted v.id ++ ", ip: " ++ Number.integerText v.ip ++ ", steps: " ++
    toString v.steps.length ++ ", .. \x7d"

variable [Action α ω]

/-- Cancels every action that can be cancelled and finishes the verb, unless it has finished. -/
def cancel (v : Verb α) : Verb α × List Event :=
  if v.isFinished then (v, [])
  else
    let (steps, count, events) := cancelSteps v.steps
    ({ v with steps, ip := v.steps.length }, events ++ [.verbCancelled v.id v.ip count])

/-- Executes the steps from the index `start` on. -/
def runFrom (v : Verb α) (start : Nat) (w : ω) : Turn α ω :=
  let s := sweep v.policy v.id start (v.steps.drop start) w
  let steps := v.steps.take start ++ s.steps
  match s.halt with
  | .finished =>
    ⟨.ok .finished, { v with steps, ip := steps.length }, s.world,
      s.events ++ [.verbFinished v.id]⟩
  | .blocked i => ⟨.ok (.suspended i), { v with steps, ip := i }, s.world, s.events⟩
  | .failed i kind cause =>
    let (verb, events) := cancel { v with steps, ip := i }
    ⟨.error (.stepFailed v.id i kind cause), verb, s.world, s.events ++ events⟩

/-- Runs the verb from its first step, unless it is suspended. -/
def run (v : Verb α) (w : ω) : Turn α ω :=
  match v.phase with
  | .suspended ip => ⟨.error (.alreadyRunning v.id ip), v, w, []⟩
  | _ =>
    let turn := v.runFrom 0 w
    { turn with events := .verbStarted v.id v.steps.length :: turn.events }

/-- Goes on behind the step that blocks. A verb that has finished stays as it is: a completion may
be signalled late, after the verb was cancelled. -/
def resume (v : Verb α) (w : ω) : Turn α ω :=
  match v.phase with
  | .finished => ⟨.ok .finished, v, w, [.resumeIgnored v.id]⟩
  | .notStarted => ⟨.error (.notSuspended v.id), v, w, []⟩
  | .suspended ip => v.runFrom (ip + 1) w

end Verb

end VerbScript
