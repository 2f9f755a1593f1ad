import VerbScript.Demo.Kinds
import VerbScript.Save.File

/-!
# Sessions

A `Session` holds a registry, the definitions a catalog was loaded from, the catalog and the world
its verbs act on. `Session.runVerb` runs a verb and, while it is suspended, lets time pass in
ticks of equal length, resuming the verb whenever the timer fires; it gives up on a verb that
nothing will resume and after a fixed count of ticks. A save plan names one tick before which the
runtime state is written to a file and read back into a catalog loaded anew
(`Session.saveAndReload`); if anything about that fails, the session is left as it was.
-/

namespace VerbScript.Demo

open Log (Event)

/-- A tick at which to save, and where. -/
structure SavePlan where
  atTick : Nat
  path : String
  deriving Repr, DecidableEq

/-- What a run of a verb came to. -/
structure RunSummary where
  verb : String
  ticks : Nat
  clock : Float
  transcript : List String

/-- Why a run of a verb does not come to its end. -/
inductive Session.Error where
  | readDefinitions (path : String) (fault : StorageFault)
  | parseDefinitions (path : String) (failure : Json.Failure)
  | catalog (cause : Catalog.Error)
  | save (cause : Save.Error)
  | verb (cause : Verb.Error)
  | unknownVerb (id : String)
  | stalled (verb : String) (ip : Nat)
  | tooManyTicks (verb : String) (ticks : Nat)

/-- The text of an error. -/
def Session.Error.message : Session.Error → String
  | readDefinitions path fault => "failed to read verb catalog " ++ path ++ ": " ++ fault.message
  | parseDefinitions path failure =>
    "failed to parse verb catalog " ++ path ++ ": " ++ failure.message
  | catalog cause => cause.message
  | save cause => cause.message
  | verb cause => cause.message
  | unknownVerb id => "verb '" ++ id ++ "' is not in the catalog"
  | stalled id ip =>
    "verb '" ++ id ++ "' is suspended at step " ++ toString ip ++
      " with nothing scheduled to resume it"
  | tooManyTicks id ticks =>
    "verb '" ++ id ++ "' did not finish within " ++ toString ticks ++ " ticks"

/-- Verbs loaded from definitions, and the world they act on. -/
structure Session (α : Type) where
  registry : Registry α
  definitions : Json
  policy : FailurePolicy
  catalog : Catalog α
  world : World := {}

namespace Session

variable {α : Type} [Action α World]

/-- The length of a tick in seconds. -/
def tickLength : Float := 0.1

/-- The count of ticks after which a run is given up. -/
def maxTicks : Nat := 600

/-- The record of an entry that was not loaded. -/
def skipped (f : LoadFailure) : Event :=
  .host ⟨.warn, .session, "verb_skipped",
    [("index", .int f.index), ("verb", .quoted (f.id?.getD "<unnamed>")),
      ("error", .plain f.error.message)]⟩

/-- Loads a catalog from definitions. -/
def loadCatalog (r : Registry α) (definitions : Json) (policy : FailurePolicy) :
    Traced (Except Catalog.Error (Catalog α)) :=
  let loaded := Catalog.loadDefinitions { policy } r definitions
  match loaded.value with
  | (.error e, _) => ⟨.error e, loaded.events⟩
  | (.ok report, catalog) =>
    ⟨.ok catalog, loaded.events ++ report.failed.map skipped ++
      [.host ⟨.info, .session, "verb_catalog_ready",
        [("loaded", .int report.loaded.length), ("failed", .int report.failed.length)]⟩]⟩

/-- A session with a new world. -/
def load (registry : Registry α) (definitions : Json) (policy : FailurePolicy) :
    Traced (Except Error (Session α)) :=
  (loadCatalog registry definitions policy).map fun
    | .error e => .error (.catalog e)
    | .ok catalog => .ok { registry, definitions, policy, catalog }

/-- What the effects so far amount to. -/
def summary (s : Session α) (verb : String) (ticks : Nat) : RunSummary :=
  ⟨verb, ticks, s.world.clock, s.world.transcript⟩

/-- Writes the runtime state to a file and takes it over into a catalog loaded anew. -/
def saveAndReload (s : Session α) (path : String) : Program (Except Error Unit × Session α) := do
  match ← Save.write path s.catalog s.world.snapshot with
  | .error e => return (.error (.save e), s)
  | .ok () =>
    let fresh := loadCatalog s.registry s.definitions s.policy
    Program.log fresh.events
    match fresh.value with
    | .error e => return (.error (.catalog e), s)
    | .ok catalog =>
      match ← Save.load path catalog with
      | (.error e, _) => return (.error (.save e), s)
      | (.ok (snapshot : Snapshot), catalog) =>
        let s := { s with catalog, world := s.world.restore snapshot }
        Program.note ⟨.info, .session, "demo_reloaded",
          [("path", .plain path), ("clock", .float s.world.clock)]⟩
        return (.ok (), s)

/-- Calls `f` on a verb of the catalog and its world. -/
def callVerb (s : Session α) (id : String) (f : Verb α → World → Turn α World) :
    Program (Except Error Phase × Session α) := do
  match s.catalog.get? id with
  | none => return (.error (.unknownVerb id), s)
  | some v =>
    let turn := f v s.world
    Program.log turn.events
    return (turn.outcome.mapError .verb,
      { s with catalog := s.catalog.set id turn.verb, world := turn.world })

/-- Saves and reloads if the plan names this tick. -/
def saveIfDue (s : Session α) (plan : Option SavePlan) (tick : Nat) :
    Program (Except Error Unit × Session α) :=
  match plan with
  | none => return (.ok (), s)
  | some plan =>
    if plan.atTick = tick then s.saveAndReload plan.path else return (.ok (), s)

/-- Lets a tick pass and resumes the verb, which is in the given phase, if the timer fires. -/
def tick (s : Session α) (id : String) (phase : Phase) :
    Program (Except Error Phase × Session α) := do
  let t := s.world.advance tickLength
  Program.log t.events
  let s := { s with world := t.value.2 }
  if t.value.1 then s.callVerb id Verb.resume else return (.ok phase, s)

/-- Lets ticks pass until the verb has finished: `left` more at most, `ticks` of them having
passed. -/
def loop (id : String) (plan : Option SavePlan) (left ticks : Nat) (phase : Phase)
    (s : Session α) : Program (Except Error RunSummary × Session α) :=
  match phase with
  | .suspended ip =>
    if s.world.resumeAt.isNone then return (.error (.stalled id ip), s)
    else
      match left with
      | 0 => return (.error (.tooManyTicks id ticks), s)
      | left + 1 => do
        match ← s.saveIfDue plan (ticks + 1) with
        | (.error e, s) => return (.error e, s)
        | (.ok (), s) =>
          match ← s.tick id phase with
          | (.error e, s) => return (.error e, s)
          | (.ok phase, s) => loop id plan left (ticks + 1) phase s
  | _ => return (.ok (s.summary id ticks), s)

/-- Runs a verb until it has finished. -/
def runVerb (s : Session α) (id : String) (plan : Option SavePlan) :
    Program (Except Error RunSummary × Session α) := do
  match ← s.callVerb id Verb.run with
  | (.error e, s) => return (.error e, s)
  | (.ok phase, s) => loop id plan maxTicks 0 phase s

end Session

end VerbScript.Demo
