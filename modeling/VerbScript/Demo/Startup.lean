import VerbScript.Demo.Session
import VerbScript.Verb.Standard

/-!
# Starting the demo

The demo finds its root directory, which holds a `Cargo.toml` and a directory `assets`: it is
named by the environment, or else the nearest one above the executable. What else the environment
says is read leniently: a value that makes no sense is reported and ignored (`readPolicy`,
`readSavePlan`). `runDemo` reads the verbs, runs the verb that sets the place up, if there is one,
and then the chosen verb.
-/

namespace VerbScript.Demo

open Log (Event)

/-- What the environment says. -/
structure Environment where
  root? : Option String := none
  verb? : Option String := none
  policy? : Option String := none
  saveAtTick? : Option String := none
  /-- The path of the executable. -/
  executable : String

/-- The name of the variable that names the root directory. -/
def rootVariable : String := "VERBSCRIPT_ROOT"

/-- The name of the variable that chooses the verb. -/
def verbVariable : String := "VERBSCRIPT_VERB"

/-- The name of the variable that chooses the failure policy. -/
def policyVariable : String := "VERBSCRIPT_FAILURE_POLICY"

/-- The name of the variable that chooses the tick at which to save. -/
def saveVariable : String := "VERBSCRIPT_SAVE_AT_TICK"

/-! ## Directories -/

/-- The directories of the demo. -/
structure Layout where
  root : String
  scripts : String
  cache : String
  deriving Repr, DecidableEq

namespace Layout

/-- The directories below a root. -/
def under (root : String) : Layout :=
  ⟨root, Path.join (Path.join root "assets") "scripts", Path.join root "cache"⟩

/-- Where saves go. -/
def saves (l : Layout) : String := Path.join l.cache "saves"

end Layout

/-- Why the demo does not start. -/
inductive StartupError where
  | invalidRoot (path : String)
  | rootNotFound (start : String)
  | createDirectory (path : String) (fault : StorageFault)
  deriving Repr, DecidableEq

/-- The text of an error. -/
def StartupError.message : StartupError → String
  | invalidRoot path =>
    rootVariable ++ "=" ++ path ++ " is not a verbscript root (needs Cargo.toml and assets/)"
  | rootNotFound start => "no verbscript root above " ++ start ++ "; set " ++ rootVariable
  | createDirectory path fault => "cannot create " ++ path ++ ": " ++ fault.message

/-- Whether a directory is a root. -/
def isRoot (path : String) : Program Bool := do
  if ← Program.request (.isFile (Path.join path "Cargo.toml")) then
    Program.request (.isDirectory (Path.join path "assets"))
  else return false

/-- The root that the environment names. -/
def namedRoot (raw : String) : Program (Except StartupError String) := do
  let root := match ← Program.request (.resolve raw) with
    | .ok root => root
    | .error _ => raw
  if ← isRoot root then return .ok root else return .error (.invalidRoot root)

/-- The first root among some paths. -/
def firstRoot? : List String → Program (Option String)
  | [] => return none
  | path :: rest => do
    if ← isRoot path then return some path else firstRoot? rest

/-- The nearest root above a path. -/
def rootAbove (start : String) : Program (Except StartupError String) := do
  match ← firstRoot? (Path.ancestors start).tail with
  | some root => return .ok root
  | none => return .error (.rootNotFound start)

/-- The directories of the demo; the one for what is cached is created. -/
def findLayout (root? : Option String) (executable : String) :
    Program (Except StartupError Layout) := do
  match ← (match root? with
    | some raw => namedRoot raw
    | none => rootAbove executable) with
  | .error e => return .error e
  | .ok root =>
    let layout := Layout.under root
    match ← Program.request (.createDirectories layout.cache) with
    | .error fault => return .error (.createDirectory layout.cache fault)
    | .ok () => return .ok layout

/-! ## Choices -/

/-- The record of a value of the environment that was ignored. -/
def ignored (name : String) (field : String) (value : String) : Event :=
  .host ⟨.warn, .startup, "env_value_ignored", [("var", .quoted name), (field, .plain value)]⟩

/-- The verb that is chosen. -/
def readVerb : Option String → String
  | none => StandardVerb.use
  | some raw =>
    let id := Text.trim raw
    if id.isEmpty then StandardVerb.use else id

/-- The failure policy that is chosen. -/
def readPolicy : Option String → Traced FailurePolicy
  | none => ⟨default, []⟩
  | some raw =>
    match FailurePolicy.parse raw with
    | .ok policy => ⟨policy, []⟩
    | .error e => ⟨default, [ignored policyVariable "error" e.message]⟩

/-- The name of the demo's save. -/
def saveName : String := "demo_runtime.json"

/-- The save plan that is chosen: a tick from one on, as an unsigned integer. -/
def readSavePlan (raw? : Option String) (saves : String) : Traced (Option SavePlan) :=
  match raw? with
  | none => ⟨none, []⟩
  | some raw =>
    match (Number.word64? (Text.trimBlank raw.toList)).filter fun n => decide (0 < n) with
    | some atTick => ⟨some ⟨atTick, Path.join saves saveName⟩, []⟩
    | none => ⟨none, [ignored saveVariable "value" raw]⟩

/-- What the demo is to run. -/
structure Choices where
  verb : String
  policy : FailurePolicy
  save : Option SavePlan

/-- The choices that the environment makes. -/
def Choices.read (e : Environment) (saves : String) : Traced Choices :=
  let policy := readPolicy e.policy?
  let save := readSavePlan e.saveAtTick? saves
  ⟨⟨readVerb e.verb?, policy.value, save.value⟩, policy.events ++ save.events⟩

/-! ## Running -/

/-- Reads definitions from a file. -/
def readDefinitions (path : String) : Program (Except Session.Error Json) := do
  match ← Program.request (.read path) with
  | .error fault => return .error (.readDefinitions path fault)
  | .ok text =>
    match Json.parse text with
    | .error failure => return .error (.parseDefinitions path failure)
    | .ok v => return .ok v

/-- Runs the verb that sets the place up, unless it is the chosen one or there is none. -/
def runInit (s : Session DemoAction) (chosen : String) :
    Program (Except Session.Error Unit × Session DemoAction) := do
  if chosen ≠ StandardVerb.init ∧ s.catalog.contains StandardVerb.init then
    let (result, s) ← s.runVerb StandardVerb.init none
    return (result.map fun _ => (), s)
  else return (.ok (), s)

/-- Loads the verbs of a file and runs what is chosen. -/
def runDemo (definitions : String) (c : Choices) : Program (Except Session.Error RunSummary) := do
  match ← readDefinitions definitions with
  | .error e => return .error e
  | .ok definitions =>
    let loaded := Session.load registry definitions c.policy
    Program.log loaded.events
    match loaded.value with
    | .error e => return .error e
    | .ok s =>
      match ← runInit s c.verb with
      | (.error e, _) => return .error e
      | (.ok (), s) =>
        let (result, _) ← s.runVerb c.verb c.save
        return result

/-- The name of the file that holds the definitions. -/
def definitionsName : String := "verbs.json"

/-- The record of what is going to run. -/
def configured (root : String) (c : Choices) : Log.Record :=
  let save := match c.save with
    | none => "None"
    | some plan => "Some(" ++ toString plan.atTick ++ ")"
  ⟨.info, .startup, "demo_configured",
    [("root", .plain root), ("verb", .plain c.verb), ("policy", .plain c.policy.text),
      ("save_at_tick", .plain save)]⟩

/-- Reports what a run came to, and tells whether it came to its end. -/
def report : Except Session.Error RunSummary → Program Bool
  | .ok summary => do
    Program.log (summary.transcript.map fun line =>
      .host ⟨.debug, .session, "transcript", [("line", .plain line)]⟩)
    Program.note ⟨.info, .session, "demo_finished",
      [("verb", .plain summary.verb), ("ticks", .int summary.ticks),
        ("clock", .float summary.clock)]⟩
    return true
  | .error e => do
    Program.note ⟨.error, .session, "demo_failed", [("error", .plain e.message)]⟩
    return false

/-- The whole demo; its value tells whether it came to its end. -/
def program (e : Environment) : Program Bool := do
  Program.note ⟨.info, .startup, "=== Verb Demo Startup ===", []⟩
  match ← findLayout e.root? e.executable with
  | .error error =>
    Program.note ⟨.error, .command, "startup_failed", [("error", .plain error.message)]⟩
    return false
  | .ok layout =>
    let choices := Choices.read e layout.saves
    Program.log choices.events
    Program.note (configured layout.root choices.value)
    report (← runDemo (Path.join layout.scripts definitionsName) choices.value)

end VerbScript.Demo
