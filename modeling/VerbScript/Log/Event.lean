import VerbScript.Number.Integer
import VerbScript.Number.FloatStyle
import VerbScript.Text.Quoted

/-!
# Log events

What happens while verbs are read, run, saved and restored, as values (`Event`): an operation
hands back the events it caused, in order, beside its result. `Event.record` is the record an
event leaves in the log, with a level, a source, a message and fields.
-/

namespace VerbScript.Log

/-- How much a record matters, the most important first. -/
inductive Level where
  | error
  | warn
  | info
  | debug
  | trace
  deriving Repr, DecidableEq

namespace Level

/-- The place of a level in the order of importance, from one. -/
def rank : Level → Nat
  | error => 1
  | warn => 2
  | info => 3
  | debug => 4
  | trace => 5

/-- The name of a level in a log line. -/
def name : Level → String
  | error => "ERROR"
  | warn => "WARN"
  | info => "INFO"
  | debug => "DEBUG"
  | trace => "TRACE"

end Level

/-- The value of a field of a record. -/
inductive FieldValue where
  /-- A text that is shown as it is. -/
  | plain (s : String)
  /-- A text that is shown between quotes. -/
  | quoted (s : String)
  | int (n : Int)
  | float (x : Float)

/-- A field's value as a log line shows it. -/
def FieldValue.text : FieldValue → String
  | plain s => s
  | quoted s => Text.quoted s
  | int n => Number.integerText n
  | float x => Number.FloatStyle.record.text x

/-- The part of the program that a record comes from. -/
inductive Source where
  /-- Running a verb. -/
  | verb
  /-- Reading a document of one verb. -/
  | document
  | catalog
  | save
  | command
  /-- Finding out what the demo is to run. -/
  | startup
  | session
  | world
  deriving Repr, DecidableEq

/-- The name by which a filter selects a source: the names of what it is part of come first. -/
def Source.name : Source → String
  | verb => "verb_engine::verb"
  | document => "verb_engine::verb::codec"
  | catalog => "verb_engine::verb::catalog"
  | save => "verb_engine::save"
  | command => "verb_demo"
  | startup => "verb_demo::app::bootstrap"
  | session => "verb_demo::app::loop_runner"
  | world => "verb_demo::app::world"

/-- An entry of the log. -/
structure Record where
  level : Level
  source : Source
  message : String
  fields : List (String × FieldValue) := []

/-- The name of the field that holds the message. -/
def Record.messageName : String := "message"

/-- Whether a record has a field; its message is one. -/
def Record.has (r : Record) (field : String) : Bool :=
  field == messageName || r.fields.any fun f => f.1 == field

/-- A record as a log line shows it: the level, the message and the fields in order. -/
def Record.line (r : Record) : String :=
  r.level.name ++ " " ++ r.message ++
    String.join (r.fields.map fun f => " " ++ f.1 ++ "=" ++ f.2.text)

/-- What happens to verbs, catalogs and saves; a host adds records of its own. -/
inductive Event where
  | verbStarted (verb : String) (steps : Nat)
  | stepStarted (verb : String) (ip : Nat) (kind : String)
  | stepFailed (verb : String) (ip : Nat) (kind error : String)
  | verbSuspended (verb : String) (ip : Nat)
  | verbFinished (verb : String)
  | verbCancelled (verb : String) (ip : Int) (cancelled : Nat)
  | resumeIgnored (verb : String)
  | entrySkipped (verb : String) (index : Nat)
  | definitionRead (verb : String) (steps : Nat)
  | runtimeRead (verb : String) (ip : Int) (applied : Nat)
  | definitionRejected (verb error : String)
  | catalogLoaded (loaded failed : Nat)
  | runtimeSaved (path : String) (verbs : Nat)
  | runtimeLoaded (path : String) (verbs : Nat)
  | host (record : Record)

/-- The record that an event leaves in the log. -/
def Event.record : Event → Record
  | verbStarted verb steps =>
    ⟨.debug, .verb, "verb_started", [("verb", .plain verb), ("steps", .int steps)]⟩
  | stepStarted verb ip kind =>
    ⟨.debug, .verb, "verb_step",
      [("verb", .plain verb), ("ip", .int ip), ("kind", .quoted kind)]⟩
  | stepFailed verb ip kind error =>
    ⟨.error, .verb, "action_failed",
      [("verb", .plain verb), ("ip", .int ip), ("kind", .quoted kind), ("error", .plain error)]⟩
  | verbSuspended verb ip =>
    ⟨.debug, .verb, "verb_suspended", [("verb", .plain verb), ("ip", .int ip)]⟩
  | verbFinished verb => ⟨.debug, .verb, "verb_finished", [("verb", .plain verb)]⟩
  | verbCancelled verb ip cancelled =>
    ⟨.debug, .verb, "verb_cancelled",
      [("verb", .plain verb), ("ip", .int ip), ("cancelled", .int cancelled)]⟩
  | resumeIgnored verb =>
    ⟨.debug, .verb, "verb_resume_ignored_finished", [("verb", .plain verb)]⟩
  | entrySkipped verb index =>
    ⟨.debug, .document, "definition_entry_without_kind_skipped",
      [("verb", .plain verb), ("index", .int index)]⟩
  | definitionRead verb steps =>
    ⟨.debug, .document, "verb_definition_read", [("verb", .plain verb), ("steps", .int steps)]⟩
  | runtimeRead verb ip applied =>
    ⟨.debug, .document, "verb_runtime_read",
      [("verb", .plain verb), ("ip", .int ip), ("applied", .int applied)]⟩
  | definitionRejected verb error =>
    ⟨.warn, .catalog, "verb_definition_rejected",
      [("verb", .plain verb), ("error", .plain error)]⟩
  | catalogLoaded loaded failed =>
    ⟨.debug, .catalog, "verb_catalog_loaded",
      [("loaded", .int loaded), ("failed", .int failed)]⟩
  | runtimeSaved path verbs =>
    ⟨.info, .save, "runtime_saved", [("path", .plain path), ("verbs", .int verbs)]⟩
  | runtimeLoaded path verbs =>
    ⟨.info, .save, "runtime_loaded", [("path", .plain path), ("verbs", .int verbs)]⟩
  | host record => record

end VerbScript.Log
