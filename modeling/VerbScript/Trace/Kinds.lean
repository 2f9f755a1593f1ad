import VerbScript.Action.Registry

/-!
# Kinds that leave a trace

Three small kinds whose world is the list of what was executed: a note is done at once, a pause
blocks and counts the seconds it was executed for, and a broken action fails. A pause can be
cancelled, which it tells the log, and its seconds are its progress.
-/

namespace VerbScript.Trace

/-- What was executed, the first one first. -/
structure World where
  executed : List String := []
  deriving Repr, DecidableEq

/-- The world after one more execution. -/
def World.push (w : World) (line : String) : World := ⟨w.executed ++ [line]⟩

/-- Writes its text down. -/
structure Note where
  comment : Option String := none
  text : Option String := none
  repetitions : Option Int := none
  loud : Option Bool := none

/-- The error of an action without a property of the given name. -/
def noProperty (name : String) : ActionError := ⟨"no property '" ++ name ++ "'"⟩

instance : Action Note World where
  execute a w := ⟨.ok .done, a, w.push ("note:" ++ a.text.getD ""), []⟩
  property? a name :=
    if name = "comment" then a.comment.map .text
    else if name = "text" then a.text.map .text
    else if name = "repeat" then a.repetitions.map .int
    else if name = "loud" then a.loud.map .bool
    else none
  setProperty a name v :=
    if name = "comment" then (.ok (), { a with comment := v.text? })
    else if name = "text" then (.ok (), { a with text := v.text? })
    else if name = "repeat" then (.ok (), { a with repetitions := v.int? })
    else if name = "loud" then (.ok (), { a with loud := v.bool? })
    else (.error (noProperty name), a)

/-- Blocks, and counts the seconds that it was executed for. -/
structure Pause where
  seconds : Option Float := none
  elapsed : Float := 0.0

namespace Pause

/-- The key of the seconds that have passed. -/
def elapsedKey : String := "elapsed"

/-- The record of a pause that was cancelled. -/
def cancelled : Log.Record := ⟨.debug, .world, "pause_cancelled", []⟩

/-- Takes the seconds over that have passed. -/
def restore (a : Pause) (payload : Json) : Except ActionError Unit × Pause :=
  match (payload.member? elapsedKey).bind Json.float? with
  | some x => (.ok (), { a with elapsed := x })
  | none => (.error ⟨"missing numeric 'elapsed'"⟩, a)

end Pause

instance : Action Pause World where
  execute a w :=
    ⟨.ok .blocking, { a with elapsed := a.elapsed + a.seconds.getD 0.0 }, w.push "pause", []⟩
  property? a name := if name = "seconds" then a.seconds.map .float else none
  setProperty a name v :=
    if name = "seconds" then (.ok (), { a with seconds := v.float? })
    else (.error (noProperty name), a)
  cancel? a := some (a, [.host Pause.cancelled])
  progress? a := some ⟨.object [(Pause.elapsedKey, .ofFloat a.elapsed)], a.restore⟩

/-- Fails. -/
structure Broken where

instance : Action Broken World where
  execute a w := ⟨.error ⟨"boom"⟩, a, w.push "broken", []⟩

/-- An action that leaves a trace. -/
inductive TraceAction where
  | note (a : Note)
  | pause (a : Pause)
  | broken (a : Broken)

namespace TraceAction

instance : Action TraceAction World where
  execute
    | note a, w => (Action.execute a w).mapAction note
    | pause a, w => (Action.execute a w).mapAction pause
    | broken a, w => (Action.execute a w).mapAction broken
  property?
    | note a, name => Action.property? a name
    | pause a, name => Action.property? a name
    | broken a, name => Action.property? a name
  setProperty
    | note a, name, v => (Action.setProperty a name v).map id note
    | pause a, name, v => (Action.setProperty a name v).map id pause
    | broken a, name, v => (Action.setProperty a name v).map id broken
  cancel?
    | pause a => (Action.cancel? a).map fun r => (pause r.1, r.2)
    | _ => none
  progress?
    | pause a => (Action.progress? a).map (Progress.mapAction pause)
    | _ => none

end TraceAction

/-- The kinds that leave a trace, in the order of their registration. -/
def kinds : List (Kind TraceAction) :=
  [ { id := "note"
      properties :=
        [⟨"comment", .text⟩, ⟨"text", .text⟩, ⟨"repeat", .int⟩, ⟨"loud", .bool⟩]
      make := .note {} },
    { id := "pause"
      properties := [⟨"seconds", .float⟩]
      make := .pause {} },
    { id := "broken"
      make := .broken {} } ]

/-- The registry of the kinds that leave a trace. -/
def registry : Registry TraceAction := ⟨kinds⟩

end VerbScript.Trace
