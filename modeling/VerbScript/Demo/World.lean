import VerbScript.Save.Format

/-!
# The demo's world

A `World` has a clock in seconds, at most one timer, a state for each actor and the effects that
have been shown so far, the first one first. Everything but the effects is part of a `Snapshot`.
-/

namespace VerbScript.Demo

/-- Something that was shown. -/
inductive Effect where
  | sound (name : String) (volume : Float)
  | text (actor : Option String) (text : String)
  | state (actor state : String)

/-- An effect as a line of a transcript. -/
def Effect.line : Effect → String
  | .sound name volume => "sound " ++ name ++ " @" ++ Number.FloatStyle.plain.text volume
  | .text actor words => actor.getD "narrator" ++ ": " ++ words
  | .state actor now => actor ++ " -> " ++ now

/-- What verbs act on. -/
structure World where
  clock : Float := 0.0
  /-- When the timer fires, if it is armed. -/
  resumeAt : Option Float := none
  actorStates : Table String := default
  effects : List Effect := []

/-- What is kept of a world in a save. -/
structure Snapshot where
  clock : Float
  resumeAt : Option Float
  actorStates : Table String

namespace World

/-- How much too early the timer may fire, in seconds. -/
def timerTolerance : Float := 1e-6

/-- A record of the host with the time of the world in front of its fields. -/
def record (w : World) (level : Log.Level) (message : String)
    (fields : List (String × Log.FieldValue)) : Log.Event :=
  .host ⟨level, .world, message, ("clock", .float w.clock) :: fields⟩

/-- Arms the timer to fire after a delay; a negative delay, or one that is no number, counts as
none. -/
def scheduleResume (w : World) (delay : Float) : Traced World :=
  let time := w.clock + (if 0.0 < delay then delay else 0.0)
  ⟨{ w with resumeAt := some time }, [w.record .debug "timer_armed" [("at", .float time)]]⟩

/-- Lets time pass, and tells whether the timer fired. -/
def advance (w : World) (dt : Float) : Traced (Bool × World) :=
  let w := { w with clock := w.clock + dt }
  match w.resumeAt with
  | some time =>
    if time ≤ w.clock + timerTolerance then
      ⟨(true, { w with resumeAt := none }), [w.record .debug "timer_fired" []]⟩
    else ⟨(false, w), []⟩
  | none => ⟨(false, w), []⟩

/-- The world with one more effect. -/
def withEffect (w : World) (e : Effect) : World := { w with effects := w.effects ++ [e] }

/-- Plays a sound. -/
def playSound (w : World) (name : String) (volume : Float) : Traced World :=
  ⟨w.withEffect (.sound name volume),
    [w.record .info "sound_played" [("sound", .quoted name), ("volume", .float volume)]]⟩

/-- Shows a text, spoken by an actor or by nobody. -/
def showText (w : World) (actor : Option String) (text : String) : Traced World :=
  ⟨w.withEffect (.text actor text),
    [w.record .info "text_shown" [("actor", .quoted (actor.getD "-")), ("text", .quoted text)]]⟩

/-- Changes the state of an actor. -/
def setActorState (w : World) (actor state : String) : Traced World :=
  ⟨{ w with actorStates := w.actorStates.insert actor state }.withEffect (.state actor state),
    [w.record .info "actor_state_changed" [("actor", .quoted actor), ("state", .quoted state)]]⟩

/-- The lines of all effects so far. -/
def transcript (w : World) : List String := w.effects.map Effect.line

/-- What is kept of the world in a save. -/
def snapshot (w : World) : Snapshot := ⟨w.clock, w.resumeAt, w.actorStates⟩

/-- The world with the parts that a snapshot keeps put back. -/
def restore (w : World) (s : Snapshot) : World :=
  { w with clock := s.clock, resumeAt := s.resumeAt, actorStates := s.actorStates }

end World

namespace Snapshot

open Json (Reader)

/-- The name of the record. -/
def name : String := "struct WorldSnapshot"

/-- The keys of the record's fields, in order. -/
def clockKey : String := "clock"

/-- The key of the timer. -/
def resumeKey : String := "resume_at"

/-- The key of the actors' states. -/
def statesKey : String := "actor_states"

/-- The snapshot in a document. -/
def toJson (s : Snapshot) : Json :=
  .object [(clockKey, .ofFloat s.clock),
    (resumeKey, (s.resumeAt.map Json.ofFloat).getD .null),
    (statesKey, .object (s.actorStates.entries.map fun (actor, state) => (actor, .string state)))]

/-- The fields of a snapshot that have been read. -/
structure Partial where
  clock : Option Float := none
  resumeAt : Option (Option Float) := none
  actorStates : Option (Table String) := none

/-- Reads the states of actors. -/
def statesReader : Reader (Table String) := .map Table.ofList (.membersOf .text)

/-- Reads the value of a key; unknown keys are skipped. -/
def field (s : Partial) (key : String) : Reader Partial :=
  if key = clockKey then .map (fun v => { s with clock := v }) (.once key s.clock .float)
  else if key = resumeKey then
    .map (fun v => { s with resumeAt := v }) (.once key s.resumeAt (.optional .float))
  else if key = statesKey then
    .map (fun v => { s with actorStates := v }) (.once key s.actorStates statesReader)
  else Json.Reader.valueOf key (.map (fun _ => s) .skip)

/-- The snapshot of the fields that have been read; only the clock has to be there. -/
def Partial.finish (s : Partial) : Except Json.Mismatch Snapshot :=
  match s.clock with
  | none => .error (.missingField clockKey)
  | some clock => .ok ⟨clock, s.resumeAt.join, s.actorStates.getD default⟩

/-- The fault of an array with too few fields. -/
def tooShort (length : Nat) : Json.Mismatch :=
  .invalidLength length (name ++ " with 3 elements")

/-- Reads the fields of a snapshot written as an array, and its end. -/
def arrayFields (c : Json.Cursor) : Except Json.Failure (Json.Part Snapshot c) := do
  let clock ← Reader.nextField 0 .float (.error (tooShort 0)) c
  let resumeAt ← Reader.nextField 1 (.optional .float) (.error (tooShort 1)) clock.next
  let states ← Reader.nextField 2 statesReader (.ok default) resumeAt.next
  let close ← Reader.endArray states.next
  let fields := ((close.widen states.notLonger).widen resumeAt.notLonger).widen clock.notLonger
  return fields.map fun _ => ⟨clock.value, resumeAt.value, states.value⟩

/-- Reads a snapshot. -/
def reader : Reader Snapshot :=
  .ofObjectOrArray name (.record field {} Partial.finish) (.arrayRecord arrayFields)

instance : Host Snapshot where
  encode s := .ok s.toJson
  reader _ := reader

end Snapshot

end VerbScript.Demo
