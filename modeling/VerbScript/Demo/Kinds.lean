import VerbScript.Demo.World

/-!
# The demo's kinds of actions

Five kinds act on the demo's world: playing a sound, waiting on the world's timer, showing a text,
changing an actor's state, and failing. Only a wait blocks, can be cancelled and has progress: the
time at which it began. Every kind declares a comment first, which does nothing, except that a
failing action fails with it.
-/

namespace VerbScript.Demo

open Property (Value Declaration)

/-- The error of an action without a property of the given name. -/
def noProperty (name : String) : ActionError := ⟨"no property '" ++ name ++ "'"⟩

/-- Plays a sound. -/
structure PlaySound where
  comment : Option String := none
  sound : Option String := none
  volume : Option Float := none

namespace PlaySound

/-- How loud a sound is where nothing is said. -/
def defaultVolume : Float := 1.0

instance : Action PlaySound World where
  execute a w :=
    match a.sound with
    | none => ⟨.error ⟨"sound is not set"⟩, a, w, []⟩
    | some sound =>
      let t := w.playSound sound (a.volume.getD defaultVolume)
      ⟨.ok .done, a, t.value, t.events⟩
  property? a name :=
    if name = "comment" then a.comment.map .text
    else if name = "sound" then a.sound.map .text
    else if name = "volume" then a.volume.map .float
    else none
  setProperty a name v :=
    if name = "comment" then (.ok (), { a with comment := v.text? })
    else if name = "sound" then (.ok (), { a with sound := v.text? })
    else if name = "volume" then
      let volume := v.float?.getD defaultVolume
      if 0.0 ≤ volume ∧ volume ≤ 1.0 then (.ok (), { a with volume := some volume })
      else (.error ⟨"volume must be within 0..=1"⟩, a)
    else (.error (noProperty name), a)

end PlaySound

/-- Waits until the world's timer fires. -/
structure Wait where
  comment : Option String := none
  time : Option Float := none
  /-- When the wait began, while it lasts. -/
  startedAt : Option Float := none

namespace Wait

/-- The key of the time at which a wait began. -/
def startedKey : String := "started_at"

/-- Takes over the time at which a wait began. -/
def restore (a : Wait) (payload : Json) : Except ActionError Unit × Wait :=
  match payload.member? startedKey with
  | none | some .null => (.ok (), { a with startedAt := none })
  | some v =>
    match v.float? with
    | some x => (.ok (), { a with startedAt := some x })
    | none => (.error ⟨"started_at must be a number"⟩, a)

instance : Action Wait World where
  execute a w :=
    let time := a.time.getD 0.0
    if time ≤ 0.0 then ⟨.ok .done, a, w, []⟩
    else
      let t := w.scheduleResume time
      ⟨.ok .blocking, { a with startedAt := some w.clock }, t.value, t.events⟩
  property? a name :=
    if name = "comment" then a.comment.map .text
    else if name = "time" then a.time.map .float
    else none
  setProperty a name v :=
    if name = "comment" then (.ok (), { a with comment := v.text? })
    else if name = "time" then
      let time := v.float?.getD 0.0
      if time < 0.0 then (.error ⟨"time must be >= 0"⟩, a)
      else (.ok (), { a with time := some time })
    else (.error (noProperty name), a)
  cancel? a := some ({ a with startedAt := none }, [])
  progress? a :=
    some ⟨.object [(startedKey, (a.startedAt.map Json.ofFloat).getD .null)], a.restore⟩

end Wait

/-- Shows a text. -/
structure ShowText where
  comment : Option String := none
  text : Option String := none
  actor : Option String := none
  style : Option String := none

namespace ShowText

/-- The ways in which a text may be shown. -/
def styles : List String := ["plain", "bubble", "subtitle"]

instance : Action ShowText World where
  execute a w :=
    let t := w.showText a.actor (a.text.getD "")
    ⟨.ok .done, a, t.value, t.events⟩
  property? a name :=
    if name = "comment" then a.comment.map .text
    else if name = "text" then a.text.map .text
    else if name = "actor" then a.actor.map .text
    else if name = "style" then a.style.map .text
    else none
  setProperty a name v :=
    if name = "comment" then (.ok (), { a with comment := v.text? })
    else if name = "text" then (.ok (), { a with text := v.text? })
    else if name = "actor" then (.ok (), { a with actor := v.text? })
    else if name = "style" then (.ok (), { a with style := v.text? })
    else (.error (noProperty name), a)

end ShowText

/-- Changes the state of an actor. -/
structure SetState where
  comment : Option String := none
  actor : Option String := none
  state : Option String := none

namespace SetState

instance : Action SetState World where
  execute a w :=
    match a.actor, a.state with
    | some actor, some state =>
      let t := w.setActorState actor state
      ⟨.ok .done, a, t.value, t.events⟩
    | _, _ => ⟨.error ⟨"set_state needs both actor and state"⟩, a, w, []⟩
  property? a name :=
    if name = "comment" then a.comment.map .text
    else if name = "actor" then a.actor.map .text
    else if name = "state" then a.state.map .text
    else none
  setProperty a name v :=
    if name = "comment" then (.ok (), { a with comment := v.text? })
    else if name = "actor" then (.ok (), { a with actor := v.text? })
    else if name = "state" then (.ok (), { a with state := v.text? })
    else (.error (noProperty name), a)

end SetState

/-- Fails. -/
structure Fail where
  comment : Option String := none

namespace Fail

instance : Action Fail World where
  execute a w := ⟨.error ⟨a.comment.getD "fail step executed"⟩, a, w, []⟩
  property? a name := if name = "comment" then a.comment.map .text else none
  setProperty a name v :=
    if name = "comment" then (.ok (), { a with comment := v.text? })
    else (.error (noProperty name), a)

end Fail

/-- An action of the demo. -/
inductive DemoAction where
  | sound (a : PlaySound)
  | wait (a : Wait)
  | text (a : ShowText)
  | setState (a : SetState)
  | fail (a : Fail)

namespace DemoAction

instance : Action DemoAction World where
  execute
    | sound a, w => (Action.execute a w).mapAction sound
    | wait a, w => (Action.execute a w).mapAction wait
    | text a, w => (Action.execute a w).mapAction text
    | setState a, w => (Action.execute a w).mapAction setState
    | fail a, w => (Action.execute a w).mapAction fail
  property?
    | sound a, name => Action.property? a name
    | wait a, name => Action.property? a name
    | text a, name => Action.property? a name
    | setState a, name => Action.property? a name
    | fail a, name => Action.property? a name
  setProperty
    | sound a, name, v => (Action.setProperty a name v).map id sound
    | wait a, name, v => (Action.setProperty a name v).map id wait
    | text a, name, v => (Action.setProperty a name v).map id text
    | setState a, name, v => (Action.setProperty a name v).map id setState
    | fail a, name, v => (Action.setProperty a name v).map id fail
  cancel?
    | wait a => (Action.cancel? a).map fun r => (wait r.1, r.2)
    | _ => none
  progress?
    | wait a => (Action.progress? a).map (Progress.mapAction wait)
    | _ => none

end DemoAction

/-- The properties that every kind of the demo declares first. -/
def commonProperties : List Declaration := [⟨"comment", .text⟩]

/-- The kinds of the demo, in the order of their registration. -/
def kinds : List (Kind DemoAction) :=
  [ { id := "sound"
      properties := commonProperties ++ [⟨"sound", .text⟩, ⟨"volume", .float⟩]
      make := .sound {} },
    { id := "wait"
      properties := commonProperties ++ [⟨"time", .float⟩]
      make := .wait {} },
    { id := "text"
      properties := commonProperties ++
        [⟨"text", .text⟩, ⟨"actor", .text⟩, ⟨"style", .choice ShowText.styles⟩]
      make := .text {} },
    { id := "set_state"
      properties := commonProperties ++ [⟨"actor", .text⟩, ⟨"state", .text⟩]
      make := .setState {} },
    { id := "fail"
      properties := commonProperties
      make := .fail {} } ]

/-- The registry of the demo. -/
def registry : Registry DemoAction := ⟨kinds⟩

end VerbScript.Demo
