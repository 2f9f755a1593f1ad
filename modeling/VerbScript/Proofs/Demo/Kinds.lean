import VerbScript.Demo.Kinds
import VerbScript.Proofs.Action.Configured

/-!
# The demo's kinds are lawful

The kinds of the demo behave as a registry relies on (`registry_lawful`). Only a sound's volume and
the time of a wait are ever refused by the actions themselves; executing, cancelling and restoring
touch nothing but the time at which a wait began.
-/

namespace VerbScript.Demo

open Property (Value)

deriving instance DecidableEq for PlaySound, Wait, ShowText, SetState, Fail, DemoAction

/-- The id of the kind that an action belongs to. -/
def DemoAction.tag : DemoAction → String
  | .sound _ => "sound"
  | .wait _ => "wait"
  | .text _ => "text"
  | .setState _ => "set_state"
  | .fail _ => "fail"

/-! ## Setting properties -/

theorem PlaySound.takes (a : PlaySound) :
    ∀ d ∈ commonProperties ++ [⟨"sound", .text⟩, ⟨"volume", .float⟩], Registry.Takes a d := by
  simp only [commonProperties, List.cons_append, List.nil_append, List.forall_mem_cons]
  refine ⟨?comment, ?sound, ?volume, List.forall_mem_nil _⟩
  case comment | sound =>
    intro v hv
    cases hv
    rfl
  case volume =>
    intro v hv
    cases hv with
    | @float x hx =>
      by_cases hrange : 0.0 ≤ x ∧ x ≤ 1.0
      all_goals
        simp [Action.setProperty, Action.property?, Value.float?, hrange, Except.isOk,
          Except.toBool]

theorem Wait.takes (a : Wait) :
    ∀ d ∈ commonProperties ++ [⟨"time", .float⟩], Registry.Takes a d := by
  simp only [commonProperties, List.cons_append, List.nil_append, List.forall_mem_cons]
  refine ⟨?comment, ?time, List.forall_mem_nil _⟩
  case comment =>
    intro v hv
    cases hv
    rfl
  case time =>
    intro v hv
    cases hv with
    | @float x hx =>
      by_cases hrange : x < 0.0
      all_goals
        simp [Action.setProperty, Action.property?, Value.float?, hrange, Except.isOk,
          Except.toBool]

theorem ShowText.takes (a : ShowText) :
    ∀ d ∈ commonProperties ++ [⟨"text", .text⟩, ⟨"actor", .text⟩, ⟨"style", .choice styles⟩],
      Registry.Takes a d := by
  simp only [commonProperties, List.cons_append, List.nil_append, List.forall_mem_cons]
  refine ⟨?comment, ?text, ?actor, ?style, List.forall_mem_nil _⟩
  all_goals
    intro v hv
    cases hv
    rfl

theorem SetState.takes (a : SetState) :
    ∀ d ∈ commonProperties ++ [⟨"actor", .text⟩, ⟨"state", .text⟩], Registry.Takes a d := by
  simp only [commonProperties, List.cons_append, List.nil_append, List.forall_mem_cons]
  refine ⟨?comment, ?actor, ?state, List.forall_mem_nil _⟩
  all_goals
    intro v hv
    cases hv
    rfl

theorem Fail.takes (a : Fail) : ∀ d ∈ commonProperties, Registry.Takes a d := by
  simp only [commonProperties, List.forall_mem_cons]
  refine ⟨?comment, List.forall_mem_nil _⟩
  intro v hv
  cases hv
  rfl

namespace DemoAction

/-- A kind of the demo is one of five, and an action with its id is of its type. -/
theorem takes {k : Kind DemoAction} (hk : k ∈ kinds) {a : DemoAction} (ha : tag a = k.id) :
    ∀ d ∈ k.properties, Registry.Takes a d := by
  simp only [kinds, List.mem_cons, List.not_mem_nil, or_false] at hk
  rcases hk with rfl | rfl | rfl | rfl | rfl
  all_goals
    cases a
    all_goals try (simp [tag] at ha; done)
  · exact PlaySound.takes _
  · exact Wait.takes _
  · exact ShowText.takes _
  · exact SetState.takes _
  · exact Fail.takes _

theorem property?_setProperty_of_ne (a : DemoAction) (name : String) (v : Value) (other : String)
    (h : other ≠ name) :
    Action.property? (Action.setProperty a name v).2 other = Action.property? a other := by
  cases a
  all_goals
    simp only [Action.setProperty, Action.property?, Prod.map]
    split_ifs
    all_goals simp_all

theorem setProperty_congr (a b : DemoAction) (name : String) (v : Value) (h : tag b = tag a) :
    (Action.setProperty b name v).1 = (Action.setProperty a name v).1 := by
  cases a
  all_goals
    cases b
    all_goals try (simp [tag] at h; done)
  all_goals
    simp only [Action.setProperty, Prod.map]
    split_ifs
    all_goals rfl

end DemoAction

/-! ## Executing, cancelling, restoring -/

/-- A wait that takes a time over keeps its properties. -/
theorem Wait.restore_snd (a : Wait) (payload : Json) :
    ∃ startedAt, (a.restore payload).2 = { a with startedAt } := by
  simp only [restore]
  split
  · exact ⟨_, rfl⟩
  · exact ⟨_, rfl⟩
  · split
    · exact ⟨_, rfl⟩
    · exact ⟨_, rfl⟩

theorem Wait.execute_action (a : Wait) (w : World) :
    ∃ startedAt, (Action.execute a w).action = { a with startedAt } := by
  simp only [Action.execute]
  split
  · exact ⟨_, rfl⟩
  · exact ⟨_, rfl⟩

/-- A wait can be made to have begun at any time. -/
theorem Wait.moved_startedAt (kind : String) (a : Wait) (x : Float) :
    Step.Moved (⟨kind, .wait a⟩ : Step DemoAction)
      ⟨kind, .wait { a with startedAt := some x }⟩ := by
  let s : Step DemoAction := ⟨kind, .wait a⟩
  let p : Progress DemoAction := Progress.mapAction .wait
    ⟨.object [(startedKey, (a.startedAt.map Json.ofFloat).getD .null)], a.restore⟩
  have hp : Action.progress? s.action = some p := rfl
  exact Step.Moved.restore .refl hp (.object [(startedKey, .number (.float x))])

namespace DemoAction

/-- Only a wait is changed by its execution, and only in the time at which it began. -/
theorem execute_action (a : DemoAction) (w : World) :
    (Action.execute a w).action = a ∨
      ∃ b startedAt, a = wait b ∧ (Action.execute a w).action = wait { b with startedAt } := by
  cases a with
  | sound a =>
    refine .inl ?_
    simp only [Action.execute, Execution.mapAction]
    split
    · rfl
    · rfl
  | wait a =>
    obtain ⟨startedAt, h⟩ := a.execute_action w
    exact .inr ⟨a, startedAt, rfl, congrArg wait h⟩
  | text a => exact .inl rfl
  | setState a =>
    refine .inl ?_
    simp only [Action.execute, Execution.mapAction]
    split
    · rfl
    · rfl
  | fail a => exact .inl rfl

/-- The time at which a wait began is no property. -/
theorem alike_wait (a : Wait) (startedAt : Option Float) :
    Registry.Alike tag (wait a) (wait { a with startedAt }) :=
  ⟨rfl, fun _ => rfl⟩

theorem alike_execute (a : DemoAction) (w : World) :
    Registry.Alike tag a (Action.execute a w).action := by
  rcases execute_action a w with h | ⟨b, startedAt, rfl, h⟩
  · rw [h]
    exact ⟨rfl, fun _ => rfl⟩
  · rw [h]
    exact alike_wait b startedAt

theorem alike_cancel (a b : DemoAction) (events : List Log.Event)
    (h : Action.cancel? a = some (b, events)) : Registry.Alike tag a b := by
  cases a with
  | wait a =>
    cases h
    exact alike_wait a none
  | _ => cases h

theorem alike_restore (a : DemoAction) (p : Progress DemoAction) (payload : Json)
    (h : Action.progress? a = some p) : Registry.Alike tag a (p.restore payload).2 := by
  cases a with
  | wait a =>
    cases h
    obtain ⟨startedAt, hrestore⟩ := a.restore_snd payload
    show Registry.Alike tag (wait a) (wait (a.restore payload).2)
    rw [hrestore]
    exact alike_wait a startedAt
  | _ => cases h

end DemoAction

/-- Only a volume and a time are doubles. -/
theorem DemoAction.name_of_float {a : DemoAction} {name : String} {x : Float}
    (h : Action.property? a name = some (.float x)) : name = "volume" ∨ name = "time" := by
  cases a
  all_goals
    simp only [Action.property?] at h
    split_ifs at h
    all_goals simp_all

/-- The demo's registry is lawful. -/
theorem registry_lawful : registry.Lawful DemoAction.tag where
  nodup_names := by simp [registry, kinds, commonProperties]
  not_reserved := by simp [registry, kinds, commonProperties, kindKey]
  tag_make := by simp [registry, kinds, DemoAction.tag]
  property?_make := by simp [registry, kinds, Action.property?]
  tag_setProperty a name v := by
    cases a
    all_goals rfl
  property?_setProperty_of_ne := DemoAction.property?_setProperty_of_ne
  takes k hk d hd a ha := DemoAction.takes hk ha d hd
  setProperty_congr := DemoAction.setProperty_congr
  execute := DemoAction.alike_execute
  cancel := DemoAction.alike_cancel
  restore := DemoAction.alike_restore

end VerbScript.Demo
