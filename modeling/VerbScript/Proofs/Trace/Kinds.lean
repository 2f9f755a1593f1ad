import VerbScript.Proofs.Action.Configured
import VerbScript.Trace.Kinds

/-!
# The kinds that leave a trace are lawful

The kinds that leave a trace behave as a registry relies on (`registry_lawful`). What executing and
restoring change is only the seconds that a pause counts.
-/

namespace VerbScript.Trace

open Property (Value)

deriving instance DecidableEq for Note, Pause, Broken, TraceAction

/-- The id of the kind that an action belongs to. -/
def TraceAction.tag : TraceAction → String
  | .note _ => "note"
  | .pause _ => "pause"
  | .broken _ => "broken"

theorem Note.takes (a : Note) :
    ∀ d ∈ ([⟨"comment", .text⟩, ⟨"text", .text⟩, ⟨"repeat", .int⟩, ⟨"loud", .bool⟩] :
      List Property.Declaration), Registry.Takes a d := by
  simp only [List.forall_mem_cons]
  refine ⟨?comment, ?text, ?repetitions, ?loud, List.forall_mem_nil _⟩
  all_goals
    intro v hv
    cases hv
    rfl

theorem Pause.takes (a : Pause) :
    ∀ d ∈ ([⟨"seconds", .float⟩] : List Property.Declaration), Registry.Takes a d := by
  simp only [List.forall_mem_cons]
  refine ⟨?seconds, List.forall_mem_nil _⟩
  intro v hv
  cases hv
  rfl

theorem Pause.restore_snd (a : Pause) (payload : Json) :
    ∃ elapsed, (a.restore payload).2 = { a with elapsed } := by
  simp only [restore]
  split
  · exact ⟨_, rfl⟩
  · exact ⟨_, rfl⟩

namespace TraceAction

/-- A kind is one of three, and an action with its id is of its type. -/
theorem takes {k : Kind TraceAction} (hk : k ∈ kinds) {a : TraceAction} (ha : tag a = k.id) :
    ∀ d ∈ k.properties, Registry.Takes a d := by
  simp only [kinds, List.mem_cons, List.not_mem_nil, or_false] at hk
  rcases hk with rfl | rfl | rfl
  all_goals
    cases a
    all_goals try (simp [tag] at ha; done)
  · exact Note.takes _
  · exact Pause.takes _
  · exact List.forall_mem_nil _

theorem property?_setProperty_of_ne (a : TraceAction) (name : String) (v : Value) (other : String)
    (h : other ≠ name) :
    Action.property? (Action.setProperty a name v).2 other = Action.property? a other := by
  cases a
  all_goals
    simp only [Action.setProperty, Action.property?, Prod.map]
    try split_ifs
    all_goals simp_all

theorem setProperty_congr (a b : TraceAction) (name : String) (v : Value) (h : tag b = tag a) :
    (Action.setProperty b name v).1 = (Action.setProperty a name v).1 := by
  cases a
  all_goals
    cases b
    all_goals try (simp [tag] at h; done)
  all_goals
    simp only [Action.setProperty, Prod.map]
    try split_ifs
    all_goals rfl

/-- The seconds that a pause counts are no property. -/
theorem alike_pause (a : Pause) (elapsed : Float) :
    Registry.Alike tag (pause a) (pause { a with elapsed }) :=
  ⟨rfl, fun _ => rfl⟩

theorem alike_execute (a : TraceAction) (w : World) :
    Registry.Alike tag a (Action.execute a w).action := by
  cases a with
  | note a => exact ⟨rfl, fun _ => rfl⟩
  | pause a => exact alike_pause a _
  | broken a => exact ⟨rfl, fun _ => rfl⟩

theorem alike_cancel (a b : TraceAction) (events : List Log.Event)
    (h : Action.cancel? a = some (b, events)) : Registry.Alike tag a b := by
  cases a with
  | pause a =>
    cases h
    exact ⟨rfl, fun _ => rfl⟩
  | _ => cases h

theorem alike_restore (a : TraceAction) (p : Progress TraceAction) (payload : Json)
    (h : Action.progress? a = some p) : Registry.Alike tag a (p.restore payload).2 := by
  cases a with
  | pause a =>
    cases h
    obtain ⟨elapsed, hrestore⟩ := a.restore_snd payload
    show Registry.Alike tag (pause a) (pause (a.restore payload).2)
    rw [hrestore]
    exact alike_pause a elapsed
  | _ => cases h

end TraceAction

/-- Only the seconds of a pause are a double. -/
theorem TraceAction.name_of_float {a : TraceAction} {name : String} {x : Float}
    (h : Action.property? a name = some (.float x)) : name = "seconds" := by
  cases a
  all_goals
    simp only [Action.property?] at h
    try split_ifs at h
    all_goals simp_all

/-- The registry of the kinds that leave a trace is lawful. -/
theorem registry_lawful : registry.Lawful TraceAction.tag where
  nodup_names := by simp [registry, kinds]
  not_reserved := by simp [registry, kinds, kindKey]
  tag_make := by simp [registry, kinds, TraceAction.tag]
  property?_make := by simp [registry, kinds, Action.property?]
  tag_setProperty a name v := by
    cases a
    all_goals rfl
  property?_setProperty_of_ne := TraceAction.property?_setProperty_of_ne
  takes k hk d hd a ha := TraceAction.takes hk ha d hd
  setProperty_congr := TraceAction.setProperty_congr
  execute := TraceAction.alike_execute
  cancel := TraceAction.alike_cancel
  restore := TraceAction.alike_restore

end VerbScript.Trace
