import VerbScript.Proofs.Demo.Kinds
import VerbScript.Proofs.Trace.Kinds
import VerbScript.Proofs.Verb.Definition

/-!
# Definitions of the demo's kinds and of those that leave a trace

The registries of both families of kinds are lawful, so the definitions of their verbs are read as
they are written (`Verb.DefinitionKept`), whatever the verbs have been through since they were
configured.
-/

namespace VerbScript

/-- A verb has a definition, which is read as a verb with the same id, kinds and values; the same
definition is written from that verb. -/
def Verb.DefinitionKept {α ω : Type} [Action α ω] (r : Registry α) (v : Verb α) : Prop :=
  ∃ doc w, v.definition r = .ok doc ∧ (Verb.ofDefinition r doc).value = .ok w ∧ w.id = v.id ∧
    List.Forall₂ r.SameDefinition v.steps w.steps ∧ w.definition r = .ok doc

/-- The definition of a verb whose steps were configured through the registry of the demo, or
through the one of the kinds that leave a trace, is kept, if the doubles among its values read
back. -/
theorem definition_kept :
    (∀ v : Verb Demo.DemoAction, (∀ s ∈ v.steps, Demo.registry.Configured s) →
      (∀ s ∈ v.steps, s.FloatsReadBack) → v.DefinitionKept Demo.registry) ∧
    (∀ v : Verb Trace.TraceAction, (∀ s ∈ v.steps, Trace.registry.Configured s) →
      (∀ s ∈ v.steps, s.FloatsReadBack) → v.DefinitionKept Trace.registry) :=
  ⟨fun _ hv hfloat => Verb.exists_ofDefinition Demo.registry_lawful hv hfloat,
    fun _ hv hfloat => Verb.exists_ofDefinition Trace.registry_lawful hv hfloat⟩

/-- A sound and a wait that lasts, and a loud note before a pause and a failure. -/
theorem definition_kept_door :
    Verb.DefinitionKept Demo.registry
      { id := "door", ip := 1
        steps := [⟨"sound", .sound { sound := some "creak", volume := some 0.25 }⟩,
          ⟨"wait", .wait { time := some 1.5, startedAt := some 0.3 }⟩] } ∧
    Verb.DefinitionKept Trace.registry
      { id := "alarm"
        steps := [⟨"note", .note { repetitions := some (-3), loud := some true }⟩,
          ⟨"pause", .pause { seconds := some 0.5 }⟩, ⟨"broken", .broken {}⟩] } := by
  have hsound : Demo.registry.build "sound" [("sound", "creak"), ("volume", " 0.25")] =
      .ok ⟨"sound", .sound { sound := some "creak", volume := some 0.25 }⟩ := by decide +kernel
  have hwait : Demo.registry.build "wait" [("time", "1.5")] =
      .ok ⟨"wait", .wait { time := some 1.5 }⟩ := by decide +kernel
  have hnote : Trace.registry.build "note" [("repeat", " -3"), ("loud", "true")] =
      .ok ⟨"note", .note { repetitions := some (-3), loud := some true }⟩ := by decide +kernel
  have hpause : Trace.registry.build "pause" [("seconds", "5e-1")] =
      .ok ⟨"pause", .pause { seconds := some 0.5 }⟩ := by decide +kernel
  have hbroken : Trace.registry.build "broken" [] = .ok ⟨"broken", .broken {}⟩ := by
    decide +kernel
  refine ⟨definition_kept.1 _ ?_ ?_, definition_kept.2 _ ?_ ?_⟩
  · simp only [List.forall_mem_cons]
    exact ⟨.build hsound, .moved (.build hwait) (Demo.Wait.moved_startedAt ..),
      List.forall_mem_nil _⟩
  · simp only [List.forall_mem_cons]
    refine ⟨?_, ?_, List.forall_mem_nil _⟩
    · intro name x hx
      rcases Demo.DemoAction.name_of_float hx with rfl | rfl
      · cases hx
        decide +kernel
      · cases hx
    · intro name x hx
      rcases Demo.DemoAction.name_of_float hx with rfl | rfl
      · cases hx
      · cases hx
        decide +kernel
  · simp only [List.forall_mem_cons]
    exact ⟨.build hnote, .build hpause, .build hbroken, List.forall_mem_nil _⟩
  · simp only [List.forall_mem_cons]
    refine ⟨?_, ?_, ?_, List.forall_mem_nil _⟩
    all_goals
      intro name x hx
      obtain rfl := Trace.TraceAction.name_of_float hx
    · cases hx
    · cases hx
      decide +kernel
    · cases hx

end VerbScript
