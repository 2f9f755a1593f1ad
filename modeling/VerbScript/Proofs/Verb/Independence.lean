import VerbScript.Proofs.Demo.Kinds
import VerbScript.Proofs.Trace.Kinds
import VerbScript.Proofs.Verb.Definition
import VerbScript.Proofs.Verb.Order

/-!
# Definitions do not depend on execution

What the definition of a verb shows is the kinds of its steps and the values that they hold under the
names that their kinds declare (`Definition.entries_of_sameDefinition`). The life of a verb leaves these
alone if its actions do (`Registry.Lawful.sameDefinition_of_moved`), and those of the demo and those that
leave a trace do. So whatever has been called on such a verb, and whatever runtime states it has been
handed, taken over or refused, its definition is written as before
(`Verb.write_definition_undergoAll`), and is refused if it was refused before.
-/

namespace VerbScript

variable {α ω : Type} [Action α ω]

/-! ## Steps -/

namespace Definition

variable {r : Registry α} {s t : Step α}

/-- The entry of a step shows its kind and the values under the declared names only. -/
theorem entry_of_sameDefinition (h : r.SameDefinition s t) (index : Nat) :
    entry r index t = entry r index s := by
  obtain ⟨hkind, hvalues⟩ := h
  rw [entry, entry, hkind]
  cases hdecl : r.propertiesOf s.kind with
  | error e => rfl
  | ok ds =>
    have hmembers : propertyMembers t.action ds = propertyMembers s.action ds :=
      List.filterMap_congr fun d hd => by rw [hvalues ds hdecl d hd]
    show Except.ok (Json.object ((kindKey, .string s.kind) :: propertyMembers t.action ds)) = _
    rw [hmembers]
    rfl

theorem entries_of_sameDefinition {ss ts : List (Step α)} (h : List.Forall₂ r.SameDefinition ss ts)
    (index : Nat) : entries r index ts = entries r index ss := by
  induction h generalizing index with
  | nil => rfl
  | cons hst _ ih => rw [entries, entries, entry_of_sameDefinition hst, ih]

end Definition

/-- A step keeps its definition in the life of its verb, whatever registry the definition is written
with. -/
theorem Registry.Lawful.sameDefinition_of_moved {r₀ : Registry α} {tag : α → String}
    (hr : r₀.Lawful tag) {s t : Step α} (h : s.Moved t) (r : Registry α) : r.SameDefinition s t :=
  ⟨h.kind_eq, fun _ _ d _ => (hr.alike_of_moved h).2 d.name⟩

/-! ## Verbs -/

/-- What can happen to a verb once it has its steps: something is called on it, or it is handed a runtime
state. -/
inductive Occurrence (α ω : Type) where
  | call (c : Call ω)
  | restore (r : Registry α) (payload : Json)

namespace Verb

/-- The verb after something has happened to it, whether or not it was refused. -/
def undergo (v : Verb α) : Occurrence α ω → Verb α
  | .call c => v.after c
  | .restore r payload => (v.read r .runtime payload).value.2

/-- The verb after things have happened to it one after the other. -/
def undergoAll (v : Verb α) : List (Occurrence α ω) → Verb α
  | [] => v
  | x :: rest => (v.undergo x).undergoAll rest

/-- A verb keeps its id, and moves its steps, in whatever happens to it. -/
theorem steps_undergo (v : Verb α) (x : Occurrence α ω) :
    (v.undergo x).id = v.id ∧ List.Forall₂ Step.Moved v.steps (v.undergo x).steps := by
  have hmoved {w : Verb α} (h : v.Moved w) :
      w.id = v.id ∧ List.Forall₂ Step.Moved v.steps w.steps := ⟨h.id_eq, h.steps⟩
  cases x with
  | call c =>
    cases c with
    | run w => exact hmoved (moved_run v w)
    | resume w => exact hmoved (moved_resume v w)
    | cancel => exact hmoved (moved_cancel v)
    | setPolicy policy => exact ⟨rfl, Step.Moved.refl_list v.steps⟩
  | restore r payload => exact hmoved (moved_readRuntimeState v payload)

variable {r₀ : Registry α} {tag : α → String}

theorem definition_undergo (hr : r₀.Lawful tag) (r : Registry α) (v : Verb α)
    (x : Occurrence α ω) : (v.undergo x).definition r = v.definition r := by
  obtain ⟨hid, hsteps⟩ := v.steps_undergo x
  have hentries := Definition.entries_of_sameDefinition
    (hsteps.imp fun _ _ h => hr.sameDefinition_of_moved h r) 0
  rw [definition, definition, hid, hentries]

/-- Whatever happens to a verb, its definition is written as before, if a lawful registry has actions
like its own. -/
theorem definition_undergoAll (hr : r₀.Lawful tag) (r : Registry α) (v : Verb α)
    (xs : List (Occurrence α ω)) : (v.undergoAll xs).definition r = v.definition r := by
  induction xs generalizing v with
  | nil => rfl
  | cons x rest ih => exact (ih (v.undergo x)).trans (definition_undergo hr r v x)

/-- Whatever is called on a verb of the demo's kinds, or of those that leave a trace, and whatever runtime
states it is handed, its definition is written, or refused, as before. -/
theorem write_definition_undergoAll :
    (∀ (r : Registry Demo.DemoAction) (v : Verb Demo.DemoAction)
      (xs : List (Occurrence Demo.DemoAction Demo.World)),
      (v.undergoAll xs).write r .definition = v.write r .definition) ∧
    (∀ (r : Registry Trace.TraceAction) (v : Verb Trace.TraceAction)
      (xs : List (Occurrence Trace.TraceAction Trace.World)),
      (v.undergoAll xs).write r .definition = v.write r .definition) :=
  ⟨definition_undergoAll Demo.registry_lawful, definition_undergoAll Trace.registry_lawful⟩

end Verb

end VerbScript
