import VerbScript.Proofs.Verb.Order

/-!
# Actions that do what others do

If the actions of one type do what the actions do that they stand for (`Mirrors`), so do verbs made of
them: turns of such a verb are the turns of the verb that it stands for (`Mirrors.run_map`,
`Mirrors.resume_map`), and calls in a row leave the one where they leave the other
(`Mirrors.afterAll_map`). So whatever is noted down in actions without changing what they do can be read
off afterwards.
-/

namespace VerbScript

variable {α β ω : Type}

/-- The step with another action. -/
def Step.map (f : β → α) (s : Step β) : Step α := ⟨s.kind, f s.action⟩

/-- What a sweep leaves behind, with other actions. -/
def Sweep.map (f : β → α) (s : Sweep β ω) : Sweep α ω :=
  ⟨s.steps.map (Step.map f), s.world, s.halt, s.events⟩

/-- The verb with other actions. -/
def Verb.map (f : β → α) (v : Verb β) : Verb α := ⟨v.id, v.steps.map (Step.map f), v.ip, v.policy⟩

/-- What a call leaves behind, with other actions. -/
def Turn.map (f : β → α) (t : Turn β ω) : Turn α ω := ⟨t.outcome, t.verb.map f, t.world, t.events⟩

/-- An action is executed and cancelled as the one that it stands for. -/
structure Mirrors [Action α ω] [Action β ω] (f : β → α) : Prop where
  execute : ∀ b (w : ω), Action.execute (f b) w = (Action.execute b w).mapAction f
  cancel? : ∀ b, Action.cancel? (f b) = (Action.cancel? b).map fun r => (f r.1, r.2)

theorem Verb.phase_map (f : β → α) (v : Verb β) : (v.map f).phase = v.phase := by
  have hcurrent : (v.map f).current? = v.current? := by
    simp only [current?, map, List.length_map]
  rw [phase, phase, hcurrent]
  rfl

namespace Mirrors

variable [Action α ω] [Action β ω] {f : β → α}

theorem sweep_map (hf : Mirrors f) (policy : FailurePolicy) (verb : String) (i : Nat)
    (steps : List (Step β)) (w : ω) :
    sweep policy verb i (steps.map (Step.map f)) w = (sweep policy verb i steps w).map f := by
  induction steps generalizing i w with
  | nil => rfl
  | cons s rest ih =>
    rw [List.map_cons, sweep, sweep]
    simp only [Step.map, hf.execute, Execution.mapAction]
    cases (Action.execute s.action w).result with
    | ok status =>
      cases status with
      | done => exact congrArg (Sweep.after _ _) (ih _ _)
      | blocking => rfl
    | error e =>
      cases policy with
      | proceed => exact congrArg (Sweep.after _ _) (ih _ _)
      | abort => rfl

theorem cancelSteps_map (hf : Mirrors f) (steps : List (Step β)) :
    cancelSteps (steps.map (Step.map f)) =
      ((cancelSteps steps).1.map (Step.map f), (cancelSteps steps).2) := by
  induction steps with
  | nil => rfl
  | cons s rest ih =>
    rw [List.map_cons, cancelSteps, cancelSteps, ih]
    simp only [Step.map, hf.cancel?]
    cases Action.cancel? s.action with
    | none => rfl
    | some r => rfl

theorem cancel_map (hf : Mirrors f) (v : Verb β) :
    (v.map f).cancel = (v.cancel.1.map f, v.cancel.2) := by
  rw [Verb.cancel, Verb.cancel, Verb.isFinished, Verb.isFinished, Verb.phase_map]
  split
  · rfl
  · simp only [Verb.map, hf.cancelSteps_map, List.length_map]

theorem runFrom_map (hf : Mirrors f) (v : Verb β) (start : Nat) (w : ω) :
    (v.map f).runFrom start w = (v.runFrom start w).map f := by
  have hsweep := hf.sweep_map v.policy v.id start (v.steps.drop start) w
  rw [Verb.runFrom, Verb.runFrom]
  simp only [Verb.map, ← List.map_drop, ← List.map_take, hsweep]
  generalize sweep v.policy v.id start (v.steps.drop start) w = s
  obtain ⟨steps, world, halt, events⟩ := s
  cases halt with
  | finished => simp only [Sweep.map, Turn.map, Verb.map, List.map_append, List.length_append,
      List.length_map]
  | blocked i => simp only [Sweep.map, Turn.map, Verb.map, List.map_append]
  | failed i kind cause =>
    have hcancel := hf.cancel_map { v with steps := v.steps.take start ++ steps, ip := i }
    simp only [Verb.map, List.map_append] at hcancel
    simp only [Sweep.map, Turn.map, Verb.map, hcancel]

/-- A run of a verb is the run of the verb that it stands for. -/
theorem run_map (hf : Mirrors f) (v : Verb β) (w : ω) : (v.map f).run w = (v.run w).map f := by
  rw [Verb.run, Verb.run, Verb.phase_map]
  split
  · rfl
  · have hlength : (v.map f).steps.length = v.steps.length := List.length_map _
    simp only [hf.runFrom_map, hlength]
    rfl

/-- A resumption of a verb is the resumption of the verb that it stands for. -/
theorem resume_map (hf : Mirrors f) (v : Verb β) (w : ω) :
    (v.map f).resume w = (v.resume w).map f := by
  rw [Verb.resume, Verb.resume, Verb.phase_map]
  split
  · rfl
  · rfl
  · exact hf.runFrom_map v _ w

theorem after_map (hf : Mirrors f) (v : Verb β) (c : Call ω) :
    (v.map f).after c = (v.after c).map f := by
  cases c with
  | run w => exact congrArg Turn.verb (hf.run_map v w)
  | resume w => exact congrArg Turn.verb (hf.resume_map v w)
  | cancel => exact congrArg Prod.fst (hf.cancel_map v)
  | setPolicy policy => rfl

/-- Calls in a row leave a verb where they leave the verb that it stands for. -/
theorem afterAll_map (hf : Mirrors f) (v : Verb β) (calls : List (Call ω)) :
    (v.map f).afterAll calls = (v.afterAll calls).map f := by
  induction calls generalizing v with
  | nil => rfl
  | cons c rest ih => rw [Verb.afterAll, Verb.afterAll, hf.after_map, ih]

end Mirrors

end VerbScript
