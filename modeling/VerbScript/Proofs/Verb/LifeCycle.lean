import VerbScript.Proofs.Verb.Moved
import VerbScript.Trace.Kinds

/-!
# The life of a verb

Where a verb is in its life is read off its pointer (`Verb.phase_eq_suspended_iff` and the lemmas
beside it). A turn from one of the steps on ends in one of three ways (`Verb.runFrom_cases`), each of
which leaves the verb where the outcome says (`Turn.Agrees`). Whatever a verb has been through since
it was made, its pointer is within its steps (`Verb.Reachable.inRange`), and a call that is refused
changes nothing.
-/

namespace VerbScript

variable {α ω : Type}

/-- The outcome of a turn says where it leaves the verb: in the phase that is returned, or finished
when a step failed. -/
structure Turn.Agrees (t : Turn α ω) : Prop where
  ok : ∀ phase, t.outcome = .ok phase → t.verb.phase = phase
  stepFailed : ∀ id i kind cause, t.outcome = .error (.stepFailed id i kind cause) →
    t.verb.phase = .finished

namespace Verb

variable {v : Verb α}

/-! ## Phases -/

theorem phase_eq_suspended_iff {i : Nat} :
    v.phase = .suspended i ↔ v.ip = i ∧ i < v.steps.length := by
  rw [phase, current?]
  split
  · next j hj =>
    split at hj
    · cases hj
      simp only [Phase.suspended.injEq]
      omega
    · cases hj
  · next hnone =>
    split at hnone
    · cases hnone
    · have hfar : ¬ (v.ip = i ∧ i < v.steps.length) := by omega
      split
      · simp [hfar]
      · simp [hfar]

theorem phase_eq_notStarted_iff : v.phase = .notStarted ↔ v.ip = notStarted := by
  rw [phase, current?]
  split
  · next j hj =>
    split at hj
    · simp only [reduceCtorEq, notStarted, false_iff]
      omega
    · cases hj
  · split
    · next hip => simp [hip]
    · next hip => simp [hip]

theorem phase_eq_finished_iff (h : v.InRange) : v.phase = .finished ↔ v.ip = v.steps.length := by
  have hnotStarted := phase_eq_notStarted_iff (v := v)
  have hsuspended {i : Nat} := phase_eq_suspended_iff (v := v) (i := i)
  simp only [InRange, notStarted] at h hnotStarted
  cases hphase : v.phase with
  | notStarted =>
    have := hnotStarted.1 hphase
    simp only [reduceCtorEq, false_iff]
    omega
  | suspended i =>
    have := hsuspended.1 hphase
    simp only [reduceCtorEq, false_iff]
    omega
  | finished =>
    have hnew : v.ip ≠ -1 := fun hip => by simp [hnotStarted.2 hip] at hphase
    have hat : ¬ (v.ip = v.ip.toNat ∧ v.ip.toNat < v.steps.length) := fun hip => by
      simp [hsuspended.2 hip] at hphase
    simp only [true_iff]
    omega

/-- A verb whose pointer is behind its steps has finished. -/
theorem phase_of_ip_eq_length (h : v.ip = v.steps.length) : v.phase = .finished := by
  refine (phase_eq_finished_iff ?_).2 h
  simp only [InRange, notStarted]
  omega

variable [Action α ω]

/-- A verb that is cancelled has finished. -/
theorem phase_cancel (v : Verb α) : v.cancel.1.phase = .finished := by
  rw [cancel]
  split
  · next h => exact of_decide_eq_true h
  · refine phase_of_ip_eq_length ?_
    exact congrArg Nat.cast (cancelSteps_moved v.steps).length_eq

/-- A verb that is cancelled before it has finished has its actions cancelled, and is at its end. -/
theorem cancel_of_not_finished (h : v.phase ≠ .finished) :
    v.cancel.1 = { v with steps := (cancelSteps v.steps).1, ip := v.steps.length } := by
  rw [cancel, isFinished, decide_eq_false h]
  rfl

theorem cancel_of_suspended {i : Nat} (h : v.phase = .suspended i) :
    v.cancel.1 = { v with steps := (cancelSteps v.steps).1, ip := v.steps.length } :=
  cancel_of_not_finished (h ▸ nofun)

theorem cancel_of_finished (h : v.phase = .finished) : v.cancel = (v, []) := by
  rw [cancel, isFinished, decide_eq_true h]
  rfl

/-! ## Turns -/

/-- A turn from one of the steps on ends behind the steps, at a step that blocks, or at one that
fails, and then the verb is cancelled. -/
theorem runFrom_cases (v : Verb α) {start : Nat} (hstart : start ≤ v.steps.length) (w : ω) :
    let s := sweep v.policy v.id start (v.steps.drop start) w
    let steps := v.steps.take start ++ s.steps
    let t := v.runFrom start w
    t.world = s.world ∧ steps.length = v.steps.length ∧
      ((s.halt = .finished ∧ t.outcome = .ok .finished ∧
          t.verb = { v with steps, ip := steps.length }) ∨
        (∃ i, s.halt = .blocked i ∧ start ≤ i ∧ i < steps.length ∧ t.outcome = .ok (.suspended i) ∧
          t.verb = { v with steps, ip := i }) ∨
        ∃ i kind cause, s.halt = .failed i kind cause ∧ start ≤ i ∧ i < steps.length ∧
          t.outcome = .error (.stepFailed v.id i kind cause) ∧
          t.verb = (cancel { v with steps, ip := i }).1) := by
  intro s steps t
  have hlength : steps.length = v.steps.length := by
    have hsweep := (sweep_moved v.policy v.id start (v.steps.drop start) w).length_eq
    simp only [steps, s, List.length_append, List.length_take, ← hsweep, List.length_drop]
    omega
  have hindex (i : Nat) (hi : s.halt.index? = some i) : start ≤ i ∧ i < steps.length := by
    have := sweep_index hi
    rw [List.length_drop] at this
    omega
  have ht : t = v.runFrom start w := rfl
  rw [runFrom] at ht
  split at ht
  · next hhalt => exact ⟨by rw [ht], hlength, .inl ⟨hhalt, by rw [ht], by rw [ht]⟩⟩
  · next i hhalt =>
    obtain ⟨hle, hlt⟩ := hindex i (by simp only [s, hhalt]; rfl)
    exact ⟨by rw [ht], hlength, .inr (.inl ⟨i, hhalt, hle, hlt, by rw [ht], by rw [ht]⟩)⟩
  · next i kind cause hhalt =>
    obtain ⟨hle, hlt⟩ := hindex i (by simp only [s, hhalt]; rfl)
    exact ⟨by rw [ht], hlength,
      .inr (.inr ⟨i, kind, cause, hhalt, hle, hlt, by rw [ht], by rw [ht]⟩)⟩

theorem agrees_runFrom {start : Nat} (hstart : start ≤ v.steps.length) (w : ω) :
    (v.runFrom start w).Agrees := by
  obtain ⟨-, -, ⟨-, houtcome, hverb⟩ | ⟨i, -, -, hlt, houtcome, hverb⟩ |
    ⟨i, kind, cause, -, -, -, houtcome, hverb⟩⟩ := v.runFrom_cases hstart w
  · refine ⟨fun phase h => ?_, fun id i kind cause h => ?_⟩
    · rw [houtcome] at h
      cases h
      exact hverb ▸ phase_of_ip_eq_length rfl
    · rw [houtcome] at h
      cases h
  · refine ⟨fun phase h => ?_, fun id j kind cause h => ?_⟩
    · rw [houtcome] at h
      cases h
      exact hverb ▸ phase_eq_suspended_iff.2 ⟨rfl, hlt⟩
    · rw [houtcome] at h
      cases h
  · refine ⟨fun phase h => ?_, fun _ _ _ _ _ => hverb ▸ phase_cancel _⟩
    rw [houtcome] at h
    cases h

/-- A turn never ends in one of the refusals with which a call begins. -/
theorem runFrom_not_refused {start : Nat} (hstart : start ≤ v.steps.length) (w : ω) (id : String) :
    (∀ i, (v.runFrom start w).outcome ≠ .error (.alreadyRunning id i)) ∧
      (v.runFrom start w).outcome ≠ .error (.notSuspended id) := by
  obtain ⟨-, -, ⟨-, houtcome, -⟩ | ⟨i, -, -, -, houtcome, -⟩ |
    ⟨i, kind, cause, -, -, -, houtcome, -⟩⟩ := v.runFrom_cases hstart w
  all_goals simp [houtcome]

/-! ## Runs and resumptions -/

/-- A verb that is suspended is not run. -/
theorem run_of_suspended {i : Nat} (h : v.phase = .suspended i) (w : ω) :
    v.run w = ⟨.error (.alreadyRunning v.id i), v, w, []⟩ := by
  rw [run, h]

/-- A verb that is not suspended is run from its first step. -/
theorem run_of_not_suspended (h : ∀ i, v.phase ≠ .suspended i) (w : ω) :
    v.run w = { v.runFrom 0 w with
      events := .verbStarted v.id v.steps.length :: (v.runFrom 0 w).events } := by
  rw [run]
  split
  · next i hi => exact absurd hi (h i)
  · rfl

theorem resume_of_suspended {i : Nat} (h : v.phase = .suspended i) (w : ω) :
    v.resume w = v.runFrom (i + 1) w := by
  rw [resume, h]

theorem resume_of_notStarted (h : v.phase = .notStarted) (w : ω) :
    v.resume w = ⟨.error (.notSuspended v.id), v, w, []⟩ := by
  rw [resume, h]

theorem resume_of_finished (h : v.phase = .finished) (w : ω) :
    v.resume w = ⟨.ok .finished, v, w, [.resumeIgnored v.id]⟩ := by
  rw [resume, h]

theorem agrees_run (v : Verb α) (w : ω) : (v.run w).Agrees := by
  by_cases h : ∃ i, v.phase = .suspended i
  · obtain ⟨i, hi⟩ := h
    rw [run_of_suspended hi]
    exact ⟨nofun, nofun⟩
  · rw [run_of_not_suspended (not_exists.1 h)]
    obtain ⟨hok, hfailed⟩ := agrees_runFrom (v := v) (Nat.zero_le _) w
    exact ⟨hok, hfailed⟩

theorem agrees_resume (v : Verb α) (w : ω) : (v.resume w).Agrees := by
  cases h : v.phase with
  | notStarted =>
    rw [resume_of_notStarted h]
    exact ⟨nofun, nofun⟩
  | suspended i =>
    rw [resume_of_suspended h]
    exact agrees_runFrom (phase_eq_suspended_iff.1 h).2 w
  | finished =>
    rw [resume_of_finished h]
    refine ⟨fun phase hphase => ?_, nofun⟩
    cases hphase
    exact h

/-- A run is refused where the verb is suspended, and nowhere else. -/
theorem run_eq_alreadyRunning_iff (w : ω) {id : String} {i : Nat} :
    (v.run w).outcome = .error (.alreadyRunning id i) ↔ id = v.id ∧ v.phase = .suspended i := by
  by_cases h : ∃ j, v.phase = .suspended j
  · obtain ⟨j, hj⟩ := h
    simp [run_of_suspended hj, hj, eq_comm]
  · rw [run_of_not_suspended (not_exists.1 h)]
    have hrefused := (runFrom_not_refused (v := v) (Nat.zero_le _) w id).1 i
    have hphase := not_exists.1 h i
    simp [hrefused, hphase]

/-- A resumption is refused where the verb has not run, and nowhere else. -/
theorem resume_eq_notSuspended_iff (w : ω) {id : String} :
    (v.resume w).outcome = .error (.notSuspended id) ↔ id = v.id ∧ v.phase = .notStarted := by
  cases h : v.phase with
  | notStarted => simp [resume_of_notStarted h, eq_comm]
  | suspended i =>
    have hrefused := (runFrom_not_refused (phase_eq_suspended_iff.1 h).2 w id).2
    simp [resume_of_suspended h, hrefused]
  | finished => simp [resume_of_finished h]

/-! ## Reachable verbs -/

/-- The verbs that come about when a verb is made and then added to, run, resumed, cancelled,
renamed, given another policy and handed documents of either kind, whether or not these are
accepted. -/
inductive Reachable : Verb α → Prop where
  | new (id : String) : Reachable { id }
  | add {v : Verb α} (h : Reachable v) (s : Step α) : Reachable (v.add s)
  | run {v : Verb α} (h : Reachable v) (w : ω) : Reachable (v.run w).verb
  | resume {v : Verb α} (h : Reachable v) (w : ω) : Reachable (v.resume w).verb
  | cancel {v : Verb α} (h : Reachable v) : Reachable v.cancel.1
  | rename {v : Verb α} (h : Reachable v) (id : String) : Reachable { v with id }
  | setPolicy {v : Verb α} (h : Reachable v) (policy : FailurePolicy) :
      Reachable { v with policy }
  | read {v : Verb α} (h : Reachable v) (r : Registry α) (mode : DocumentMode) (payload : Json) :
      Reachable (v.read r mode payload).value.2

omit [Action α ω] in
theorem inRange_of_notStarted (h : v.ip = notStarted) : v.InRange := by
  simp only [InRange, h, notStarted]
  omega

/-- A verb that reads a document keeps its pointer within its steps, whether or not it accepts. -/
theorem InRange.read (h : v.InRange) (r : Registry α) (mode : DocumentMode) (payload : Json) :
    (v.read r mode payload).value.2.InRange := by
  cases mode with
  | definition =>
    rw [Verb.read, readDefinition, Traced.value_map]
    split
    · exact inRange_of_notStarted rfl
    · exact h
  | runtime => exact (moved_readRuntimeState v payload).inRange h

theorem Reachable.inRange (h : v.Reachable) : v.InRange := by
  induction h with
  | new id => exact inRange_of_notStarted rfl
  | add _ s _ => exact inRange_of_notStarted rfl
  | run _ w ih => exact (moved_run _ w).inRange ih
  | resume _ w ih => exact (moved_resume _ w).inRange ih
  | cancel _ ih => exact (moved_cancel _).inRange ih
  | rename _ _ ih => exact ih
  | setPolicy _ _ ih => exact ih
  | read _ r mode payload ih => exact ih.read r mode payload

/-- The pointer of a verb is before its steps, at one of them or right behind them, which is what its
phase says. A run or a resumption leaves the verb in the phase it returns, or finished when a step
failed. A verb that is suspended cannot be run and one that has not run cannot be resumed, and
nothing changes when this is tried. -/
theorem lifeCycle_of_reachable (h : v.Reachable) :
    (-1 ≤ v.ip ∧ v.ip ≤ v.steps.length) ∧
    (v.phase = .notStarted ↔ v.ip = -1) ∧
    (∀ i, v.phase = .suspended i ↔ v.ip = i ∧ i < v.steps.length) ∧
    (v.phase = .finished ↔ v.ip = v.steps.length) ∧
    ∀ w : ω, (v.run w).Agrees ∧ (v.resume w).Agrees ∧
      (∀ id i, (v.run w).outcome = .error (.alreadyRunning id i) ↔
        id = v.id ∧ v.phase = .suspended i) ∧
      (∀ id, (v.resume w).outcome = .error (.notSuspended id) ↔
        id = v.id ∧ v.phase = .notStarted) ∧
      (∀ i, v.phase = .suspended i → (v.run w).verb = v ∧ (v.run w).world = w) ∧
      (v.phase = .notStarted → (v.resume w).verb = v ∧ (v.resume w).world = w) := by
  refine ⟨h.inRange, phase_eq_notStarted_iff, fun i => phase_eq_suspended_iff,
    phase_eq_finished_iff h.inRange, fun w => ⟨agrees_run v w, agrees_resume v w,
      fun id i => run_eq_alreadyRunning_iff w, fun id => resume_eq_notSuspended_iff w,
      fun i hi => ?_, fun hnew => ?_⟩⟩
  · rw [run_of_suspended hi]
    exact ⟨rfl, rfl⟩
  · rw [resume_of_notStarted hnew]
    exact ⟨rfl, rfl⟩

/-- A verb of a pause and a note is suspended at the pause, and is not run again from there. -/
theorem lifeCycle_of_reachable_pause :
    ∃ (v : Verb Trace.TraceAction) (w : Trace.World), v.Reachable ∧ v.phase = .suspended 0 ∧
      v.ip = 0 ∧ v.steps.length = 2 ∧ (v.run w).outcome = .error (.alreadyRunning "use" 0) ∧
      (v.run w).verb = v ∧ (v.resume w).outcome = .ok .finished ∧
      (v.resume w).verb.phase = .finished := by
  let w : Trace.World := {}
  let new : Verb Trace.TraceAction := { id := "use" }
  let v := (((new.add ⟨"pause", .pause {}⟩).add ⟨"note", .note {}⟩).run w).verb
  have hv : v.Reachable := .run (.add (.add (.new "use") _) _) w
  obtain ⟨-, -, hphase, -, hturns⟩ := lifeCycle_of_reachable hv
  obtain ⟨-, hresume, hrefused, -, hkept, -⟩ := hturns w
  have hsuspended : v.phase = .suspended 0 := (hphase 0).2 ⟨rfl, by decide⟩
  exact ⟨v, w, hv, hsuspended, rfl, rfl, (hrefused "use" 0).2 ⟨rfl, hsuspended⟩,
    (hkept 0 hsuspended).1, rfl, hresume.ok .finished rfl⟩

end Verb

end VerbScript
