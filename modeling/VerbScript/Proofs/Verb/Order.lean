import VerbScript.Proofs.Verb.LifeCycle

/-!
# The order of execution

To see which steps a verb executes, its actions are numbered by the places of their steps, and their
world writes down the number of each action that is executed (`Numbered`, `Recorded`). Numbering
changes nothing else about what calls on a verb do (`Verb.after_numbered`). What calls in a row
execute falls into episodes, one for each run that is accepted, and an episode is the steps from the
first one on, each once, up to where the verb was left (`Verb.inEpisodes_history`).
-/

namespace VerbScript

variable {α ω : Type}

/-- An action with the number of its step. -/
structure Numbered (α : Type) where
  number : Nat
  action : α

/-- A world with the numbers of the actions that were executed in it, the first one first. -/
structure Recorded (ω : Type) where
  world : ω
  executed : List Nat := []

instance [Action α ω] : Action (Numbered α) (Recorded ω) where
  execute a w :=
    let x := Action.execute a.action w.world
    ⟨x.result, ⟨a.number, x.action⟩, ⟨x.world, w.executed ++ [a.number]⟩, x.events⟩
  cancel? a := (Action.cancel? a.action).map fun r => (⟨a.number, r.1⟩, r.2)

/-- The steps with their actions numbered, from `i` on. -/
def numberFrom (i : Nat) : List (Step α) → List (Step (Numbered α))
  | [] => []
  | s :: rest => ⟨s.kind, ⟨i, s.action⟩⟩ :: numberFrom (i + 1) rest

/-- The verb with its actions numbered by the places of their steps. -/
def Verb.numbered (v : Verb α) : Verb (Numbered α) := ⟨v.id, numberFrom 0 v.steps, v.ip, v.policy⟩

@[simp] theorem length_numberFrom (i : Nat) (steps : List (Step α)) :
    (numberFrom i steps).length = steps.length := by
  induction steps generalizing i with
  | nil => rfl
  | cons s rest ih => simp [numberFrom, ih]

theorem numberFrom_append (i : Nat) (ss ts : List (Step α)) :
    numberFrom i (ss ++ ts) = numberFrom i ss ++ numberFrom (i + ss.length) ts := by
  induction ss generalizing i with
  | nil => rfl
  | cons s ss ih =>
    rw [List.cons_append, numberFrom, ih, numberFrom, List.cons_append, List.length_cons,
      Nat.add_assoc, Nat.add_comm 1]

/-- The numbered steps before and from an index on. -/
theorem take_drop_numberFrom {steps : List (Step α)} {start : Nat} (h : start ≤ steps.length) :
    (numberFrom 0 steps).take start = numberFrom 0 (steps.take start) ∧
      (numberFrom 0 steps).drop start = numberFrom start (steps.drop start) := by
  have hsplit := numberFrom_append 0 (steps.take start) (steps.drop start)
  have hlength : (numberFrom 0 (steps.take start)).length = start := by
    rw [length_numberFrom, List.length_take, Nat.min_eq_left h]
  rw [List.take_append_drop, List.length_take, Nat.min_eq_left h, Nat.zero_add] at hsplit
  rw [hsplit]
  exact ⟨List.take_left' hlength, List.drop_left' hlength⟩

theorem Verb.phase_numbered (v : Verb α) : v.numbered.phase = v.phase := by
  have hcurrent : v.numbered.current? = v.current? := by
    simp only [current?, numbered, length_numberFrom]
  rw [phase, phase, hcurrent]
  rfl

variable [Action α ω]

/-! ## Numbering changes nothing -/

/-- A sweep over numbered steps does what the sweep over the steps does, and writes down the numbers
of the steps that it passes, one after the other. -/
theorem sweep_numberFrom (policy : FailurePolicy) (verb : String) (i : Nat) (steps : List (Step α))
    (w : ω) (before : List Nat) :
    sweep policy verb i (numberFrom i steps) ⟨w, before⟩ =
      let s := sweep policy verb i steps w
      ⟨numberFrom i s.steps,
        ⟨s.world, before ++ List.range' i (s.halt.executed i steps.length)⟩, s.halt, s.events⟩ := by
  induction steps generalizing i w before with
  | nil => simp [numberFrom, sweep, Halt.executed]
  | cons s rest ih =>
    -- what is executed behind `s` follows the number of `s`
    have hnext (world : ω) : before ++ [i] ++ List.range' (i + 1)
          ((sweep policy verb (i + 1) rest world).halt.executed (i + 1) rest.length) =
        before ++ List.range' i
          ((sweep policy verb (i + 1) rest world).halt.executed i (rest.length + 1)) := by
      rw [Halt.executed_cons fun j hj => (sweep_index hj).1, List.range'_succ, List.append_assoc,
        List.singleton_append]
    have hone : i + 1 - i = 1 := Nat.add_sub_cancel_left ..
    rw [numberFrom, sweep, sweep]
    simp only [Action.execute]
    cases hresult : (Action.execute s.action w).result with
    | ok status =>
      cases status with
      | done => simp only [ih, Sweep.after, numberFrom, List.length_cons, hnext]
      | blocking => simp only [numberFrom, Halt.executed, hone, List.range'_one]
    | error e =>
      cases policy with
      | proceed => simp only [ih, Sweep.after, numberFrom, List.length_cons, hnext]
      | abort => simp only [numberFrom, Halt.executed, hone, List.range'_one]

theorem cancelSteps_numberFrom (i : Nat) (steps : List (Step α)) :
    cancelSteps (numberFrom i steps) =
      (numberFrom i (cancelSteps steps).1, (cancelSteps steps).2) := by
  induction steps generalizing i with
  | nil => rfl
  | cons s rest ih =>
    rw [numberFrom, cancelSteps, cancelSteps, ih]
    simp only [Action.cancel?]
    cases Action.cancel? s.action with
    | none => rfl
    | some r => rfl

namespace Verb

theorem cancel_numbered (v : Verb α) :
    v.numbered.cancel = (v.cancel.1.numbered, v.cancel.2) := by
  have hsteps := cancelSteps_numberFrom 0 v.steps
  rw [cancel, cancel, isFinished, isFinished, phase_numbered]
  split
  · rfl
  · simp only [numbered, hsteps, length_numberFrom]

/-- A turn of a numbered verb from one of its steps on is the turn of the verb, and executes the steps
from there on, each once, up to where it leaves the verb. -/
theorem runFrom_numbered (v : Verb α) {start : Nat} (hstart : start ≤ v.steps.length) (w : ω) :
    ∃ n, v.numbered.runFrom start ⟨w, []⟩ =
        (let t := v.runFrom start w
        ⟨t.outcome, t.verb.numbered, ⟨t.world, List.range' start n⟩, t.events⟩) ∧
      start + n ≤ v.steps.length ∧ (n = 0 → start = v.steps.length) ∧
      ∀ i, (v.runFrom start w).verb.phase = .suspended i → start ≤ i ∧ i + 1 = start + n := by
  obtain ⟨hbefore, hbehind⟩ := take_drop_numberFrom hstart
  have hsweep := sweep_numberFrom v.policy v.id start (v.steps.drop start) w []
  have hok := (agrees_runFrom hstart w).ok
  obtain ⟨-, hlength, hcases⟩ := v.runFrom_cases hstart w
  generalize hs : sweep v.policy v.id start (v.steps.drop start) w = s at hsweep hlength hcases
  rw [List.length_drop] at hsweep
  have hsteps : (numberFrom 0 v.steps).take start ++ numberFrom start s.steps =
      numberFrom 0 (v.steps.take start ++ s.steps) := by
    rw [hbefore, numberFrom_append, List.length_take, Nat.min_eq_left hstart, Nat.zero_add]
  refine ⟨s.halt.executed start (v.steps.length - start), ?_, ?_⟩
  · rw [runFrom, runFrom, hs]
    simp only [numbered, hbehind, hsweep, List.nil_append, hsteps]
    cases s.halt with
    | finished => simp only [length_numberFrom]
    | blocked i => rfl
    | failed i kind cause =>
      have hcancel := cancel_numbered { v with steps := v.steps.take start ++ s.steps, ip := i }
      simp only [numbered] at hcancel
      simp only [hcancel]
  · rcases hcases with ⟨hhalt, houtcome, -⟩ | ⟨j, hhalt, hle, hlt, houtcome, -⟩ |
      ⟨j, kind, cause, hhalt, hle, hlt, houtcome, hverb⟩
    · rw [hhalt, Halt.executed]
      refine ⟨by omega, by omega, fun i hi => ?_⟩
      rw [hok _ houtcome] at hi
      cases hi
    · rw [hhalt, Halt.executed]
      refine ⟨by omega, by omega, fun i hi => ?_⟩
      rw [hok _ houtcome] at hi
      cases hi
      exact ⟨hle, by omega⟩
    · rw [hhalt, Halt.executed]
      refine ⟨by omega, by omega, fun i hi => ?_⟩
      rw [hverb, phase_cancel] at hi
      cases hi

end Verb

/-! ## Calls in a row -/

/-- A call on a verb; each run and each resumption has a world of its own, since the world may change
between calls. -/
inductive Call (ω : Type) where
  | run (w : ω)
  | resume (w : ω)
  | cancel
  | setPolicy (policy : FailurePolicy)

/-- The call in worlds in which nothing has been written down. -/
def Call.recorded : Call ω → Call (Recorded ω)
  | run w => run ⟨w, []⟩
  | resume w => resume ⟨w, []⟩
  | cancel => cancel
  | setPolicy policy => setPolicy policy

/-- What is seen of calls on a verb. -/
inductive Mark where
  /-- A run was not refused. -/
  | accepted
  /-- The action with this number was executed. -/
  | executed (i : Nat)
  deriving Repr, DecidableEq

/-- The marks of `n` steps executed one after the other, the first of them with the index `start`. -/
def executedFrom (start n : Nat) : List Mark := (List.range' start n).map Mark.executed

/-- The marks of a run and of what resumes it, if the first `n` steps are executed in it. -/
def episode (n : Nat) : List Mark := .accepted :: executedFrom 0 n

theorem executedFrom_append (start m n : Nat) :
    executedFrom start m ++ executedFrom (start + m) n = executedFrom start (m + n) := by
  rw [executedFrom, executedFrom, executedFrom, ← List.map_append, List.range'_append_1]

theorem getLast?_executedFrom (start n : Nat) :
    (executedFrom start (n + 1)).getLast? = some (.executed (start + n)) := by
  rw [executedFrom, List.range'_concat, List.map_append, List.map_singleton,
    List.getLast?_concat, Nat.one_mul]

/-- Where a resumption goes on: behind the step that blocks. -/
def Phase.behind : Phase → Nat
  | suspended i => i + 1
  | _ => 0

namespace Verb

/-- The verb after a call. -/
def after (v : Verb α) : Call ω → Verb α
  | .run w => (v.run w).verb
  | .resume w => (v.resume w).verb
  | .cancel => v.cancel.1
  | .setPolicy policy => { v with policy }

/-- The verb after calls in a row. -/
def afterAll (v : Verb α) : List (Call ω) → Verb α
  | [] => v
  | c :: rest => (v.after c).afterAll rest

/-- The marks of a call on a numbered verb. Cancelling a verb and changing its policy have no world in
which anything could be executed. -/
def marks (v : Verb (Numbered α)) : Call ω → List Mark
  | .run w =>
    let turn := v.run (⟨w, []⟩ : Recorded ω)
    let executed := turn.world.executed.map Mark.executed
    match turn.outcome with
    | .error (.alreadyRunning ..) => executed
    | _ => .accepted :: executed
  | .resume w => (v.resume (⟨w, []⟩ : Recorded ω)).world.executed.map Mark.executed
  | .cancel => []
  | .setPolicy _ => []

/-- The marks of calls in a row on a numbered verb. -/
def history (v : Verb (Numbered α)) : List (Call ω) → List Mark
  | [] => []
  | c :: rest => v.marks c ++ (v.after c.recorded).history rest

/-- A call on a numbered verb does to it what it does to the verb. -/
theorem after_numbered (v : Verb α) (c : Call ω) :
    v.numbered.after c.recorded = (v.after c).numbered := by
  cases c with
  | run w =>
    show (v.numbered.run ⟨w, []⟩).verb = (v.run w).verb.numbered
    by_cases h : ∃ i, v.phase = .suspended i
    · obtain ⟨i, hi⟩ := h
      rw [run_of_suspended hi, run_of_suspended (v.phase_numbered.trans hi)]
    · have h := not_exists.1 h
      obtain ⟨n, hrun, -⟩ := v.runFrom_numbered (Nat.zero_le _) w
      rw [run_of_not_suspended h, run_of_not_suspended (v.phase_numbered ▸ h), hrun]
  | resume w =>
    show (v.numbered.resume ⟨w, []⟩).verb = (v.resume w).verb.numbered
    cases hphase : v.phase with
    | notStarted =>
      rw [resume_of_notStarted hphase, resume_of_notStarted (v.phase_numbered.trans hphase)]
    | suspended i =>
      obtain ⟨n, hrun, -⟩ := v.runFrom_numbered (phase_eq_suspended_iff.1 hphase).2 w
      rw [resume_of_suspended hphase, resume_of_suspended (v.phase_numbered.trans hphase), hrun]
    | finished =>
      rw [resume_of_finished hphase, resume_of_finished (v.phase_numbered.trans hphase)]
  | cancel => exact congrArg Prod.fst v.cancel_numbered
  | setPolicy policy => rfl

/-- A call keeps the count of the steps. -/
theorem length_after (v : Verb α) (c : Call ω) :
    (v.after c).steps.length = v.steps.length := by
  cases c with
  | run w => exact (moved_run v w).steps.length_eq.symm
  | resume w => exact (moved_resume v w).steps.length_eq.symm
  | cancel => exact (moved_cancel v).steps.length_eq.symm
  | setPolicy policy => rfl

/-- Calls in a row on a numbered verb do to it what they do to the verb. -/
theorem afterAll_numbered (v : Verb α) (calls : List (Call ω)) :
    v.numbered.afterAll (calls.map Call.recorded) = (v.afterAll calls).numbered := by
  induction calls generalizing v with
  | nil => rfl
  | cons c rest ih => rw [List.map_cons, afterAll, after_numbered, ih, afterAll]

theorem length_afterAll (v : Verb α) (calls : List (Call ω)) :
    (v.afterAll calls).steps.length = v.steps.length := by
  induction calls generalizing v with
  | nil => rfl
  | cons c rest ih => rw [afterAll, ih, length_after]

/-! ## What a call executes -/

variable {v : Verb α}

/-- A run that is accepted executes the steps from the first one on, up to where it leaves the
verb. -/
theorem marks_run (h : ∀ i, v.phase ≠ .suspended i) (w : ω) :
    ∃ n, v.numbered.marks (.run w) = episode n ∧ n ≤ v.steps.length ∧ (n = 0 → v.steps = []) ∧
      ∀ i, (v.after (.run w)).phase = .suspended i → i + 1 = n := by
  obtain ⟨n, hrun, hle, hzero, hphase⟩ := v.runFrom_numbered (Nat.zero_le _) w
  have hrefused (id : String) (i : Nat) := (runFrom_not_refused (v := v) (Nat.zero_le _) w id).1 i
  refine ⟨n, ?_, by omega, fun hn => ?_, fun i hi => ?_⟩
  · rw [marks, run_of_not_suspended (v.phase_numbered ▸ h), hrun]
    split
    · next id i houtcome => exact absurd houtcome (hrefused id i)
    · rfl
  · exact List.eq_nil_of_length_eq_zero (hzero hn).symm
  · rw [after, run_of_not_suspended h] at hi
    have := hphase i hi
    omega

/-- A resumption goes on behind the step that the verb is suspended at, up to where it leaves the
verb. -/
theorem marks_resume {i : Nat} (h : v.phase = .suspended i) (w : ω) :
    ∃ n, v.numbered.marks (.resume w) = executedFrom (i + 1) n ∧ i + 1 + n ≤ v.steps.length ∧
      (n = 0 → i + 1 = v.steps.length) ∧
      ∀ j, (v.after (.resume w)).phase = .suspended j → i + 1 ≤ j ∧ j + 1 = i + 1 + n := by
  obtain ⟨n, hrun, hle, hzero, hphase⟩ := v.runFrom_numbered (phase_eq_suspended_iff.1 h).2 w
  refine ⟨n, ?_, hle, hzero, fun j hj => ?_⟩
  · rw [marks, resume_of_suspended (v.phase_numbered.trans h), hrun]
    rfl
  · rw [after, resume_of_suspended h] at hj
    exact hphase j hj

/-- A run that is refused executes nothing and changes nothing. -/
theorem marks_run_of_suspended {i : Nat} (h : v.phase = .suspended i) (w : ω) :
    v.numbered.marks (.run w) = [] ∧ v.after (.run w) = v := by
  rw [marks, after, run_of_suspended (v.phase_numbered.trans h), run_of_suspended h]
  exact ⟨rfl, rfl⟩

/-- A resumption that is refused or ignored executes nothing and changes nothing. -/
theorem marks_resume_of_not_suspended (h : ∀ i, v.phase ≠ .suspended i) (w : ω) :
    v.numbered.marks (.resume w) = [] ∧ v.after (.resume w) = v := by
  cases hphase : v.phase with
  | notStarted =>
    rw [marks, after, resume_of_notStarted (v.phase_numbered.trans hphase),
      resume_of_notStarted hphase]
    exact ⟨rfl, rfl⟩
  | suspended i => exact absurd hphase (h i)
  | finished =>
    rw [marks, after, resume_of_finished (v.phase_numbered.trans hphase), resume_of_finished hphase]
    exact ⟨rfl, rfl⟩

/-! ## Episodes -/

omit [Action α ω] in
theorem behind_le (v : Verb α) : v.phase.behind ≤ v.steps.length := by
  cases h : v.phase with
  | suspended i => exact (phase_eq_suspended_iff.1 h).2
  | _ => exact Nat.zero_le _

/-- The marks of calls on a verb of `length` steps in a phase are first the rest of the steps that it
is suspended in, if it is, and then an episode for each run that is accepted. -/
def InEpisodes (phase : Phase) (length : Nat) (marks : List Mark) : Prop :=
  ∃ (n : Nat) (ks : List Nat), marks = executedFrom phase.behind n ++ ks.flatMap episode ∧
    ((∀ i, phase ≠ .suspended i) → n = 0) ∧ phase.behind + n ≤ length ∧
    ∀ k ∈ ks, k ≤ length ∧ (k = 0 → length = 0)

namespace InEpisodes

variable {phase next : Phase} {length : Nat} {marks : List Mark}

theorem nil (h : phase.behind ≤ length) : InEpisodes phase length [] :=
  ⟨0, [], rfl, fun _ => rfl, h, List.forall_mem_nil _⟩

/-- What is executed next goes on where `m` steps before it ended, or it begins with a run. -/
theorem executedFrom_append (h : InEpisodes next length marks) (start m : Nat)
    (hphase : ∀ i, next = .suspended i → i + 1 = start + m) (hle : start + m ≤ length) :
    ∃ (n : Nat) (ks : List Nat),
      executedFrom start m ++ marks = executedFrom start n ++ ks.flatMap episode ∧ m ≤ n ∧
        start + n ≤ length ∧ ∀ k ∈ ks, k ≤ length ∧ (k = 0 → length = 0) := by
  obtain ⟨n, ks, rfl, hidle, hn, hks⟩ := h
  by_cases hsuspended : ∃ i, next = .suspended i
  · obtain ⟨i, rfl⟩ := hsuspended
    have hbehind : (Phase.suspended i).behind = start + m := hphase i rfl
    rw [hbehind] at hn ⊢
    refine ⟨m + n, ks, ?_, Nat.le_add_right m n, by omega, hks⟩
    rw [← List.append_assoc, VerbScript.executedFrom_append]
  · rw [hidle (not_exists.1 hsuspended)]
    exact ⟨m, ks, rfl, Nat.le_refl m, hle, hks⟩

/-- A run that is accepted begins an episode. -/
theorem run (h : InEpisodes next length marks) {m : Nat} (hm : m ≤ length)
    (hzero : m = 0 → length = 0) (hphase : ∀ i, next = .suspended i → i + 1 = m)
    (hidle : ∀ i, phase ≠ .suspended i) : InEpisodes phase length (episode m ++ marks) := by
  obtain ⟨n, ks, hmarks, hmn, hn, hks⟩ := h.executedFrom_append 0 m
    (fun i hi => by have := hphase i hi; omega) (by omega)
  have hbehind : phase.behind = 0 := by
    cases phase with
    | suspended i => exact absurd rfl (hidle i)
    | _ => rfl
  refine ⟨0, n :: ks, ?_, fun _ => rfl, by omega, ?_⟩
  · rw [hbehind, episode, List.cons_append, hmarks, List.flatMap_cons, episode]
    rfl
  · exact List.forall_mem_cons.2 ⟨⟨by omega, fun h0 => hzero (by omega)⟩, hks⟩

/-- A resumption goes on with the episode. -/
theorem resume (h : InEpisodes next length marks) {i m : Nat} (hm : i + 1 + m ≤ length)
    (hphase : ∀ j, next = .suspended j → j + 1 = i + 1 + m) :
    InEpisodes (.suspended i) length (executedFrom (i + 1) m ++ marks) := by
  obtain ⟨n, ks, hmarks, -, hn, hks⟩ := h.executedFrom_append (i + 1) m hphase hm
  exact ⟨n, ks, hmarks, fun hidle => absurd rfl (hidle i), hn, hks⟩

/-- A cancellation ends the episode. -/
theorem cancel (h : InEpisodes next length marks) (hidle : ∀ i, next ≠ .suspended i)
    (hle : phase.behind ≤ length) : InEpisodes phase length marks := by
  obtain ⟨n, ks, hmarks, hn, -, hks⟩ := h
  obtain rfl := hn hidle
  exact ⟨0, ks, hmarks, fun _ => rfl, hle, hks⟩

end InEpisodes

/-- Whatever is called on a verb, what is executed falls into episodes. -/
theorem inEpisodes_history (v : Verb α) (calls : List (Call ω)) :
    InEpisodes v.phase v.steps.length (v.numbered.history calls) := by
  induction calls generalizing v with
  | nil => exact .nil (behind_le v)
  | cons c rest ih =>
    have hrest := ih (v.after c)
    have hempty : v.steps = [] → v.steps.length = 0 := fun h => by rw [h, List.length_nil]
    rw [length_after] at hrest
    rw [history, after_numbered]
    cases c with
    | run w =>
      by_cases hsuspended : ∃ i, v.phase = .suspended i
      · obtain ⟨i, hi⟩ := hsuspended
        obtain ⟨hmarks, hafter⟩ := marks_run_of_suspended hi w
        rw [hafter] at hrest ⊢
        rw [hmarks]
        exact hrest
      · have hidle := not_exists.1 hsuspended
        obtain ⟨m, hmarks, hm, hzero, hphase⟩ := marks_run hidle w
        rw [hmarks]
        exact hrest.run hm (fun h0 => hempty (hzero h0)) hphase hidle
    | resume w =>
      by_cases hsuspended : ∃ i, v.phase = .suspended i
      · obtain ⟨i, hi⟩ := hsuspended
        obtain ⟨m, hmarks, hm, -, hphase⟩ := marks_resume hi w
        rw [hmarks, hi]
        exact hrest.resume hm fun j hj => (hphase j hj).2
      · obtain ⟨hmarks, hafter⟩ := marks_resume_of_not_suspended (not_exists.1 hsuspended) w
        rw [hafter] at hrest ⊢
        rw [hmarks]
        exact hrest
    | cancel => exact hrest.cancel (fun i => by simp [after, phase_cancel]) (behind_le v)
    | setPolicy policy => exact hrest

/-- The last step that was executed is the one that the verb is suspended at. -/
theorem getLast?_history (v : Verb α) (calls : List (Call ω)) (before : List Mark)
    (h : ∀ i, v.phase = .suspended i → before.getLast? = some (.executed i)) :
    ∀ i, (v.afterAll calls).phase = .suspended i →
      (before ++ v.numbered.history calls).getLast? = some (.executed i) := by
  induction calls generalizing v before with
  | nil =>
    rw [history, List.append_nil]
    exact h
  | cons c rest ih =>
    rw [history, after_numbered, ← List.append_assoc]
    refine ih _ _ ?_
    -- the marks of `c` end with the step that it leaves the verb at, or `c` changes nothing
    have hkept (hmarks : v.numbered.marks c = []) (hafter : v.after c = v) :
        ∀ i, (v.after c).phase = .suspended i →
          (before ++ v.numbered.marks c).getLast? = some (.executed i) := by
      rw [hmarks, hafter, List.append_nil]
      exact h
    have hlast {start m i : Nat} (hm : start ≤ i) (hi : i + 1 = start + m) (marks : List Mark) :
        (marks ++ executedFrom start m).getLast? = some (.executed i) := by
      obtain ⟨m, rfl⟩ : ∃ k, m = k + 1 := ⟨m - 1, by omega⟩
      obtain rfl : start + m = i := by omega
      rw [List.getLast?_append, getLast?_executedFrom]
      rfl
    cases c with
    | run w =>
      by_cases hsuspended : ∃ i, v.phase = .suspended i
      · obtain ⟨i, hi⟩ := hsuspended
        obtain ⟨hmarks, hafter⟩ := marks_run_of_suspended hi w
        exact hkept hmarks hafter
      · obtain ⟨m, hmarks, -, -, hphase⟩ := marks_run (not_exists.1 hsuspended) w
        intro i hi
        have := hphase i hi
        rw [hmarks, episode, ← List.singleton_append, ← List.append_assoc]
        exact hlast (Nat.zero_le i) (by omega) _
    | resume w =>
      by_cases hsuspended : ∃ i, v.phase = .suspended i
      · obtain ⟨i, hi⟩ := hsuspended
        obtain ⟨m, hmarks, -, -, hphase⟩ := marks_resume hi w
        intro j hj
        obtain ⟨hle, hj⟩ := hphase j hj
        rw [hmarks]
        exact hlast hle hj _
      · obtain ⟨hmarks, hafter⟩ := marks_resume_of_not_suspended (not_exists.1 hsuspended) w
        exact hkept hmarks hafter
    | cancel =>
      intro i hi
      rw [after, phase_cancel] at hi
      cases hi
    | setPolicy policy =>
      show ∀ i, v.phase = .suspended i → _
      rw [marks, List.append_nil]
      exact h

/-- What calls in a row execute falls into episodes, one for each run that is accepted, each of which
is the steps from the first one on, in order and each once; a verb that was suspended to begin with
first executes some of its other steps. A verb that is left suspended was so by the step that was
executed last, and a resumption goes on behind that step. Every other call executes nothing. -/
theorem history_eq_episodes (v : Verb α) (calls : List (Call ω)) :
    let u := v.numbered.afterAll (calls.map Call.recorded)
    u = (v.afterAll calls).numbered ∧
    (∃ (n : Nat) (ks : List Nat),
      v.numbered.history calls = executedFrom v.phase.behind n ++ ks.flatMap episode ∧
      ((∀ i, v.phase ≠ .suspended i) → n = 0) ∧
      ∀ k ∈ ks, k ≤ v.steps.length ∧ (k = 0 → v.steps = [])) ∧
    ∀ w : ω,
      (∀ i, u.phase = .suspended i →
        ((∀ j, v.phase ≠ .suspended j) →
          (v.numbered.history calls).getLast? = some (.executed i)) ∧
        u.marks (.run w) = [] ∧
        ∃ n, u.marks (.resume w) = executedFrom (i + 1) n ∧ (n = 0 → i + 1 = v.steps.length)) ∧
      ((∀ i, u.phase ≠ .suspended i) → u.marks (.resume w) = []) ∧
      u.marks (.cancel : Call ω) = [] := by
  intro u
  have hu : u = (v.afterAll calls).numbered := afterAll_numbered v calls
  refine ⟨hu, ?_, fun w => ⟨fun i hi => ?_, fun hidle => ?_, rfl⟩⟩
  · obtain ⟨n, ks, hmarks, hn, -, hks⟩ := inEpisodes_history v calls
    exact ⟨n, ks, hmarks, hn, fun k hk =>
      ⟨(hks k hk).1, fun h => List.eq_nil_of_length_eq_zero ((hks k hk).2 h)⟩⟩
  · rw [hu, phase_numbered] at hi
    obtain ⟨n, hresume, -, hzero, -⟩ := marks_resume hi w
    rw [length_afterAll] at hzero
    refine ⟨fun hidle => ?_, hu ▸ (marks_run_of_suspended hi w).1, n, hu ▸ hresume, hzero⟩
    exact getLast?_history v calls [] (fun j hj => absurd hj (hidle j)) i hi
  · rw [hu] at hidle ⊢
    rw [phase_numbered] at hidle
    exact (marks_resume_of_not_suspended hidle w).1

/-- A pause between two notes: the verb is run, refuses to be run again, is resumed to its end, is not
resumed again, and is then run anew and cancelled. -/
theorem history_eq_episodes_pause :
    let v : Verb Trace.TraceAction :=
      { id := "use", steps := [⟨"note", .note {}⟩, ⟨"pause", .pause {}⟩, ⟨"note", .note {}⟩] }
    let w : Trace.World := {}
    let calls := [Call.run w, .run w, .resume w, .resume w, .run w, .cancel, .resume w]
    v.numbered.history calls = episode 3 ++ episode 2 ∧
      ∃ ks : List Nat, v.numbered.history calls = ks.flatMap episode := by
  intro v w calls
  obtain ⟨-, ⟨n, ks, hmarks, hn, -⟩, -⟩ := history_eq_episodes v calls
  have hnew : v.phase = .notStarted := rfl
  obtain rfl := hn fun i => by simp [hnew]
  exact ⟨by decide +kernel, ks, hmarks⟩

end Verb

end VerbScript
