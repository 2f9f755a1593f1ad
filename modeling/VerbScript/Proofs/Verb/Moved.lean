import VerbScript.Proofs.Basic
import VerbScript.Verb.RuntimeState

/-!
# What the life of a verb does to its steps

Running, resuming and cancelling a verb and handing it a runtime state change its steps in place:
each action is executed, cancelled or restored some number of times (`Step.Moved`), and nothing else
about the verb changes but its pointer, which stays within the steps (`Verb.Moved`). What these
three operations keep is therefore kept by a whole run.
-/

namespace VerbScript

variable {α ω : Type} [Action α ω]

/-- The step `t` is what executions, cancellations and restorations can make of the step `s`. -/
inductive Step.Moved (s : Step α) : Step α → Prop where
  | refl : Moved s s
  | execute {t : Step α} (h : Moved s t) (w : ω) :
      Moved s { t with action := (Action.execute t.action w).action }
  | cancel {t : Step α} (h : Moved s t) {a : α} {events : List Log.Event}
      (ha : Action.cancel? t.action = some (a, events)) : Moved s { t with action := a }
  | restore {t : Step α} (h : Moved s t) {p : Progress α}
      (hp : Action.progress? t.action = some p) (payload : Json) :
      Moved s { t with action := (p.restore payload).2 }

namespace Step.Moved

variable {s t u : Step α}

theorem trans (hst : s.Moved t) (htu : t.Moved u) : s.Moved u := by
  induction htu with
  | refl => exact hst
  | execute _ w ih => exact .execute ih w
  | cancel _ ha ih => exact .cancel ih ha
  | restore _ hp payload ih => exact .restore ih hp payload

theorem kind_eq (h : s.Moved t) : t.kind = s.kind := by
  induction h with
  | refl => rfl
  | execute _ _ ih => exact ih
  | cancel _ _ ih => exact ih
  | restore _ _ _ ih => exact ih

theorem refl_list (steps : List (Step α)) : List.Forall₂ Step.Moved steps steps :=
  List.forall₂_same.2 fun _ _ => .refl

theorem trans_list {ss ts us : List (Step α)} (hst : List.Forall₂ Step.Moved ss ts)
    (htu : List.Forall₂ Step.Moved ts us) : List.Forall₂ Step.Moved ss us :=
  forall₂_comp hst htu fun _ _ _ => trans

end Step.Moved

/-- The steps `s` and `t` are what can be made of one step. -/
def Step.Kin (s t : Step α) : Prop := ∃ s₀ : Step α, s₀.Moved s ∧ s₀.Moved t

theorem Step.kin_of_moved {ss₀ ss ts : List (Step α)} (hss : List.Forall₂ Step.Moved ss₀ ss)
    (hts : List.Forall₂ Step.Moved ss₀ ts) : List.Forall₂ Step.Kin ss ts := by
  induction hss generalizing ts with
  | nil =>
    cases hts
    exact .nil
  | cons hs _ ih =>
    cases hts with
    | cons ht htail => exact .cons ⟨_, hs, ht⟩ (ih htail)

/-! ## Sweeps -/

/-- A sweep executes the first of its steps, and then goes on with the others, unless the step blocks
or fails under the aborting policy. -/
theorem sweep_cons (policy : FailurePolicy) (verb : String) (i : Nat) (s : Step α)
    (rest : List (Step α)) (w : ω) :
    let x := Action.execute s.action w
    let s' : Step α := { s with action := x.action }
    (∃ events, x.result ≠ .ok .blocking ∧ sweep policy verb i (s :: rest) w =
        (sweep policy verb (i + 1) rest x.world).after s' events) ∨
      (∃ events, x.result = .ok .blocking ∧ sweep policy verb i (s :: rest) w =
        ⟨s' :: rest, x.world, .blocked i, events⟩) ∨
      ∃ e events, x.result = .error e ∧ sweep policy verb i (s :: rest) w =
        ⟨s' :: rest, x.world, .failed i s.kind e, events⟩ := by
  intro x s'
  rw [sweep]
  cases (Action.execute s.action w).result with
  | ok status =>
    cases status with
    | done => exact .inl ⟨_, nofun, rfl⟩
    | blocking => exact .inr (.inl ⟨_, rfl, rfl⟩)
  | error e =>
    cases policy with
    | proceed => exact .inl ⟨_, nofun, rfl⟩
    | abort => exact .inr (.inr ⟨e, _, rfl, rfl⟩)

/-- A sweep executes the steps that it passes, and leaves the others as they are. -/
theorem forall₂_sweep {R : Step α → Step α → Prop} (hrefl : ∀ s, R s s)
    (hexecute : ∀ s w, R s { s with action := (Action.execute s.action w).action })
    (policy : FailurePolicy) (verb : String) (i : Nat) (steps : List (Step α)) (w : ω) :
    List.Forall₂ R steps (sweep policy verb i steps w).steps := by
  induction steps generalizing i w with
  | nil => exact .nil
  | cons s rest ih =>
    rcases sweep_cons policy verb i s rest w with ⟨_, -, h⟩ | ⟨_, -, h⟩ | ⟨_, _, -, h⟩
    · rw [h]
      exact .cons (hexecute s w) (ih _ _)
    all_goals
      rw [h]
      exact .cons (hexecute s w) (List.forall₂_same.2 fun t _ => hrefl t)

theorem sweep_moved (policy : FailurePolicy) (verb : String) (i : Nat) (steps : List (Step α))
    (w : ω) : List.Forall₂ Step.Moved steps (sweep policy verb i steps w).steps :=
  forall₂_sweep (fun _ => .refl) (fun _ => .execute .refl) policy verb i steps w

/-- The index of the step at which a sweep stopped, unless it passed them all. -/
def Halt.index? : Halt → Option Nat
  | finished => none
  | blocked i => some i
  | failed i _ _ => some i

/-- A sweep that does not pass all steps stops at one of them. -/
theorem sweep_index {policy : FailurePolicy} {verb : String} {i j : Nat} {steps : List (Step α)}
    {w : ω} (h : (sweep policy verb i steps w).halt.index? = some j) :
    i ≤ j ∧ j < i + steps.length := by
  induction steps generalizing i w with
  | nil => cases h
  | cons s rest ih =>
    rw [List.length_cons]
    rcases sweep_cons policy verb i s rest w with ⟨_, -, hs⟩ | ⟨_, -, hs⟩ | ⟨_, _, -, hs⟩
    · rw [hs] at h
      have := ih h
      omega
    all_goals
      rw [hs] at h
      cases h
      omega

/-- A sweep stops at a step that fails only under the aborting policy. -/
theorem policy_of_failed {policy : FailurePolicy} {verb : String} {i j : Nat}
    {steps : List (Step α)} {w : ω} {kind : String} {cause : ActionError}
    (h : (sweep policy verb i steps w).halt = .failed j kind cause) : policy = .abort := by
  induction steps generalizing i w with
  | nil => cases h
  | cons s rest ih =>
    cases policy with
    | abort => rfl
    | proceed =>
      rw [sweep] at h
      cases hresult : (Action.execute s.action w).result with
      | error e =>
        rw [hresult] at h
        exact ih h
      | ok status =>
        rw [hresult] at h
        cases status with
        | done => exact ih h
        | blocking => cases h

/-- How many of `n` steps, the first of which has the index `i`, a sweep has executed. -/
def Halt.executed (i n : Nat) : Halt → Nat
  | finished => n
  | blocked j => j + 1 - i
  | failed j _ _ => j + 1 - i

theorem Halt.executed_of_index? {i k n : Nat} {halt : Halt} (h : halt.index? = some k) :
    halt.executed i n = k + 1 - i := by
  cases halt with
  | finished => cases h
  | blocked | failed =>
    cases h
    rfl

theorem Halt.executed_cons {i n : Nat} {halt : Halt} (h : ∀ j, halt.index? = some j → i + 1 ≤ j) :
    halt.executed i (n + 1) = halt.executed (i + 1) n + 1 := by
  cases halt with
  | finished => rfl
  | blocked j | failed j _ _ =>
    have := h j rfl
    simp only [executed]
    omega

/-! ## Cancelling and restoring -/

theorem cancelSteps_cons (s : Step α) (rest : List (Step α)) :
    (cancelSteps (s :: rest)).1 =
      (match Action.cancel? s.action with
        | some (action, _) => { s with action }
        | none => s) :: (cancelSteps rest).1 := by
  rw [cancelSteps]
  cases Action.cancel? s.action with
  | none => rfl
  | some r => rfl

/-- Every action is cancelled that can be, and the others are left as they are. -/
theorem forall₂_cancelSteps {R : Step α → Step α → Prop}
    (hkeep : ∀ s, Action.cancel? s.action = none → R s s)
    (hcancel : ∀ s a events, Action.cancel? s.action = some (a, events) → R s { s with action := a })
    (steps : List (Step α)) : List.Forall₂ R steps (cancelSteps steps).1 := by
  induction steps with
  | nil => exact .nil
  | cons s rest ih =>
    rw [cancelSteps_cons]
    split
    · next a events ha => exact .cons (hcancel s a events ha) ih
    · next hnone => exact .cons (hkeep s hnone) ih

theorem cancelSteps_moved (steps : List (Step α)) :
    List.Forall₂ Step.Moved steps (cancelSteps steps).1 :=
  forall₂_cancelSteps (fun _ _ => .refl) (fun _ _ _ ha => .cancel .refl ha) steps

theorem RuntimeState.restore_moved (index : Nat) (steps : List (Step α)) (entries : List Json) :
    List.Forall₂ Step.Moved steps (restore index steps entries).2 := by
  induction steps generalizing index entries with
  | nil => exact .nil
  | cons s rest ih =>
    rw [restore]
    split
    · exact .cons .refl (ih _ _)
    · next p hp =>
      split
      · exact Step.Moved.refl_list _
      · next e entries =>
        have hs : s.Moved { s with action := (p.restore e).2 } := .restore .refl hp e
        split
        · next heq => exact .cons (by rwa [heq] at hs) (Step.Moved.refl_list rest)
        · next heq => exact .cons (by rwa [heq] at hs) (ih _ _)

/-! ## Verbs -/

/-- The pointer of a verb is before its steps, at one of them or behind them. -/
def Verb.InRange (v : Verb α) : Prop := notStarted ≤ v.ip ∧ v.ip ≤ v.steps.length

/-- The verb `w` is what running, resuming, cancelling and reading runtime states can make of the
verb `v`. -/
structure Verb.Moved (v w : Verb α) : Prop where
  id_eq : w.id = v.id
  policy_eq : w.policy = v.policy
  steps : List.Forall₂ Step.Moved v.steps w.steps
  inRange : v.InRange → w.InRange

namespace Verb

variable {v u w : Verb α}

theorem Moved.refl (v : Verb α) : v.Moved v := ⟨rfl, rfl, Step.Moved.refl_list v.steps, fun h => h⟩

theorem Moved.trans (hvu : v.Moved u) (huw : u.Moved w) : v.Moved w where
  id_eq := huw.id_eq.trans hvu.id_eq
  policy_eq := huw.policy_eq.trans hvu.policy_eq
  steps := Step.Moved.trans_list hvu.steps huw.steps
  inRange h := huw.inRange (hvu.inRange h)

/-- A verb with moved steps and a pointer within them has moved. -/
theorem moved_of_steps {steps : List (Step α)} {ip : Int}
    (h : List.Forall₂ Step.Moved v.steps steps) (hlow : notStarted ≤ ip)
    (hhigh : ip ≤ v.steps.length) : v.Moved { v with steps, ip } :=
  ⟨rfl, rfl, h, fun _ => ⟨hlow, h.length_eq ▸ hhigh⟩⟩

theorem moved_cancel (v : Verb α) : v.Moved v.cancel.1 := by
  rw [cancel]
  split
  · exact .refl v
  · exact moved_of_steps (cancelSteps_moved v.steps) (by simp only [notStarted]; omega) (Int.le_refl _)

/-- A sweep from one of the steps on, or from behind them, moves the verb. -/
theorem moved_runFrom {start : Nat} (hstart : start ≤ v.steps.length) (x : ω) :
    v.Moved (v.runFrom start x).verb := by
  have hsteps : List.Forall₂ Step.Moved v.steps (v.steps.take start ++
      (sweep v.policy v.id start (v.steps.drop start) x).steps) :=
    forall₂_take_append (fun _ => .refl) (sweep_moved v.policy v.id start (v.steps.drop start) x)
  have hindex (j : Nat)
      (h : (sweep v.policy v.id start (v.steps.drop start) x).halt.index? = some j) :
      (j : Int) ≤ v.steps.length := by
    have := (sweep_index h).2
    rw [List.length_drop] at this
    omega
  have hlow (j : Nat) : notStarted ≤ (j : Int) := by
    simp only [notStarted]
    omega
  rw [runFrom]
  split
  · exact moved_of_steps hsteps (hlow _) (Int.le_of_eq (congrArg Nat.cast hsteps.length_eq.symm))
  · next i hi => exact moved_of_steps hsteps (hlow i) (hindex i (by rw [hi]; rfl))
  · next i kind cause hi =>
    exact (moved_of_steps hsteps (hlow i) (hindex i (by rw [hi]; rfl))).trans (moved_cancel _)

theorem moved_run (v : Verb α) (x : ω) : v.Moved (v.run x).verb := by
  rw [run]
  split
  · exact .refl v
  · exact moved_runFrom (Nat.zero_le _) x

theorem lt_length_of_phase {ip : Nat} (h : v.phase = .suspended ip) : ip < v.steps.length := by
  rw [phase] at h
  split at h
  · next i hi =>
    cases h
    rw [current?] at hi
    split at hi
    · cases hi
      omega
    · cases hi
  · split at h
    · cases h
    · cases h

theorem moved_resume (v : Verb α) (x : ω) : v.Moved (v.resume x).verb := by
  rw [resume]
  split
  · exact .refl v
  · exact .refl v
  · next ip hip => exact moved_runFrom (lt_length_of_phase hip) x

/-- A runtime state that is refused as a whole changes nothing; another one sets the pointer, and
the steps take over what they can. -/
theorem moved_readRuntimeState (v : Verb α) (payload : Json) :
    v.Moved (v.readRuntimeState payload).value.2 := by
  rw [readRuntimeState]
  split
  · exact .refl v
  · next ip entries _ =>
    split
    · exact .refl v
    · have hmoved : v.Moved { v with steps := (RuntimeState.restore 0 v.steps entries).2, ip } :=
        moved_of_steps (RuntimeState.restore_moved 0 v.steps entries) (by omega) (by omega)
      cases hrestore : RuntimeState.restore 0 v.steps entries with
      | mk result steps =>
        rw [hrestore] at hmoved
        cases result with
        | error e => exact hmoved
        | ok applied => exact hmoved

end Verb

end VerbScript
