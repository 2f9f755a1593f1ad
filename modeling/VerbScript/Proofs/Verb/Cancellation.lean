import VerbScript.Proofs.Verb.Mirror

/-!
# Cancellation

To see how often the actions of a verb are cancelled, each of them counts its cancellations
(`Counted`), which changes nothing else about what calls on the verb do (`mirrors_counted`). A call
cuts a verb short if it cancels a verb that has not finished, or if a step fails in it under the
aborting policy (`Verb.cutsShort`). Then the verb has finished, and each of its actions that can be
cancelled has been cancelled once, wherever its step is; no other call cancels anything
(`Verb.exists_ran`). So whatever is called on a verb, such an action is cancelled as often as the verb
is cut short (`Verb.cancels_eq_cutShorts`).
-/

namespace VerbScript

variable {α ω : Type}

/-! ## Counting -/

/-- An action with the count of its cancellations. -/
structure Counted (α : Type) where
  cancels : Nat := 0
  action : α

instance [Action α ω] : Action (Counted α) ω where
  execute a w := (Action.execute a.action w).mapAction fun b => ⟨a.cancels, b⟩
  cancel? a := (Action.cancel? a.action).map fun r => (⟨a.cancels + 1, r.1⟩, r.2)

/-- The verb with actions that have not been cancelled yet. -/
def Verb.counted (v : Verb α) : Verb (Counted α) := v.map fun a => { action := a }

/-- Counting changes nothing about what an action does. -/
theorem mirrors_counted [Action α ω] : Mirrors (Counted.action : Counted α → α) where
  execute _ _ := rfl
  cancel? a := by
    simp only [Action.cancel?, Option.map_map]
    cases Action.cancel? a.action with
    | none => rfl
    | some r => rfl

theorem Verb.map_counted (v : Verb α) : v.counted.map Counted.action = v := by
  simp only [counted, map, List.map_map]
  exact congrArg (fun steps => (⟨v.id, steps, v.ip, v.policy⟩ : Verb α)) (List.map_id v.steps)

variable [Action α ω]

/-- The action `b` is what executions and cancellations can make of the action `a`. -/
inductive Lives (a : α) : α → Prop where
  | refl : Lives a a
  | execute {b : α} (h : Lives a b) (w : ω) : Lives a (Action.execute b w).action
  | cancel {b c : α} (h : Lives a b) {events : List Log.Event}
      (hb : Action.cancel? b = some (c, events)) : Lives a c

theorem Lives.trans {a b c : α} (hab : Lives a b) (hbc : Lives b c) : Lives a c := by
  induction hbc with
  | refl => exact hab
  | execute _ w ih => exact .execute ih w
  | cancel _ hb ih => exact .cancel ih hb

/-- The action can be cancelled, whatever becomes of it. -/
def Cancellable (a : α) : Prop := ∀ b, Lives a b → (Action.cancel? b).isSome

/-- The action can never be cancelled. -/
def Uncancellable (a : α) : Prop := ∀ b, Lives a b → Action.cancel? b = none

namespace Step

/-- The step `t` is what executions can make of the step `s`: it was not cancelled. -/
structure Ran (s t : Step (Counted α)) : Prop where
  cancels_eq : t.action.cancels = s.action.cancels
  lives : Lives s.action.action t.action.action

/-- The step `t` is the step `s` after a cancellation of all actions: it was cancelled once, if its
action can be cancelled. -/
structure Cut (s t : Step (Counted α)) : Prop where
  cancels_eq : t.action.cancels =
    s.action.cancels + (Action.cancel? s.action.action).isSome.toNat
  lives : Lives s.action.action t.action.action

/-- The action of `t` came from the action of `s`, and was cancelled once for each of the `n` times
that all actions were, if it can be cancelled. -/
structure Tallied (n : Nat) (s : Step α) (t : Step (Counted α)) : Prop where
  lives : Lives s.action t.action.action
  le : t.action.cancels ≤ n
  eq_of_cancellable : Cancellable s.action → t.action.cancels = n
  eq_zero : Uncancellable s.action → t.action.cancels = 0

theorem Ran.refl (s : Step (Counted α)) : s.Ran s := ⟨rfl, .refl⟩

variable {n : Nat} {s : Step α} {t u : Step (Counted α)}

theorem Tallied.ran (h : Tallied n s t) (htu : t.Ran u) : Tallied n s u where
  lives := h.lives.trans htu.lives
  le := htu.cancels_eq ▸ h.le
  eq_of_cancellable hs := htu.cancels_eq.trans (h.eq_of_cancellable hs)
  eq_zero hs := htu.cancels_eq.trans (h.eq_zero hs)

theorem Tallied.cut (h : Tallied n s t) (htu : t.Cut u) : Tallied (n + 1) s u where
  lives := h.lives.trans htu.lives
  le := by
    rw [htu.cancels_eq]
    exact Nat.add_le_add h.le (Bool.toNat_le _)
  eq_of_cancellable hs := by
    rw [htu.cancels_eq, h.eq_of_cancellable hs, hs _ h.lives]
    rfl
  eq_zero hs := by
    rw [htu.cancels_eq, h.eq_zero hs, hs _ h.lives]
    rfl

end Step

/-! ## Sweeps and cancellations -/

theorem sweep_ran (policy : FailurePolicy) (verb : String) (i : Nat)
    (steps : List (Step (Counted α))) (w : ω) :
    List.Forall₂ Step.Ran steps (sweep policy verb i steps w).steps :=
  forall₂_sweep .refl (fun _ w => ⟨rfl, .execute .refl w⟩) policy verb i steps w

theorem cancelSteps_cut (steps : List (Step (Counted α))) :
    List.Forall₂ Step.Cut steps (cancelSteps steps).1 := by
  refine forall₂_cancelSteps (fun s hnone => ?_) (fun s a events ha => ?_) steps
  · have hnone : Action.cancel? s.action.action = none := Option.map_eq_none_iff.1 hnone
    exact ⟨by simp [hnone], .refl⟩
  · obtain ⟨r, hr, heq⟩ := Option.map_eq_some_iff.1 ha
    cases heq
    exact ⟨by simp [hr], .cancel .refl hr⟩

/-! ## Calls -/

/-- A step failed in the turn, and the verb was cancelled. -/
def Turn.stepFailed (t : Turn α ω) : Bool :=
  match t.outcome with
  | .error (.stepFailed ..) => true
  | _ => false

/-- The call signals a completion, or it is a cancellation. -/
def Call.isLate : Call ω → Bool
  | .resume _ | .cancel => true
  | .run _ | .setPolicy _ => false

namespace Verb

/-- A call cuts a verb short that finishes in it because it is cancelled, be it by the call or because
a step failed. -/
def cutsShort (v : Verb α) : Call ω → Bool
  | .run w => (v.run w).stepFailed
  | .resume w => (v.resume w).stepFailed
  | .cancel => !v.isFinished
  | .setPolicy _ => false

/-- How often calls in a row cut a verb short. -/
def cutShorts (v : Verb α) : List (Call ω) → Nat
  | [] => 0
  | c :: rest => (v.cutsShort c).toNat + (v.after c).cutShorts rest

/-- A turn from one of the steps on executes steps; if one of them fails in it under the aborting
policy, all actions are cancelled then, and the verb is at its end. -/
theorem runFrom_ran (v : Verb (Counted α)) {start : Nat} (hstart : start ≤ v.steps.length) (w : ω) :
    let t := v.runFrom start w
    ∃ ran, List.Forall₂ Step.Ran v.steps ran ∧
      (t.stepFailed = false → t.verb.steps = ran) ∧
      (t.stepFailed = true → List.Forall₂ Step.Cut ran t.verb.steps ∧
        t.verb.ip = v.steps.length) := by
  intro t
  have hran : List.Forall₂ Step.Ran v.steps (v.steps.take start ++
      (sweep v.policy v.id start (v.steps.drop start) w).steps) :=
    forall₂_take_append .refl (sweep_ran v.policy v.id start (v.steps.drop start) w)
  refine ⟨_, hran, ?_⟩
  obtain ⟨-, hlength, ⟨-, houtcome, hverb⟩ | ⟨i, -, -, -, houtcome, hverb⟩ |
    ⟨i, kind, cause, -, -, hlt, houtcome, hverb⟩⟩ := v.runFrom_cases hstart w
  · simp [t, Turn.stepFailed, houtcome, hverb]
  · simp [t, Turn.stepFailed, houtcome, hverb]
  · -- the step that failed is one of the steps, so the verb had not finished
    rw [cancel_of_suspended (phase_eq_suspended_iff.2 ⟨rfl, hlt⟩)] at hverb
    simp only [t, Turn.stepFailed, houtcome, hverb]
    exact ⟨nofun, fun _ => ⟨cancelSteps_cut _, congrArg Nat.cast hlength⟩⟩

/-- A call leaves the steps of a verb as they are, or is a turn from one of them on, or cancels a verb
that has not finished. -/
theorem after_cases (v : Verb α) (c : Call ω) :
    (v.cutsShort c = false ∧ (v.after c).steps = v.steps) ∨
    (∃ start w, start ≤ v.steps.length ∧ v.after c = (v.runFrom start w).verb ∧
      v.cutsShort c = (v.runFrom start w).stepFailed) ∨
    (c = .cancel ∧ v.phase ≠ .finished) := by
  cases c with
  | run w =>
    rw [cutsShort, after]
    by_cases h : ∃ i, v.phase = .suspended i
    · obtain ⟨i, hi⟩ := h
      rw [run_of_suspended hi]
      exact .inl ⟨rfl, rfl⟩
    · rw [run_of_not_suspended (not_exists.1 h)]
      exact .inr (.inl ⟨0, w, Nat.zero_le _, rfl, rfl⟩)
  | resume w =>
    rw [cutsShort, after]
    cases hphase : v.phase with
    | notStarted =>
      rw [resume_of_notStarted hphase]
      exact .inl ⟨rfl, rfl⟩
    | suspended i =>
      rw [resume_of_suspended hphase]
      exact .inr (.inl ⟨i + 1, w, (phase_eq_suspended_iff.1 hphase).2, rfl, rfl⟩)
    | finished =>
      rw [resume_of_finished hphase]
      exact .inl ⟨rfl, rfl⟩
  | cancel =>
    rw [cutsShort, after]
    by_cases hphase : v.phase = .finished
    · rw [cancel_of_finished hphase, isFinished, decide_eq_true hphase]
      exact .inl ⟨rfl, rfl⟩
    · exact .inr (.inr ⟨rfl, hphase⟩)
  | setPolicy policy => exact .inl ⟨rfl, rfl⟩

/-- A call executes steps; if it cuts the verb short, all actions are cancelled then, and the verb is
at its end. -/
theorem exists_ran (v : Verb (Counted α)) (c : Call ω) :
    ∃ ran, List.Forall₂ Step.Ran v.steps ran ∧
      (v.cutsShort c = false → (v.after c).steps = ran) ∧
      (v.cutsShort c = true → List.Forall₂ Step.Cut ran (v.after c).steps ∧
        (v.after c).ip = v.steps.length) := by
  have hrefl : List.Forall₂ Step.Ran v.steps v.steps := List.forall₂_same.2 fun _ _ => .refl _
  rcases v.after_cases c with ⟨hkept, hsteps⟩ | ⟨start, w, hstart, hafter, hcuts⟩ | ⟨rfl, hphase⟩
  · exact ⟨v.steps, hrefl, fun _ => hsteps, fun hcut => by simp [hkept] at hcut⟩
  · rw [hafter, hcuts]
    exact runFrom_ran v hstart w
  · rw [cutsShort, after, cancel_of_not_finished hphase, isFinished, decide_eq_false hphase]
    refine ⟨v.steps, hrefl, fun hkept => ?_, fun _ => ⟨cancelSteps_cut v.steps, rfl⟩⟩
    cases hkept

/-- A verb is cut short by a cancellation, or by a step under the aborting policy. -/
theorem policy_of_cutsShort {v : Verb α} {c : Call ω} (h : v.cutsShort c = true) :
    c = .cancel ∨ v.policy = .abort := by
  rcases v.after_cases c with ⟨hkept, -⟩ | ⟨start, w, hstart, -, hcuts⟩ | ⟨rfl, -⟩
  · simp [hkept] at h
  · rw [hcuts] at h
    obtain ⟨-, -, ⟨-, houtcome, -⟩ | ⟨i, -, -, -, houtcome, -⟩ | ⟨i, kind, cause, hhalt, -⟩⟩ :=
      v.runFrom_cases hstart w
    · simp [Turn.stepFailed, houtcome] at h
    · simp [Turn.stepFailed, houtcome] at h
    · exact .inr (policy_of_failed hhalt)
  · exact .inl rfl

theorem cutsShort_map {β : Type} [Action β ω] {f : β → α} (hf : Mirrors f) (v : Verb β)
    (c : Call ω) : (v.map f).cutsShort c = v.cutsShort c := by
  cases c with
  | run w => rw [cutsShort, hf.run_map]; rfl
  | resume w => rw [cutsShort, hf.resume_map]; rfl
  | cancel => rw [cutsShort, isFinished, phase_map]; rfl
  | setPolicy policy => rfl

theorem cutShorts_map {β : Type} [Action β ω] {f : β → α} (hf : Mirrors f) (v : Verb β)
    (calls : List (Call ω)) : (v.map f).cutShorts calls = v.cutShorts calls := by
  induction calls generalizing v with
  | nil => rfl
  | cons c rest ih => rw [cutShorts, cutShorts, cutsShort_map hf, hf.after_map, ih]

/-- A verb that is cut short is at its end. -/
theorem ip_of_cutsShort {v : Verb α} {c : Call ω} (h : v.cutsShort c = true) :
    (v.after c).ip = v.steps.length := by
  have hmap := v.map_counted
  have hcut : v.counted.cutsShort c = true := by
    rw [← cutsShort_map mirrors_counted, hmap, h]
  obtain ⟨_, -, -, hip⟩ := v.counted.exists_ran c
  have hafter : (v.counted.after c).map Counted.action = v.after c := by
    rw [← mirrors_counted.after_map, hmap]
  have hlength : v.counted.steps.length = v.steps.length := List.length_map _
  rw [← hafter, ← hlength]
  exact (hip hcut).2

/-! ## Calls in a row -/

/-- Whatever is called on a verb, what can be cancelled in it is cancelled whenever it is cut
short. -/
theorem tallied_afterAll (v : Verb (Counted α)) (calls : List (Call ω)) {n : Nat}
    {steps : List (Step α)} (h : List.Forall₂ (Step.Tallied n) steps v.steps) :
    List.Forall₂ (Step.Tallied (n + v.cutShorts calls)) steps (v.afterAll calls).steps := by
  induction calls generalizing v n with
  | nil => exact h
  | cons c rest ih =>
    obtain ⟨ran, hran, hkept, hcut⟩ := v.exists_ran c
    have htallied := forall₂_comp h hran fun _ _ _ => Step.Tallied.ran
    rw [cutShorts, ← Nat.add_assoc]
    refine ih _ ?_
    cases hshort : v.cutsShort c with
    | false => exact hkept hshort ▸ htallied
    | true => exact forall₂_comp htallied (hcut hshort).1 fun _ _ _ => Step.Tallied.cut

/-! ## Late calls -/

/-- Whatever is signalled to the verb late, and however often it is cancelled, nothing happens: neither
the verb nor a world is changed, and nothing is cancelled. -/
structure Settled (v : Verb α) : Prop where
  afterAll : ∀ late : List (Call ω), (∀ c ∈ late, c.isLate = true) →
    v.afterAll late = v ∧ v.cutShorts late = 0
  resume : ∀ w : ω, (v.resume w).world = w

theorem settled_of_finished {v : Verb α} (h : v.phase = .finished) : v.Settled where
  afterAll late hlate := by
    induction late with
    | nil => exact ⟨rfl, rfl⟩
    | cons c rest ih =>
      rw [List.forall_mem_cons] at hlate
      have hc : v.after c = v ∧ v.cutsShort c = false := by
        cases c with
        | resume w => simp [after, cutsShort, Turn.stepFailed, resume_of_finished h]
        | cancel => simp [after, cutsShort, isFinished, cancel_of_finished h, h]
        | run w | setPolicy policy => cases hlate.1
      rw [Verb.afterAll, cutShorts, hc.1, hc.2, Bool.toNat_false, Nat.zero_add]
      exact ih hlate.2
  resume w := by rw [resume_of_finished h]

/-- How often each action of the verb was cancelled. -/
def cancels (v : Verb (Counted α)) : List Nat := v.steps.map fun s => s.action.cancels

/-- A call that does not cut a verb short cancels nothing. -/
theorem cancels_after {v : Verb (Counted α)} {c : Call ω} (h : v.cutsShort c = false) :
    (v.after c).cancels = v.cancels := by
  obtain ⟨_, hran, hkept, -⟩ := v.exists_ran c
  rw [cancels, cancels, hkept h, eq_comm, ← List.forall₂_eq_eq_eq, List.forall₂_map_left_iff,
    List.forall₂_map_right_iff]
  exact hran.imp fun _ _ hst => hst.cancels_eq.symm

/-- Whatever is called on a verb, each of its actions that can be cancelled, wherever its step is, is
cancelled as often as the verb is cut short, and none is cancelled more often. A call that does not cut
the verb short cancels nothing. One that does is a cancellation, or a step failed in it under the
aborting policy; it leaves the verb at its end. A verb that has finished stays as it is whatever is
signalled to it late and however often it is cancelled, and nothing is cancelled then. -/
theorem cancels_eq_cutShorts (v : Verb α) (calls : List (Call ω)) :
    let u := v.counted.afterAll calls
    let x := v.afterAll calls
    u.map Counted.action = x ∧
    List.Forall₂ (Step.Tallied (v.cutShorts calls)) v.steps u.steps ∧
    (x.phase = .finished → x.Settled) ∧
    ∀ c : Call ω,
      (x.cutsShort c = false → (u.after c).cancels = u.cancels) ∧
      (x.cutsShort c = true → (c = .cancel ∨ x.policy = .abort) ∧
        (x.after c).ip = x.steps.length ∧ (x.after c).phase = .finished ∧
        (x.after c).Settled) := by
  intro u x
  have hx : u.map Counted.action = x := by
    rw [← mirrors_counted.afterAll_map, v.map_counted]
  refine ⟨hx, ?_, settled_of_finished, fun c => ⟨fun h => ?_, fun h => ?_⟩⟩
  · have hnew : List.Forall₂ (Step.Tallied 0) v.steps v.counted.steps := by
      rw [counted, map, List.forall₂_map_right_iff, List.forall₂_same]
      exact fun s _ => ⟨.refl, Nat.le_refl 0, fun _ => rfl, fun _ => rfl⟩
    have h := v.counted.tallied_afterAll calls hnew
    rwa [Nat.zero_add, ← cutShorts_map mirrors_counted, v.map_counted] at h
  · rw [← hx, cutsShort_map mirrors_counted] at h
    exact cancels_after h
  · have hip := ip_of_cutsShort h
    have hphase : (x.after c).phase = .finished := by
      refine phase_of_ip_eq_length ?_
      rw [hip, length_after]
    exact ⟨policy_of_cutsShort h, hip, hphase, settled_of_finished hphase⟩

/-- A pause stays one, whatever becomes of it. -/
theorem cancellable_pause (a : Trace.Pause) : Cancellable (Trace.TraceAction.pause a) := by
  intro b hb
  obtain ⟨p, rfl⟩ : ∃ p, b = .pause p := by
    induction hb with
    | refl => exact ⟨a, rfl⟩
    | execute _ w ih =>
      obtain ⟨p, rfl⟩ := ih
      exact ⟨_, rfl⟩
    | cancel _ hcancel ih =>
      obtain ⟨p, rfl⟩ := ih
      cases hcancel
      exact ⟨_, rfl⟩
  rfl

/-- Two pauses, between them a note and behind them a broken action, under the aborting policy: the verb
is cancelled at the first pause, twice, and run anew until the broken action fails. -/
theorem cancels_eq_cutShorts_pause :
    let v : Verb Trace.TraceAction :=
      { id := "use"
        steps := [⟨"pause", .pause {}⟩, ⟨"note", .note {}⟩, ⟨"pause", .pause {}⟩,
          ⟨"broken", .broken {}⟩]
        policy := .abort }
    let w : Trace.World := {}
    let calls := [Call.run w, .cancel, .cancel, .run w, .resume w, .resume w, .resume w]
    v.cutShorts calls = 2 ∧ v.cutsShort (.run w) = false ∧
      ∃ first note last broken,
        (v.counted.afterAll calls).steps = [first, note, last, broken] ∧
        first.action.cancels = 2 ∧ last.action.cancels = 2 ∧ note.action.cancels ≤ 2 := by
  intro v w calls
  have hcount : v.cutShorts calls = 2 := by decide +kernel
  obtain ⟨-, hsteps, -, -⟩ := cancels_eq_cutShorts v calls
  rw [hcount] at hsteps
  generalize (v.counted.afterAll calls).steps = steps at hsteps
  refine ⟨hcount, by decide +kernel, ?_⟩
  match steps, hsteps with
  | [first, note, last, broken], .cons hfirst (.cons hnote (.cons hlast _)) =>
    exact ⟨first, note, last, broken, rfl, hfirst.eq_of_cancellable (cancellable_pause _),
      hlast.eq_of_cancellable (cancellable_pause _), hnote.le⟩

end Verb

end VerbScript
