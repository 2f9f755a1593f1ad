import VerbScript.Demo.Hold
import VerbScript.Proofs.Demo.Timer

/-!
# Verbs that nothing will resume

Beside the demo's own kinds there may be others that block and leave the timer alone (`Untimed`). A turn
that such a step suspends leaves the timer as it was when the turn began (`timed_run`,
`timed_resume`): a wait that was passed before it would have blocked itself. A turn that resumes a verb
begins with the timer fired, so the run is stuck and says so; the turn with which a run begins finds
whatever timer was left behind, and the run is stuck exactly if there is none (`Session.stalled_of_suspends`).
Only a run that is given up leaves a timer behind (`Session.Settled.resumeAt_eq`), and such a timer resumes
the next verb that nothing else would (`Session.not_stalled_of_stale`).
-/

namespace VerbScript.Demo

variable {β : Type} [Action β World]

/-! ## Steps -/

/-- Actions that neither arm the timer nor disarm it. -/
def Untimed (β : Type) [Action β World] : Prop :=
  ∀ (b : β) (w : World), (Action.execute b w).world.resumeAt = w.resumeAt

theorem untimed_hold : Untimed Hold := fun _ _ => rfl

/-- The timer that a step which blocks has left behind: a step of the demo has armed it, and another
one has left it as it was. -/
inductive LeavesTimer (before : Option Float) : DemoAction ⊕ β → Option Float → Prop where
  | armed {a : DemoAction} {deadline : Float} : LeavesTimer before (.inl a) (some deadline)
  | left {b : β} : LeavesTimer before (.inr b) before

/-- An action of the demo arms the timer exactly if it blocks. -/
theorem DemoAction.execute_timer (a : DemoAction) (w : World) :
    ((Action.execute a w).result = .ok .blocking ∧
        (Action.execute a w).world.resumeAt.isSome = true) ∨
      ((Action.execute a w).result ≠ .ok .blocking ∧
        (Action.execute a w).world.resumeAt = w.resumeAt) := by
  cases a with
  | sound a =>
    obtain ⟨comment, sound, volume⟩ := a
    cases sound with
    | none => exact .inr ⟨by rintro ⟨⟩, rfl⟩
    | some name => exact .inr ⟨by rintro ⟨⟩, rfl⟩
  | wait a =>
    simp only [Action.execute, Execution.mapAction]
    split
    · exact .inr ⟨by rintro ⟨⟩, rfl⟩
    · exact .inl ⟨rfl, rfl⟩
  | text a => exact .inr ⟨by rintro ⟨⟩, rfl⟩
  | setState a =>
    simp only [Action.execute, Execution.mapAction]
    split
    · exact .inr ⟨by rintro ⟨⟩, rfl⟩
    · exact .inr ⟨by rintro ⟨⟩, rfl⟩
  | fail a => exact .inr ⟨by rintro ⟨⟩, rfl⟩

theorem execute_timer (hβ : Untimed β) (a : DemoAction ⊕ β) (w : World) :
    ((Action.execute a w).result = .ok .blocking →
        LeavesTimer w.resumeAt (Action.execute a w).action (Action.execute a w).world.resumeAt) ∧
      ((Action.execute a w).result ≠ .ok .blocking →
        (Action.execute a w).world.resumeAt = w.resumeAt) := by
  cases a with
  | inl a =>
    obtain ⟨hblocks, harmed⟩ | ⟨hpasses, hkept⟩ := a.execute_timer w
    · refine ⟨fun _ => ?_, fun h => absurd hblocks h⟩
      obtain ⟨deadline, hdeadline⟩ := Option.isSome_iff_exists.1 harmed
      have htimer : (Action.execute (.inl a : DemoAction ⊕ β) w).world.resumeAt = some deadline :=
        hdeadline
      rw [htimer]
      exact .armed
    · exact ⟨fun h => absurd h hpasses, fun _ => hkept⟩
  | inr b =>
    have htimer : (Action.execute (.inr b : DemoAction ⊕ β) w).world.resumeAt = w.resumeAt := hβ b w
    exact ⟨fun _ => htimer ▸ .left, fun _ => htimer⟩

/-- A sweep leaves the timer as it was, unless a step of the demo blocks it. -/
theorem sweep_timer (hβ : Untimed β) (policy : FailurePolicy) (verb : String) (i : Nat)
    (steps : List (Step (DemoAction ⊕ β))) (w : World) :
    let s := sweep policy verb i steps w
    (∀ k, s.halt = .blocked k → ∃ step, s.steps[k - i]? = some step ∧
        LeavesTimer w.resumeAt step.action s.world.resumeAt) ∧
      ((∀ k, s.halt ≠ .blocked k) → s.world.resumeAt = w.resumeAt) := by
  induction steps generalizing i w with
  | nil => exact ⟨by rintro k ⟨⟩, fun _ => rfl⟩
  | cons s rest ih =>
    obtain ⟨hblocks, hpasses⟩ := execute_timer hβ s.action w
    rcases sweep_cons policy verb i s rest w with ⟨_, hnot, hsweep⟩ | ⟨_, hblocking, hsweep⟩ |
      ⟨_, _, herror, hsweep⟩
    · obtain ⟨hrest, hkept⟩ := ih (i + 1) (Action.execute s.action w).world
      rw [hpasses hnot] at hrest hkept
      intro t
      rw [show t = _ from hsweep]
      refine ⟨fun k hk => ?_, hkept⟩
      obtain ⟨step, hstep, htimer⟩ := hrest k hk
      have hle := (sweep_index (congrArg Halt.index? hk)).1
      have hindex : k - i = k - (i + 1) + 1 := by omega
      exact ⟨step, by rw [Sweep.after, hindex, List.getElem?_cons_succ, hstep], htimer⟩
    · intro t
      rw [show t = _ from hsweep]
      refine ⟨fun k hk => ?_, fun h => absurd rfl (h i)⟩
      cases hk
      exact ⟨_, by rw [Nat.sub_self, List.getElem?_cons_zero], hblocks hblocking⟩
    · intro t
      rw [show t = _ from hsweep]
      exact ⟨by rintro k ⟨⟩, fun _ => hpasses (by rw [herror]; rintro ⟨⟩)⟩

/-! ## Turns -/

/-- A turn of a verb from the index `start` on, begun in the world `w`: if a step suspends it, the timer is
as that step leaves it, and else the timer is as it was. -/
structure Timed (start : Nat) (w : World) (turn : Turn (DemoAction ⊕ β) World) : Prop where
  suspended : ∀ ip, turn.outcome = .ok (.suspended ip) → start ≤ ip ∧ turn.verb.phase = .suspended ip ∧
    ∃ step, turn.verb.steps[ip]? = some step ∧
      LeavesTimer w.resumeAt step.action turn.world.resumeAt
  passed : (∀ ip, turn.outcome ≠ .ok (.suspended ip)) → turn.world.resumeAt = w.resumeAt

variable {v : Verb (DemoAction ⊕ β)}

theorem timed_runFrom (hβ : Untimed β) {start : Nat} (hstart : start ≤ v.steps.length) (w : World) :
    Timed start w (v.runFrom start w) := by
  obtain ⟨hblocked, hpassed⟩ := sweep_timer hβ v.policy v.id start (v.steps.drop start) w
  obtain ⟨hworld, -, ⟨hhalt, houtcome, -⟩ | ⟨i, hhalt, hle, -, houtcome, hverb⟩ |
    ⟨_, _, _, hhalt, -, -, houtcome, -⟩⟩ := v.runFrom_cases hstart w
  · rw [← hworld, hhalt] at hpassed
    refine ⟨fun ip h => ?_, fun _ => hpassed nofun⟩
    cases houtcome.symm.trans h
  · refine ⟨fun ip h => ?_, fun h => absurd houtcome (h i)⟩
    cases houtcome.symm.trans h
    obtain ⟨step, hstep, htimer⟩ := hblocked i hhalt
    refine ⟨hle, (Verb.agrees_runFrom hstart w).ok _ h, step, ?_, hworld ▸ htimer⟩
    have htake : (v.steps.take start).length = start := by
      rw [List.length_take, Nat.min_eq_left hstart]
    rw [hverb, List.getElem?_append_right (htake.symm ▸ hle), htake, hstep]
  · rw [← hworld, hhalt] at hpassed
    refine ⟨fun ip h => ?_, fun _ => hpassed nofun⟩
    cases houtcome.symm.trans h

theorem timed_run (hβ : Untimed β) (v : Verb (DemoAction ⊕ β)) (w : World) :
    Timed 0 w (v.run w) := by
  by_cases h : ∃ i, v.phase = .suspended i
  · obtain ⟨i, hi⟩ := h
    rw [Verb.run_of_suspended hi]
    exact ⟨nofun, fun _ => rfl⟩
  · rw [Verb.run_of_not_suspended (not_exists.1 h)]
    obtain ⟨hsuspended, hpassed⟩ := timed_runFrom hβ (Nat.zero_le v.steps.length) w
    exact ⟨hsuspended, hpassed⟩

/-- A verb is resumed behind the step at which it is suspended. -/
theorem timed_resume_of_suspended (hβ : Untimed β) {ip : Nat} (h : v.phase = .suspended ip) (w : World) :
    Timed (ip + 1) w (v.resume w) := by
  rw [Verb.resume_of_suspended h]
  exact timed_runFrom hβ (Verb.phase_eq_suspended_iff.1 h).2 w

theorem timed_resume (hβ : Untimed β) (v : Verb (DemoAction ⊕ β)) (w : World) :
    ∃ start, Timed start w (v.resume w) := by
  cases h : v.phase with
  | notStarted =>
    rw [Verb.resume_of_notStarted h]
    exact ⟨0, nofun, fun _ => rfl⟩
  | finished =>
    rw [Verb.resume_of_finished h]
    exact ⟨0, nofun, fun _ => rfl⟩
  | suspended ip => exact ⟨ip + 1, timed_resume_of_suspended hβ h w⟩

/-! ## Sessions -/

namespace Session

open Program (run logged)

variable {s t u : Session (DemoAction ⊕ β)} {id : String} {ip : Nat}

/-- The verb is suspended at a step with the action `a`. -/
def SuspendedAt (s : Session (DemoAction ⊕ β)) (id : String) (ip : Nat) (a : DemoAction ⊕ β) : Prop :=
  ∃ v step, s.catalog.get? id = some v ∧ v.phase = .suspended ip ∧ v.steps[ip]? = some step ∧
    step.action = a

/-- The verb is suspended at a step that is none of the demo's own. -/
def HeldAt (s : Session (DemoAction ⊕ β)) (id : String) (ip : Nat) : Prop :=
  ∃ b, s.SuspendedAt id ip (.inr b)

omit [Action β World] in
theorem heldAt_iff : s.HeldAt id ip ↔ ∃ v ∈ s.catalog.get? id, v.phase = .suspended ip ∧
    ∃ step ∈ v.steps[ip]?, step.action.isRight = true := by
  constructor
  · rintro ⟨b, v, step, hv, hphase, hstep, hb⟩
    exact ⟨v, hv, hphase, step, hstep, by rw [hb]; rfl⟩
  · rintro ⟨v, hv, hphase, step, hstep, hright⟩
    obtain ⟨b, hb⟩ := Sum.isRight_iff.1 hright
    exact ⟨b, v, step, hv, hphase, hstep, hb⟩

instance : Decidable (s.HeldAt id ip) := decidable_of_iff _ heldAt_iff.symm

omit [Action β World] in
theorem SuspendedAt.eq {a b : DemoAction ⊕ β} (h : s.SuspendedAt id ip a) (h' : s.SuspendedAt id ip b) :
    a = b := by
  obtain ⟨v, step, hv, -, hstep, rfl⟩ := h
  obtain ⟨w, step', hw, -, hstep', rfl⟩ := h'
  cases hv.symm.trans hw
  cases hstep.symm.trans hstep'
  rfl

omit [Action β World] in
/-- What a call has made of the timer: if it leaves the verb suspended, what the step does that suspends it,
and else nothing. -/
theorem timer_called {f : Verb (DemoAction ⊕ β) → World → Turn (DemoAction ⊕ β) World}
    (hf : ∀ v w, ∃ start, Timed start w (f v w)) (s : Session (DemoAction ⊕ β)) (id : String) :
    (∀ ip, (s.called id f).1 = .ok (.suspended ip) → ∃ a, (s.called id f).2.SuspendedAt id ip a ∧
        LeavesTimer s.world.resumeAt a (s.called id f).2.world.resumeAt) ∧
      ((∀ ip, (s.called id f).1 ≠ .ok (.suspended ip)) →
        (s.called id f).2.world.resumeAt = s.world.resumeAt) := by
  cases hv : s.catalog.get? id with
  | none =>
    rw [called, hv]
    exact ⟨by rintro ip ⟨⟩, fun _ => rfl⟩
  | some v =>
    rw [called_of_get? hv]
    obtain ⟨start, hsuspended, hpassed⟩ := hf v s.world
    refine ⟨fun ip h => ?_, fun h => hpassed fun ip hip => h ip (by rw [hip]; rfl)⟩
    obtain ⟨-, hphase, step, hstep, htimer⟩ := hsuspended ip (eq_ok_of_mapError h)
    exact ⟨_, ⟨_, step, Catalog.get?_set_self hv _, hphase, hstep, rfl⟩, htimer⟩

variable {φ : Type} {answer : φ → (r : Request) → r.Answer × φ} {store after : φ}
  {plan : Option SavePlan} {ticks : Nat} {resumed : List (Nat × Session (DemoAction ⊕ β))}
  {outcome : Except Error Phase × Session (DemoAction ⊕ β)}

/-- A turn of the run, begun in the first session, leaves the verb suspended at `ip` in the second: the
call with which the run starts, or one that resumes the verb as the timer fires in a tick. -/
inductive Suspends (answer : φ → (r : Request) → r.Answer × φ) (store : φ)
    (s : Session (DemoAction ⊕ β)) (id : String) (plan : Option SavePlan) :
    Session (DemoAction ⊕ β) → Nat → Session (DemoAction ⊕ β) → Prop where
  | called {ip : Nat} {t : Session (DemoAction ⊕ β)} {after : φ}
      (hcall : run answer store (s.callVerb id Verb.run) = ((.ok (.suspended ip), t), after)) :
      Suspends answer store s id plan s ip t
  | resumed {ticks k ip : Nat} {resumed : List (Nat × Session (DemoAction ⊕ β))}
      {t₀ u t : Session (DemoAction ⊕ β)} {before saved after : φ}
      (h : Comes answer store s id plan ticks resumed (.ok (.suspended k), t₀) before)
      (hbegins : BeginsTick answer plan ticks t₀ before u saved) (hfires : u.fires = true)
      (hcall : run answer (logged answer saved (u.world.advance tickLength).events)
        (u.advanced.callVerb id Verb.resume) = ((.ok (.suspended ip), t), after)) :
      Suspends answer store s id plan u.advanced ip t

theorem Suspends.comes {begun : Session (DemoAction ⊕ β)}
    (h : Suspends answer store s id plan begun ip t) : ∃ ticks resumed after,
      Comes answer store s id plan ticks resumed (.ok (.suspended ip), t) after := by
  cases h with
  | called hcall => exact ⟨_, _, _, .called hcall⟩
  | resumed h hbegins hfires hcall => exact ⟨_, _, _, .resumed h hbegins hfires hcall⟩

/-- Only the turn with which a run starts can find a timer armed. -/
theorem Suspends.begun_cases {begun : Session (DemoAction ⊕ β)}
    (h : Suspends answer store s id plan begun ip t) :
    begun = s ∨ begun.world.resumeAt = none := by
  cases h with
  | called => exact .inl rfl
  | resumed _ _ hfires => exact .inr (resumeAt_advanced_of_fires hfires)

/-- A turn leaves the timer as the step does that suspends the verb. -/
theorem Suspends.leavesTimer (hβ : Untimed β) {begun : Session (DemoAction ⊕ β)}
    (h : Suspends answer store s id plan begun ip t) :
    ∃ a, t.SuspendedAt id ip a ∧ LeavesTimer begun.world.resumeAt a t.world.resumeAt := by
  cases h with
  | called hcall =>
    have htimer := (timer_called (fun v w => ⟨0, timed_run hβ v w⟩) s id).1 ip
    rw [← called_of_run hcall] at htimer
    exact htimer rfl
  | @resumed _ _ _ _ _ u _ _ _ _ _ _ _ hcall =>
    have htimer := (timer_called (timed_resume hβ) u.advanced id).1 ip
    rw [← called_of_run hcall] at htimer
    exact htimer rfl

/-- A turn that suspends the verb at a step which is none of the demo's leaves the timer as it was when the
turn began. -/
theorem Suspends.resumeAt_eq (hβ : Untimed β) {begun : Session (DemoAction ⊕ β)}
    (h : Suspends answer store s id plan begun ip t) (hheld : t.HeldAt id ip) :
    t.world.resumeAt = begun.world.resumeAt := by
  obtain ⟨a, hat, htimer⟩ := h.leavesTimer hβ
  obtain ⟨b, hb⟩ := hheld
  rw [hat.eq hb] at htimer
  generalize t.world.resumeAt = now at htimer
  cases htimer
  rfl

/-- A run is stuck once its verb is suspended and no timer is armed. -/
theorem Comes.stalled (h : Comes answer store s id plan ticks resumed (.ok (.suspended ip), t) after)
    (hidle : t.world.resumeAt = none) :
    (run answer store (s.runVerb id plan)).1 = (.error (.stalled id ip), t) := by
  rw [h.run_eq, goOn_of_idle id plan ticks (by rw [hidle]; rfl)]
  rfl

/-- So it is stuck where a step suspends its verb that has not armed the timer, if none was armed as the turn
began. -/
theorem Suspends.stalled (hβ : Untimed β) {begun : Session (DemoAction ⊕ β)}
    (h : Suspends answer store s id plan begun ip t) (hheld : t.HeldAt id ip)
    (hidle : begun.world.resumeAt = none) :
    (run answer store (s.runVerb id plan)).1 = (.error (.stalled id ip), t) := by
  obtain ⟨_, _, _, hcomes⟩ := h.comes
  exact hcomes.stalled ((h.resumeAt_eq hβ hheld).trans hidle)

/-! ## Runs that a stale timer keeps going -/

/-- A verb that was suspended at `ip` is still there, with a timer armed, or has gone on behind it. -/
def GoesOn (id : String) (ip : Nat) (outcome : Except Error Phase × Session (DemoAction ⊕ β)) : Prop :=
  ∀ k, outcome.1 = .ok (.suspended k) →
    (∃ v, outcome.2.catalog.get? id = some v ∧ v.phase = .suspended k) ∧
      (ip < k ∨ k = ip ∧ outcome.2.world.resumeAt.isSome = true)

theorem GoesOn.called_resume (hβ : Untimed β) {k : Nat} {v : Verb (DemoAction ⊕ β)}
    (hv : s.catalog.get? id = some v) (hphase : v.phase = .suspended k) (hle : ip ≤ k) :
    GoesOn id ip (s.called id Verb.resume) := by
  intro j h
  rw [called_of_get? hv] at h ⊢
  obtain ⟨hlt, hj, -⟩ :=
    (timed_resume_of_suspended hβ hphase s.world).suspended j (eq_ok_of_mapError h)
  exact ⟨⟨_, Catalog.get?_set_self hv _, hj⟩, .inl (Nat.lt_of_le_of_lt hle hlt)⟩

omit [Action β World] in
theorem GoesOn.waited {k : Nat} (h : GoesOn id ip (.ok (.suspended k), s)) (hwaits : s.fires = false) :
    GoesOn id ip (.ok (.suspended k), s.advanced) := by
  intro j hj
  cases hj
  obtain ⟨hv, hk⟩ := h k rfl
  refine ⟨hv, hk.imp_right fun h => ⟨h.1, ?_⟩⟩
  rw [resumeAt_advanced_of_not_fires hwaits]
  exact h.2

/-- A run without a save goes on where its verb is suspended while a timer is armed. -/
theorem Comes.goesOn (hβ : Untimed β) (hcall : s.called id Verb.run = (.ok (.suspended ip), t))
    (harmed : t.world.resumeAt.isSome = true)
    (h : Comes answer store s id none ticks resumed outcome after) : GoesOn id ip outcome := by
  induction h with
  | called hrun =>
    obtain ⟨a, ⟨v, _, hv, hphase, -⟩, -⟩ :=
      (timer_called (fun v w => ⟨0, timed_run hβ v w⟩) s id).1 ip (by rw [hcall])
    rw [hcall] at hv
    intro k hk
    cases (called_of_run hrun).trans hcall
    cases hk
    exact ⟨⟨v, hv, hphase⟩, .inr ⟨rfl, harmed⟩⟩
  | waited _ hbegins hwaits ih =>
    obtain ⟨rfl, -⟩ := hbegins.eq_of_not_due nofun
    exact ih.waited hwaits
  | resumed _ hbegins _ hcall ih =>
    obtain ⟨rfl, -⟩ := hbegins.eq_of_not_due nofun
    rw [called_of_run hcall]
    obtain ⟨⟨v, hv, hphase⟩, hk⟩ := ih _ rfl
    exact .called_resume hβ hv hphase (by omega)

/-- So it is not stuck there. -/
theorem not_stalled_of_armed (hβ : Untimed β) (answer : φ → (r : Request) → r.Answer × φ) (store : φ)
    (hcall : s.called id Verb.run = (.ok (.suspended ip), t)) (harmed : t.world.resumeAt.isSome = true) :
    (run answer store (s.runVerb id none)).1.1 ≠ .error (.stalled id ip) := by
  intro hstalled
  obtain ⟨ticks, resumed, outcome, after, h, hends⟩ := exists_ends answer store s id none
  generalize (run answer store (s.runVerb id none)).1 = result at hstalled hends
  cases hends with
  | failed =>
    cases hstalled
    rcases h.error_cases with herror | ⟨_, herror⟩
    · cases herror
    · cases herror
  | finished => cases hstalled
  | stalled hidle =>
    cases hstalled
    obtain ⟨-, hlt | ⟨-, harmed⟩⟩ := h.goesOn hβ hcall harmed ip rfl
    · exact absurd hlt (Nat.lt_irrefl ip)
    · rw [Option.isNone_iff_eq_none.1 hidle] at harmed
      cases harmed
  | tooManyTicks => cases hstalled
  | notSaved _ _ hsave => cases hsave

/-! ## Sessions without a stale timer -/

/-- The errors of a run that gives its verb up while it waits. -/
inductive GivesUp : Error → Prop where
  | tooManyTicks {verb : String} {ticks : Nat} : GivesUp (.tooManyTicks verb ticks)
  | save {cause : Save.Error} : GivesUp (.save cause)
  | catalog {cause : Catalog.Error} : GivesUp (.catalog cause)

/-- The sessions that are loaded, and whose verbs are then run and cancelled, without any run that is given
up. -/
inductive Settled (r : Registry (DemoAction ⊕ β)) : Session (DemoAction ⊕ β) → Prop where
  | load {definitions : Json} {policy : FailurePolicy} {s : Session (DemoAction ⊕ β)}
      (h : (Session.load r definitions policy).value = .ok s) : Settled r s
  | runVerb {s : Session (DemoAction ⊕ β)} (hs : Settled r s) {φ : Type}
      (answer : φ → (q : Request) → q.Answer × φ) (store : φ) (id : String) (plan : Option SavePlan)
      (hends : ∀ e, (run answer store (s.runVerb id plan)).1.1 = .error e → ¬ GivesUp e) :
      Settled r (run answer store (s.runVerb id plan)).1.2
  | cancel {s : Session (DemoAction ⊕ β)} (hs : Settled r s) {id : String}
      {v : Verb (DemoAction ⊕ β)} (hv : s.catalog.get? id = some v) :
      Settled r { s with catalog := s.catalog.set id v.cancel.1 }

/-- A save that fails gives the run up. -/
theorem givesUp_saveIfDue (s : Session (DemoAction ⊕ β)) (plan : Option SavePlan) (tick : Nat) :
    (s.saveIfDue plan tick).Always fun outcome => ∀ e, outcome.1 = .error e → GivesUp e := by
  cases plan with
  | none => rintro e ⟨⟩
  | some plan =>
    rw [saveIfDue]
    split
    · rw [saveAndReload]
      refine (Program.always_true _).bind fun written _ => ?_
      cases written with
      | error cause => exact fun e h => by cases h; exact .save
      | ok =>
        refine (Program.always_true _).bind fun _ _ => ?_
        split
        · exact fun e h => by cases h; exact .catalog
        · refine (Program.always_true _).bind fun loaded _ => ?_
          obtain ⟨cause | snapshot, d⟩ := loaded
          · exact fun e h => by cases h; exact .save
          · exact (Program.always_true _).bind fun _ _ => by rintro e ⟨⟩
    · rintro e ⟨⟩

/-- Where no timer was armed before a run, none is armed once its verb waits no longer. -/
theorem Comes.idle (hβ : Untimed β) (hidle : s.world.resumeAt = none)
    (h : Comes answer store s id plan ticks resumed outcome after)
    (hnot : ∀ ip, outcome.1 ≠ .ok (.suspended ip)) : outcome.2.world.resumeAt = none := by
  cases h with
  | called hcall =>
    rw [called_of_run hcall] at hnot ⊢
    rw [(timer_called (fun v w => ⟨0, timed_run hβ v w⟩) s id).2 hnot, hidle]
  | waited => exact absurd rfl (hnot _)
  | resumed _ _ hfires hcall =>
    rw [called_of_run hcall] at hnot ⊢
    rw [(timer_called (timed_resume hβ) _ id).2 hnot, resumeAt_advanced_of_fires hfires]

/-- A run that is not given up leaves no timer behind. -/
theorem idle_runVerb (hβ : Untimed β) (hidle : s.world.resumeAt = none)
    (hends : ∀ e, (run answer store (s.runVerb id plan)).1.1 = .error e → ¬ GivesUp e) :
    (run answer store (s.runVerb id plan)).1.2.world.resumeAt = none := by
  obtain ⟨ticks, resumed, outcome, after, h, hresult⟩ := exists_ends answer store s id plan
  generalize (run answer store (s.runVerb id plan)).1 = result at hends hresult
  cases hresult with
  | failed => exact h.idle hβ hidle nofun
  | finished hphase => exact h.idle hβ hidle fun ip hip => hphase ip (Except.ok.inj hip)
  | stalled hnone => exact Option.isNone_iff_eq_none.1 hnone
  | tooManyTicks => exact absurd .tooManyTicks (hends _ rfl)
  | @notSaved _ t _ _ _ _ hsave =>
    have hgiven := (givesUp_saveIfDue t plan (ticks + 1)).run answer after
    rw [hsave] at hgiven
    exact absurd (hgiven _ rfl) (hends _ rfl)

variable {r : Registry (DemoAction ⊕ β)}

/-- Where no run was given up, no timer is left behind. -/
theorem Settled.resumeAt_eq (hβ : Untimed β) (hs : Settled r s) : s.world.resumeAt = none := by
  induction hs with
  | load h =>
    rw [Session.load, Traced.value_map] at h
    split at h
    · cases h
    · cases h
      rfl
  | runVerb _ answer store id plan hends ih => exact idle_runVerb hβ ih hends
  | cancel _ _ ih => exact ih

/-- Of a verb that a step suspends which has not armed the timer, in a session of any history: the run is
stuck there, and names the verb and the step, if the timer was not armed as the turn began, which only the
first turn of a run can find otherwise. If that one does, nothing else but the timer it finds keeps the run
going: without a save, the run is stuck at this step exactly if no timer was left behind. So where no run was
given up before, every verb that is suspended by such a step is reported as stuck. -/
theorem stalled_of_suspends (hβ : Untimed β) :
    (∀ (s begun t : Session (DemoAction ⊕ β)) {φ : Type} (answer : φ → (q : Request) → q.Answer × φ)
        (store : φ) (id : String) (plan : Option SavePlan) (ip : Nat),
      Suspends answer store s id plan begun ip t → t.HeldAt id ip →
        t.world.resumeAt = begun.world.resumeAt ∧ (begun = s ∨ begun.world.resumeAt = none) ∧
        (begun.world.resumeAt = none →
          (run answer store (s.runVerb id plan)).1 = (.error (.stalled id ip), t))) ∧
    (∀ (s t : Session (DemoAction ⊕ β)) {φ : Type} (answer : φ → (q : Request) → q.Answer × φ)
        (store : φ) (id : String) (ip : Nat),
      s.called id Verb.run = (.ok (.suspended ip), t) → t.HeldAt id ip →
        ((run answer store (s.runVerb id none)).1.1 = .error (.stalled id ip) ↔
          s.world.resumeAt = none)) ∧
    ∀ (r : Registry (DemoAction ⊕ β)) (s begun t : Session (DemoAction ⊕ β)) {φ : Type}
        (answer : φ → (q : Request) → q.Answer × φ) (store : φ) (id : String)
        (plan : Option SavePlan) (ip : Nat),
      Settled r s → Suspends answer store s id plan begun ip t → t.HeldAt id ip →
        (run answer store (s.runVerb id plan)).1 = (.error (.stalled id ip), t) := by
  refine ⟨fun s begun t _ answer store id plan ip h hheld => ?_,
    fun s t _ answer store id ip hcall hheld => ?_,
    fun r s begun t _ answer store id plan ip hs h hheld => ?_⟩
  · exact ⟨h.resumeAt_eq hβ hheld, h.begun_cases, h.stalled hβ hheld⟩
  · obtain ⟨events, hrun⟩ := Program.run_of_logged? answer (logged?_callVerb s id Verb.run) store
    rw [hcall] at hrun
    have h : Suspends answer store s id none s ip t := .called hrun
    refine ⟨fun hstalled => ?_, fun hidle => congrArg Prod.fst (h.stalled hβ hheld hidle)⟩
    by_contra harmed
    refine not_stalled_of_armed hβ answer store hcall ?_ hstalled
    rw [h.resumeAt_eq hβ hheld]
    exact Option.isSome_iff_ne_none.2 harmed
  · refine h.stalled hβ hheld ?_
    obtain rfl | hidle := h.begun_cases
    · exact hs.resumeAt_eq hβ
    · exact hidle

/-- A verb that holds is run in a session that is new, and in one whose first verb was given up. -/
theorem stalled_of_suspends_hold :
    let definitions : Json := .object [("verbs", .array [
      .object [("id", .string "look"), ("actions", .array [
        .object [("kind", .string "wait"), ("time", .int 1)]])],
      .object [("id", .string "use"), ("actions", .array [.object [("kind", .string "hold")]])]])]
    Untimed Hold ∧ ∃ new given t u : Session (DemoAction ⊕ Hold),
      (Session.load (Demo.registry.beside holdRegistry) definitions .proceed).value = .ok new ∧
      Settled (Demo.registry.beside holdRegistry) new ∧
      new.called "use" Verb.run = (.ok (.suspended 0), t) ∧ t.HeldAt "use" 0 ∧
      (run Tree.answer {} (new.runVerb "use" none)).1 = (.error (.stalled "use" 0), t) ∧
      given = (run Tree.answer {} (new.runVerb "look" (some ⟨1, ""⟩))).1.2 ∧
      given.called "use" Verb.run = (.ok (.suspended 0), u) ∧ u.HeldAt "use" 0 ∧
      u.world.resumeAt = given.world.resumeAt ∧
      (run Tree.answer {} (given.runVerb "use" none)).1.1 ≠ .error (.stalled "use" 0) := by
  intro definitions
  let r := Demo.registry.beside holdRegistry
  let new : Session (DemoAction ⊕ Hold) :=
    { registry := r, definitions, policy := .proceed
      catalog := (Catalog.loadDefinitions {} r definitions).value.2 }
  have hnew : (Session.load r definitions .proceed).value = .ok new := value_load (by decide +kernel)
  -- the run of the first verb is given up, as its save has no name
  let given := (run Tree.answer {} (new.runVerb "look" (some ⟨1, ""⟩))).1.2
  have hcalled {s : Session (DemoAction ⊕ Hold)}
      (h : (s.called "use" Verb.run).1.toOption = some (.suspended 0)) :
      s.called "use" Verb.run = (.ok (.suspended 0), (s.called "use" Verb.run).2) := by
    generalize s.called "use" Verb.run = outcome at h
    obtain ⟨_ | phase, t⟩ := outcome
    · cases h
    · cases h
      rfl
  have ht := hcalled (s := new) (by decide +kernel)
  have hu := hcalled (s := given) (by decide +kernel)
  have htheld : (new.called "use" Verb.run).2.HeldAt "use" 0 := by decide +kernel
  have huheld : (given.called "use" Verb.run).2.HeldAt "use" 0 := by decide +kernel
  obtain ⟨hall, harmed, hsettled⟩ := stalled_of_suspends untimed_hold
  obtain ⟨_, hnewRun⟩ := Program.run_of_logged? Tree.answer (logged?_callVerb new "use" Verb.run) {}
  obtain ⟨_, hgivenRun⟩ := Program.run_of_logged? Tree.answer (logged?_callVerb given "use" Verb.run) {}
  rw [ht] at hnewRun
  rw [hu] at hgivenRun
  refine ⟨untimed_hold, new, given, _, _, hnew, .load hnew, ht, htheld, ?_, rfl, hu, huheld, ?_, ?_⟩
  · exact hsettled r _ _ _ _ _ _ _ _ (.load hnew) (.called hnewRun) htheld
  · exact (hall _ _ _ Tree.answer {} "use" none 0 (.called hgivenRun) huheld).1
  · intro hstalled
    have hidle := (harmed _ _ Tree.answer {} "use" 0 hu huheld).1 hstalled
    have hleft : given.world.resumeAt.isSome = true := by decide +kernel
    rw [hidle] at hleft
    cases hleft

/-- The timer of a verb whose run was given up, and which was then cancelled, goes off while another verb
holds, and that one is resumed. -/
theorem not_stalled_of_stale :
    let definitions : Json := .object [("verbs", .array [
      .object [("id", .string "look"), ("actions", .array [
        .object [("kind", .string "wait"), ("time", .ofFloat 0.2)]])],
      .object [("id", .string "use"), ("actions", .array [.object [("kind", .string "hold")],
        .object [("kind", .string "text"), ("text", .string "never")]])]])]
    ∃ new given s t : Session (DemoAction ⊕ Hold),
      (Session.load (Demo.registry.beside holdRegistry) definitions .proceed).value = .ok new ∧
      given = (run Tree.answer {} (new.runVerb "look" (some ⟨1, ""⟩))).1.2 ∧
      (∃ v, given.catalog.get? "look" = some v ∧
        s = { given with catalog := given.catalog.set "look" v.cancel.1 }) ∧
      Driven (Demo.registry.beside holdRegistry) s ∧
      s.called "use" Verb.run = (.ok (.suspended 0), t) ∧ t.HeldAt "use" 0 ∧
      (run Tree.answer {} (s.runVerb "use" none)).1.1.isOk = true ∧
      (run Tree.answer {} (s.runVerb "use" none)).1.1 ≠ .error (.stalled "use" 0) := by
  intro definitions
  let r := Demo.registry.beside holdRegistry
  let new : Session (DemoAction ⊕ Hold) :=
    { registry := r, definitions, policy := .proceed
      catalog := (Catalog.loadDefinitions {} r definitions).value.2 }
  have hnew : (Session.load r definitions .proceed).value = .ok new := value_load (by decide +kernel)
  let given := (run Tree.answer {} (new.runVerb "look" (some ⟨1, ""⟩))).1.2
  have hlook : (given.catalog.get? "look").isSome = true := by decide +kernel
  let v := (given.catalog.get? "look").getD { id := "look" }
  have hv : given.catalog.get? "look" = some v :=
    (Option.some_get hlook).symm.trans (congrArg some (Option.get_eq_getD _))
  let s : Session (DemoAction ⊕ Hold) :=
    { given with catalog := given.catalog.set "look" v.cancel.1 }
  have hcalled : (s.called "use" Verb.run).1.toOption = some (.suspended 0) := by decide +kernel
  have hheld : (s.called "use" Verb.run).2.HeldAt "use" 0 := by decide +kernel
  have hok : (run Tree.answer {} (s.runVerb "use" none)).1.1.isOk = true := by decide +kernel
  refine ⟨new, given, s, _, hnew, rfl, ⟨v, hv, rfl⟩,
    .cancel (.runVerb (.load hnew) Tree.answer {} "look" (some ⟨1, ""⟩)) hv, ?_, hheld, hok, ?_⟩
  · generalize s.called "use" Verb.run = outcome at hcalled
    obtain ⟨_ | phase, t⟩ := outcome
    · cases hcalled
    · cases hcalled
      rfl
  · intro hstalled
    rw [hstalled] at hok
    cases hok

end Session

end VerbScript.Demo
