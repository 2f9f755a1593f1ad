import VerbScript.Proofs.Catalog.Configured
import VerbScript.Proofs.Demo.Loop
import VerbScript.Proofs.Number.FloatOrder
import VerbScript.Proofs.Verb.LifeCycle

/-!
# A verb that runs waits for its own timer

The only step that blocks is a wait, and it arms the timer for when its own time is over
(`execute_blocking`, `sweep_blocked`). So while a verb runs and is suspended, the timer is the one
of the wait it is suspended at, whatever the session has been through before: a run goes on behind
each of its waits once, when the wait is over (`Session.Comes.onTime`), and it is never stuck
(`Session.not_stalled`).
-/

namespace VerbScript.Demo

/-! ## Waits -/

/-- The time that a wait takes, where it is set. -/
def DemoAction.time? : DemoAction → Option Float
  | .wait a => a.time
  | _ => none

/-- The step is a wait that has begun, takes a positive time and is over at `deadline`. -/
inductive WaitsUntil (s : Step DemoAction) : Float → Prop where
  | wait {a : Wait} {time startedAt : Float} (ha : s.action = .wait a) (htime : a.time = some time)
      (hpos : 0.0 < time) (hstarted : a.startedAt = some startedAt) :
      WaitsUntil s (startedAt + time)

/-- An action that blocks is a wait, and has armed the timer for when it is over. -/
theorem execute_blocking {a : DemoAction} {w : World} (hfinite : ∀ x ∈ a.time?, x.isFinite = true)
    (h : (Action.execute a w).result = .ok .blocking) (kind : String) :
    ∃ deadline, WaitsUntil ⟨kind, (Action.execute a w).action⟩ deadline ∧
      (Action.execute a w).world.resumeAt = some deadline := by
  cases a with
  | sound a =>
    simp only [Action.execute, Execution.mapAction] at h
    split at h
    · cases h
    · cases h
  | wait a =>
    obtain ⟨comment, time, startedAt⟩ := a
    cases time with
    | none =>
      have hnone : (Option.none : Option Float).getD 0.0 ≤ 0.0 := Number.zero_le_zero
      simp only [Action.execute, Execution.mapAction, hnone, if_true] at h
      cases h
    | some time =>
      by_cases hle : time ≤ 0.0
      · simp only [Action.execute, Execution.mapAction, Option.getD_some, hle, if_true] at h
        cases h
      · have hpos := Number.pos_of_not_le_zero (hfinite time rfl) hle
        refine ⟨w.clock + time, ?_⟩
        simp only [Action.execute, Execution.mapAction, Option.getD_some, hle, if_false,
          World.scheduleResume, hpos, if_true, and_true]
        exact .wait rfl rfl hpos rfl
  | text a => cases h
  | setState a =>
    simp only [Action.execute, Execution.mapAction] at h
    split at h
    · cases h
    · cases h
  | fail a => cases h

/-- A sweep that a step blocks leaves the timer armed for when that step, a wait, is over. -/
theorem sweep_blocked {policy : FailurePolicy} {verb : String} {i k : Nat}
    {steps : List (Step DemoAction)} {w : World}
    (hfinite : ∀ s ∈ steps, ∀ x ∈ s.action.time?, x.isFinite = true)
    (h : (sweep policy verb i steps w).halt = .blocked k) :
    ∃ s deadline, (sweep policy verb i steps w).steps[k - i]? = some s ∧ WaitsUntil s deadline ∧
      (sweep policy verb i steps w).world.resumeAt = some deadline := by
  induction steps generalizing i w with
  | nil => cases h
  | cons s rest ih =>
    obtain ⟨hs, hrest⟩ := List.forall_mem_cons.1 hfinite
    rcases sweep_cons policy verb i s rest w with ⟨_, -, hsweep⟩ | ⟨_, hblocking, hsweep⟩ |
      ⟨_, _, -, hsweep⟩
    · rw [hsweep] at h ⊢
      obtain ⟨u, deadline, hu, hwaits, htimer⟩ := ih hrest h
      have hk := (sweep_index (congrArg Halt.index? h)).1
      refine ⟨u, deadline, ?_, hwaits, htimer⟩
      have hindex : k - i = k - (i + 1) + 1 := by omega
      rw [Sweep.after, hindex, List.getElem?_cons_succ, hu]
    · rw [hsweep] at h ⊢
      cases h
      obtain ⟨deadline, hwaits, htimer⟩ := execute_blocking hs hblocking s.kind
      exact ⟨_, deadline, by rw [Nat.sub_self, List.getElem?_cons_zero], hwaits, htimer⟩
    · rw [hsweep] at h
      cases h

/-- An armed timer fires only when its time is over. -/
theorem World.le_of_fst_advance {w : World} {deadline dt : Float} (h : w.resumeAt = some deadline)
    (hfires : (w.advance dt).value.1 = true) : deadline ≤ w.clock + dt + timerTolerance := by
  simp only [advance, h] at hfires
  split at hfires
  · next hle => exact hle
  · cases hfires

/-! ## Verbs -/

/-- The times that waits take are finite, as the registry refuses others. -/
theorem finite_time {s : Step DemoAction} (hs : registry.Configured s) :
    ∀ x ∈ s.action.time?, x.isFinite = true := by
  intro x hx
  obtain ⟨k, hsound⟩ := registry_lawful.sound hs
  cases ha : s.action with
  | wait a =>
    rw [ha] at hx
    have htime : a.time = some x := hx
    have hvalue : Action.property? s.action "time" = some (.float x) := by
      rw [ha]
      simp [Action.property?, htime]
    have hid : k.id = "wait" := by rw [← hsound.tag_eq, ha]; rfl
    have hdeclared : ⟨"time", .float⟩ ∈ k.properties := by
      have hmem := hsound.mem
      simp only [registry, kinds, List.mem_cons, List.not_mem_nil, or_false] at hmem
      rcases hmem with rfl | rfl | rfl | rfl | rfl
      all_goals simp_all
    cases hsound.admits _ hdeclared _ hvalue with
    | float hfinite => exact hfinite
  | _ => rw [ha] at hx; cases hx

/-- A turn from the index `start` on that leaves the verb suspended leaves it at a wait, and leaves
the timer armed for when the wait is over. -/
def ArmsTimer (start : Nat) (turn : Turn DemoAction World) : Prop :=
  ∀ ip, turn.outcome = .ok (.suspended ip) → start ≤ ip ∧ turn.verb.phase = .suspended ip ∧
    ∃ s deadline, turn.verb.steps[ip]? = some s ∧ WaitsUntil s deadline ∧
      turn.world.resumeAt = some deadline

variable {v : Verb DemoAction}

theorem armsTimer_runFrom (hsteps : ∀ s ∈ v.steps, registry.Configured s) {start : Nat}
    (hstart : start ≤ v.steps.length) (w : World) : ArmsTimer start (v.runFrom start w) := by
  intro ip h
  have hphase := (Verb.agrees_runFrom hstart w).ok _ h
  obtain ⟨hworld, -, ⟨-, houtcome, -⟩ | ⟨i, hhalt, hle, -, houtcome, hverb⟩ |
    ⟨_, _, _, -, -, -, houtcome, -⟩⟩ := v.runFrom_cases hstart w
  · cases houtcome.symm.trans h
  · cases houtcome.symm.trans h
    obtain ⟨s, deadline, hs, hwaits, htimer⟩ := sweep_blocked
      (fun s hs => finite_time (hsteps s (List.mem_of_mem_drop hs))) hhalt
    refine ⟨hle, hphase, s, deadline, ?_, hwaits, hworld ▸ htimer⟩
    have htake : (v.steps.take start).length = start := by
      rw [List.length_take, Nat.min_eq_left hstart]
    rw [hverb, List.getElem?_append_right (htake.symm ▸ hle), htake, hs]
  · cases houtcome.symm.trans h

theorem armsTimer_run (hsteps : ∀ s ∈ v.steps, registry.Configured s) (w : World) :
    ArmsTimer 0 (v.run w) := by
  by_cases h : ∃ i, v.phase = .suspended i
  · obtain ⟨i, hi⟩ := h
    rw [Verb.run_of_suspended hi]
    exact nofun
  · rw [Verb.run_of_not_suspended (not_exists.1 h)]
    exact armsTimer_runFrom hsteps (Nat.zero_le _) w

theorem armsTimer_resume (hsteps : ∀ s ∈ v.steps, registry.Configured s) {ip : Nat}
    (hip : v.phase = .suspended ip) (w : World) : ArmsTimer (ip + 1) (v.resume w) := by
  rw [Verb.resume_of_suspended hip]
  exact armsTimer_runFrom hsteps (Verb.phase_eq_suspended_iff.1 hip).2 w

/-! ## Sessions -/

namespace Session

open Program (run)

variable {s : Session DemoAction} {id : String}

theorem Sound.configured (h : Sound Demo.registry s) (hv : s.catalog.get? id = some v) :
    ∀ t ∈ v.steps, Demo.registry.Configured t := h.reached.configured id v hv

/-- The verb is suspended at a wait that is over at `deadline`. -/
def Awaits (s : Session DemoAction) (id : String) (ip : Nat) (deadline : Float) : Prop :=
  ∃ v step, s.catalog.get? id = some v ∧ v.phase = .suspended ip ∧ v.steps[ip]? = some step ∧
    WaitsUntil step deadline

/-- The verb is suspended at a wait, and the timer is armed for when the wait is over. -/
def AwaitsTimer (s : Session DemoAction) (id : String) (ip : Nat) : Prop :=
  ∃ deadline, s.Awaits id ip deadline ∧ s.world.resumeAt = some deadline

/-- A verb that a call leaves suspended awaits the timer. -/
theorem awaitsTimer_called {f : Verb DemoAction → World → Turn DemoAction World} {start : Nat}
    (hf : ∀ v, s.catalog.get? id = some v → ArmsTimer start (f v s.world)) {ip : Nat}
    (h : (s.called id f).1 = .ok (.suspended ip)) :
    start ≤ ip ∧ (s.called id f).2.AwaitsTimer id ip := by
  cases hv : s.catalog.get? id with
  | none => rw [called, hv] at h; cases h
  | some v =>
    rw [called_of_get? hv] at h ⊢
    obtain ⟨hle, hphase, step, deadline, hstep, hwaits, htimer⟩ := hf v hv ip (eq_ok_of_mapError h)
    exact ⟨hle, deadline, ⟨_, step, Catalog.get?_set_self hv _, hphase, hstep, hwaits⟩, htimer⟩

/-- The verb is suspended at a wait that is over. -/
def HasAwaited (s : Session DemoAction) (id : String) (ip : Nat) : Prop :=
  ∃ deadline, s.Awaits id ip deadline ∧ deadline ≤ s.world.clock + World.timerTolerance

/-- What the waits have come to by an outcome: a verb that is suspended awaits the timer, behind the
waits at which it was resumed; it was resumed once at each of these, when the wait was over. -/
abbrev OnTime (id : String) :
    List (Nat × Session DemoAction) → Except Error Phase × Session DemoAction → Prop :=
  InOrder (fun ip s => s.AwaitsTimer id ip) fun ip s => s.HasAwaited id ip

theorem onTime_called (hs : Sound Demo.registry s) : OnTime id [] (s.called id Verb.run) :=
  inOrder_nil fun _ h =>
    (awaitsTimer_called (fun _ hv => armsTimer_run (hs.configured hv) s.world) h).2

/-- A timer that fires in a tick is over by the time that the tick has come to. -/
theorem le_clock_of_fires {deadline : Float} (h : s.world.resumeAt = some deadline)
    (hfires : s.fires = true) : deadline ≤ s.advanced.world.clock + World.timerTolerance := by
  rw [world_advanced]
  exact World.le_of_fst_advance h hfires

/-- A verb whose wait is not over waits on. -/
theorem AwaitsTimer.advanced {ip : Nat} (h : s.AwaitsTimer id ip) (hwaits : s.fires = false) :
    s.advanced.AwaitsTimer id ip := by
  obtain ⟨deadline, hawaits, htimer⟩ := h
  exact ⟨deadline, hawaits, (resumeAt_advanced_of_not_fires hwaits).trans htimer⟩

/-- A verb is resumed because its wait is over. -/
theorem OnTime.resume {turns : List (Nat × Session DemoAction)} {ip : Nat}
    (hs : Sound Demo.registry s) (h : OnTime id turns (.ok (.suspended ip), s))
    (hfires : s.fires = true) :
    OnTime id (turns ++ [(ip, s.advanced)]) (s.advanced.called id Verb.resume) := by
  obtain ⟨⟨deadline, hawaits, htimer⟩, -⟩ := h.suspended ip rfl
  refine InOrder.resume h ⟨deadline, hawaits, le_clock_of_fires htimer hfires⟩ fun k hk => ?_
  obtain ⟨v, step, hv, hphase, -, -⟩ := hawaits
  refine awaitsTimer_called (fun w hw => ?_) hk
  cases hv.symm.trans hw
  exact armsTimer_resume (hs.configured hv) hphase _

variable {φ : Type} {answer : φ → (r : Request) → r.Answer × φ} {store after : φ}
  {plan : Option SavePlan} {ticks : Nat} {resumed : List (Nat × Session DemoAction)}
  {outcome : Except Error Phase × Session DemoAction}

theorem Comes.onTime (hs : Sound Demo.registry s) (hsaves : SavesKept answer store s id plan)
    (h : Comes answer store s id plan ticks resumed outcome after) : OnTime id resumed outcome :=
  h.induction (motive := fun _ => OnTime id) hs (hsaves.savesBy hs) (onTime_called hs)
    (fun _ _ _ _ _ _ hsame ht => hsame ▸ ht)
    (fun _ _ _ _ _ hwaits ht => ht.kept fun hawaits => hawaits.advanced hwaits)
    fun _ _ _ _ hsound hfires ht => OnTime.resume hsound ht hfires

/-- A run is never stuck with a verb that waits for no timer. -/
theorem not_stalled (hs : Sound Demo.registry s) (hsaves : SavesKept answer store s id plan)
    (verb : String) (ip : Nat) :
    (run answer store (s.runVerb id plan)).1.1 ≠ .error (.stalled verb ip) := by
  intro hstalled
  obtain ⟨ticks, resumed, outcome, after, h, hends⟩ := exists_ends answer store s id plan
  generalize (run answer store (s.runVerb id plan)).1 = result at hstalled hends
  cases hends with
  | failed =>
    cases hstalled
    rcases h.error_cases with herror | ⟨_, herror⟩
    · cases herror
    · cases herror
  | finished => cases hstalled
  | stalled hidle =>
    obtain ⟨⟨deadline, -, htimer⟩, -⟩ := (h.onTime hs hsaves).suspended _ rfl
    rw [htimer] at hidle
    cases hidle
  | tooManyTicks => cases hstalled
  | notSaved _ _ hsave =>
    obtain ⟨-, cause, rfl⟩ := h.not_saved hs hsave
    cases hstalled

/-- While a verb runs and is suspended, it is suspended at a wait that takes a positive time, and the
timer is armed for when that wait is over, whatever the session has been through before. So the verb
is resumed at each of its waits at most once, and not before that wait is over, and no run is stuck
with a verb that waits for no timer. -/
theorem awaitsTimer_of_driven (hs : Driven Demo.registry s)
    (hsaves : SavesKept answer store s id plan) :
    (∀ ticks resumed ip t after,
      Comes answer store s id plan ticks resumed (.ok (.suspended ip), t) after →
        t.AwaitsTimer id ip) ∧
    (∀ ticks resumed outcome after, Comes answer store s id plan ticks resumed outcome after →
      (∀ r ∈ resumed, ∃ deadline, r.2.Awaits id r.1 deadline ∧
        deadline ≤ r.2.world.clock + World.timerTolerance) ∧
      (resumed.map Prod.fst).Pairwise (· < ·)) ∧
    ∀ verb ip, (run answer store (s.runVerb id plan)).1.1 ≠ .error (.stalled verb ip) := by
  refine ⟨fun ticks resumed ip t after h => ?_, fun ticks resumed outcome after h => ?_,
    not_stalled hs.sound hsaves⟩
  · exact ((h.onTime hs.sound hsaves).suspended ip rfl).1
  · exact ⟨(h.onTime hs.sound hsaves).each, (h.onTime hs.sound hsaves).ascending⟩

/-- A verb is run while another one is left suspended, with a timer of its own. -/
theorem awaitsTimer_of_driven_lever :
    let wait (time : Int) : Json := .object [("kind", .string "wait"), ("time", .int time)]
    let definitions : Json := .object [("verbs", .array [
      .object [("id", .string "look"), ("actions", .array [wait 9])],
      .object [("id", .string "use"), ("actions", .array [wait 0, wait 2])]])]
    ∃ new s : Session DemoAction,
      (Session.load Demo.registry definitions .proceed).value = .ok new ∧
      s = (run Tree.answer {} (new.runVerb "look" (some ⟨1, ""⟩))).1.2 ∧
      (s.catalog.get? "look").map Verb.phase = some (.suspended 0) ∧
      s.world.resumeAt.isSome = true ∧
      (∃ t after,
        Comes Tree.answer {} s "use" (some ⟨3, "save"⟩) 0 [] (.ok (.suspended 1), t) after ∧
          t.AwaitsTimer "use" 1) ∧
      ∀ verb ip, (run Tree.answer {} (s.runVerb "use" (some ⟨3, "save"⟩))).1.1 ≠
        .error (.stalled verb ip) := by
  intro wait definitions
  let new : Session DemoAction :=
    { registry := Demo.registry, definitions, policy := .proceed
      catalog := (Catalog.loadDefinitions {} Demo.registry definitions).value.2 }
  have hnew : (Session.load Demo.registry definitions .proceed).value = .ok new :=
    value_load (by decide +kernel)
  -- the run of the first verb is given up, as its save has no name
  let s := (run Tree.answer {} (new.runVerb "look" (some ⟨1, ""⟩))).1.2
  have hs : Driven Demo.registry s := .runVerb (.load hnew) Tree.answer {} "look" (some ⟨1, ""⟩)
  have hsavable : ∀ t ∈ waiting? "use" 2 (s.called "use" Verb.run), t.Savable := by decide +kernel
  have hsaves : SavesKept Tree.answer {} s "use" (some ⟨3, "save"⟩) :=
    savesKept_some Tree.keeps_save hsavable
  obtain ⟨hawaits, -, hnever⟩ := awaitsTimer_of_driven hs hsaves
  have hcalled : (s.called "use" Verb.run).1.toOption = some (.suspended 1) := by decide +kernel
  obtain ⟨events, hrun⟩ := Program.run_of_logged? Tree.answer (logged?_callVerb s "use" Verb.run) {}
  generalize s.called "use" Verb.run = outcome at hcalled hrun
  obtain ⟨_ | phase, t⟩ := outcome
  · cases hcalled
  · cases hcalled
    have hcomes : Comes Tree.answer {} s "use" (some ⟨3, "save"⟩) 0 [] (.ok (.suspended 1), t) _ :=
      .called hrun
    exact ⟨new, s, hnew, rfl, by decide +kernel, by decide +kernel,
      ⟨t, _, hcomes, hawaits _ _ _ _ _ hcomes⟩, hnever⟩

end Session

end VerbScript.Demo
