import Mathlib.Data.List.Perm.Subperm
import Mathlib.Logic.Function.Iterate
import VerbScript.Proofs.Demo.Deeds
import VerbScript.Proofs.Demo.Outcome
import VerbScript.Proofs.Verb.Suspension

/-!
# Ticks

How long a run can take, and what it counts. Only the ticks of a run move the clock, by the same step
each (`Session.Comes.clock`), and as a verb is resumed at most once at each of its steps, and only at
steps that block (`Session.Comes.inOrder`), it is resumed at most as often as it has such steps
(`Session.Comes.length_resumed_le`). Together with what the record of a run shows, whatever its saves
come to, that accounts for every tick (`Session.ticks_of_run`).
-/

namespace VerbScript.Demo

open Program (run)

/-! ## The clock -/

/-- No action changes the clock. -/
theorem clock_execute (a : DemoAction) (w : World) :
    (Action.execute a w).world.clock = w.clock := by
  cases a with
  | sound a =>
    simp only [Action.execute, Execution.mapAction]
    split
    · rfl
    · rfl
  | wait a =>
    simp only [Action.execute, Execution.mapAction]
    split
    · rfl
    · rfl
  | text a => rfl
  | setState a =>
    simp only [Action.execute, Execution.mapAction]
    split
    · rfl
    · rfl
  | fail a => rfl

theorem clock_sweep (policy : FailurePolicy) (verb : String) (i : Nat)
    (steps : List (Step DemoAction)) (w : World) :
    (sweep policy verb i steps w).world.clock = w.clock := by
  induction steps generalizing i w with
  | nil => rfl
  | cons s rest ih =>
    have hs := clock_execute s.action w
    rcases sweep_cons policy verb i s rest w with ⟨_, -, h⟩ | ⟨_, -, h⟩ | ⟨_, _, -, h⟩
    · rw [h]
      exact (ih _ _).trans hs
    · rw [h, hs]
    · rw [h, hs]

section

variable (v : Verb DemoAction) (w : World)

theorem clock_runFrom (start : Nat) : (v.runFrom start w).world.clock = w.clock := by
  have hsweep := clock_sweep v.policy v.id start (v.steps.drop start) w
  rw [Verb.runFrom]
  split
  all_goals exact hsweep

theorem clock_run : (v.run w).world.clock = w.clock := by
  rw [Verb.run]
  split
  · rfl
  · exact clock_runFrom v w 0

theorem clock_resume : (v.resume w).world.clock = w.clock := by
  rw [Verb.resume]
  split
  · rfl
  · rfl
  · exact clock_runFrom v w _

end

/-! ## Steps that block -/

/-- Whether an action blocks does not depend on what has become of it. -/
theorem isBlocking_of_alike {s t : Step DemoAction} (h : Alike s t) (w : World) :
    isBlocking (Action.execute t.action w).result =
      isBlocking (Action.execute s.action w).result := by
  have hunstarted (a : DemoAction) : isBlocking (Action.execute a.unstarted w).result =
      isBlocking (Action.execute a w).result := by
    cases a with
    | wait a =>
      simp only [DemoAction.unstarted, Action.execute, Execution.mapAction]
      split
      · rfl
      · rfl
    | _ => rfl
  rw [← hunstarted, h.2, hunstarted]

/-- A step that waits blocks, whatever the time is. -/
theorem WaitsUntil.isBlocking {s : Step DemoAction} {deadline : Float} (h : WaitsUntil s deadline)
    (w : World) : isBlocking (Action.execute s.action w).result = true := by
  obtain ⟨ha, htime, hpos, -⟩ := h
  have hlasts := Number.not_le_zero_of_pos hpos
  simp only [ha, Action.execute, Execution.mapAction, htime, Option.getD_some, hlasts, if_false]
  rfl

/-- Ascending places of members of which `p` holds are no more than there are such members. -/
theorem length_le_countP {β : Type} {p : β → Bool} {bs : List β} {places : List Nat}
    (hascending : places.Pairwise (· < ·)) (hplaces : ∀ i ∈ places, ∃ b, bs[i]? = some b ∧ p b) :
    places.length ≤ bs.countP p := by
  have hsub : places ⊆ (bs.zipIdx.filter fun b => p b.1).map Prod.snd := by
    intro i hi
    obtain ⟨b, hb, hp⟩ := hplaces i hi
    refine List.mem_map.2 ⟨(b, i), List.mem_filter.2 ⟨?_, hp⟩, rfl⟩
    exact List.mk_mem_zipIdx_iff_getElem?.2 hb
  have hnodup : places.Nodup := hascending.imp Nat.ne_of_lt
  calc places.length
      ≤ ((bs.zipIdx.filter fun b => p b.1).map Prod.snd).length :=
        (List.Nodup.subperm hnodup hsub).length_le
    _ = (bs.zipIdx.map Prod.fst).countP p := by
        rw [List.length_map, ← List.countP_eq_length_filter, List.countP_map]
        rfl
    _ = bs.countP p := by rw [List.zipIdx_map_fst]

namespace Session

variable {s t : Session DemoAction} {id : String}

/-- How many steps of a verb block. -/
def blockingSteps (s : Session DemoAction) (id : String) (w : World) : Nat :=
  match s.catalog.get? id with
  | none => 0
  | some v => v.steps.countP fun t => isBlocking (Action.execute t.action w).result

theorem clock_called {f : Verb DemoAction → World → Turn DemoAction World}
    (hf : ∀ v, (f v s.world).world.clock = s.world.clock) (id : String) :
    (s.called id f).2.world.clock = s.world.clock := by
  cases hv : s.catalog.get? id with
  | none => rw [called, hv]
  | some v =>
    rw [called_of_get? hv]
    exact hf v

/-! ## The order of resumptions -/

/-- In the session `t` the verb has the steps that it has in the session `s`, but for the times, and it is
suspended at one of them that blocks. -/
def BlockedIn (s : Session DemoAction) (id : String) (w : World) (ip : Nat) (t : Session DemoAction) :
    Prop :=
  ∃ v u step, s.catalog.get? id = some v ∧ t.catalog.get? id = some u ∧
    List.Forall₂ Alike v.steps u.steps ∧ u.phase = .suspended ip ∧ v.steps[ip]? = some step ∧
    isBlocking (Action.execute step.action w).result

/-- A verb that a call leaves suspended is blocked. -/
theorem blockedIn_called {f : Verb DemoAction → World → Turn DemoAction World} {start : Nat}
    {v u : Verb DemoAction} (hv : s.catalog.get? id = some v) (hu : t.catalog.get? id = some u)
    (hsteps : List.Forall₂ Alike v.steps u.steps) (hmoved : u.Moved (f u t.world).verb)
    (harms : ArmsTimer start (f u t.world)) {ip : Nat}
    (h : (t.called id f).1 = .ok (.suspended ip)) (w : World) :
    start ≤ ip ∧ s.BlockedIn id w ip (t.called id f).2 := by
  rw [called_of_get? hu] at h ⊢
  obtain ⟨hle, hphase, step, deadline, hstep, hwaits, -⟩ := harms ip (eq_ok_of_mapError h)
  have hsteps := Alike.trans_list hsteps (hmoved.steps.imp fun _ _ => .of_moved)
  obtain ⟨step', hstep', halike⟩ := exists_of_getElem?_forall₂ hsteps hstep
  exact ⟨hle, v, _, step', hv, Catalog.get?_set_self hu _, hsteps, hphase, hstep',
    (isBlocking_of_alike halike w).symm.trans (hwaits.isBlocking w)⟩

/-- A save leaves the verb blocked at its step. -/
theorem BlockedIn.reloaded {u : Session DemoAction} {w : World} {ip : Nat}
    (h : s.BlockedIn id w ip t) (hreload : t.Reloaded u) : s.BlockedIn id w ip u := by
  obtain ⟨v, v', step, hv, hv', hsteps, hphase, hstep⟩ := h
  obtain ⟨v'', hv'', haligned⟩ := hreload.exists_aligned hv'
  exact ⟨v, v'', step, hv, hv'', Alike.trans_list hsteps haligned.steps,
    haligned.phase_eq.trans hphase, hstep⟩

variable {φ : Type} {answer : φ → (r : Request) → r.Answer × φ} {store after : φ}
  {plan : Option SavePlan} {ticks : Nat} {resumed : List (Nat × Session DemoAction)}
  {outcome : Except Error Phase × Session DemoAction}

/-- A verb is resumed at steps that block, in their order. -/
theorem Comes.inOrder (hs : Sound Demo.registry s) (htext : TextKept answer store plan)
    (h : Comes answer store s id plan ticks resumed outcome after) (w : World) :
    InOrder (s.BlockedIn id w) (s.BlockedIn id w) resumed outcome := by
  refine h.induction (motive := fun _ => InOrder (s.BlockedIn id w) (s.BlockedIn id w)) hs
    (htext.savesBy hs) ?called ?saved (fun _ _ _ _ _ _ ht => ht.kept fun hblocked => hblocked) ?resumed
  case called =>
    refine inOrder_nil fun ip hip => ?_
    cases hv : s.catalog.get? id with
    | none =>
      rw [Session.called, hv] at hip
      cases hip
    | some v =>
      exact (blockedIn_called hv hv (Alike.refl_list _) (v.moved_run _)
        (armsTimer_run (hs.configured hv) s.world) hip w).2
  case saved => exact fun _ _ _ _ _ _ hreload ht => ht.kept fun hblocked => hblocked.reloaded hreload
  case resumed =>
    intro _ _ ip t ht _ horder
    obtain ⟨hblocked, -⟩ := horder.suspended ip rfl
    refine horder.resume hblocked fun k hk => ?_
    obtain ⟨v, u, -, hv, hu, hsteps, hphase, -⟩ := hblocked
    exact blockedIn_called (t := t.advanced) hv hu hsteps (u.moved_resume _)
      (armsTimer_resume (ht.configured hu) hphase _) hk w

/-- A verb is resumed at most as often as it has steps that block. -/
theorem Comes.length_resumed_le (hs : Sound Demo.registry s) (htext : TextKept answer store plan)
    (h : Comes answer store s id plan ticks resumed outcome after) (w : World) :
    resumed.length ≤ s.blockingSteps id w := by
  have horder := h.inOrder hs htext w
  rw [blockingSteps, ← List.length_map Prod.fst]
  cases hv : s.catalog.get? id with
  | none =>
    have hnone : resumed = [] := List.eq_nil_iff_forall_not_mem.2 fun r hr => by
      obtain ⟨v, -, -, hv', -⟩ := horder.each r hr
      cases hv.symm.trans hv'
    rw [hnone]
    exact Nat.le_refl 0
  | some v =>
    refine length_le_countP horder.ascending fun i hi => ?_
    obtain ⟨r, hr, rfl⟩ := List.mem_map.1 hi
    obtain ⟨v', -, step, hv', -, -, -, hstep, hblocks⟩ := horder.each r hr
    cases hv.symm.trans hv'
    exact ⟨step, hstep, hblocks⟩

/-- The clock has been moved once for each tick, if the times that are saved read back. -/
theorem Comes.clock (hs : Sound Demo.registry s) (hsaves : SavesKept answer store s id plan)
    (h : Comes answer store s id plan ticks resumed outcome after) :
    outcome.2.world.clock = (· + tickLength)^[ticks] s.world.clock := by
  refine h.induction (motive := fun ticks _ outcome =>
    outcome.2.world.clock = (· + tickLength)^[ticks] s.world.clock) hs (hsaves.savesBy hs)
    ?called ?saved ?waited ?resumed
  case called => exact clock_called (fun v => clock_run v s.world) id
  case saved =>
    rintro ticks turns ip t u - rfl ht
    exact ht
  case waited =>
    intro ticks turns ip t _ _ ht
    rw [world_advanced, Function.iterate_succ_apply']
    exact congrArg (· + tickLength) ht
  case resumed =>
    intro ticks turns ip t _ _ ht
    rw [clock_called (fun v => clock_resume v _), world_advanced, Function.iterate_succ_apply']
    exact congrArg (· + tickLength) ht

/-! ## Runs that are given up -/

/-- The verb is suspended and the timer is armed. -/
def IsWaiting (s : Session DemoAction) (id : String) : Prop :=
  (∃ v ip, s.catalog.get? id = some v ∧ v.phase = .suspended ip) ∧ s.world.resumeAt.isSome = true

/-- A verb whose resumption fails has finished. -/
theorem finished_of_called_resume {v : Verb DemoAction} {ip : Nat} {e : Error}
    (hv : t.catalog.get? id = some v) (hphase : v.phase = .suspended ip)
    (herror : (t.called id Verb.resume).1 = .error e) :
    ∃ u, (t.called id Verb.resume).2.catalog.get? id = some u ∧ u.phase = .finished := by
  rw [called_of_get? hv, Verb.resume_of_suspended hphase] at herror ⊢
  cases hturn : (v.runFrom (ip + 1) t.world).outcome with
  | ok phase =>
    simp only [hturn] at herror
    cases herror
  | error cause =>
    obtain ⟨_, _, _, -, -, hfinished, -⟩ :=
      runFrom_failed (Verb.phase_eq_suspended_iff.1 hphase).2 hturn
    exact ⟨_, Catalog.get?_set_self hv _, hfinished⟩

/-- A verb whose run fails after a tick has passed has finished. -/
theorem Comes.finished_of_error (hs : Sound Demo.registry s) (htext : TextKept answer store plan)
    {e : Error} (h : Comes answer store s id plan ticks resumed (.error e, t) after)
    (hticks : ticks ≠ 0) : ∃ v, t.catalog.get? id = some v ∧ v.phase = .finished := by
  cases h with
  | called => exact absurd rfl hticks
  | resumed h hbegins _ hcall =>
    obtain ⟨-, v, hv, hphase⟩ := ((h.told hs htext).reloaded (htext.savesBy hs h hbegins)).ok _ rfl
    have hcalled := called_of_run hcall
    have hfinished := finished_of_called_resume (t := Session.advanced _) hv hphase
      (congrArg Prod.fst hcalled).symm
    rwa [← hcalled] at hfinished

/-- A run is given up exactly if its verb waits for the timer when all the ticks have passed. -/
theorem Comes.tooManyTicks_iff (hs : Sound Demo.registry s) (htext : TextKept answer store plan)
    (h : Comes answer store s id plan ticks resumed outcome after)
    {ran : Except Error RunSummary × Session DemoAction}
    (hends : Ends answer id plan ticks after outcome ran) (name : String) (n : Nat) :
    ran.1 = .error (.tooManyTicks name n) ↔
      name = id ∧ n = maxTicks ∧ ticks = maxTicks ∧ ran.2.IsWaiting id := by
  constructor
  · intro hresult
    cases hends with
    | failed =>
      cases hresult
      obtain herror | ⟨_, herror⟩ := h.error_cases
      · cases herror
      · cases herror
    | finished => cases hresult
    | stalled => cases hresult
    | tooManyTicks harmed hticks =>
      cases hresult
      obtain ⟨-, v, hv, hphase⟩ := (h.told hs htext).ok _ rfl
      exact ⟨rfl, hticks, hticks, ⟨v, _, hv, hphase⟩, by rw [← Option.not_isNone, harmed]; rfl⟩
    | notSaved _ _ hsave =>
      obtain ⟨-, _, rfl⟩ := h.not_saved hs hsave
      cases hresult
  · rintro ⟨rfl, rfl, hticks, ⟨v, ip, hv, hphase⟩, htimer⟩
    cases hends with
    | failed =>
      obtain ⟨u, hu, hfinished⟩ := h.finished_of_error hs htext (by rw [hticks]; decide)
      cases hv.symm.trans hu
      cases hphase.symm.trans hfinished
    | @finished phase _ hnot =>
      obtain ⟨-, u, hu, hphase'⟩ := (h.told hs htext).ok phase rfl
      cases hv.symm.trans hu
      exact absurd (hphase'.symm.trans hphase) (hnot ip)
    | stalled hidle =>
      rw [Option.isNone_iff_eq_none.1 hidle] at htimer
      cases htimer
    | tooManyTicks => rw [hticks]
    | notSaved _ hlt => exact absurd hticks (Nat.ne_of_lt hlt)

/-- A run leaves its verb finished exactly if it comes to its end or a step fails, after whatever tick. -/
theorem Comes.finished_iff (hs : Sound Demo.registry s) (htext : TextKept answer store plan)
    (h : Comes answer store s id plan ticks resumed outcome after)
    {ran : Except Error RunSummary × Session DemoAction}
    (hends : Ends answer id plan ticks after outcome ran) :
    (∃ v, ran.2.catalog.get? id = some v ∧ v.phase = .finished) ↔
      (∃ summary, ran.1 = .ok summary) ∨
        ∃ i kind cause, ran.1 = .error (.verb (.stepFailed id i kind cause)) := by
  have htold := h.told hs htext
  rw [h.snd_ends hs hends]
  -- a verb that is suspended has not finished
  have hrunning {u : Session DemoAction} {ip : Nat}
      (hsuspended : ∃ v, u.catalog.get? id = some v ∧ v.phase = .suspended ip) :
      ¬ ∃ v, u.catalog.get? id = some v ∧ v.phase = .finished := by
    rintro ⟨v, hv, hfinished⟩
    obtain ⟨_, hv', hphase⟩ := hsuspended
    cases hv.symm.trans hv'
    cases hfinished.symm.trans hphase
  cases hends with
  | @failed e t =>
    have htells : Tells id plan s t e := htold.error e rfl
    cases e with
    | unknownVerb name =>
      obtain ⟨-, hnone, rfl⟩ := htells
      simp [hnone]
    | verb cause =>
      cases cause with
      | alreadyRunning name ip =>
        obtain ⟨-, hsuspended, rfl⟩ := htells
        simpa using hrunning hsuspended
      | stepFailed name i kind cause =>
        obtain ⟨rfl, -, v, hv, hfinished, -⟩ := htells
        exact iff_of_true ⟨v, hv, hfinished⟩ (.inr ⟨i, kind, cause, rfl⟩)
      | notSuspended => exact htells.elim
    | _ =>
      obtain herror | ⟨_, herror⟩ := h.error_cases
      · cases herror
      · cases herror
  | @finished phase t hnot =>
    obtain ⟨hstarted, v, hv, hphase⟩ := htold.ok phase rfl
    refine iff_of_true ⟨v, hv, hphase.trans ?_⟩ (.inl ⟨_, rfl⟩)
    cases phase with
    | notStarted => exact absurd rfl hstarted
    | suspended ip => exact absurd rfl (hnot ip)
    | finished => rfl
  | stalled | tooManyTicks => simpa using hrunning (htold.ok _ rfl).2
  | notSaved _ _ hsave =>
    obtain ⟨-, _, rfl⟩ := h.not_saved hs hsave
    simpa using hrunning (htold.ok _ rfl).2

/-! ## Accounts -/

theorem Ends.eq_summary {ran : Except Error RunSummary × Session DemoAction} {summary : RunSummary}
    (h : Ends answer id plan ticks store outcome ran) (hok : ran.1 = .ok summary) :
    summary = outcome.2.summary id ticks := by
  cases h with
  | finished =>
    cases hok
    rfl
  | _ => cases hok

/-- The record of a run accounts for its ticks. Whatever the storage answers, time advances 600 times at
most, and once for each tick that a summary counts, and the session is saved when the plan says so. If
the text that is saved is read back, the verb is resumed at most as often as it has steps that block; a
run is given up exactly if its verb waits for the timer after the last tick; it leaves the verb finished,
after whatever tick, exactly if it comes to its end or a step fails; and, if the times read back as well,
the clock of a summary has been moved once for each tick. -/
theorem ticks_of_run (answer : φ → (r : Request) → r.Answer × φ) (store : φ)
    (s : Session DemoAction) (id : String) (plan : Option SavePlan) :
    let recorded := (run answer store ((s.recordedRun id plan).run [])).1
    let ran := recorded.1
    let deeds := recorded.2
    Prod.fst <$> (s.recordedRun id plan).run [] = s.runVerb id plan ∧
    (deeds.count .advance ≤ maxTicks ∧
      (∀ summary, ran.1 = .ok summary → summary.ticks = deeds.count .advance) ∧
      SavesOnTick plan ran.1 deeds) ∧
    (Driven Demo.registry s → TextKept answer store plan →
      (∀ w, deeds.count .resume ≤ s.blockingSteps id w) ∧
      (TimesKept s id plan → ∀ summary, ran.1 = .ok summary →
        summary.clock = (· + tickLength)^[deeds.count .advance] s.world.clock) ∧
      (∀ name n, ran.1 = .error (.tooManyTicks name n) ↔
        name = id ∧ n = maxTicks ∧ deeds.count .advance = maxTicks ∧ ran.2.IsWaiting id) ∧
      ((∃ v, ran.2.catalog.get? id = some v ∧ v.phase = .finished) ↔
        (∃ summary, ran.1 = .ok summary) ∨
          ∃ i kind cause, ran.1 = .error (.verb (.stepFailed id i kind cause)))) := by
  intro recorded ran deeds
  have herases := s.erases_recordedRun id plan
  have hran : (run answer store (s.runVerb id plan)).1 = ran := herases.fst_run answer store []
  obtain ⟨ticks, resumed, outcome, after, hcomes, hends⟩ := exists_ends answer store s id plan
  obtain ⟨whole, hlayout, hrecord⟩ := hcomes.exists_record
  obtain ⟨rest, hrest, hdeeds⟩ := hends.exists_leftover whole
  rw [hran] at hends hrest
  have hdeeds : deeds = whole ++ rest := (congrArg (fun x => x.1.2) hrecord).trans hdeeds
  have hadvances : deeds.count .advance = ticks := by
    rw [hdeeds, List.count_append, hlayout.count_advance, hrest.count_eq_zero.1, Nat.add_zero]
  have hresumes : deeds.count .resume = resumed.length := by
    rw [hdeeds, List.count_append, hlayout.count_resume, hrest.count_eq_zero.2, Nat.add_zero]
  rw [hadvances, hresumes]
  refine ⟨herases [], ⟨hcomes.ticks_le, fun summary hok => ?_, ?_⟩, fun hs htext => ?_⟩
  · rw [hends.eq_summary hok]
    rfl
  · rw [hdeeds]
    exact hlayout.savesOnTick hrest
  · refine ⟨hcomes.length_resumed_le hs.sound htext, fun htimes summary hok => ?_,
      hcomes.tooManyTicks_iff hs.sound htext hends, hcomes.finished_iff hs.sound htext hends⟩
    rw [hends.eq_summary hok]
    exact hcomes.clock hs.sound ⟨htext, htimes⟩

/-- A wait of three ticks, which is saved and reloaded before the second one. -/
theorem ticks_of_run_lever :
    let definitions : Json := .object [("verbs", .array [
      .object [("id", .string "use"), ("actions", .array
        [.object [("kind", .string "wait"), ("time", .ofFloat 0.3)],
          .object [("kind", .string "text"), ("text", .string "Click.")]])]])]
    ∃ new : Session DemoAction, ∃ summary : RunSummary,
      (Session.load Demo.registry definitions .proceed).value = .ok new ∧
      SavesKept Tree.answer {} new "use" (some ⟨2, "save"⟩) ∧
      (run Tree.answer {} (new.runVerb "use" (some ⟨2, "save"⟩))).1.1 = .ok summary ∧
      summary.ticks = 3 ∧ summary.clock = (· + tickLength)^[3] new.world.clock ∧
      new.blockingSteps "use" new.world = 1 ∧
      ∃ before rest, before.count .advance = 1 ∧ .reload ∉ before ∧ .reload ∉ rest ∧
        rest.count .resume ≤ 1 ∧
        (run Tree.answer {} ((new.recordedRun "use" (some ⟨2, "save"⟩)).run [])).1.2 =
          before ++ [.tick 2, .reload] ++ rest := by
  intro definitions
  let new : Session DemoAction :=
    { registry := Demo.registry, definitions, policy := .proceed
      catalog := (Catalog.loadDefinitions {} Demo.registry definitions).value.2 }
  have hnew : (Session.load Demo.registry definitions .proceed).value = .ok new :=
    value_load (by decide +kernel)
  have hsavable : ∀ t ∈ waiting? "use" 1 (new.called "use" Verb.run), t.Savable := by
    decide +kernel
  have hsaves : SavesKept Tree.answer {} new "use" (some ⟨2, "save"⟩) :=
    savesKept_some Tree.keeps_save hsavable
  have hblocking : new.blockingSteps "use" new.world = 1 := by decide +kernel
  obtain ⟨-, ⟨-, hticks, hplan⟩, hkept⟩ :=
    ticks_of_run Tree.answer {} new "use" (some ⟨2, "save"⟩)
  obtain ⟨hresumes, hclock, -, -⟩ := hkept (.load hnew) hsaves.text
  -- the run comes to its end, as it does without the save
  have hnone : (run Tree.answer {} (new.runVerb "use" none)).1.1.toOption.map (·.ticks) =
      some 3 := by decide +kernel
  rw [← run_runVerb_saved (sound_load hnew) Tree.keeps_save hsavable] at hnone
  have hran : (run Tree.answer {} (new.runVerb "use" (some ⟨2, "save"⟩))).1 =
      (run Tree.answer {} ((new.recordedRun "use" (some ⟨2, "save"⟩)).run [])).1.1 :=
    (new.erases_recordedRun "use" _).fst_run Tree.answer {} []
  rw [hran] at hnone
  generalize hrecorded : (run Tree.answer {} ((new.recordedRun "use" (some ⟨2, "save"⟩)).run [])).1 =
    recorded at *
  obtain ⟨⟨_ | summary, t⟩, deeds⟩ := recorded
  · cases hnone
  · have hcount : summary.ticks = 3 := Option.some.inj hnone
    rw [hticks summary rfl] at hcount
    have hclock := hclock hsaves.times summary rfl
    rw [hcount] at hclock
    obtain ⟨before, rest, hsplit, hbefore, hrest, hadvances, -⟩ := hplan.once ⟨2, "save"⟩ rfl
      (hplan.reached 2 (by decide) (by rw [hcount]; decide))
    have hresumes := (hresumes new.world).trans_eq hblocking
    dsimp only at hsplit hresumes
    rw [hsplit, List.count_append] at hresumes
    refine ⟨new, summary, hnew, hsaves, congrArg Prod.fst hran, (hticks summary rfl).trans hcount,
      hclock, hblocking, before, rest, Nat.succ.inj hadvances, hbefore, hrest, by omega, ?_⟩
    rw [hrecorded]
    exact hsplit

end Session

end VerbScript.Demo
