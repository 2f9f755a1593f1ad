import VerbScript.Proofs.Demo.Reload

/-!
# What a run passes through

A run comes to an outcome after the call with which it starts and after each of its ticks
(`Session.Comes`), and from one of these it comes to its end (`Session.Ends`,
`Session.exists_ends`). What a save makes of the session depends on what is read back. If the text is
read back as it was written (`Session.TextKept`), a save that does not fail leaves the session as it
was but for the times; if the times read back as well (`Session.SavesKept`), it leaves the session as
it was. Whatever it is that the saves of a run keep (`Session.SavesBy`), it holds of all outcomes if
the calls and the ticks keep it too (`Session.Comes.induction`).
-/

namespace VerbScript.Demo.Session

open Program (run logged)

section

variable {α φ : Type} [Action α World]

/-! ## Outcomes -/

/-- The tick that comes after so many others begins: the session `t` waits for a timer and is saved, if
that is due, and the time then passes for the session `u`. -/
structure BeginsTick (answer : φ → (r : Request) → r.Answer × φ) (plan : Option SavePlan) (ticks : Nat)
    (t : Session α) (before : φ) (u : Session α) (saved : φ) : Prop where
  armed : t.world.resumeAt.isNone = false
  ticks_lt : ticks < maxTicks
  run_eq : run answer before (t.saveIfDue plan (ticks + 1)) = ((.ok (), u), saved)

/-- The run of a verb comes to an outcome and a storage: after the call with which it starts, and
after each tick that passes while the verb is suspended. The verb waits on in a tick, or it is resumed
as the timer fires. So many ticks have passed, and in these the verb has been resumed so often, the
first time first: at these indices, in these sessions. -/
inductive Comes (answer : φ → (r : Request) → r.Answer × φ) (store : φ) (s : Session α)
    (id : String) (plan : Option SavePlan) :
    Nat → List (Nat × Session α) → Except Error Phase × Session α → φ → Prop where
  | called {outcome : Except Error Phase × Session α} {after : φ}
      (hcall : run answer store (s.callVerb id Verb.run) = (outcome, after)) :
      Comes answer store s id plan 0 [] outcome after
  | waited {ticks ip : Nat} {resumed : List (Nat × Session α)} {t u : Session α} {before saved : φ}
      (h : Comes answer store s id plan ticks resumed (.ok (.suspended ip), t) before)
      (hbegins : BeginsTick answer plan ticks t before u saved) (hwaits : u.fires = false) :
      Comes answer store s id plan (ticks + 1) resumed (.ok (.suspended ip), u.advanced)
        (logged answer saved (u.world.advance tickLength).events)
  | resumed {ticks ip : Nat} {resumed : List (Nat × Session α)} {t u : Session α}
      {before saved after : φ} {outcome : Except Error Phase × Session α}
      (h : Comes answer store s id plan ticks resumed (.ok (.suspended ip), t) before)
      (hbegins : BeginsTick answer plan ticks t before u saved) (hfires : u.fires = true)
      (hcall : run answer (logged answer saved (u.world.advance tickLength).events)
        (u.advanced.callVerb id Verb.resume) = (outcome, after)) :
      Comes answer store s id plan (ticks + 1) (resumed ++ [(ip, u.advanced)]) outcome after

/-- What a run comes to from an outcome without another tick. -/
inductive Ends (answer : φ → (r : Request) → r.Answer × φ) (id : String) (plan : Option SavePlan)
    (ticks : Nat) (store : φ) :
    Except Error Phase × Session α → Except Error RunSummary × Session α → Prop where
  | failed {e : Error} {t : Session α} : Ends answer id plan ticks store (.error e, t) (.error e, t)
  | finished {phase : Phase} {t : Session α} (hphase : ∀ ip, phase ≠ .suspended ip) :
      Ends answer id plan ticks store (.ok phase, t) (.ok (t.summary id ticks), t)
  | stalled {ip : Nat} {t : Session α} (hidle : t.world.resumeAt.isNone = true) :
      Ends answer id plan ticks store (.ok (.suspended ip), t) (.error (.stalled id ip), t)
  | tooManyTicks {ip : Nat} {t : Session α} (harmed : t.world.resumeAt.isNone = false)
      (hticks : ticks = maxTicks) :
      Ends answer id plan ticks store (.ok (.suspended ip), t) (.error (.tooManyTicks id ticks), t)
  | notSaved {ip : Nat} {t u : Session α} {e : Error} (harmed : t.world.resumeAt.isNone = false)
      (hticks : ticks < maxTicks)
      (hsave : (run answer store (t.saveIfDue plan (ticks + 1))).1 = (.error e, u)) :
      Ends answer id plan ticks store (.ok (.suspended ip), t) (.error e, u)

variable {answer : φ → (r : Request) → r.Answer × φ} {store after : φ} {s : Session α} {id : String}
  {plan : Option SavePlan} {ticks : Nat} {resumed : List (Nat × Session α)}
  {outcome : Except Error Phase × Session α} {t u : Session α} {before saved : φ}

/-- What follows an outcome is what follows the tick that begins then. -/
theorem BeginsTick.run_goOn (h : BeginsTick answer plan ticks t before u saved) (id : String) (ip : Nat) :
    run answer before (goOn id plan (maxTicks - ticks) ticks (.ok (.suspended ip), t)) =
      run answer saved
        (u.tick id (.suspended ip) >>= goOn id plan (maxTicks - (ticks + 1)) (ticks + 1)) := by
  rw [maxTicks_sub h.ticks_lt, goOn_succ h.armed, Program.run_bind, h.run_eq]

/-- Where no save is due, the tick begins at once. -/
theorem BeginsTick.eq_of_not_due (h : BeginsTick answer plan ticks t before u saved)
    (hdue : ∀ p ∈ plan, p.atTick ≠ ticks + 1) : u = t ∧ saved = before := by
  have hnotDue : t.saveIfDue plan (ticks + 1) = pure (.ok (), t) := by
    cases plan with
    | none => rfl
    | some p => exact if_neg (hdue p rfl)
  have hrun := h.run_eq
  rw [hnotDue] at hrun
  cases hrun
  exact ⟨rfl, rfl⟩

theorem Comes.ticks_le (h : Comes answer store s id plan ticks resumed outcome after) :
    ticks ≤ maxTicks := by
  cases h with
  | called => exact Nat.zero_le _
  | waited _ hbegins | resumed _ hbegins => exact hbegins.ticks_lt

/-- An outcome is an error because there is no such verb, or because a turn failed. -/
theorem Comes.error_cases {e : Error}
    (h : Comes answer store s id plan ticks resumed (.error e, t) after) :
    e = .unknownVerb id ∨ ∃ cause, e = .verb cause := by
  cases h with
  | called hcall | resumed _ _ _ hcall =>
    exact error_of_called (congrArg Prod.fst (called_of_run hcall)).symm

/-- The run is what follows any outcome that it comes to. -/
theorem Comes.run_eq (h : Comes answer store s id plan ticks resumed outcome after) :
    run answer store (s.runVerb id plan) =
      run answer after (goOn id plan (maxTicks - ticks) ticks outcome) := by
  induction h with
  | called hcall => rw [runVerb_eq, Program.run_bind, hcall, Nat.sub_zero]
  | waited _ hbegins hwaits ih =>
    rw [ih, hbegins.run_goOn, Program.run_bind, run_tick_of_not_fires hwaits]
  | resumed _ hbegins hfires hcall ih =>
    rw [ih, hbegins.run_goOn, Program.run_bind, run_tick_of_fires hfires, hcall]

/-- Another tick passes once it begins. -/
theorem Comes.exists_ticked {ip : Nat}
    (h : Comes answer store s id plan ticks resumed (.ok (.suspended ip), t) before)
    (hbegins : BeginsTick answer plan ticks t before u saved) :
    ∃ resumed outcome after, Comes answer store s id plan (ticks + 1) resumed outcome after := by
  cases hfires : u.fires with
  | false => exact ⟨_, _, _, .waited h hbegins hfires⟩
  | true => exact ⟨_, _, _, .resumed h hbegins hfires rfl⟩

/-- From an outcome that it comes to, a run comes to its end, or another tick passes. -/
theorem Comes.ends_or_ticked (h : Comes answer store s id plan ticks resumed outcome after) :
    Ends answer id plan ticks after outcome (run answer store (s.runVerb id plan)).1 ∨
      ∃ resumed outcome after, Comes answer store s id plan (ticks + 1) resumed outcome after := by
  rw [h.run_eq]
  obtain ⟨_ | phase, t⟩ := outcome
  · exact .inl .failed
  · cases phase with
    | suspended ip =>
      cases harmed : t.world.resumeAt.isNone with
      | true =>
        rw [goOn_of_idle id plan ticks harmed]
        exact .inl (.stalled harmed)
      | false =>
        obtain hticks | hticks := Nat.eq_or_lt_of_le h.ticks_le
        · rw [hticks, Nat.sub_self, goOn_zero id plan maxTicks harmed]
          exact .inl (.tooManyTicks harmed rfl)
        · rw [maxTicks_sub hticks, goOn_succ harmed, Program.run_bind]
          cases hsave : run answer after (t.saveIfDue plan (ticks + 1)) with
          | mk reloaded saved =>
            obtain ⟨result, u⟩ := reloaded
            cases result with
            | error e => exact .inl (.notSaved harmed hticks (congrArg Prod.fst hsave))
            | ok => exact .inr (h.exists_ticked ⟨harmed, hticks, hsave⟩)
    | _ =>
      rw [goOn_of_not_suspended id plan ticks fun _ h => by cases h]
      exact .inl (.finished nofun)

/-- A run comes to an outcome from which it comes to its end. -/
theorem exists_ends (answer : φ → (r : Request) → r.Answer × φ) (store : φ) (s : Session α)
    (id : String) (plan : Option SavePlan) :
    ∃ ticks resumed outcome after, Comes answer store s id plan ticks resumed outcome after ∧
      Ends answer id plan ticks after outcome (run answer store (s.runVerb id plan)).1 := by
  -- The count of ticks that are left decreases from one outcome to the next.
  suffices hends : ∀ left ticks resumed outcome after,
      Comes answer store s id plan ticks resumed outcome after → maxTicks - ticks = left →
        ∃ ticks resumed outcome after, Comes answer store s id plan ticks resumed outcome after ∧
          Ends answer id plan ticks after outcome (run answer store (s.runVerb id plan)).1 from
    hends _ 0 [] _ _ (.called rfl) rfl
  intro left
  induction left with
  | zero =>
    intro ticks resumed outcome after h hleft
    rcases h.ends_or_ticked with hends | ⟨resumed, outcome, after, hnext⟩
    · exact ⟨ticks, resumed, outcome, after, h, hends⟩
    · have := hnext.ticks_le
      omega
  | succ left ih =>
    intro ticks resumed outcome after h hleft
    rcases h.ends_or_ticked with hends | ⟨resumed, outcome, after, hnext⟩
    · exact ⟨ticks, resumed, outcome, after, h, hends⟩
    · exact ih _ _ _ _ hnext (by omega)

variable {r : Registry α}

theorem BeginsTick.sound (h : BeginsTick answer plan ticks t before u saved) (ht : Sound r t) :
    Sound r u := by
  have hreloaded := (ht.saveIfDue plan (ticks + 1)).run answer before
  rwa [h.run_eq] at hreloaded

/-- Whatever is answered, the session of an outcome is sound. -/
theorem Comes.sound (hs : Sound r s)
    (h : Comes answer store s id plan ticks resumed outcome after) : Sound r outcome.2 := by
  induction h with
  | called hcall =>
    rw [called_of_run hcall]
    exact hs.called_run id
  | waited _ hbegins _ ih => exact (hbegins.sound ih).advanced
  | resumed _ hbegins _ hcall ih =>
    rw [called_of_run hcall]
    exact (hbegins.sound ih).advanced.called_resume id

/-- Whatever the storage answers, a save that fails leaves the session as it was. -/
theorem Comes.not_saved {ip : Nat} {e : Error} (hs : Sound r s)
    (h : Comes answer store s id plan ticks resumed (.ok (.suspended ip), t) after)
    (hsave : (run answer after (t.saveIfDue plan (ticks + 1))).1 = (.error e, u)) :
    u = t ∧ ∃ cause, e = .save cause := by
  cases plan with
  | none => cases hsave
  | some p =>
    rw [saveIfDue] at hsave
    split at hsave
    · exact (h.sound hs).saveAndReload_error hsave
    · cases hsave

/-- A run ends in the session of the outcome from which it comes to its end. -/
theorem Comes.snd_ends (hs : Sound r s)
    (h : Comes answer store s id plan ticks resumed outcome after)
    {ran : Except Error RunSummary × Session α}
    (hends : Ends answer id plan ticks after outcome ran) : ran.2 = outcome.2 := by
  cases hends with
  | notSaved _ _ hsave => exact (h.not_saved hs hsave).1
  | _ => rfl

/-! ## What saves keep -/

/-- Each session of the run for which a tick begins is related to the one for which the time then passes,
after a save that is due. -/
def SavesBy (R : Session α → Session α → Prop) (answer : φ → (r : Request) → r.Answer × φ) (store : φ)
    (s : Session α) (id : String) (plan : Option SavePlan) : Prop :=
  ∀ {ticks ip : Nat} {resumed : List (Nat × Session α)} {t u : Session α} {before saved : φ},
    Comes answer store s id plan ticks resumed (.ok (.suspended ip), t) before →
      BeginsTick answer plan ticks t before u saved → R t u

/-- Induction over the outcomes of a run: it starts with a call, and ticks pass while the verb is
suspended, in which it waits on or is resumed. -/
theorem Comes.induction {R : Session α → Session α → Prop} (hs : Sound r s)
    (hsaves : SavesBy R answer store s id plan)
    {motive : Nat → List (Nat × Session α) → Except Error Phase × Session α → Prop}
    (called : motive 0 [] (s.called id Verb.run))
    (saved : ∀ ticks resumed ip t u, Sound r t → R t u →
      motive ticks resumed (.ok (.suspended ip), t) → motive ticks resumed (.ok (.suspended ip), u))
    (waited : ∀ ticks resumed ip t, Sound r t → t.fires = false →
      motive ticks resumed (.ok (.suspended ip), t) →
        motive (ticks + 1) resumed (.ok (.suspended ip), t.advanced))
    (resumed : ∀ ticks resumed ip t, Sound r t → t.fires = true →
      motive ticks resumed (.ok (.suspended ip), t) →
        motive (ticks + 1) (resumed ++ [(ip, t.advanced)]) (t.advanced.called id Verb.resume))
    {turns : List (Nat × Session α)}
    (h : Comes answer store s id plan ticks turns outcome after) : motive ticks turns outcome := by
  induction h with
  | called hcall =>
    cases called_of_run hcall
    exact called
  | waited h hbegins hwaits ih =>
    have ht := h.sound hs
    exact waited _ _ _ _ (hbegins.sound ht) hwaits (saved _ _ _ _ _ ht (hsaves h hbegins) ih)
  | resumed h hbegins hfires hcall ih =>
    have ht := h.sound hs
    cases called_of_run hcall
    exact resumed _ _ _ _ (hbegins.sound ht) hfires (saved _ _ _ _ _ ht (hsaves h hbegins) ih)

/-! ## The order of resumptions -/

/-- By an outcome, a verb that is suspended is so as `P` tells, behind the steps at which it was resumed;
it was resumed once at each of these, and as `Q` tells. -/
structure InOrder (P Q : Nat → Session α → Prop) (turns : List (Nat × Session α))
    (outcome : Except Error Phase × Session α) : Prop where
  suspended : ∀ ip, outcome.1 = .ok (.suspended ip) → P ip outcome.2 ∧ ∀ r ∈ turns, r.1 < ip
  each : ∀ r ∈ turns, Q r.1 r.2
  ascending : (turns.map Prod.fst).Pairwise (· < ·)

section

variable {P Q : Nat → Session α → Prop} {turns : List (Nat × Session α)} {ip : Nat}

omit [Action α World] in
theorem inOrder_nil (h : ∀ ip, outcome.1 = .ok (.suspended ip) → P ip outcome.2) :
    InOrder P Q [] outcome :=
  ⟨fun ip hip => ⟨h ip hip, nofun⟩, nofun, .nil⟩

omit [Action α World] in
theorem InOrder.kept (h : InOrder P Q turns (.ok (.suspended ip), t)) (hkept : P ip t → P ip u) :
    InOrder P Q turns (.ok (.suspended ip), u) := by
  refine ⟨fun k hk => ?_, h.each, h.ascending⟩
  cases hk
  exact (h.suspended ip rfl).imp_left hkept

omit [Action α World] in
/-- A verb that is resumed at its step is suspended again, if at all, behind it. -/
theorem InOrder.resume (h : InOrder P Q turns (.ok (.suspended ip), t)) (hresumed : Q ip u)
    (hnext : ∀ k, outcome.1 = .ok (.suspended k) → ip < k ∧ P k outcome.2) :
    InOrder P Q (turns ++ [(ip, u)]) outcome := by
  obtain ⟨-, hbefore⟩ := h.suspended ip rfl
  refine ⟨fun k hk => ?suspended, fun r hr => ?each, ?ascending⟩
  case suspended =>
    obtain ⟨hlt, hk⟩ := hnext k hk
    refine ⟨hk, fun r hr => ?_⟩
    obtain hr | hr := List.mem_append.1 hr
    · exact Nat.lt_trans (hbefore r hr) hlt
    · cases List.mem_singleton.1 hr
      exact hlt
  case each =>
    obtain hr | hr := List.mem_append.1 hr
    · exact h.each r hr
    · cases List.mem_singleton.1 hr
      exact hresumed
  case ascending =>
    rw [List.map_append, List.pairwise_append]
    refine ⟨h.ascending, List.pairwise_singleton _ _, fun i hi j hj => ?_⟩
    obtain ⟨r, hr, rfl⟩ := List.mem_map.1 hi
    cases List.mem_singleton.1 hj
    exact hbefore r hr

end

end

/-! ## Runs whose saves are read back -/

variable {φ : Type} {answer : φ → (r : Request) → r.Answer × φ} {store after : φ}
  {s : Session DemoAction} {id : String} {plan : Option SavePlan} {ticks : Nat}
  {resumed : List (Nat × Session DemoAction)} {outcome : Except Error Phase × Session DemoAction}

/-- What a run saves is read back as it was written: no other text is read than the one that was
written. -/
def TextKept (answer : φ → (r : Request) → r.Answer × φ) (store : φ) (plan : Option SavePlan) : Prop :=
  ∀ p ∈ plan, Program.Faithful answer store p.path

/-- The times that a run saves read back. -/
def TimesKept (s : Session DemoAction) (id : String) (plan : Option SavePlan) : Prop :=
  ∀ p ∈ plan, ∀ n < maxTicks, p.atTick = n + 1 →
    ∀ t ∈ waiting? id n (s.called id Verb.run), t.Savable

/-- What a run saves is read back as it was, the times among it. -/
structure SavesKept (answer : φ → (r : Request) → r.Answer × φ) (store : φ) (s : Session DemoAction)
    (id : String) (plan : Option SavePlan) : Prop where
  text : TextKept answer store plan
  times : TimesKept s id plan

theorem textKept_some {path : String} {n : Nat} (hkeeps : Program.Keeps answer store path) :
    TextKept answer store (some ⟨n, path⟩) := by
  intro p hp
  cases hp
  exact hkeeps.faithful

/-- What is saved before the tick `n + 1` is kept, if the storage keeps the file, and the times that
the session holds by then read back. -/
theorem savesKept_some {path : String} {n : Nat} (hkeeps : Program.Keeps answer store path)
    (hsavable : ∀ t ∈ waiting? id n (s.called id Verb.run), t.Savable) :
    SavesKept answer store s id (some ⟨n + 1, path⟩) := by
  refine ⟨textKept_some hkeeps, fun p hp m _ hm => ?_⟩
  cases hp
  obtain rfl : n = m := Nat.succ.inj hm
  exact hsavable

theorem savesKept_none : SavesKept answer store s id none := ⟨nofun, nofun⟩

/-- A run that is saved before the tick `n + 1` comes to what it comes to without the save. -/
theorem run_runVerb_saved (hs : Sound Demo.registry s) {path : String} {n : Nat}
    (hkeeps : Program.Keeps answer store path)
    (hsavable : ∀ t ∈ waiting? id n (s.called id Verb.run), t.Savable) :
    (run answer store (s.runVerb id (some ⟨n + 1, path⟩))).1 =
      (run answer store (s.runVerb id none)).1 := by
  obtain ⟨events, hcall⟩ := Program.run_of_logged? answer (logged?_callVerb s id Verb.run) store
  rw [runVerb_eq, runVerb_eq, Program.run_bind, Program.run_bind, hcall]
  refine run_goOn_plan id ?_ maxTicks 0 _ (hs.called_run id) fun m _ hm => ?_
  · exact hkeeps.logged events
  · obtain rfl : n = m := by simpa using hm
    exact hsavable

/-- Until a save is due, a run comes to the outcomes that it comes to without storage, and nothing is
asked of the storage but to log. -/
theorem Comes.before_save (h : Comes answer store s id plan ticks resumed outcome after)
    (hbefore : ∀ p ∈ plan, ticks < p.atTick) :
    (∃ events, after = logged answer store events) ∧
      ∀ n, waiting? id (ticks + n) (s.called id Verb.run) = waiting? id n outcome := by
  induction h with
  | called hcall =>
    obtain ⟨events, hrun⟩ := Program.run_of_logged? answer (logged?_callVerb s id Verb.run) store
    cases hcall.symm.trans hrun
    exact ⟨⟨events, rfl⟩, fun n => by rw [Nat.zero_add]⟩
  | waited _ hbegins hwaits ih =>
    obtain ⟨rfl, rfl⟩ := hbegins.eq_of_not_due fun p hp => Nat.ne_of_gt (hbefore p hp)
    obtain ⟨⟨events, rfl⟩, hwaiting⟩ := ih fun p hp => Nat.lt_of_succ_lt (hbefore p hp)
    rw [← Program.logged_append]
    refine ⟨⟨_, rfl⟩, fun n => ?_⟩
    rw [Nat.succ_add_eq_add_succ, hwaiting, waiting?_succ hbegins.armed, ticked_of_not_fires hwaits]
  | @resumed _ _ _ _ u _ _ _ _ _ hbegins hfires hcall ih =>
    obtain ⟨rfl, rfl⟩ := hbegins.eq_of_not_due fun p hp => Nat.ne_of_gt (hbefore p hp)
    obtain ⟨⟨events, rfl⟩, hwaiting⟩ := ih fun p hp => Nat.lt_of_succ_lt (hbefore p hp)
    obtain ⟨events', hrun⟩ := Program.run_of_logged? answer
      (logged?_callVerb u.advanced id Verb.resume)
      (logged answer (logged answer store events) (u.world.advance tickLength).events)
    cases hcall.symm.trans hrun
    rw [← Program.logged_append, ← Program.logged_append]
    refine ⟨⟨_, rfl⟩, fun n => ?_⟩
    rw [Nat.succ_add_eq_add_succ, hwaiting, waiting?_succ hbegins.armed, ticked_of_fires hfires]

/-- So it is where a save is due before the next tick. -/
theorem Comes.before_due (h : Comes answer store s id plan ticks resumed outcome after)
    {p : SavePlan} (hp : p ∈ plan) (hdue : p.atTick = ticks + 1) :
    (∃ events, after = logged answer store events) ∧
      ∀ n, waiting? id (ticks + n) (s.called id Verb.run) = waiting? id n outcome :=
  h.before_save fun q hq => by
    rw [Option.mem_unique hq hp, hdue]
    exact Nat.lt_succ_self ticks

/-- If the text of a save is read back, the session is reloaded as it was but for the times. -/
theorem TextKept.savesBy (hs : Sound Demo.registry s) (h : TextKept answer store plan) :
    SavesBy Reloaded answer store s id plan := by
  intro ticks ip resumed t u before saved hcomes hbegins
  by_cases hdue : ∃ p ∈ plan, p.atTick = ticks + 1
  · obtain ⟨p, hp, hdue⟩ := hdue
    obtain ⟨⟨events, rfl⟩, -⟩ := hcomes.before_due hp hdue
    have hsaved := congrArg Prod.fst hbegins.run_eq
    cases hp
    rw [saveIfDue, if_pos hdue] at hsaved
    exact reloaded_saveAndReload (hcomes.sound hs) ((h p rfl).logged events) hsaved
  · obtain ⟨rfl, -⟩ := hbegins.eq_of_not_due (by simpa using hdue)
    exact .refl u

/-- If the times of a save read back as well, the session is reloaded as it was. -/
theorem SavesKept.savesBy (hs : Sound Demo.registry s) (h : SavesKept answer store s id plan) :
    SavesBy Eq answer store s id plan := by
  intro ticks ip resumed t u before saved hcomes hbegins
  by_cases hdue : ∃ p ∈ plan, p.atTick = ticks + 1
  · obtain ⟨p, hp, hdue⟩ := hdue
    obtain ⟨⟨events, rfl⟩, hwaiting⟩ := hcomes.before_due hp hdue
    have hhere : waiting? id ticks (s.called id Verb.run) = some t := by
      rw [← Nat.add_zero ticks, hwaiting 0, waiting?, hbegins.armed]
      rfl
    have hsaved := congrArg Prod.fst hbegins.run_eq
    obtain hsame | ⟨e, herror⟩ := run_saveAndReload_of_faithful (hcomes.sound hs)
      (h.times p hp ticks hbegins.ticks_lt hdue t hhere) ((h.text p hp).logged events)
    all_goals
      cases hp
      rw [saveIfDue, if_pos hdue] at hsaved
    · exact congrArg Prod.snd (hsame.symm.trans hsaved)
    · cases herror.symm.trans hsaved
  · exact (hbegins.eq_of_not_due (by simpa using hdue)).1.symm

end VerbScript.Demo.Session
