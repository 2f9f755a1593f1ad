import VerbScript.Demo.Session
import VerbScript.Proofs.Catalog.Reached
import VerbScript.Proofs.Save.File

/-!
# Sessions that were loaded and run

What a call on a verb and a tick come to does not depend on the storage (`Session.called`,
`Session.ticked`): they only write to the log. A tick resumes the verb if the timer fires in it, and else
lets nothing but the time pass (`Session.run_tick_of_fires`, `Session.run_tick_of_not_fires`). Saving and
loading do depend on the storage, but whatever it answers, the catalog of a session is one that its
definitions and the calls on its verbs lead to (`Session.Sound`), and that is what holds of every session
that was loaded and whose verbs were then run and cancelled any number of times (`Driven.sound`).
-/

namespace VerbScript.Demo

/-- While time passes nothing happens to a world, but that its timer is armed no longer once it has fired. -/
theorem World.snd_advance (w : World) (dt : Float) :
    (w.advance dt).value.2 = { w with
      clock := w.clock + dt
      resumeAt := if (w.advance dt).value.1 then none else w.resumeAt } := by
  cases h : w.resumeAt with
  | none => simp only [advance, h, ite_self]
  | some deadline =>
    simp only [advance, h]
    split
    · rfl
    · rfl

namespace Session

open Program (run logged)

variable {α : Type} [Action α World]

/-! ## Calls and ticks without storage -/

/-- What a call on a verb comes to. -/
def called (s : Session α) (id : String) (f : Verb α → World → Turn α World) :
    Except Error Phase × Session α :=
  match s.catalog.get? id with
  | none => (.error (.unknownVerb id), s)
  | some v =>
    let turn := f v s.world
    (turn.outcome.mapError .verb,
      { s with catalog := s.catalog.set id turn.verb, world := turn.world })

/-- Whether the timer fires in the next tick. -/
def fires (s : Session α) : Bool := (s.world.advance tickLength).value.1

/-- The session once the time of the next tick has passed. -/
def advanced (s : Session α) : Session α := { s with world := (s.world.advance tickLength).value.2 }

omit [Action α World] in
theorem world_advanced (s : Session α) :
    s.advanced.world = { s.world with
      clock := s.world.clock + tickLength
      resumeAt := if s.fires then none else s.world.resumeAt } :=
  s.world.snd_advance tickLength

omit [Action α World] in
/-- A timer that fires in a tick is armed no longer. -/
theorem resumeAt_advanced_of_fires {s : Session α} (h : s.fires = true) :
    s.advanced.world.resumeAt = none := by
  rw [world_advanced]
  exact if_pos h

omit [Action α World] in
/-- A timer that does not fire in a tick stays as it is. -/
theorem resumeAt_advanced_of_not_fires {s : Session α} (h : s.fires = false) :
    s.advanced.world.resumeAt = s.world.resumeAt := by
  rw [world_advanced, h]
  rfl

/-- What a tick comes to. -/
def ticked (s : Session α) (id : String) (phase : Phase) : Except Error Phase × Session α :=
  if s.fires then s.advanced.called id Verb.resume else (.ok phase, s.advanced)

theorem ticked_of_fires {s : Session α} (h : s.fires = true) (id : String) (phase : Phase) :
    s.ticked id phase = s.advanced.called id Verb.resume := if_pos h

theorem ticked_of_not_fires {s : Session α} (h : s.fires = false) (id : String) (phase : Phase) :
    s.ticked id phase = (.ok phase, s.advanced) := by
  rw [ticked, h]
  rfl

omit [Action α World] in
theorem logged?_callVerb (s : Session α) (id : String) (f : Verb α → World → Turn α World) :
    (s.callVerb id f).logged? = some (s.called id f) := by
  simp only [callVerb, called]
  cases s.catalog.get? id with
  | none => rfl
  | some v => exact Program.logged?_bind (Program.logged?_log _) _

theorem tick_eq (s : Session α) (id : String) (phase : Phase) :
    s.tick id phase = Program.log (s.world.advance tickLength).events >>= fun _ =>
      if s.fires then s.advanced.callVerb id Verb.resume else pure (.ok phase, s.advanced) := rfl

theorem logged?_tick (s : Session α) (id : String) (phase : Phase) :
    (s.tick id phase).logged? = some (s.ticked id phase) := by
  rw [tick_eq, ticked]
  refine (Program.logged?_bind (Program.logged?_log _) _).trans ?_
  split
  · exact logged?_callVerb _ id Verb.resume
  · rfl

/-- A tick in which the timer fires resumes the verb. -/
theorem run_tick_of_fires {s : Session α} (h : s.fires = true) {φ : Type}
    (answer : φ → (r : Request) → r.Answer × φ) (store : φ) (id : String) (phase : Phase) :
    run answer store (s.tick id phase) =
      run answer (logged answer store (s.world.advance tickLength).events)
        (s.advanced.callVerb id Verb.resume) := by
  rw [tick_eq, if_pos h, Program.run_bind, Program.run_log]

/-- In a tick in which the timer does not fire, nothing but the time passes. -/
theorem run_tick_of_not_fires {s : Session α} (h : s.fires = false) {φ : Type}
    (answer : φ → (r : Request) → r.Answer × φ) (store : φ) (id : String) (phase : Phase) :
    run answer store (s.tick id phase) =
      ((.ok phase, s.advanced), logged answer store (s.world.advance tickLength).events) := by
  rw [tick_eq, h, Program.run_bind, Program.run_log]
  rfl

omit [Action α World] in
theorem called_of_run {φ : Type} {answer : φ → (r : Request) → r.Answer × φ} {store after : φ}
    {s : Session α} {id : String} {f : Verb α → World → Turn α World}
    {outcome : Except Error Phase × Session α}
    (h : run answer store (s.callVerb id f) = (outcome, after)) : outcome = s.called id f :=
  (congrArg Prod.fst h).symm.trans
    (Program.fst_run_of_logged? answer (logged?_callVerb s id f) store)

omit [Action α World] in
theorem called_of_get? {s : Session α} {id : String} {v : Verb α}
    (hv : s.catalog.get? id = some v) (f : Verb α → World → Turn α World) :
    s.called id f = ((f v s.world).outcome.mapError .verb,
      { s with catalog := s.catalog.set id (f v s.world).verb, world := (f v s.world).world }) := by
  rw [called, hv]

omit [Action α World] in
/-- A call fails because there is no such verb, or as its turn does. -/
theorem error_of_called {s : Session α} {id : String} {f : Verb α → World → Turn α World} {e : Error}
    (h : (s.called id f).1 = .error e) : e = .unknownVerb id ∨ ∃ cause, e = .verb cause := by
  cases hv : s.catalog.get? id with
  | none =>
    rw [called, hv] at h
    cases h
    exact .inl rfl
  | some v =>
    rw [called_of_get? hv] at h
    cases hturn : (f v s.world).outcome with
    | ok phase => rw [hturn] at h; cases h
    | error cause =>
      rw [hturn] at h
      cases h
      exact .inr ⟨cause, rfl⟩

/-! ## The loop -/

/-- What follows a call or a tick. -/
def goOn (id : String) (plan : Option SavePlan) (left ticks : Nat) :
    Except Error Phase × Session α → Program (Except Error RunSummary × Session α)
  | (.error e, s) => return (.error e, s)
  | (.ok phase, s) => loop id plan left ticks phase s

theorem runVerb_eq (s : Session α) (id : String) (plan : Option SavePlan) :
    s.runVerb id plan = s.callVerb id Verb.run >>= goOn id plan maxTicks 0 := by
  rw [runVerb]
  congr 1

section

variable {s : Session α} (id : String) (plan : Option SavePlan) (ticks : Nat)

omit [Action α World] in
/-- A tick takes one of the ticks that are left. -/
theorem maxTicks_sub {ticks : Nat} (h : ticks < maxTicks) :
    maxTicks - ticks = maxTicks - (ticks + 1) + 1 := by
  omega

/-- A verb that is not suspended has come to its end. -/
theorem goOn_of_not_suspended {phase : Phase} (hphase : ∀ ip, phase ≠ .suspended ip) (left : Nat) :
    goOn id plan left ticks (.ok phase, s) = pure (.ok (s.summary id ticks), s) := by
  cases phase with
  | suspended ip => exact absurd rfl (hphase ip)
  | _ => rw [goOn, loop.eq_def]

/-- A verb that waits for no timer is stuck. -/
theorem goOn_of_idle (hidle : s.world.resumeAt.isNone = true) (left ip : Nat) :
    goOn id plan left ticks (.ok (.suspended ip), s) = pure (.error (.stalled id ip), s) := by
  rw [goOn, loop.eq_def]
  simp only [hidle]
  rfl

/-- A verb that waits when no ticks are left is given up. -/
theorem goOn_zero (harmed : s.world.resumeAt.isNone = false) (ip : Nat) :
    goOn id plan 0 ticks (.ok (.suspended ip), s) = pure (.error (.tooManyTicks id ticks), s) := by
  rw [goOn, loop.eq_def]
  simp only [harmed]
  rfl

end

/-- What follows an outcome comes to its end, whatever the save plan, or the verb waits for a
timer. -/
theorem goOn_ends_or_waits (id : String) (left ticks : Nat)
    (outcome : Except Error Phase × Session α) :
    (∃ result, ∀ plan, goOn id plan left ticks outcome = pure (result, outcome.2)) ∨
      ∃ ip s left', outcome = (.ok (.suspended ip), s) ∧ left = left' + 1 ∧
        s.world.resumeAt.isNone = false := by
  obtain ⟨_ | phase, s⟩ := outcome
  · exact .inl ⟨_, fun plan => rfl⟩
  · cases phase with
    | suspended ip =>
      cases harmed : s.world.resumeAt.isNone with
      | true => exact .inl ⟨_, fun plan => goOn_of_idle id plan ticks harmed left ip⟩
      | false =>
        cases left with
        | zero => exact .inl ⟨_, fun plan => goOn_zero id plan ticks harmed ip⟩
        | succ left => exact .inr ⟨ip, s, left, rfl, rfl, harmed⟩
    | _ =>
      exact .inl ⟨_, fun plan => goOn_of_not_suspended id plan ticks (fun _ h => by cases h) left⟩

variable {s : Session α}

/-- While a verb waits, the session is saved, if that is due, and a tick passes. -/
theorem goOn_succ (harmed : s.world.resumeAt.isNone = false) (id : String)
    (plan : Option SavePlan) (left ticks ip : Nat) :
    goOn id plan (left + 1) ticks (.ok (.suspended ip), s) =
      s.saveIfDue plan (ticks + 1) >>= fun
        | (.error e, t) => pure (.error e, t)
        | (.ok (), t) => t.tick id (.suspended ip) >>= goOn id plan left (ticks + 1) := by
  rw [goOn, loop, harmed]
  rfl

/-- While a verb waits, a tick passes, if no save is due before it. -/
theorem goOn_of_not_due (harmed : s.world.resumeAt.isNone = false) (id : String)
    {plan : Option SavePlan} {ticks : Nat} (hdue : ∀ p ∈ plan, p.atTick ≠ ticks + 1)
    (left ip : Nat) :
    goOn id plan (left + 1) ticks (.ok (.suspended ip), s) =
      s.tick id (.suspended ip) >>= goOn id plan left (ticks + 1) := by
  have hsave : s.saveIfDue plan (ticks + 1) = pure (.ok (), s) := by
    cases plan with
    | none => rfl
    | some p => exact if_neg (hdue p rfl)
  rw [goOn_succ harmed, hsave]
  rfl

/-- Induction over what follows an outcome: it comes to its end, whatever the save plan, or the verb
waits for its timer and a tick less is left. -/
theorem goOn_induction (id : String)
    {motive : Nat → Nat → Except Error Phase × Session α → Prop}
    (ends : ∀ left ticks outcome result,
      (∀ plan, goOn id plan left ticks outcome = pure (result, outcome.2)) →
        motive left ticks outcome)
    (waits : ∀ left ticks ip s, s.world.resumeAt.isNone = false →
      (∀ outcome, motive left (ticks + 1) outcome) →
        motive (left + 1) ticks (.ok (.suspended ip), s))
    (left ticks : Nat) (outcome : Except Error Phase × Session α) : motive left ticks outcome := by
  induction left generalizing ticks outcome with
  | zero =>
    rcases goOn_ends_or_waits id 0 ticks outcome with ⟨result, hends⟩ | ⟨_, _, _, _, hleft, _⟩
    · exact ends 0 ticks outcome result hends
    · cases hleft
  | succ left ih =>
    rcases goOn_ends_or_waits id (left + 1) ticks outcome with
      ⟨result, hends⟩ | ⟨ip, s, _, rfl, _, harmed⟩
    · exact ends (left + 1) ticks outcome result hends
    · exact waits left ticks ip s harmed (ih (ticks + 1))

/-- Without a save plan, nothing but the log is asked for. -/
theorem logged?_goOn (id : String) (left ticks : Nat) (outcome : Except Error Phase × Session α) :
    ∃ x, (goOn id none left ticks outcome).logged? = some x := by
  induction left, ticks, outcome using goOn_induction (α := α) id with
  | ends left ticks outcome result hends => exact ⟨_, by rw [hends]; rfl⟩
  | waits left ticks ip s harmed ih =>
    rw [goOn_of_not_due harmed id (fun _ h => by cases h),
      Program.logged?_bind (logged?_tick s id _)]
    exact ih _

/-! ## Saving and reloading -/

/-- The text that a session is saved as. -/
def saveText (s : Session α) : String :=
  (Save.document s.catalog.runtimeState s.world.snapshot.toJson).pretty

/-- What is logged between the writing of a save and the reading of it. -/
def betweenEvents (s : Session α) (path : String) : List Log.Event :=
  [.runtimeSaved path s.catalog.verbs.size] ++
    (loadCatalog s.registry s.definitions s.policy).events

/-- What comes of saving and reloading a session depends on whether the file is replaced and on what
is read of it then; the session is given up only once all of this has gone well. -/
theorem run_saveAndReload_eq {φ : Type} (answer : φ → (r : Request) → r.Answer × φ) (store : φ)
    (path : String) {c : Catalog α}
    (hload : (loadCatalog s.registry s.definitions s.policy).value = .ok c) :
    let replaced := run answer store (replaceFile path s.saveText)
    (run answer store (s.saveAndReload path)).1 =
      match replaced.1 with
      | .error fault => (.error (.save (.write path fault)), s)
      | .ok () =>
        match (answer (logged answer replaced.2 (s.betweenEvents path)) (.read path)).1 with
        | .error fault => (.error (.save (.read path fault)), s)
        | .ok content =>
          match (Save.restore path c content).value with
          | (.error e, _) => (.error (.save e), s)
          | (.ok (snapshot : Snapshot), catalog) =>
            (.ok (), { s with catalog, world := s.world.restore snapshot }) := by
  have hrender : Save.render s.catalog.runtimeState s.world.snapshot = .ok s.saveText := rfl
  rw [saveAndReload, Program.run_bind, Save.run_write answer store path s.catalog hrender]
  generalize run answer store (replaceFile path s.saveText) = replaced
  obtain ⟨outcome, stored⟩ := replaced
  cases outcome with
  | error fault => rfl
  | ok =>
    show (run answer _ (Program.log _ >>= _)).1 = _
    rw [Program.run_bind, Program.run_log, ← Program.logged_append]
    simp only [hload, Except.isOk, Except.toBool, if_true]
    rw [← betweenEvents, Program.run_bind]
    cases hread : (answer (logged answer stored (s.betweenEvents path)) (.read path)).1 with
    | error fault =>
      rw [Save.run_load_of_fault answer (logged answer stored _) path c hread]
      rfl
    | ok content =>
      rw [Save.run_load answer (logged answer stored _) path c hread]
      simp only
      cases hrestore : (Save.restore (η := Snapshot) path c content).value with
      | mk result d => cases result <;> rfl

/-! ## Sound sessions -/

/-- The catalog is one that the definitions and calls on their verbs lead to. -/
structure Sound (r : Registry α) (s : Session α) : Prop where
  registry_eq : s.registry = r
  reached : Catalog.Reached r s.definitions s.catalog
  policy_eq : s.catalog.policy = s.policy

/-- The sessions that are loaded and then run, whatever the storage answers. -/
inductive Reached (r : Registry α) : Session α → Prop where
  | load {definitions : Json} {policy : FailurePolicy} {s : Session α}
      (h : (Session.load r definitions policy).value = .ok s) : Reached r s
  | runVerb {s : Session α} (hs : Reached r s) {φ : Type}
      (answer : φ → (q : Request) → q.Answer × φ) (store : φ) (id : String)
      (plan : Option SavePlan) : Reached r (Program.run answer store (s.runVerb id plan)).1.2

/-- The sessions that are loaded, and whose verbs are then run and cancelled, whatever the storage
answers. -/
inductive Driven (r : Registry α) : Session α → Prop where
  | load {definitions : Json} {policy : FailurePolicy} {s : Session α}
      (h : (Session.load r definitions policy).value = .ok s) : Driven r s
  | runVerb {s : Session α} (hs : Driven r s) {φ : Type}
      (answer : φ → (q : Request) → q.Answer × φ) (store : φ) (id : String)
      (plan : Option SavePlan) : Driven r (Program.run answer store (s.runVerb id plan)).1.2
  | cancel {s : Session α} (hs : Driven r s) {id : String} {v : Verb α}
      (hv : s.catalog.get? id = some v) :
      Driven r { s with catalog := s.catalog.set id v.cancel.1 }

variable {r : Registry α}

theorem Sound.called_run (h : Sound r s) (id : String) : Sound r (s.called id Verb.run).2 := by
  rw [called]
  split
  · exact h
  · next v hv => exact ⟨h.registry_eq, h.reached.run hv s.world, h.policy_eq⟩

theorem Sound.called_resume (h : Sound r s) (id : String) : Sound r (s.called id Verb.resume).2 := by
  rw [called]
  split
  · exact h
  · next v hv => exact ⟨h.registry_eq, h.reached.resume hv s.world, h.policy_eq⟩

theorem Sound.advanced (h : Sound r s) : Sound r s.advanced := ⟨h.registry_eq, h.reached, h.policy_eq⟩

theorem Sound.ticked (h : Sound r s) (id : String) (phase : Phase) :
    Sound r (s.ticked id phase).2 := by
  rw [Session.ticked]
  split
  · exact h.advanced.called_resume id
  · exact h.advanced

theorem reached_loadCatalog {definitions : Json} {policy : FailurePolicy} {c : Catalog α}
    (h : (loadCatalog r definitions policy).value = .ok c) :
    Catalog.Reached r definitions c ∧ c.policy = policy := by
  rw [loadCatalog] at h
  generalize hload : (Catalog.loadDefinitions { policy } r definitions).value = loaded at h
  obtain ⟨outcome, d⟩ := loaded
  cases outcome with
  | error e => cases h
  | ok report =>
    cases h
    exact ⟨.load hload, (Catalog.wellFormed_loadDefinitions hload).2⟩

/-- A session is loaded whenever its catalog is, whether or not all of the entries were loaded. -/
theorem value_load {definitions : Json} {policy : FailurePolicy}
    (h : (Catalog.loadDefinitions { policy } r definitions).value.1.isOk = true) :
    (Session.load r definitions policy).value = .ok
      { registry := r, definitions, policy
        catalog := (Catalog.loadDefinitions { policy } r definitions).value.2 } := by
  rw [Session.load, Traced.value_map, loadCatalog]
  generalize (Catalog.loadDefinitions { policy } r definitions).value = loaded at h ⊢
  obtain ⟨outcome, c⟩ := loaded
  cases outcome with
  | ok report => rfl
  | error e => cases h

/-- A catalog of a sound session can be loaded anew. -/
theorem Sound.loadCatalog (h : Sound r s) :
    ∃ c, (Session.loadCatalog s.registry s.definitions s.policy).value = .ok c := by
  obtain ⟨report, c, hload, -⟩ := h.reached.exists_loaded
  rw [h.policy_eq] at hload
  refine ⟨c, ?_⟩
  rw [Session.loadCatalog, h.registry_eq]
  simp only [hload]

/-- Whatever the storage answers, a session whose save or reload fails is as it was. -/
theorem Sound.saveAndReload_error (h : Sound r s) {φ : Type}
    {answer : φ → (q : Request) → q.Answer × φ} {store : φ} {path : String} {e : Error} {t : Session α}
    (hfails : (run answer store (s.saveAndReload path)).1 = (.error e, t)) :
    t = s ∧ ∃ cause, e = .save cause := by
  obtain ⟨c, hload⟩ := h.loadCatalog
  rw [run_saveAndReload_eq answer store path hload] at hfails
  split at hfails
  · cases hfails
    exact ⟨rfl, _, rfl⟩
  · split at hfails
    · cases hfails
      exact ⟨rfl, _, rfl⟩
    · split at hfails
      · cases hfails
        exact ⟨rfl, _, rfl⟩
      · cases hfails

/-- Whatever a save and a reload are answered, the session stays sound. -/
theorem Sound.saveAndReload (h : Sound r s) (path : String) :
    (s.saveAndReload path).Always fun outcome => Sound r outcome.2 := by
  rw [Session.saveAndReload]
  refine (Program.always_true _).bind fun written _ => ?_
  cases written with
  | error e => exact h
  | ok =>
    refine (Program.always_true _).bind fun _ _ => ?_
    split
    · exact h
    · next c hc =>
      obtain ⟨hreached, hpolicy⟩ := reached_loadCatalog hc
      refine (Save.always_load path c).bind fun loaded hloaded => ?_
      obtain ⟨outcome, d⟩ := loaded
      cases outcome with
      | error e => exact h
      | ok snapshot =>
        refine (Program.always_true _).bind fun _ _ => ?_
        rcases hloaded with rfl | ⟨payload, rfl⟩
        · exact ⟨h.registry_eq, h.registry_eq ▸ hreached, hpolicy⟩
        · exact ⟨h.registry_eq, h.registry_eq ▸ hreached.restore payload,
            (Catalog.moved_readRuntimeState c payload).policy_eq.trans hpolicy⟩

theorem Sound.saveIfDue (h : Sound r s) (plan : Option SavePlan) (tick : Nat) :
    (s.saveIfDue plan tick).Always fun outcome => Sound r outcome.2 := by
  cases plan with
  | none => exact h
  | some plan =>
    rw [Session.saveIfDue]
    split
    · exact h.saveAndReload plan.path
    · exact h

/-- Whatever is answered after an outcome, the session stays sound. -/
theorem Sound.goOn (id : String) (plan : Option SavePlan) (left ticks : Nat)
    (outcome : Except Error Phase × Session α) (h : Sound r outcome.2) :
    (Session.goOn id plan left ticks outcome).Always fun x => Sound r x.2 := by
  induction left, ticks, outcome using goOn_induction (α := α) id with
  | ends left ticks outcome result hends =>
    rw [hends]
    exact h
  | waits left ticks ip s harmed ih =>
    rw [goOn_succ harmed]
    refine (h.saveIfDue plan (ticks + 1)).bind fun saved hsaved => ?_
    obtain ⟨outcome, t⟩ := saved
    cases outcome with
    | error e => exact hsaved
    | ok =>
      exact (Program.always_of_logged? (P := fun outcome => Sound r outcome.2)
        (logged?_tick t id _) (hsaved.ticked id _)).bind ih

/-- Whatever a run is answered, the session stays sound. -/
theorem Sound.runVerb (h : Sound r s) (id : String) (plan : Option SavePlan) :
    (s.runVerb id plan).Always fun outcome => Sound r outcome.2 := by
  rw [runVerb_eq]
  exact (Program.always_of_logged? (P := fun outcome => Sound r outcome.2)
    (logged?_callVerb s id _) (h.called_run id)).bind (Sound.goOn id plan maxTicks 0)

/-- A session that was loaded is sound. -/
theorem sound_load {definitions : Json} {policy : FailurePolicy}
    (h : (Session.load r definitions policy).value = .ok s) : Sound r s := by
  rw [Session.load, Traced.value_map] at h
  generalize hload : (loadCatalog r definitions policy).value = loaded at h
  cases loaded with
  | error e => cases h
  | ok c =>
    cases h
    obtain ⟨hreached, hpolicy⟩ := reached_loadCatalog hload
    exact ⟨rfl, hreached, hpolicy⟩

/-- A session that was loaded and then driven is sound. -/
theorem Driven.sound (h : Driven r s) : Sound r s := by
  induction h with
  | load h => exact sound_load h
  | runVerb _ answer store id plan ih => exact (ih.runVerb id plan).run answer store
  | cancel _ hv ih => exact ⟨ih.registry_eq, ih.reached.cancel hv, ih.policy_eq⟩

theorem Reached.driven (h : Reached r s) : Driven r s := by
  induction h with
  | load h => exact .load h
  | runVerb _ answer store id plan ih => exact .runVerb ih answer store id plan

/-- A session that was loaded and then run any number of times is sound. -/
theorem Reached.sound (h : Reached r s) : Sound r s := h.driven.sound

end Session

end VerbScript.Demo
