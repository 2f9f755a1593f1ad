import VerbScript.Proofs.Demo.Loop

/-!
# What a run does from tick to tick

A run that keeps a record of its deeds (`Session.recordedRun`) is the run itself, once the record is
taken away (`Session.erases_recordedRun`). Whatever the storage answers, the record is put together
from whole ticks (`Layout`): the count of ticks goes up, the session is saved and reloaded if the plan
names the tick, time advances once, and the verb is resumed at most once. Only when a save fails does
the record end in the middle of a tick (`Session.exists_record`).
-/

namespace VerbScript.Demo

open Program (run)

/-- What a run does while its verb is suspended. -/
inductive Deed where
  /-- The count of ticks goes up to `n`. -/
  | tick (n : Nat)
  /-- The session is saved and reloaded. -/
  | reload
  /-- The time of the world advances. -/
  | advance
  /-- The verb is resumed. -/
  | resume
  deriving DecidableEq, Repr

/-- A program that records its deeds. -/
abbrev Recording := StateT (List Deed) Program

/-- Puts a deed down. -/
def Deed.record (d : Deed) : Recording Unit := modify (· ++ [d])

namespace Recording

variable {β γ φ : Type} {x : Recording β} {p : Program β} {own : List Deed}

/-- The record is the only difference between `x` and `p`. -/
def Erases (x : Recording β) (p : Program β) : Prop :=
  ∀ deeds, Prod.fst <$> x.run deeds = p

/-- The only difference between `x` and `p` are the deeds that `x` puts down. -/
def Adds (x : Recording β) (p : Program β) (own : List Deed) : Prop :=
  ∀ deeds, x.run deeds = (fun b => (b, deeds ++ own)) <$> p

theorem run_record_bind (d : Deed) (f : Unit → Recording β) (deeds : List Deed) :
    (d.record >>= f).run deeds = (f ()).run (deeds ++ [d]) := rfl

theorem adds_pure (b : β) : Adds (pure b) (pure b) [] := by
  intro deeds
  rw [StateT.run_pure, map_pure, List.append_nil]

theorem adds_lift (p : Program β) : Adds (liftM p) p [] := by
  intro deeds
  simp only [List.append_nil]
  rfl

theorem Adds.record (h : Adds x p own) (d : Deed) : Adds (d.record >>= fun _ => x) p (d :: own) := by
  intro deeds
  rw [run_record_bind, h, List.append_assoc]
  rfl

theorem Adds.bind (h : Adds x p own) {f : β → Recording γ} {g : β → Program γ} {own' : List Deed}
    (hf : ∀ b, Adds (f b) (g b) own') : Adds (x >>= f) (p >>= g) (own ++ own') := by
  intro deeds
  rw [StateT.run_bind, h, bind_map_left, map_bind]
  refine bind_congr fun b => ?_
  rw [hf, List.append_assoc]

theorem Adds.erases (h : Adds x p own) : Erases x p := by
  intro deeds
  rw [h, Functor.map_map]
  exact id_map p

theorem Erases.bind (h : Erases x p) {f : β → Recording γ} {g : β → Program γ}
    (hf : ∀ b, Erases (f b) (g b)) : Erases (x >>= f) (p >>= g) := by
  intro deeds
  rw [StateT.run_bind, map_bind, ← h deeds, bind_map_left]
  exact bind_congr fun y => hf y.1 y.2

/-- A program comes to the same result with its record as without it. -/
theorem Erases.fst_run (h : Erases x p) (answer : φ → (r : Request) → r.Answer × φ) (store : φ)
    (deeds : List Deed) : (run answer store p).1 = (run answer store (x.run deeds)).1.1 := by
  rw [← h deeds, Program.run_map]

/-- What follows a program goes on with the record of it. -/
theorem Adds.run_bind (h : Adds x p own) (f : β → Recording γ)
    {answer : φ → (r : Request) → r.Answer × φ} {store after : φ} {b : β}
    (hp : run answer store p = (b, after)) (deeds : List Deed) :
    run answer store ((x >>= f).run deeds) = run answer after ((f b).run (deeds ++ own)) := by
  rw [StateT.run_bind, Program.run_bind, h, Program.run_map, hp]

end Recording

open Recording

namespace Session

variable {α : Type} [Action α World]

/-! ## Runs with a record -/

/-- `saveIfDue` with a record. -/
def recordedSave (s : Session α) (plan : Option SavePlan) (tick : Nat) :
    Recording (Except Error Unit × Session α) :=
  match plan with
  | none => return (.ok (), s)
  | some plan =>
    if plan.atTick = tick then do
      Deed.record .reload
      s.saveAndReload plan.path
    else return (.ok (), s)

/-- `tick` with a record. -/
def recordedTick (s : Session α) (id : String) (phase : Phase) :
    Recording (Except Error Phase × Session α) := do
  Deed.record .advance
  let t := s.world.advance tickLength
  Program.log t.events
  let s := { s with world := t.value.2 }
  if t.value.1 then
    Deed.record .resume
    s.callVerb id Verb.resume
  else return (.ok phase, s)

/-- `loop` with a record. -/
def recordedLoop (id : String) (plan : Option SavePlan) (left ticks : Nat) (phase : Phase)
    (s : Session α) : Recording (Except Error RunSummary × Session α) :=
  match phase with
  | .suspended ip =>
    if s.world.resumeAt.isNone then return (.error (.stalled id ip), s)
    else
      match left with
      | 0 => return (.error (.tooManyTicks id ticks), s)
      | left + 1 => do
        Deed.record (.tick (ticks + 1))
        match ← s.recordedSave plan (ticks + 1) with
        | (.error e, s) => return (.error e, s)
        | (.ok (), s) =>
          match ← s.recordedTick id phase with
          | (.error e, s) => return (.error e, s)
          | (.ok phase, s) => recordedLoop id plan left (ticks + 1) phase s
  | _ => return (.ok (s.summary id ticks), s)

/-- `goOn` with a record. -/
def recordedGoOn (id : String) (plan : Option SavePlan) (left ticks : Nat) :
    Except Error Phase × Session α → Recording (Except Error RunSummary × Session α)
  | (.error e, s) => return (.error e, s)
  | (.ok phase, s) => recordedLoop id plan left ticks phase s

/-- `runVerb` with a record. -/
def recordedRun (s : Session α) (id : String) (plan : Option SavePlan) :
    Recording (Except Error RunSummary × Session α) := do
  recordedGoOn id plan maxTicks 0 (← s.callVerb id Verb.run)

/-- The deeds of a save before the given tick. -/
def dueDeeds : Option SavePlan → Nat → List Deed
  | none, _ => []
  | some plan, tick => if plan.atTick = tick then [.reload] else []

/-- The deeds of a tick from this session on. -/
def tickDeeds (s : Session α) : List Deed :=
  .advance :: if s.fires then [.resume] else []

theorem dueDeeds_eq_reload {plan : Option SavePlan} {p : SavePlan} {tick : Nat} (hp : p ∈ plan)
    (hdue : p.atTick = tick) : dueDeeds plan tick = [.reload] := by
  cases hp
  exact if_pos hdue

theorem dueDeeds_eq_nil {plan : Option SavePlan} {tick : Nat}
    (hdue : ∀ p ∈ plan, p.atTick ≠ tick) : dueDeeds plan tick = [] := by
  cases plan with
  | none => rfl
  | some p => exact if_neg (hdue p rfl)

theorem adds_recordedSave (s : Session α) (plan : Option SavePlan) (tick : Nat) :
    Adds (s.recordedSave plan tick) (s.saveIfDue plan tick) (dueDeeds plan tick) := by
  cases plan with
  | none => exact adds_pure _
  | some plan =>
    rw [recordedSave, saveIfDue, dueDeeds]
    split
    · exact (adds_lift _).record .reload
    · exact adds_pure _

theorem adds_recordedTick (s : Session α) (id : String) (phase : Phase) :
    Adds (s.recordedTick id phase) (s.tick id phase) s.tickDeeds := by
  refine ((adds_lift (Program.log (s.world.advance tickLength).events)).bind fun _ => ?_).record
    .advance
  show Adds (if s.fires then _ else _) (if s.fires then _ else _) (if s.fires then _ else _)
  split
  · exact (adds_lift _).record .resume
  · exact adds_pure _

/-- What follows an outcome comes to its end, and puts no deed down, or the verb waits for a timer. -/
theorem recordedGoOn_ends_or_waits (id : String) (plan : Option SavePlan) (left ticks : Nat)
    (outcome : Except Error Phase × Session α) :
    (∃ result, goOn id plan left ticks outcome = pure (result, outcome.2) ∧
        recordedGoOn id plan left ticks outcome = pure (result, outcome.2)) ∨
      ∃ ip s left', outcome = (.ok (.suspended ip), s) ∧ left = left' + 1 ∧
        s.world.resumeAt.isNone = false := by
  obtain ⟨_ | phase, s⟩ := outcome
  · exact .inl ⟨_, rfl, rfl⟩
  · cases phase with
    | suspended ip =>
      cases harmed : s.world.resumeAt.isNone with
      | true =>
        refine .inl ⟨_, goOn_of_idle id plan ticks harmed left ip, ?_⟩
        rw [recordedGoOn, recordedLoop.eq_def]
        simp only [harmed]
        rfl
      | false =>
        cases left with
        | zero =>
          refine .inl ⟨_, goOn_zero id plan ticks harmed ip, ?_⟩
          rw [recordedGoOn, recordedLoop.eq_def]
          simp only [harmed]
          rfl
        | succ left => exact .inr ⟨ip, s, left, rfl, rfl, harmed⟩
    | _ =>
      refine .inl ⟨_, goOn_of_not_suspended id plan ticks (fun _ h => by cases h) left, ?_⟩
      rw [recordedGoOn, recordedLoop.eq_def]

/-- While a verb waits, the count of ticks goes up, the session is saved, if that is due, and a tick
passes. -/
theorem run_recordedGoOn_succ {s : Session α} (harmed : s.world.resumeAt.isNone = false)
    (id : String) (plan : Option SavePlan) (left ticks ip : Nat) (deeds : List Deed) :
    (recordedGoOn id plan (left + 1) ticks (.ok (.suspended ip), s)).run deeds =
      (s.recordedSave plan (ticks + 1) >>= fun
        | (.error e, t) => pure (.error e, t)
        | (.ok (), t) => t.recordedTick id (.suspended ip) >>=
            recordedGoOn id plan left (ticks + 1)).run (deeds ++ [.tick (ticks + 1)]) := by
  rw [recordedGoOn, recordedLoop, harmed]
  exact run_record_bind (.tick (ticks + 1)) _ deeds

/-- Without its record, what follows an outcome is what follows it. -/
theorem erases_recordedGoOn (id : String) (plan : Option SavePlan) (left ticks : Nat)
    (outcome : Except Error Phase × Session α) :
    Erases (recordedGoOn id plan left ticks outcome) (goOn id plan left ticks outcome) := by
  induction left generalizing ticks outcome with
  | zero =>
    rcases recordedGoOn_ends_or_waits id plan 0 ticks outcome with
      ⟨result, hends, hrecorded⟩ | ⟨_, _, _, _, hleft, _⟩
    · rw [hends, hrecorded]
      exact (adds_pure _).erases
    · cases hleft
  | succ left ih =>
    rcases recordedGoOn_ends_or_waits id plan (left + 1) ticks outcome with
      ⟨result, hends, hrecorded⟩ | ⟨ip, s, _, rfl, _, harmed⟩
    · rw [hends, hrecorded]
      exact (adds_pure _).erases
    · intro deeds
      rw [run_recordedGoOn_succ harmed, goOn_succ harmed]
      refine (adds_recordedSave s plan (ticks + 1)).erases.bind (fun saved => ?_) _
      obtain ⟨_ | _, t⟩ := saved
      · exact (adds_pure _).erases
      · exact (adds_recordedTick t id _).erases.bind (ih (ticks + 1))

/-- Without its record, a run with a record is the run. -/
theorem erases_recordedRun (s : Session α) (id : String) (plan : Option SavePlan) :
    Erases (s.recordedRun id plan) (s.runVerb id plan) := by
  rw [runVerb_eq]
  exact (adds_lift _).erases.bind (erases_recordedGoOn id plan maxTicks 0)

/-! ## The record of a run -/

/-- The record of whole ticks: so many have passed, and in these the verb has been resumed so often. -/
inductive Layout (plan : Option SavePlan) : Nat → Nat → List Deed → Prop where
  | start : Layout plan 0 0 []
  | waited {ticks resumes : Nat} {deeds : List Deed} (h : Layout plan ticks resumes deeds) :
      Layout plan (ticks + 1) resumes
        (deeds ++ [.tick (ticks + 1)] ++ dueDeeds plan (ticks + 1) ++ [.advance])
  | resumed {ticks resumes : Nat} {deeds : List Deed} (h : Layout plan ticks resumes deeds) :
      Layout plan (ticks + 1) (resumes + 1)
        (deeds ++ [.tick (ticks + 1)] ++ dueDeeds plan (ticks + 1) ++ [.advance, .resume])

/-- What the record of a run holds behind its whole ticks: nothing, unless a save has failed. -/
inductive Leftover (plan : Option SavePlan) (ticks : Nat) (result : Except Error RunSummary) :
    List Deed → Prop where
  | nothing : Leftover plan ticks result []
  | notSaved {p : SavePlan} {e : Error} (hp : p ∈ plan) (hdue : p.atTick = ticks + 1)
      (hresult : result = .error e) : Leftover plan ticks result [.tick (ticks + 1), .reload]

variable {φ : Type} {answer : φ → (r : Request) → r.Answer × φ} {store after : φ} {s : Session α}
  {id : String} {plan : Option SavePlan} {ticks resumes : Nat} {resumed : List (Nat × Session α)}
  {outcome : Except Error Phase × Session α} {deeds : List Deed}

/-- What follows an outcome puts down the deeds of the tick that begins then. -/
theorem BeginsTick.run_recordedGoOn {t u : Session α} {before saved : φ}
    (h : BeginsTick answer plan ticks t before u saved) (id : String) (ip : Nat) (deeds : List Deed) :
    run answer before
        ((recordedGoOn id plan (maxTicks - ticks) ticks (.ok (.suspended ip), t)).run deeds) =
      run answer saved
        ((u.recordedTick id (.suspended ip) >>=
            recordedGoOn id plan (maxTicks - (ticks + 1)) (ticks + 1)).run
          (deeds ++ [.tick (ticks + 1)] ++ dueDeeds plan (ticks + 1))) := by
  rw [maxTicks_sub h.ticks_lt, run_recordedGoOn_succ h.armed,
    (adds_recordedSave t plan (ticks + 1)).run_bind _ h.run_eq]

/-- The record of a run goes on from the record of the ticks that have passed by an outcome. -/
theorem Comes.exists_record (h : Comes answer store s id plan ticks resumed outcome after) :
    ∃ deeds, Layout plan ticks resumed.length deeds ∧
      run answer store ((s.recordedRun id plan).run []) =
        run answer after ((recordedGoOn id plan (maxTicks - ticks) ticks outcome).run deeds) := by
  induction h with
  | called hcall => exact ⟨[], .start, (adds_lift _).run_bind _ hcall []⟩
  | waited _ hbegins hwaits ih =>
    obtain ⟨deeds, hlayout, hrun⟩ := ih
    refine ⟨_, hlayout.waited, ?_⟩
    rw [hrun, hbegins.run_recordedGoOn,
      (adds_recordedTick _ id _).run_bind _ (run_tick_of_not_fires hwaits answer _ id _), tickDeeds, hwaits]
    rfl
  | resumed _ hbegins hfires hcall ih =>
    obtain ⟨deeds, hlayout, hrun⟩ := ih
    rw [List.length_append]
    refine ⟨_, hlayout.resumed, ?_⟩
    rw [hrun, hbegins.run_recordedGoOn,
      (adds_recordedTick _ id _).run_bind _ ((run_tick_of_fires hfires answer _ id _).trans hcall),
      tickDeeds, if_pos hfires]

/-- A save that fails is one that is due. -/
theorem exists_due_of_error {tick : Nat} {e : Error}
    (h : (run answer store (s.saveIfDue plan tick)).1.1 = .error e) :
    ∃ p ∈ plan, p.atTick = tick := by
  cases plan with
  | none => cases h
  | some p =>
    by_cases hdue : p.atTick = tick
    · exact ⟨p, rfl, hdue⟩
    · rw [saveIfDue, if_neg hdue] at h
      cases h

/-- From an outcome, a run comes to its end without any deeds, or its save fails. -/
theorem Ends.exists_leftover {ran : Except Error RunSummary × Session α}
    (h : Ends answer id plan ticks store outcome ran) (deeds : List Deed) :
    ∃ rest, Leftover plan ticks ran.1 rest ∧
      (run answer store ((recordedGoOn id plan (maxTicks - ticks) ticks outcome).run deeds)).1.2 =
        deeds ++ rest := by
  rcases recordedGoOn_ends_or_waits id plan (maxTicks - ticks) ticks outcome with
    ⟨result, -, hrecorded⟩ | ⟨ip, t, left, rfl, hleft, harmed⟩
  · refine ⟨[], .nothing, ?_⟩
    rw [hrecorded, List.append_nil]
    rfl
  · cases h with
    | finished hphase => exact absurd rfl (hphase ip)
    | stalled hidle => cases hidle.symm.trans harmed
    | tooManyTicks _ hticks => omega
    | @notSaved _ _ u e _ hticks hsave =>
      rw [hleft, run_recordedGoOn_succ harmed]
      cases hrun : run answer store (t.saveIfDue plan (ticks + 1)) with
      | mk saved after =>
        obtain rfl : saved = (.error e, u) := (congrArg Prod.fst hrun).symm.trans hsave
        rw [(adds_recordedSave t plan (ticks + 1)).run_bind _ hrun]
        obtain ⟨p, hp, hdue⟩ := exists_due_of_error (congrArg Prod.fst hsave)
        refine ⟨_, .notSaved hp hdue rfl, ?_⟩
        rw [dueDeeds_eq_reload hp hdue, List.append_assoc]
        rfl

/-! ## Counting deeds -/

theorem count_dueDeeds (plan : Option SavePlan) (tick : Nat) {d : Deed} (hd : d ≠ .reload) :
    (dueDeeds plan tick).count d = 0 := by
  by_cases hdue : ∃ p ∈ plan, p.atTick = tick
  · obtain ⟨p, hp, hdue⟩ := hdue
    rw [dueDeeds_eq_reload hp hdue, List.count_singleton, if_neg (by simpa using hd.symm)]
  · rw [dueDeeds_eq_nil (by simpa using hdue), List.count_nil]

/-- A save that fails neither lets time advance nor resumes the verb. -/
theorem Leftover.count_eq_zero {result : Except Error RunSummary} {rest : List Deed}
    (h : Leftover plan ticks result rest) : rest.count .advance = 0 ∧ rest.count .resume = 0 := by
  cases h with
  | nothing => exact ⟨rfl, rfl⟩
  | notSaved => simp

/-- The session is saved and reloaded once, when the count of ticks has come to `n` and before the time
advances to that tick. -/
def SavedOnce (n : Nat) (deeds : List Deed) : Prop :=
  ∃ before rest, deeds = before ++ [.tick n, .reload, .advance] ++ rest ∧ .reload ∉ before ∧
    .reload ∉ rest ∧ before.count .advance + 1 = n

theorem SavedOnce.append {n : Nat} (h : SavedOnce n deeds) {tail : List Deed}
    (htail : .reload ∉ tail) : SavedOnce n (deeds ++ tail) := by
  obtain ⟨before, rest, rfl, hbefore, hrest, hcount⟩ := h
  refine ⟨before, rest ++ tail, List.append_assoc .., hbefore, ?_, hcount⟩
  rw [List.mem_append]
  exact fun hmem => hmem.elim hrest htail

namespace Layout

theorem count_advance (h : Layout plan ticks resumes deeds) : deeds.count .advance = ticks := by
  induction h with
  | start => rfl
  | waited _ ih | resumed _ ih =>
    simp [List.count_append, count_dueDeeds, ih]

theorem count_resume (h : Layout plan ticks resumes deeds) : deeds.count .resume = resumes := by
  induction h with
  | start => rfl
  | waited _ ih | resumed _ ih =>
    simp [List.count_append, count_dueDeeds, ih]

theorem mem_tick_iff (h : Layout plan ticks resumes deeds) (n : Nat) :
    .tick n ∈ deeds ↔ 1 ≤ n ∧ n ≤ ticks := by
  have hdue (tick : Nat) : .tick n ∉ dueDeeds plan tick :=
    List.count_eq_zero.1 (count_dueDeeds plan tick nofun)
  induction h with
  | start => simp; omega
  | waited _ ih | resumed _ ih =>
    simp [hdue, ih]
    omega

/-- Nothing is saved unless the count of ticks has come to the tick of the plan. -/
theorem reload_not_mem (h : Layout plan ticks resumes deeds)
    (hdue : ∀ p ∈ plan, ¬ (1 ≤ p.atTick ∧ p.atTick ≤ ticks)) : .reload ∉ deeds := by
  induction h with
  | start => exact List.not_mem_nil
  | @waited ticks _ _ _ ih | @resumed ticks _ _ _ ih =>
    have hnow : ∀ p ∈ plan, p.atTick ≠ ticks + 1 := fun p hp heq => hdue p hp (by omega)
    have hbefore := ih fun p hp hle => hdue p hp (by omega)
    simp [dueDeeds_eq_nil hnow, hbefore]

/-- After one more tick, the session has been saved and reloaded once if the tick of the plan has come. -/
theorem savedOnce_tick (h : Layout plan ticks resumes deeds) {p : SavePlan} (hp : p ∈ plan)
    (hle : p.atTick ≤ ticks + 1) (hbefore : p.atTick ≤ ticks → SavedOnce p.atTick deeds)
    (tail : List Deed) (htail : .reload ∉ tail) :
    SavedOnce p.atTick
      (deeds ++ [.tick (ticks + 1)] ++ dueDeeds plan (ticks + 1) ++ .advance :: tail) := by
  have hunique : ∀ q ∈ plan, q = p := fun q hq => Option.mem_unique hq hp
  obtain hlt | hnow := Nat.lt_or_eq_of_le hle
  · have hdue : ∀ q ∈ plan, q.atTick ≠ ticks + 1 := fun q hq => by rw [hunique q hq]; omega
    rw [dueDeeds_eq_nil hdue, List.append_nil, List.append_assoc]
    exact (hbefore (Nat.le_of_lt_succ hlt)).append (by simp [htail])
  · refine ⟨deeds, tail, ?_, h.reload_not_mem fun q hq hle => ?_, htail, ?_⟩
    · rw [dueDeeds_eq_reload hp hnow, hnow]
      simp
    · rw [hunique q hq] at hle
      omega
    · rw [h.count_advance, hnow]

/-- The session has been saved and reloaded once if the tick of the plan has come. -/
theorem savedOnce (h : Layout plan ticks resumes deeds) {p : SavePlan} (hp : p ∈ plan)
    (hpos : 1 ≤ p.atTick) (hle : p.atTick ≤ ticks) : SavedOnce p.atTick deeds := by
  induction h with
  | start => omega
  | waited h ih => exact h.savedOnce_tick hp hle ih [] List.not_mem_nil
  | resumed h ih => exact h.savedOnce_tick hp hle ih [.resume] (by simp)

end Layout

/-- What the record of a run with the given result tells about its save plan: the session is saved and
reloaded when the count of ticks comes to the tick of the plan, as it has by the time that so many have
passed, before the time advances to that tick, and at no other time. The record ends there only if that
fails. -/
structure SavesOnTick (plan : Option SavePlan) (result : Except Error RunSummary)
    (deeds : List Deed) : Prop where
  reached : ∀ n, 1 ≤ n → n ≤ deeds.count .advance → .tick n ∈ deeds
  once : ∀ p ∈ plan, .tick p.atTick ∈ deeds → ∃ before rest,
    deeds = before ++ [.tick p.atTick, .reload] ++ rest ∧ .reload ∉ before ∧ .reload ∉ rest ∧
      before.count .advance + 1 = p.atTick ∧
      (rest.head? = some .advance ∨ rest = [] ∧ ∃ e, result = .error e)
  never : (∀ p ∈ plan, .tick p.atTick ∉ deeds) → .reload ∉ deeds

theorem Layout.savesOnTick (h : Layout plan ticks resumes deeds) {result : Except Error RunSummary}
    {rest : List Deed} (hrest : Leftover plan ticks result rest) :
    SavesOnTick plan result (deeds ++ rest) := by
  have hreached (n : Nat) (hpos : 1 ≤ n) (hle : n ≤ (deeds ++ rest).count .advance) :
      .tick n ∈ deeds ++ rest := by
    rw [List.count_append, h.count_advance, hrest.count_eq_zero.1] at hle
    exact List.mem_append_left _ ((h.mem_tick_iff n).2 ⟨hpos, hle⟩)
  have hnone {p : SavePlan} (hp : p ∈ plan) (hafter : ¬ p.atTick ≤ ticks) : .reload ∉ deeds :=
    h.reload_not_mem fun q hq hle => hafter (Option.mem_unique hq hp ▸ hle.2)
  refine ⟨hreached, ?once, ?never⟩
  case once =>
    intro p hp hmem
    cases hrest with
    | nothing =>
      rw [List.append_nil] at hmem ⊢
      obtain ⟨hpos, hle⟩ := (h.mem_tick_iff _).1 hmem
      obtain ⟨before, rest, rfl, hbefore, hrest, hcount⟩ := h.savedOnce hp hpos hle
      exact ⟨before, .advance :: rest, by simp, hbefore, by simpa using hrest, hcount, .inl rfl⟩
    | @notSaved q e hq hdue hresult =>
      obtain rfl := Option.mem_unique hq hp
      refine ⟨deeds, [], by simp [hdue], hnone hp (by omega), List.not_mem_nil, ?_,
        .inr ⟨rfl, e, hresult⟩⟩
      rw [h.count_advance, hdue]
  case never =>
    intro hnot
    cases hrest with
    | nothing =>
      rw [List.append_nil] at hnot ⊢
      exact h.reload_not_mem fun p hp hle => hnot p hp ((h.mem_tick_iff _).2 hle)
    | notSaved hp hdue => exact absurd (List.mem_append_right _ (by simp [hdue])) (hnot _ hp)

end Session

end VerbScript.Demo
