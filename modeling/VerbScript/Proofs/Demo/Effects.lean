import VerbScript.Proofs.Demo.Loop
import VerbScript.Proofs.Verb.LifeCycle

/-!
# What a run shows

What an action shows does not depend on what has become of it (`DemoAction.effects`,
`perStep_of_alike`), and an action that blocks or fails shows nothing. So by each outcome of its run
a verb has shown the effects of its steps in order, up to where it is suspended or a step failed
(`Session.Comes.hasShown`), and a run that comes to its end has shown all of them, once each
(`Session.Comes.exists_shownIn`). A save in the course of the run changes nothing of that, whatever the
times in it are read as (`Session.HasShown.reloaded`).
-/

namespace VerbScript.Demo

deriving instance DecidableEq for Effect

/-! ## Effects -/

/-- What an action shows when it is executed. -/
def DemoAction.effects : DemoAction → List Effect
  | .sound ⟨_, some name, volume⟩ => [.sound name (volume.getD 1.0)]
  | .text a => [.text a.actor (a.text.getD "")]
  | .setState ⟨_, some actor, some state⟩ => [.state actor state]
  | _ => []

/-- What steps show one after the other. -/
def effectsOf (steps : List (Step DemoAction)) : List Effect :=
  steps.flatMap fun s => s.action.effects

/-- What each of the steps shows. -/
def perStep (steps : List (Step DemoAction)) : List (List Effect) :=
  steps.map fun s => s.action.effects

theorem length_perStep (steps : List (Step DemoAction)) : (perStep steps).length = steps.length :=
  List.length_map _

theorem flatten_take_perStep (steps : List (Step DemoAction)) (k : Nat) :
    ((perStep steps).take k).flatten = effectsOf (steps.take k) := by
  rw [effectsOf, List.flatMap_def, List.map_take, perStep]

/-- The states of the actors once an effect was shown. -/
def Effect.update (states : Table String) : Effect → Table String
  | .state actor now => states.insert actor now
  | _ => states

/-- The world `after` is the world `before` once these effects were shown, but for the time. -/
structure Shown (before : World) (shown : List Effect) (after : World) : Prop where
  effects_eq : after.effects = before.effects ++ shown
  states_eq : after.actorStates = shown.foldl Effect.update before.actorStates

theorem Shown.nil (w : World) : Shown w [] w := ⟨(List.append_nil _).symm, rfl⟩

theorem Shown.append {w w' w'' : World} {shown shown' : List Effect} (h : Shown w shown w')
    (h' : Shown w' shown' w'') : Shown w (shown ++ shown') w'' where
  effects_eq := by rw [h'.effects_eq, h.effects_eq, List.append_assoc]
  states_eq := by rw [h'.states_eq, h.states_eq, List.foldl_append]

/-! ## Executions -/

/-- An execution shows the effects of the action. -/
theorem shown_execute (a : DemoAction) (w : World) :
    Shown w a.effects (Action.execute a w).world := by
  cases a with
  | sound a =>
    obtain ⟨_, _ | name, volume⟩ := a
    · exact .nil w
    · exact ⟨rfl, rfl⟩
  | wait a =>
    simp only [Action.execute, Execution.mapAction]
    split
    · exact .nil w
    · exact ⟨(List.append_nil _).symm, rfl⟩
  | text a => exact ⟨rfl, rfl⟩
  | setState a =>
    obtain ⟨_, _ | actor, _ | state⟩ := a
    · exact .nil w
    · exact .nil w
    · exact .nil w
    · exact ⟨rfl, rfl⟩
  | fail a => exact .nil w

/-- An action that blocks or fails shows nothing. -/
theorem effects_of_not_done {a : DemoAction} {w : World}
    (h : (Action.execute a w).result ≠ .ok .done) : a.effects = [] := by
  cases a with
  | sound a =>
    obtain ⟨_, _ | name, volume⟩ := a
    · rfl
    · exact absurd rfl h
  | wait a => rfl
  | text a => exact absurd rfl h
  | setState a =>
    obtain ⟨_, _ | actor, _ | state⟩ := a
    · rfl
    · rfl
    · rfl
    · exact absurd rfl h
  | fail a => rfl

theorem DemoAction.effects_unstarted (a : DemoAction) : a.unstarted.effects = a.effects := by
  cases a with
  | _ => rfl

/-- What steps show does not depend on what has become of them. -/
theorem perStep_of_alike {ss ts : List (Step DemoAction)} (h : List.Forall₂ Alike ss ts) :
    perStep ts = perStep ss := by
  induction h with
  | nil => rfl
  | @cons s t _ _ hst _ ih =>
    have hstep : t.action.effects = s.action.effects := by
      rw [← DemoAction.effects_unstarted, hst.2, DemoAction.effects_unstarted]
    rw [perStep, List.map_cons, hstep]
    exact congrArg _ ih

/-! ## Sweeps -/

/-- A sweep shows what the steps that it executes show. -/
theorem shown_sweep (policy : FailurePolicy) (verb : String) (i : Nat)
    (steps : List (Step DemoAction)) (w : World) :
    let s := sweep policy verb i steps w
    Shown w ((perStep steps).take (s.halt.executed i steps.length)).flatten s.world := by
  induction steps generalizing i w with
  | nil => exact .nil w
  | cons s rest ih =>
    have hs := shown_execute s.action w
    have hone : i + 1 - i = 1 := Nat.add_sub_cancel_left ..
    rcases sweep_cons policy verb i s rest w with ⟨_, -, h⟩ | ⟨_, -, h⟩ | ⟨_, _, -, h⟩
    · have hnext := Halt.executed_cons (n := rest.length)
        fun j (hj : (sweep policy verb (i + 1) rest (Action.execute s.action w).world).halt.index? =
          some j) => (sweep_index hj).1
      rw [h]
      simp only [Sweep.after, perStep, List.map_cons, List.length_cons, hnext, List.take_succ_cons,
        List.flatten_cons]
      exact hs.append (ih _ _)
    all_goals
      rw [h]
      simpa [Halt.executed, hone, perStep] using hs

/-- The step at which a sweep stops shows nothing. -/
theorem silent_of_sweep {policy : FailurePolicy} {verb : String} {i k : Nat}
    {steps : List (Step DemoAction)} {w : World}
    (h : (sweep policy verb i steps w).halt.index? = some k) : (perStep steps)[k - i]? = some [] := by
  induction steps generalizing i w with
  | nil => cases h
  | cons s rest ih =>
    rcases sweep_cons policy verb i s rest w with ⟨_, -, hs⟩ | ⟨_, hresult, hs⟩ |
      ⟨_, _, hresult, hs⟩
    · rw [hs] at h
      have hk := (sweep_index h).1
      have hindex : k - i = k - (i + 1) + 1 := by omega
      rw [perStep, List.map_cons, hindex, List.getElem?_cons_succ]
      exact ih h
    all_goals
      rw [hs] at h
      cases h
      have hsilent : s.action.effects = [] := effects_of_not_done (w := w) (by rw [hresult]; nofun)
      rw [perStep, List.map_cons, Nat.sub_self, List.getElem?_cons_zero, hsilent]

/-! ## Turns -/

/-- The steps before the one with the index `k` have been shown, and that one shows nothing. -/
structure ShownBefore (k : Nat) (before : World) (steps : List (List Effect)) (after : World) :
    Prop where
  silent : steps[k]? = some []
  shown : Shown before (steps.take k).flatten after

/-- Nothing is shown by a step that shows nothing. -/
theorem flatten_take_succ {steps : List (List Effect)} {k : Nat} (h : steps[k]? = some []) :
    (steps.take (k + 1)).flatten = (steps.take k).flatten := by
  rw [List.take_add_one, h, Option.toList_some, List.flatten_append, List.flatten_singleton,
    List.append_nil]

theorem ShownBefore.lt {k : Nat} {before after : World} {steps : List (List Effect)}
    (h : ShownBefore k before steps after) : k < steps.length :=
  (List.getElem?_eq_some_iff.1 h.silent).1

/-- What has been shown by the outcome of a turn, if `steps` is what each of the steps shows. -/
def ShownBy (before : World) (steps : List (List Effect)) :
    Except Verb.Error Phase → World → Prop
  | .ok .finished, after => Shown before steps.flatten after
  | .ok (.suspended k), after => ShownBefore k before steps after
  | .error (.stepFailed _ k _ _), after => ShownBefore k before steps after
  | .error (.alreadyRunning ..), after => Shown before [] after
  | _, _ => False

variable {v : Verb DemoAction} {before w : World}

/-- A turn from one of the steps on, before which the steps before that one have been shown. -/
theorem shownBy_runFrom {start : Nat} (hstart : start ≤ v.steps.length)
    (h : Shown before ((perStep v.steps).take start).flatten w) :
    ShownBy before (perStep v.steps) (v.runFrom start w).outcome (v.runFrom start w).world := by
  have hdrop : perStep (v.steps.drop start) = (perStep v.steps).drop start := List.map_drop ..
  have hsweep := h.append (shown_sweep v.policy v.id start (v.steps.drop start) w)
  rw [hdrop, ← List.flatten_append, ← List.take_add, List.length_drop] at hsweep
  -- a step at which the sweep stops is behind those that have been shown
  have hstopped {k : Nat}
      (hk : (sweep v.policy v.id start (v.steps.drop start) w).halt.index? = some k) :
      ShownBefore k before (perStep v.steps) (v.runFrom start w).world := by
    have hle := (sweep_index hk).1
    have hsilent := silent_of_sweep hk
    rw [hdrop, List.getElem?_drop, Nat.add_sub_cancel' hle] at hsilent
    refine ⟨hsilent, ?_⟩
    rw [← flatten_take_succ hsilent, (v.runFrom_cases hstart w).1]
    rwa [Halt.executed_of_index? hk, Nat.add_sub_cancel' (Nat.le_succ_of_le hle)] at hsweep
  obtain ⟨hworld, -, ⟨hhalt, houtcome, -⟩ | ⟨i, hhalt, -, -, houtcome, -⟩ |
    ⟨i, kind, cause, hhalt, -, -, houtcome, -⟩⟩ := v.runFrom_cases hstart w
  · rw [houtcome, hworld]
    rw [hhalt, Halt.executed, Nat.add_sub_cancel' hstart] at hsweep
    rwa [List.take_of_length_le (Nat.le_of_eq (length_perStep _))] at hsweep
  · rw [houtcome]
    exact hstopped (congrArg Halt.index? hhalt)
  · rw [houtcome]
    exact hstopped (congrArg Halt.index? hhalt)

theorem shownBy_run (v : Verb DemoAction) (w : World) :
    ShownBy w (perStep v.steps) (v.run w).outcome (v.run w).world := by
  by_cases h : ∃ i, v.phase = .suspended i
  · obtain ⟨i, hi⟩ := h
    rw [Verb.run_of_suspended hi]
    exact .nil w
  · rw [Verb.run_of_not_suspended (not_exists.1 h)]
    exact shownBy_runFrom (Nat.zero_le _) (.nil w)

theorem shownBy_resume {k : Nat} (hk : v.phase = .suspended k)
    (h : ShownBefore k before (perStep v.steps) w) :
    ShownBy before (perStep v.steps) (v.resume w).outcome (v.resume w).world := by
  rw [Verb.resume_of_suspended hk]
  refine shownBy_runFrom (Verb.phase_eq_suspended_iff.1 hk).2 ?_
  rw [flatten_take_succ h.silent]
  exact h.shown

/-! ## Runs -/

namespace Session

open Program (run)

variable {φ : Type} {answer : φ → (r : Request) → r.Answer × φ} {store after : φ}
  {s : Session DemoAction} {id : String} {plan : Option SavePlan} {ticks : Nat}
  {resumed : List (Nat × Session DemoAction)} {outcome : Except Error Phase × Session DemoAction}

/-- By an outcome, the verb `v` is as it was but for the times, it is in the phase that its last turn
returned, and it has shown what the result of that turn tells. -/
def HasShown (id : String) (v : Verb DemoAction) (before : World)
    (outcome : Except Error Phase × Session DemoAction) : Prop :=
  ∃ u result, outcome.2.catalog.get? id = some u ∧ List.Forall₂ Alike v.steps u.steps ∧
    outcome.1 = result.mapError .verb ∧ (∀ phase, result = .ok phase → u.phase = phase) ∧
    ShownBy before (perStep v.steps) result outcome.2.world

theorem hasShown_called (hv : s.catalog.get? id = some v)
    {f : Verb DemoAction → World → Turn DemoAction World} {u : Verb DemoAction}
    (hsteps : List.Forall₂ Alike u.steps v.steps)
    (hmoved : v.Moved (f v s.world).verb) (hagrees : (f v s.world).Agrees)
    (hshown : ShownBy before (perStep v.steps) (f v s.world).outcome (f v s.world).world) :
    HasShown id u before (s.called id f) := by
  rw [called_of_get? hv]
  exact ⟨_, _, Catalog.get?_set_self hv _,
    Alike.trans_list hsteps (hmoved.steps.imp fun _ _ => .of_moved), rfl, hagrees.ok,
    perStep_of_alike hsteps ▸ hshown⟩

section

variable {t u : Session DemoAction} {ip : Nat}

/-- What has been shown does not depend on the times. -/
theorem HasShown.reloaded (h : HasShown id v before (.ok (.suspended ip), t)) (hreload : t.Reloaded u) :
    HasShown id v before (.ok (.suspended ip), u) := by
  obtain ⟨w, result, hw, hsteps, hresult, hphase, hshown⟩ := h
  obtain rfl := eq_ok_of_mapError hresult.symm
  obtain ⟨w', hw', haligned⟩ := hreload.exists_aligned hw
  exact ⟨w', _, hw', Alike.trans_list hsteps haligned.steps, rfl,
    fun phase hok => haligned.phase_eq.trans (hphase phase hok), hshown.silent,
    hreload.effects_eq.trans hshown.shown.effects_eq, hreload.states_eq.trans hshown.shown.states_eq⟩

/-- Nothing is shown while time passes. -/
theorem HasShown.advanced (h : HasShown id v before (.ok (.suspended ip), t)) :
    HasShown id v before (.ok (.suspended ip), t.advanced) := by
  obtain ⟨w, result, hw, hsteps, hresult, hphase, hshown⟩ := h
  obtain rfl := eq_ok_of_mapError hresult.symm
  refine ⟨w, _, hw, hsteps, rfl, hphase, hshown.silent, ?_⟩
  rw [world_advanced]
  exact ⟨hshown.shown.effects_eq, hshown.shown.states_eq⟩

theorem HasShown.called_resume (h : HasShown id v before (.ok (.suspended ip), t)) :
    HasShown id v before (t.called id Verb.resume) := by
  obtain ⟨w, result, hw, hsteps, hresult, hphase, hshown⟩ := h
  obtain rfl := eq_ok_of_mapError hresult.symm
  refine hasShown_called hw hsteps (w.moved_resume _) (w.agrees_resume _)
    (shownBy_resume (hphase _ rfl) ?_)
  rw [perStep_of_alike hsteps]
  exact hshown

end

/-- By every outcome of its run, a verb has shown what its last turn tells. -/
theorem Comes.hasShown (hs : Sound Demo.registry s) (htext : TextKept answer store plan)
    (hv : s.catalog.get? id = some v)
    (h : Comes answer store s id plan ticks resumed outcome after) : HasShown id v s.world outcome := by
  refine h.induction (motive := fun _ _ => HasShown id v s.world) hs (htext.savesBy hs)
    ?called ?saved ?waited ?resumed
  case called =>
    exact hasShown_called hv (Alike.refl_list _) (v.moved_run _) (v.agrees_run _)
      (shownBy_run v _)
  case saved => exact fun _ _ _ _ _ _ hreload ht => ht.reloaded hreload
  case waited => exact fun _ _ _ _ _ _ ht => ht.advanced
  case resumed => exact fun _ _ _ _ _ _ ht => ht.advanced.called_resume

/-- What a run of a verb with these steps has shown by its end: the effects of all steps; or of those
before the step that failed, or at which the verb is left suspended; or nothing, if it is refused. -/
def ShownIn (id : String) (steps : List (Step DemoAction)) (shown : List Effect)
    (ran : Except Error RunSummary × Session DemoAction) : Prop :=
  match ran.1 with
  | .ok _ => shown = effectsOf steps
  | .error (.verb (.stepFailed _ k _ _)) => k < steps.length ∧ shown = effectsOf (steps.take k)
  | .error (.tooManyTicks ..) | .error (.save _) | .error (.stalled ..) =>
    ∃ v k, ran.2.catalog.get? id = some v ∧ v.phase = .suspended k ∧
      shown = effectsOf (steps.take k)
  | .error (.unknownVerb _) | .error (.verb (.alreadyRunning ..)) => shown = []
  | .error _ => False

theorem ShownIn.eq_of_isOk {steps : List (Step DemoAction)} {shown : List Effect}
    {ran : Except Error RunSummary × Session DemoAction} (h : ShownIn id steps shown ran)
    (hok : ran.1.isOk = true) : shown = effectsOf steps := by
  obtain ⟨result, t⟩ := ran
  cases result with
  | ok summary => exact h
  | error e => cases hok

/-- What has been shown when a verb finishes or fails. -/
theorem exists_shownIn_of_result {result : Except Verb.Error Phase} {t : Session DemoAction}
    (hnot : ∀ ip, result ≠ .ok (.suspended ip))
    (h : ShownBy before (perStep v.steps) result t.world) (ticks : Nat) :
    ∃ shown, Shown before shown t.world ∧ ShownIn id v.steps shown
      ((result.map fun _ => t.summary id ticks).mapError .verb, t) := by
  cases result with
  | ok phase =>
    cases phase with
    | notStarted => exact h.elim
    | suspended ip => exact absurd rfl (hnot ip)
    | finished => exact ⟨_, h, (List.flatMap_def ..).symm⟩
  | error cause =>
    cases cause with
    | stepFailed _ k _ _ =>
      exact ⟨_, h.shown, length_perStep v.steps ▸ h.lt, flatten_take_perStep v.steps k⟩
    | alreadyRunning => exact ⟨[], h, rfl⟩
    | notSuspended => exact h.elim

/-- What has been shown when a run ends at one of its outcomes. -/
theorem Comes.exists_shownIn (hs : Sound Demo.registry s) (htext : TextKept answer store plan)
    (hv : s.catalog.get? id = some v)
    (h : Comes answer store s id plan ticks resumed outcome after)
    {ran : Except Error RunSummary × Session DemoAction}
    (hends : Ends answer id plan ticks after outcome ran) :
    ∃ shown, Shown s.world shown ran.2.world ∧ ShownIn id v.steps shown ran := by
  obtain ⟨u, result, hu, -, hresult, hphase, hshown⟩ := h.hasShown hs htext hv
  -- a verb that is left suspended has shown the effects of the steps before
  have hsuspended {ip : Nat} {t : Session DemoAction}
      (houtcome : outcome = (.ok (.suspended ip), t)) :
      Shown s.world (effectsOf (v.steps.take ip)) t.world ∧ t.catalog.get? id = some u ∧
        u.phase = .suspended ip := by
    subst houtcome
    obtain rfl := eq_ok_of_mapError hresult.symm
    exact ⟨flatten_take_perStep v.steps ip ▸ hshown.shown, hu, hphase _ rfl⟩
  cases hends with
  | failed =>
    cases result with
    | ok phase => cases hresult
    | error cause =>
      cases hresult
      refine exists_shownIn_of_result (fun ip hip => ?_) hshown ticks
      cases hip
  | finished hnot =>
    obtain rfl := eq_ok_of_mapError hresult.symm
    refine exists_shownIn_of_result (fun ip hip => ?_) hshown ticks
    cases hip
    exact hnot ip rfl
  | stalled | tooManyTicks =>
    obtain ⟨hshown, hu, hip⟩ := hsuspended rfl
    exact ⟨_, hshown, u, _, hu, hip, rfl⟩
  | notSaved _ _ hsave =>
    obtain ⟨hshown, hu, hip⟩ := hsuspended rfl
    obtain ⟨rfl, cause, rfl⟩ := h.not_saved hs hsave
    exact ⟨_, hshown, u, _, hu, hip, rfl⟩

/-- A run shows the effects of the steps of its verb in their order, each once, however long the
steps wait and whether or not the session is saved and reloaded meanwhile, and whatever the times in the
save are read as: all of them, if it comes to its end; those before the step that failed, or at which the
verb is left suspended, if it does not; and none, if there is no such verb or it is suspended already. -/
theorem shown_of_driven (hs : Driven Demo.registry s) (htext : TextKept answer store plan) :
    let ran := (run answer store (s.runVerb id plan)).1
    ∃ shown, Shown s.world shown ran.2.world ∧
      ShownIn id (((s.catalog.get? id).map Verb.steps).getD []) shown ran := by
  cases hv : s.catalog.get? id with
  | none =>
    have hran : (run answer store (s.runVerb id plan)).1 = (.error (.unknownVerb id), s) := by
      rw [runVerb_eq, callVerb, hv]
      rfl
    rw [hran]
    exact ⟨[], .nil _, rfl⟩
  | some v =>
    obtain ⟨ticks, resumed, outcome, after, h, hends⟩ := exists_ends answer store s id plan
    exact h.exists_shownIn hs.sound htext hv hends

/-- The verb of a lever is saved while it waits, at a time that does not read back, and what follows the
wait is shown once. -/
theorem shown_of_driven_lever :
    let definitions : Json := .object [("verbs", .array [.object [("id", .string "use"),
      ("actions", .array [.object [("kind", .string "sound"), ("sound", .string "lever")],
        .object [("kind", .string "wait"), ("time", .int 2)],
        .object [("kind", .string "text"), ("text", .string "It moved.")],
        .object [("kind", .string "set_state"), ("actor", .string "door")],
        .object [("kind", .string "set_state"), ("actor", .string "door"),
          ("state", .string "open")]])]])]
    let plan : SavePlan := ⟨11, "save"⟩
    ∃ s : Session DemoAction, (Session.load Demo.registry definitions .proceed).value = .ok s ∧
      TextKept Tree.answer {} (some plan) ∧ ¬ TimesKept s "use" (some plan) ∧
      (run Tree.answer {} (s.runVerb "use" (some plan))).1.1.isOk = true ∧
      Shown s.world [.sound "lever" 1.0, .text none "It moved.", .state "door" "open"]
        (run Tree.answer {} (s.runVerb "use" (some plan))).1.2.world := by
  intro definitions plan
  let s : Session DemoAction :=
    { registry := Demo.registry, definitions, policy := .proceed
      catalog := (Catalog.loadDefinitions {} Demo.registry definitions).value.2 }
  have hs : (Session.load Demo.registry definitions .proceed).value = .ok s :=
    value_load (by decide +kernel)
  have htext : TextKept Tree.answer {} (some plan) := textKept_some Tree.keeps_save
  obtain ⟨shown, hshown, hin⟩ := @shown_of_driven _ _ _ _ "use" _ (.load hs) htext
  have hok : (run Tree.answer {} (s.runVerb "use" (some plan))).1.1.isOk = true := by decide +kernel
  have hall : effectsOf (((s.catalog.get? "use").map Verb.steps).getD []) =
      [.sound "lever" 1.0, .text none "It moved.", .state "door" "open"] := by decide +kernel
  rw [hin.eq_of_isOk hok, hall] at hshown
  refine ⟨s, hs, htext, fun htimes => ?_, hok, hshown⟩
  -- after ten ticks the clock is at 0.9999999999999999, which is read as 1
  have hlost : ¬ ∀ t ∈ waiting? "use" 10 (s.called "use" Verb.run), t.Savable := by decide +kernel
  exact hlost (htimes plan rfl 10 (by decide) rfl)

end Session

end VerbScript.Demo
