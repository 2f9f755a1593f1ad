import VerbScript.Proofs.Demo.Timer
import VerbScript.Proofs.Verb.Order

/-!
# What the outcome of a run tells

The outcome of a run tells in which state it leaves the session (`Session.Leaves`,
`Session.leaves_runVerb`): a run that comes to its end leaves its verb finished; one that is refused
changes nothing; a step that fails leaves its verb finished, with no wait that lasts; a run that is given
up leaves its verb at a wait, with the timer armed; and no other verb is changed by it. From then on a
verb that was given up is not run, and nothing else that is done to the session changes it
(`Session.Undisturbed.kept`), until it is cancelled and runs anew (`Session.runVerb_cancelled`).
-/

namespace VerbScript.Demo

/-- None of the steps is a wait that lasts. -/
def NoWaitLasts (steps : List (Step DemoAction)) : Prop :=
  ∀ s ∈ steps, ∀ a, s.action = .wait a → a.startedAt = none

theorem noWaitLasts_cancelSteps (steps : List (Step DemoAction)) :
    NoWaitLasts (cancelSteps steps).1 := by
  induction steps with
  | nil => exact List.forall_mem_nil _
  | cons s rest ih =>
    rw [cancelSteps_cons]
    refine List.forall_mem_cons.2 ⟨fun a ha => ?_, ih⟩
    obtain ⟨kind, action⟩ := s
    cases action with
    | wait b =>
      cases ha
      rfl
    | _ => cases ha

/-- A turn fails only under the aborting policy, and then the verb has finished and no wait lasts. -/
theorem runFrom_failed {v : Verb DemoAction} {start : Nat} (hstart : start ≤ v.steps.length)
    {w : World} {cause : Verb.Error} (h : (v.runFrom start w).outcome = .error cause) :
    ∃ i kind e, cause = .stepFailed v.id i kind e ∧ v.policy = .abort ∧
      (v.runFrom start w).verb.phase = .finished ∧
      NoWaitLasts (v.runFrom start w).verb.steps := by
  have hphase := (Verb.agrees_runFrom hstart w).stepFailed
  obtain ⟨-, -, ⟨-, houtcome, -⟩ | ⟨_, -, -, -, houtcome, -⟩ |
    ⟨i, kind, e, hhalt, -, hlt, houtcome, hverb⟩⟩ := v.runFrom_cases hstart w
  · cases houtcome.symm.trans h
  · cases houtcome.symm.trans h
  · cases houtcome.symm.trans h
    refine ⟨i, kind, e, rfl, policy_of_failed hhalt, hphase _ _ _ _ houtcome, ?_⟩
    rw [hverb, Verb.cancel_of_suspended (Verb.phase_eq_suspended_iff.2 ⟨rfl, hlt⟩)]
    exact noWaitLasts_cancelSteps _

namespace Session

open Program (run)

variable {s t u : Session DemoAction} {id : String} {v : Verb DemoAction}

/-! ## Outcomes -/

/-- What an error of a run tells about the session `s` before the run and the session `t` after it. -/
def Tells (id : String) (plan : Option SavePlan) (s t : Session DemoAction) : Error → Prop
  | .unknownVerb name => name = id ∧ s.catalog.get? id = none ∧ t = s
  | .verb (.alreadyRunning name ip) =>
    name = id ∧ (∃ v, s.catalog.get? id = some v ∧ v.phase = .suspended ip) ∧ t = s
  | .verb (.stepFailed name ..) => name = id ∧ s.policy = .abort ∧
    ∃ v, t.catalog.get? id = some v ∧ v.phase = .finished ∧ NoWaitLasts v.steps
  | .tooManyTicks name ticks => name = id ∧ ticks = maxTicks ∧ ∃ ip, t.AwaitsTimer id ip
  | .save _ => plan.isSome = true ∧ ∃ ip, t.AwaitsTimer id ip
  | _ => False

/-- What is told of the session `s` by an outcome of a run or by its end: the verb is in the phase that is
returned, or the error tells what has become of it. -/
structure Told {β : Type} (phaseOf : β → Phase) (id : String) (plan : Option SavePlan)
    (s : Session DemoAction) (outcome : Except Error β × Session DemoAction) : Prop where
  ok : ∀ b, outcome.1 = .ok b →
    phaseOf b ≠ .notStarted ∧ ∃ v, outcome.2.catalog.get? id = some v ∧ v.phase = phaseOf b
  error : ∀ e, outcome.1 = .error e → Tells id plan s outcome.2 e
  policy_eq : outcome.2.policy = s.policy

/-- What a run has left of the session `s` by an outcome or by its end: its verb is as the outcome tells,
and every other verb is as it was. -/
structure Leaves {β : Type} (phaseOf : β → Phase) (id : String) (plan : Option SavePlan)
    (s : Session DemoAction) (outcome : Except Error β × Session DemoAction) : Prop
    extends Told phaseOf id plan s outcome where
  others : ∀ key, key ≠ id → outcome.2.catalog.get? key = s.catalog.get? key

/-- The phase that a call returns. -/
abbrev returned : Phase → Phase := fun phase => phase

variable {plan : Option SavePlan}

/-- A turn of the verb from one of its steps on. -/
theorem told_turn (ht : Sound Demo.registry t) (hv : t.catalog.get? id = some v) {start : Nat}
    (hstart : start ≤ v.steps.length) {turn : Turn DemoAction World}
    (houtcome : turn.outcome = (v.runFrom start t.world).outcome)
    (hverb : turn.verb = (v.runFrom start t.world).verb) (hpolicy : t.policy = s.policy) :
    Told returned id plan s (turn.outcome.mapError .verb,
      { t with catalog := t.catalog.set id turn.verb, world := turn.world }) := by
  obtain ⟨hid, hverbPolicy, -⟩ := ht.reached.wellFormed id v hv
  rw [houtcome, hverb]
  refine ⟨fun phase hok => ?ok, fun e herror => ?error, hpolicy⟩
  case ok =>
    replace hok := eq_ok_of_mapError hok
    refine ⟨?_, _, Catalog.get?_set_self hv _, (Verb.agrees_runFrom hstart _).ok _ hok⟩
    obtain ⟨-, -, ⟨-, h, -⟩ | ⟨_, -, -, -, h, -⟩ | ⟨_, _, _, -, -, -, h, -⟩⟩ :=
      v.runFrom_cases hstart t.world
    · cases h.symm.trans hok
      nofun
    · cases h.symm.trans hok
      nofun
    · cases h.symm.trans hok
  case error =>
    cases hcause : (v.runFrom start t.world).outcome with
    | ok phase =>
      rw [hcause] at herror
      cases herror
    | error cause =>
      rw [hcause] at herror
      cases herror
      obtain ⟨i, kind, e, rfl, habort, hphase, hidle⟩ := runFrom_failed hstart hcause
      exact ⟨hid, by rw [← hpolicy, ← ht.policy_eq, ← hverbPolicy, habort],
        _, Catalog.get?_set_self hv _, hphase, hidle⟩

/-- The call with which a run starts. -/
theorem told_called (hs : Sound Demo.registry s) :
    Told returned id plan s (s.called id Verb.run) := by
  cases hv : s.catalog.get? id with
  | none =>
    rw [called, hv]
    refine ⟨fun _ hok => ?_, fun e herror => ?_, rfl⟩
    · cases hok
    · cases herror
      exact ⟨rfl, hv, rfl⟩
  | some v =>
    rw [called_of_get? hv]
    by_cases hsuspended : ∃ ip, v.phase = .suspended ip
    · obtain ⟨ip, hip⟩ := hsuspended
      obtain ⟨hid, -, -⟩ := hs.reached.wellFormed id v hv
      rw [Verb.run_of_suspended hip, Catalog.set_self hv]
      refine ⟨fun _ hok => ?_, fun e herror => ?_, rfl⟩
      · cases hok
      · cases herror
        exact ⟨hid, ⟨v, hv, hip⟩, rfl⟩
    · have hrun := Verb.run_of_not_suspended (not_exists.1 hsuspended) s.world
      exact told_turn hs hv (Nat.zero_le _) (by rw [hrun]) (by rw [hrun]) rfl

section

variable {ip : Nat}

/-- A save keeps the phase of a verb. -/
theorem Told.reloaded (h : Told returned id plan s (.ok (.suspended ip), t)) (hreload : t.Reloaded u) :
    Told returned id plan s (.ok (.suspended ip), u) := by
  refine ⟨fun phase hok => ?_, nofun, hreload.policy_eq.trans h.policy_eq⟩
  obtain ⟨hstarted, v, hv, hphase⟩ := h.ok phase hok
  obtain ⟨w, hw, haligned⟩ := hreload.exists_aligned hv
  exact ⟨hstarted, w, hw, haligned.phase_eq.trans hphase⟩

theorem Told.advanced (h : Told returned id plan s (.ok (.suspended ip), t)) :
    Told returned id plan s (.ok (.suspended ip), t.advanced) :=
  ⟨h.ok, nofun, h.policy_eq⟩

theorem Told.called_resume (ht : Sound Demo.registry t)
    (h : Told returned id plan s (.ok (.suspended ip), t)) :
    Told returned id plan s (t.called id Verb.resume) := by
  obtain ⟨-, v, hv, hphase⟩ := h.ok _ rfl
  rw [called_of_get? hv]
  have hresume := Verb.resume_of_suspended hphase t.world
  exact told_turn ht hv (Verb.phase_eq_suspended_iff.1 hphase).2 (by rw [hresume]) (by rw [hresume])
    h.policy_eq

end

/-- A call on a verb does not change another one. -/
theorem get?_called_of_ne {key : String} (hne : key ≠ id)
    (f : Verb DemoAction → World → Turn DemoAction World) :
    (s.called id f).2.catalog.get? key = s.catalog.get? key := by
  cases hv : s.catalog.get? id with
  | none => rw [called, hv]
  | some v =>
    rw [called_of_get? hv]
    exact Catalog.get?_set_of_ne hne _ _

variable {φ : Type} {answer : φ → (r : Request) → r.Answer × φ} {store after : φ} {ticks : Nat}
  {resumed : List (Nat × Session DemoAction)} {outcome : Except Error Phase × Session DemoAction}

theorem Comes.told (hs : Sound Demo.registry s) (htext : TextKept answer store plan)
    (h : Comes answer store s id plan ticks resumed outcome after) :
    Told returned id plan s outcome :=
  h.induction (motive := fun _ _ => Told returned id plan s) hs (htext.savesBy hs) (told_called hs)
    (fun _ _ _ _ _ _ hreload ht => ht.reloaded hreload) (fun _ _ _ _ _ _ ht => ht.advanced)
    fun _ _ _ _ hsound _ ht => ht.advanced.called_resume hsound.advanced

/-- What the saves of a run keep of another verb, the run keeps of it. -/
theorem Comes.other {R : Session DemoAction → Session DemoAction → Prop} (hs : Sound Demo.registry s)
    (hsaves : SavesBy R answer store s id plan) {key : String} (hne : key ≠ id)
    {motive : Option (Verb DemoAction) → Prop}
    (saved : ∀ t u, R t u → motive (t.catalog.get? key) → motive (u.catalog.get? key))
    (h : Comes answer store s id plan ticks resumed outcome after)
    (hbefore : motive (s.catalog.get? key)) : motive (outcome.2.catalog.get? key) := by
  refine h.induction (motive := fun _ _ outcome => motive (outcome.2.catalog.get? key)) hs hsaves
    ?called (fun _ _ _ t u _ => saved t u) (fun _ _ _ _ _ _ ht => ht) ?resumed
  case called => rwa [get?_called_of_ne hne]
  case resumed =>
    intro _ _ _ t _ _ ht
    rw [get?_called_of_ne hne]
    exact ht

/-- The outcome of a run whose saves are kept tells in which state it leaves the session. -/
theorem leaves_runVerb (hs : Sound Demo.registry s) (hsaves : SavesKept answer store s id plan) :
    Leaves (fun _ => .finished) id plan s (run answer store (s.runVerb id plan)).1 := by
  obtain ⟨ticks, resumed, outcome, after, h, hends⟩ := exists_ends answer store s id plan
  have htold := h.told hs hsaves.text
  have hothers (key : String) (hne : key ≠ id) :
      outcome.2.catalog.get? key = s.catalog.get? key :=
    h.other hs (hsaves.savesBy hs) hne (motive := (· = s.catalog.get? key))
      (fun t u hsame ht => hsame ▸ ht) rfl
  -- a verb that is left suspended awaits the timer
  have hawaits {ip : Nat} {t : Session DemoAction} (houtcome : outcome = (.ok (.suspended ip), t)) :
      t.AwaitsTimer id ip := by
    subst houtcome
    exact ((h.onTime hs hsaves).suspended ip rfl).1
  generalize (run answer store (s.runVerb id plan)).1 = ran at hends
  have hsame := h.snd_ends hs hends
  refine ⟨⟨fun summary hok => ?ok, fun e herror => ?error, by rw [hsame, htold.policy_eq]⟩, ?others⟩
  case others =>
    intro key hne
    rw [hsame, hothers key hne]
  case ok =>
    cases hends with
    | @finished phase t hnot =>
      obtain ⟨hstarted, v, hv, hphase⟩ := htold.ok phase rfl
      refine ⟨nofun, v, hv, hphase.trans ?_⟩
      cases phase with
      | notStarted => exact absurd rfl hstarted
      | suspended ip => exact absurd rfl (hnot ip)
      | finished => rfl
    | _ => cases hok
  case error =>
    cases hends with
    | failed =>
      cases herror
      exact htold.error _ rfl
    | finished => cases herror
    | stalled hidle =>
      obtain ⟨deadline, -, htimer⟩ := hawaits rfl
      rw [htimer] at hidle
      cases hidle
    | tooManyTicks harmed hticks =>
      cases herror
      exact ⟨rfl, hticks, _, hawaits rfl⟩
    | notSaved _ _ hsave =>
      obtain ⟨rfl, cause, rfl⟩ := h.not_saved hs hsave
      cases herror
      refine ⟨?_, _, hawaits rfl⟩
      cases plan with
      | none => cases hsave
      | some p => rfl

/-! ## Refusals -/

/-- A verb that is not there is not run. -/
theorem runVerb_eq_unknownVerb_iff (hs : Sound Demo.registry s)
    (hsaves : SavesKept answer store s id plan) :
    (run answer store (s.runVerb id plan)).1.1 = .error (.unknownVerb id) ↔
      s.catalog.get? id = none := by
  refine ⟨fun h => ((leaves_runVerb hs hsaves).error _ h).2.1, fun h => ?_⟩
  rw [runVerb_eq, callVerb, h]
  rfl

/-- A verb that is suspended is not run. -/
theorem runVerb_of_suspended (hs : Sound Demo.registry s) (hv : s.catalog.get? id = some v) {ip : Nat}
    (hip : v.phase = .suspended ip) (answer : φ → (r : Request) → r.Answer × φ) (store : φ)
    (plan : Option SavePlan) :
    (run answer store (s.runVerb id plan)).1 = (.error (.verb (.alreadyRunning id ip)), s) := by
  obtain ⟨hid, -, -⟩ := hs.reached.wellFormed id v hv
  obtain ⟨events, hrun⟩ := Program.run_of_logged? answer (logged?_callVerb s id Verb.run) store
  rw [runVerb_eq, Program.run_bind, hrun, called_of_get? hv, Verb.run_of_suspended hip,
    Catalog.set_self hv, hid]
  rfl

theorem runVerb_eq_alreadyRunning_iff (hs : Sound Demo.registry s)
    (hsaves : SavesKept answer store s id plan) (ip : Nat) :
    (run answer store (s.runVerb id plan)).1.1 = .error (.verb (.alreadyRunning id ip)) ↔
      ∃ v, s.catalog.get? id = some v ∧ v.phase = .suspended ip := by
  refine ⟨fun h => ((leaves_runVerb hs hsaves).error _ h).2.1, ?_⟩
  rintro ⟨v, hv, hip⟩
  rw [runVerb_of_suspended hs hv hip]

/-! ## Verbs that were given up -/

/-- The session `u` comes of the session `t` by running verbs, with saves whose text is read back, and by
cancelling others than one of them. If `times` holds, the times in the saves read back too. -/
inductive Undisturbed (times : Prop) (id : String) (t : Session DemoAction) :
    Session DemoAction → Prop where
  | refl : Undisturbed times id t t
  | runVerb {u : Session DemoAction} (h : Undisturbed times id t u) {φ : Type}
      {answer : φ → (r : Request) → r.Answer × φ} {store : φ} {other : String}
      {plan : Option SavePlan} (htext : TextKept answer store plan)
      (htimes : times → TimesKept u other plan) :
      Undisturbed times id t (run answer store (u.runVerb other plan)).1.2
  | cancel {u : Session DemoAction} (h : Undisturbed times id t u) {other : String} (hne : other ≠ id)
      {v : Verb DemoAction} (hv : u.catalog.get? other = some v) :
      Undisturbed times id t { u with catalog := u.catalog.set other v.cancel.1 }

/-- A run leaves another verb as it was but for the times. -/
theorem exists_aligned_runVerb (hs : Sound Demo.registry s) (htext : TextKept answer store plan)
    {key : String} (hne : key ≠ id) {w : Verb DemoAction} (hw : s.catalog.get? key = some w) :
    ∃ w', (run answer store (s.runVerb id plan)).1.2.catalog.get? key = some w' ∧ Aligned w w' := by
  obtain ⟨ticks, resumed, outcome, after, h, hends⟩ := exists_ends answer store s id plan
  rw [h.snd_ends hs hends]
  refine h.other hs (htext.savesBy hs) hne (motive := fun v? => ∃ w', v? = some w' ∧ Aligned w w')
    ?saved ⟨w, hw, .refl w⟩
  rintro t u hreload ⟨v, hv, haligned⟩
  obtain ⟨v', hv', haligned'⟩ := hreload.exists_aligned hv
  exact ⟨v', hv', haligned.trans haligned'⟩

/-- A verb that is suspended stays at its step until it is cancelled, and as it is if the times that are
saved meanwhile read back. -/
theorem Undisturbed.kept {times : Prop} (h : Undisturbed times id t u) (ht : Sound Demo.registry t)
    (hv : t.catalog.get? id = some v) {ip : Nat} (hip : v.phase = .suspended ip) :
    Sound Demo.registry u ∧
      ∃ w, u.catalog.get? id = some w ∧ Aligned v w ∧ (times → w = v) := by
  induction h with
  | refl => exact ⟨ht, v, hv, .refl v, fun _ => rfl⟩
  | @runVerb u _ φ answer store other plan htext htimes ih =>
    obtain ⟨hu, w, hw, haligned, hexact⟩ := ih
    refine ⟨(hu.runVerb other plan).run answer store, ?_⟩
    by_cases hother : id = other
    · subst hother
      rw [runVerb_of_suspended hu hw (haligned.phase_eq.trans hip)]
      exact ⟨w, hw, haligned, hexact⟩
    · obtain ⟨w', hw', haligned'⟩ := exists_aligned_runVerb hu htext hother hw
      refine ⟨w', hw', haligned.trans haligned', fun hkept => ?_⟩
      have hsame := (leaves_runVerb hu ⟨htext, htimes hkept⟩).others id hother
      rw [hw', hw, hexact hkept] at hsame
      exact Option.some.inj hsame
  | cancel _ hne hother ih =>
    obtain ⟨hu, w, hw, hkept⟩ := ih
    refine ⟨⟨hu.registry_eq, hu.reached.cancel hother, hu.policy_eq⟩, w, ?_, hkept⟩
    rw [Catalog.get?_set_of_ne hne.symm, hw]

/-- A verb that was cancelled in its course is run as one that has not run: the first step is executed
first. -/
theorem runVerb_cancelled (hv : u.catalog.get? id = some v) {ip : Nat} (hip : v.phase = .suspended ip)
    (plan : Option SavePlan) :
    let cancelled := v.cancel.1
    let fresh := { cancelled with ip := notStarted }
    Session.runVerb { u with catalog := u.catalog.set id cancelled } id plan =
      Session.runVerb { u with catalog := u.catalog.set id fresh } id plan ∧
    ∀ w : World, ∃ n, cancelled.numbered.marks (.run w) = episode (n + 1) := by
  intro cancelled fresh
  have hidle : ∀ i, cancelled.phase ≠ .suspended i := by
    rw [v.phase_cancel]
    nofun
  have hnew : ∀ i, fresh.phase ≠ .suspended i := by
    rw [Verb.phase_eq_notStarted_iff.2 rfl]
    nofun
  refine ⟨?_, fun w => ?_⟩
  · have hrun (w : World) : cancelled.run w = fresh.run w := by
      rw [Verb.run_of_not_suspended hidle, Verb.run_of_not_suspended hnew]
      rfl
    rw [runVerb_eq, runVerb_eq, callVerb, callVerb]
    simp only [Catalog.get?_set_self hv, hrun, Catalog.set_set]
  · obtain ⟨n, hmarks, -, hzero, -⟩ := Verb.marks_run hidle w
    cases n with
    | succ n => exact ⟨n, hmarks⟩
    | zero =>
      have hlength := v.moved_cancel.steps.length_eq
      have hlt := Verb.lt_length_of_phase hip
      rw [hlength, hzero rfl, List.length_nil] at hlt
      exact absurd hlt (Nat.not_lt_zero ip)

/-- The outcome of a run tells in which state it leaves the session. A run that comes to its end leaves
its verb finished. A verb that is not there, or is suspended, is refused, and nothing else is, and then
nothing has changed. A step that fails does so under the aborting policy, and leaves the verb finished,
with no wait that lasts. A run that is given up leaves the verb at a wait, with the timer armed. There
are no other errors, and no other verb is changed by a run. A verb that a run leaves suspended stays as it
is, but for what the times in later saves are read as, and is refused, whatever else is run or cancelled,
until it is cancelled; then it is run from its first step. -/
theorem outcome_of_driven (hs : Driven Demo.registry s) (answer : φ → (r : Request) → r.Answer × φ)
    (store : φ) (id : String) :
    let ran := (run answer store (s.runVerb id none)).1
    Leaves (fun _ => .finished) id none s ran ∧
    (ran.1 = .error (.unknownVerb id) ↔ s.catalog.get? id = none) ∧
    (∀ ip, ran.1 = .error (.verb (.alreadyRunning id ip)) ↔
      ∃ v, s.catalog.get? id = some v ∧ v.phase = .suspended ip) ∧
    ∀ v ip, ran.2.catalog.get? id = some v → v.phase = .suspended ip →
      ∀ times u, Undisturbed times id ran.2 u →
        ∃ w, u.catalog.get? id = some w ∧ Aligned v w ∧ (times → w = v) ∧
        (∀ {ψ : Type} (answer : ψ → (r : Request) → r.Answer × ψ) (store : ψ)
          (plan : Option SavePlan), (run answer store (u.runVerb id plan)).1 =
            (.error (.verb (.alreadyRunning id ip)), u)) ∧
        let again := { u with catalog := u.catalog.set id w.cancel.1 }
        let fresh := { u with catalog := u.catalog.set id { w.cancel.1 with ip := notStarted } }
        (∀ plan, again.runVerb id plan = fresh.runVerb id plan) ∧
        ∃ n, w.cancel.1.numbered.marks (.run u.world) = episode (n + 1) := by
  intro ran
  refine ⟨leaves_runVerb hs.sound savesKept_none, runVerb_eq_unknownVerb_iff hs.sound savesKept_none,
    runVerb_eq_alreadyRunning_iff hs.sound savesKept_none, fun v ip hv hip times u hu => ?_⟩
  have hran : Sound Demo.registry ran.2 := (hs.sound.runVerb id none).run answer store
  obtain ⟨hsound, w, hw, haligned, hexact⟩ := hu.kept hran hv hip
  have hwip := haligned.phase_eq.trans hip
  exact ⟨w, hw, haligned, hexact,
    fun answer store plan => runVerb_of_suspended hsound hw hwip answer store plan,
    fun plan => (runVerb_cancelled hw hwip plan).1, (runVerb_cancelled hw hwip none).2 u.world⟩

/-- A verb is left suspended when a save fails: it is refused then, and also after another verb was run,
which it is not changed by, until it is cancelled. -/
theorem outcome_of_driven_lamp :
    let definitions : Json := .object [("verbs", .array [
      .object [("id", .string "look"),
        ("actions", .array [.object [("kind", .string "wait"), ("time", .int 9)]])],
      .object [("id", .string "use"),
        ("actions", .array [.object [("kind", .string "text"), ("text", .string "Click.")]])]])]
    ∃ new s u : Session DemoAction, ∃ v : Verb DemoAction,
      (Session.load Demo.registry definitions .proceed).value = .ok new ∧
      s = (run Tree.answer {} (new.runVerb "look" (some ⟨1, ""⟩))).1.2 ∧
      s.catalog.get? "look" = some v ∧
      (run Tree.answer {} (s.runVerb "look" none)).1 =
        (.error (.verb (.alreadyRunning "look" 0)), s) ∧
      u = (run Tree.answer {} (s.runVerb "use" none)).1.2 ∧
      (u.catalog.get? "use").map Verb.phase = some .finished ∧
      u.catalog.get? "look" = some v ∧
      (run Tree.answer {} (u.runVerb "look" none)).1 =
        (.error (.verb (.alreadyRunning "look" 0)), u) ∧
      ∃ n, v.cancel.1.numbered.marks (.run u.world) = episode (n + 1) := by
  intro definitions
  let new : Session DemoAction :=
    { registry := Demo.registry, definitions, policy := .proceed
      catalog := (Catalog.loadDefinitions {} Demo.registry definitions).value.2 }
  have hnew : (Session.load Demo.registry definitions .proceed).value = .ok new :=
    value_load (by decide +kernel)
  let s := (run Tree.answer {} (new.runVerb "look" (some ⟨1, ""⟩))).1.2
  have hs : Driven Demo.registry s := .runVerb (.load hnew) Tree.answer {} "look" (some ⟨1, ""⟩)
  have hphase : (s.catalog.get? "look").map Verb.phase = some (.suspended 0) := by decide +kernel
  obtain ⟨v, hv, hip⟩ := Option.map_eq_some_iff.1 hphase
  -- the verb that is suspended
  obtain ⟨hleaves, -, hrefused, hleft⟩ := outcome_of_driven hs Tree.answer {} "look"
  have hwrong := (hrefused 0).2 ⟨v, hv, hip⟩
  obtain ⟨-, -, hsame⟩ := hleaves.error _ hwrong
  rw [hsame] at hleft
  -- the other one
  let u := (run Tree.answer {} (s.runVerb "use" none)).1.2
  obtain ⟨hdone, -⟩ := outcome_of_driven hs Tree.answer {} "use"
  have hok : (run Tree.answer {} (s.runVerb "use" none)).1.1.isOk = true := by decide +kernel
  have hfinished : (u.catalog.get? "use").map Verb.phase = some .finished := by
    cases hresult : (run Tree.answer {} (s.runVerb "use" none)).1.1 with
    | error e =>
      rw [hresult] at hok
      cases hok
    | ok summary =>
      obtain ⟨-, w, hw, hfinished⟩ := hdone.ok summary hresult
      rw [show u.catalog.get? "use" = some w from hw, Option.map_some, hfinished]
  obtain ⟨w, hkept, -, hexact, hagain, -, hmarks⟩ :=
    hleft v 0 hv hip True u (.runVerb .refl nofun fun _ => nofun)
  obtain rfl := hexact trivial
  exact ⟨new, s, u, w, hnew, rfl, hv, Prod.ext hwrong hsame, rfl, hfinished, hkept,
    hagain Tree.answer {} none, hmarks⟩

end Session

end VerbScript.Demo
