import VerbScript.Proofs.Demo.Reread
import VerbScript.Proofs.Demo.Save
import VerbScript.Proofs.Storage.Tree

/-!
# Saving and reloading in the middle of a run

A session that is saved and reloaded goes on as it was (`run_saveAndReload`): the catalog that is
loaded anew holds the same verbs, and takes over the state of each of them. So a run with a save
plan comes to what the run without it comes to, whatever the tick of the plan (`run_goOn_plan`). Where
the times that are saved do not read back, it is as it was but for the times
(`reloaded_saveAndReload`).
-/

namespace VerbScript.Demo.Session

open Program (run logged)

/-- The pointers of the session's verbs are words, and the times that a save of it holds read
back. -/
def Savable (s : Session DemoAction) : Prop :=
  (∀ e ∈ s.catalog.verbs.entries, Kept e.2) ∧ s.world.snapshot.TimesReadBack

instance (s : Session DemoAction) : Decidable s.Savable := inferInstanceAs (Decidable (_ ∧ _))

variable {φ : Type} {answer : φ → (r : Request) → r.Answer × φ} {store : φ} {s : Session DemoAction}

/-- A session that is saved and reloaded is as it was, if what is read is what was written, and only
the storage can fail. -/
theorem exists_saveAndReload (answer : φ → (r : Request) → r.Answer × φ)
    (h : Sound Demo.registry s) (hsave : s.Savable) (path : String) :
    ∃ text events, ∀ store : φ,
      let replaced := run answer store (replaceFile path text)
      let read := (answer (logged answer replaced.2 events) (.read path)).1
      (replaced.1 = .ok () → ∀ content, read = .ok content → content = text) →
        (run answer store (s.saveAndReload path)).1 =
          ((replaced.1.mapError (.write path) >>= fun _ =>
            (read.mapError (.read path)).map fun _ => ()).mapError .save, s) := by
  obtain ⟨c, hload⟩ := h.loadCatalog
  obtain ⟨hreached, hpolicy⟩ := reached_loadCatalog (h.registry_eq ▸ hload)
  obtain ⟨text, hrender, hrestore⟩ := restore_render h.reached hreached hsave.1 hsave.2
  have hsame : s.catalog.withPolicy c.policy = s.catalog := by
    rw [hpolicy, ← h.policy_eq]
    exact h.reached.wellFormed.withPolicy_self
  obtain rfl : s.saveText = text := Except.ok.inj hrender
  refine ⟨s.saveText, s.betweenEvents path, fun store => ?_⟩
  rw [run_saveAndReload_eq answer store path hload]
  generalize run answer store (replaceFile path s.saveText) = replaced
  obtain ⟨outcome, replaced⟩ := replaced
  cases outcome with
  | error fault => exact fun _ => rfl
  | ok =>
    dsimp only
    generalize (answer (logged answer replaced (s.betweenEvents path)) (.read path)).1 = read
    intro htext
    cases read with
    | error fault => rfl
    | ok content =>
      obtain rfl := htext rfl content rfl
      simp only [hrestore, hsame]
      rfl

/-- A session that is saved and reloaded is as it was, and nothing fails, if the storage keeps the
save. -/
theorem run_saveAndReload (h : Sound Demo.registry s) (hsave : s.Savable) {path : String}
    (hkeeps : Program.Keeps answer store path) :
    (run answer store (s.saveAndReload path)).1 = (.ok (), s) := by
  obtain ⟨text, events, hreloaded⟩ := exists_saveAndReload answer h hsave path
  obtain ⟨replaced, hreplace, hread⟩ := hkeeps.replaceFile text
  have hreloaded := hreloaded store
  simp only [hreplace, hread] at hreloaded
  exact hreloaded fun _ content hcontent => Except.ok.inj hcontent.symm

/-- A session that is saved and reloaded is as it was, and at most the save fails, if the storage is
faithful. -/
theorem run_saveAndReload_of_faithful (h : Sound Demo.registry s) (hsave : s.Savable)
    {path : String} (hfaithful : Program.Faithful answer store path) :
    (run answer store (s.saveAndReload path)).1 = (.ok (), s) ∨
      ∃ e, (run answer store (s.saveAndReload path)).1 = (.error (.save e), s) := by
  obtain ⟨text, events, hreloaded⟩ := exists_saveAndReload answer h hsave path
  rw [hreloaded store fun hreplace content hread => hfaithful [] text hreplace events content hread]
  generalize (_ >>= _ : Except Save.Error Unit) = outcome
  cases outcome with
  | ok => exact .inl rfl
  | error e => exact .inr ⟨e, rfl⟩

/-- A session that is saved and reloaded without a failure is as it was but for the times, if the storage is
faithful. -/
theorem reloaded_saveAndReload (h : Sound Demo.registry s) {path : String} {t : Session DemoAction}
    (hfaithful : Program.Faithful answer store path)
    (hsaved : (run answer store (s.saveAndReload path)).1 = (.ok (), t)) : s.Reloaded t := by
  obtain ⟨c, hload⟩ := h.loadCatalog
  rw [run_saveAndReload_eq answer store path hload] at hsaved
  split at hsaved
  · cases hsaved
  next hreplace =>
  split at hsaved
  · cases hsaved
  next content hread =>
  obtain rfl := hfaithful [] s.saveText hreplace (s.betweenEvents path) content hread
  split at hsaved
  · cases hsaved
  next snapshot catalog hrestore =>
  cases hsaved
  exact reloaded_of_restore h hload hrestore

/-! ## Runs -/

/-- The session before the tick that comes `n` ticks after an outcome, if the verb still waits. -/
def waiting? (id : String) : Nat → Except Error Phase × Session DemoAction →
    Option (Session DemoAction)
  | 0, (.ok (.suspended _), s) => if s.world.resumeAt.isNone then none else some s
  | n + 1, (.ok (.suspended ip), s) =>
    if s.world.resumeAt.isNone then none else waiting? id n (s.ticked id (.suspended ip))
  | _, _ => none

theorem waiting?_succ (harmed : s.world.resumeAt.isNone = false) (id : String) (n ip : Nat) :
    waiting? id (n + 1) (.ok (.suspended ip), s) = waiting? id n (s.ticked id (.suspended ip)) := by
  rw [waiting?, harmed]
  rfl

/-- Once its tick has passed, a save plan does not matter. -/
theorem goOn_of_passed (id : String) {plan : SavePlan} (left : Nat) {ticks : Nat}
    (hpassed : plan.atTick ≤ ticks) :
    goOn (α := DemoAction) id (some plan) left ticks = goOn id none left ticks := by
  funext outcome
  induction left, ticks, outcome using goOn_induction (α := DemoAction) id with
  | ends left ticks outcome result hends => rw [hends, hends]
  | waits left ticks ip s harmed ih =>
    rw [goOn_of_not_due harmed id (fun p hp => by cases hp; omega),
      goOn_of_not_due harmed id (fun _ hp => by cases hp)]
    congr 1
    exact funext fun outcome => ih outcome (Nat.le_succ_of_le hpassed)

/-- With a save plan, an outcome is followed by what follows it without the plan. -/
theorem run_goOn_plan (id : String) {plan : SavePlan} (hkeeps : Program.Keeps answer store plan.path)
    (left ticks : Nat) (outcome : Except Error Phase × Session DemoAction)
    (h : Sound Demo.registry outcome.2)
    (hsave : ∀ n < left, plan.atTick = ticks + n + 1 →
      ∀ t ∈ waiting? id n outcome, t.Savable) :
    (run answer store (goOn id (some plan) left ticks outcome)).1 =
      (run answer store (goOn id none left ticks outcome)).1 := by
  induction left, ticks, outcome using goOn_induction (α := DemoAction) id generalizing store with
  | ends left ticks outcome result hends => rw [hends, hends]
  | waits left ticks ip s harmed ih =>
    have hnone : goOn id none (left + 1) ticks (.ok (.suspended ip), s) =
        s.tick id (.suspended ip) >>= goOn id none left (ticks + 1) :=
      goOn_of_not_due harmed id (fun _ hp => by cases hp) left ip
    by_cases hdue : plan.atTick = ticks + 1
    · -- The session is saved and reloaded, and the plan does not matter from then on.
      have hsaved := run_saveAndReload h (hsave 0 (Nat.succ_pos left) hdue s
        (by rw [waiting?, harmed]; rfl)) hkeeps
      obtain ⟨x, hx⟩ := logged?_goOn id (left + 1) ticks (.ok (.suspended ip), s)
      rw [Program.fst_run_of_logged? answer hx, goOn_succ harmed, saveIfDue, if_pos hdue,
        Program.run_bind, hsaved, goOn_of_passed id left (Nat.le_of_eq hdue)]
      rw [hnone] at hx
      exact Program.fst_run_of_logged? answer hx _
    · -- Both runs let the same tick pass, and leave the same events in the log.
      obtain ⟨events, htick⟩ :=
        Program.run_of_logged? answer (logged?_tick s id (.suspended ip)) store
      rw [hnone, goOn_of_not_due harmed id (fun p hp => by cases hp; exact hdue),
        Program.run_bind, Program.run_bind, htick]
      refine ih _ (hkeeps.logged events) (h.ticked id _) fun n hn hat t ht => ?_
      exact hsave (n + 1) (Nat.succ_lt_succ hn) (by omega) t (by rw [waiting?, harmed]; exact ht)

/-- A run with a save plan comes to the same result, in the same session, as the run without it, if
the storage keeps the save and the times that are saved read back. -/
theorem runVerb_plan (hs : Reached Demo.registry s) (id : String) (plan : SavePlan)
    (hkeeps : Program.Keeps answer store plan.path)
    (hsave : ∀ n < maxTicks, plan.atTick = n + 1 →
      ∀ t ∈ waiting? id n (s.called id Verb.run), t.Savable) :
    (run answer store (s.runVerb id (some plan))).1 = (run answer store (s.runVerb id none)).1 := by
  obtain ⟨events, hcall⟩ := Program.run_of_logged? answer (logged?_callVerb s id Verb.run) store
  rw [runVerb_eq, runVerb_eq, Program.run_bind, Program.run_bind, hcall]
  exact run_goOn_plan id (hkeeps.logged events) maxTicks 0 _ (hs.sound.called_run id)
    fun n hn hat => hsave n hn (by omega)

/-- The verb of a lever, whose wait takes twenty ticks, is saved before the third of them. -/
theorem runVerb_plan_lever :
    let definitions : Json := .object [("verbs", .array [.object [("id", .string "use"),
      ("actions", .array [.object [("kind", .string "sound"), ("sound", .string "lever")],
        .object [("kind", .string "wait"), ("time", .int 2)]])]])]
    ∃ s : Session DemoAction, (Session.load Demo.registry definitions .proceed).value = .ok s ∧
      (run Tree.answer {} (s.runVerb "use" none)).1.1.toOption.map (·.ticks) = some 20 ∧
      (run Tree.answer {} (s.runVerb "use" (some ⟨3, "save"⟩))).1 =
        (run Tree.answer {} (s.runVerb "use" none)).1 := by
  intro definitions
  let s : Session DemoAction :=
    { registry := Demo.registry, definitions, policy := .proceed
      catalog := (Catalog.loadDefinitions {} Demo.registry definitions).value.2 }
  have hs : (Session.load Demo.registry definitions .proceed).value = .ok s :=
    value_load (by decide +kernel)
  have hkeeps : Program.Keeps Tree.answer {} "save" :=
    Tree.keeps_of_isName (by decide +kernel) (by decide +kernel) (by decide +kernel) nofun nofun
      (by decide +kernel)
  have hsave : ∀ t ∈ waiting? "use" 2 (s.called "use" Verb.run), t.Savable := by decide +kernel
  refine ⟨s, hs, by decide +kernel, runVerb_plan (.load hs) "use" ⟨3, "save"⟩ hkeeps ?_⟩
  intro n _ hn
  obtain rfl : 2 = n := Nat.succ.inj hn
  exact hsave

end VerbScript.Demo.Session
