import VerbScript.Proofs.Demo.Loop

/-!
# Reloads that fail

Saving and reloading a session fails for one of the reasons that `Session.ReloadFault` lists,
whatever the storage does: the file is not replaced, it is not read, or what is read is no save, is
one of another version or holds states that the catalog loaded anew refuses. Then the session is as
it was before, also where verbs of the new catalog have taken states over by then
(`Session.saveAndReload_error_iff`), and a run whose save fails so ends before the tick that the
save was planned for, in the session that the tick before has left
(`Session.runVerb_save_error_iff`).
-/

namespace VerbScript.Demo.Session

open Program (run logged)

variable {α φ : Type} [Action α World]

/-- The file is replaced by the save of a session, and this is what reading it comes to then. -/
structure Rereads (answer : φ → (r : Request) → r.Answer × φ) (store : φ) (s : Session α)
    (path : String) (read : Except StorageFault String) : Prop where
  replaced : (run answer store (replaceFile path s.saveText)).1 = .ok ()
  read_eq : (answer (logged answer (run answer store (replaceFile path s.saveText)).2
    (s.betweenEvents path)) (.read path)).1 = read

/-- Why a session is not saved and reloaded. -/
inductive ReloadFault (answer : φ → (r : Request) → r.Answer × φ) (store : φ) (s : Session α)
    (path : String) : Save.Error → Prop where
  | write {fault : StorageFault}
      (hwrite : (run answer store (replaceFile path s.saveText)).1 = .error fault) :
      ReloadFault answer store s path (.write path fault)
  | read {fault : StorageFault} (hread : s.Rereads answer store path (.error fault)) :
      ReloadFault answer store s path (.read path fault)
  | parse {content : String} {failure : Json.Failure}
      (hread : s.Rereads answer store path (.ok content))
      (hparse : Save.read? (η := Snapshot) content = .error failure) :
      ReloadFault answer store s path (.parse path failure)
  | version {content : String} {parts : Save.Parts Snapshot}
      (hread : s.Rereads answer store path (.ok content)) (hparse : Save.read? content = .ok parts)
      (hversion : parts.version ≠ Save.version) :
      ReloadFault answer store s path (.versionMismatch path parts.version)
  | restore {content : String} {parts : Save.Parts Snapshot} {c d : Catalog α}
      {cause : Catalog.Error} (hread : s.Rereads answer store path (.ok content))
      (hparse : Save.read? content = .ok parts) (hversion : parts.version = Save.version)
      (hload : (loadCatalog s.registry s.definitions s.policy).value = .ok c)
      (hrestore : (c.readRuntimeState parts.catalog).value = (.error cause, d)) :
      ReloadFault answer store s path (.restore path cause)

variable {answer : φ → (r : Request) → r.Answer × φ} {store : φ} {r : Registry α} {s t : Session α}
  {path : String}

/-- A session is not saved and reloaded exactly if there is a fault, and then it is as it was. -/
theorem saveAndReload_error_iff (hs : Sound r s) {e : Error} :
    (run answer store (s.saveAndReload path)).1 = (.error e, t) ↔
      t = s ∧ ∃ cause, e = .save cause ∧ ReloadFault answer store s path cause := by
  obtain ⟨c, hload⟩ := hs.loadCatalog
  rw [run_saveAndReload_eq answer store path hload]
  constructor
  · intro h
    split at h
    · next fault hwrite =>
      cases h
      exact ⟨rfl, _, rfl, .write hwrite⟩
    · next hwrite =>
      split at h
      · next fault hread =>
        cases h
        exact ⟨rfl, _, rfl, .read ⟨hwrite, hread⟩⟩
      · next content hread =>
        have hread : s.Rereads answer store path (.ok content) := ⟨hwrite, hread⟩
        split at h
        · next cause d hrestore =>
          cases h
          refine ⟨rfl, cause, rfl, ?_⟩
          rcases Save.restore_error_cases hrestore with ⟨failure, hparse, rfl, -⟩ |
            ⟨parts, hparse, ⟨hversion, rfl, -⟩ | ⟨hversion, cause, rfl, hrefused⟩⟩
          · exact .parse hread hparse
          · exact .version hread hparse hversion
          · exact .restore hread hparse hversion hload hrefused
        · cases h
  · rintro ⟨rfl, cause, rfl, hfault⟩
    cases hfault with
    | write hwrite => simp only [hwrite]
    | read hread => simp only [hread.replaced, hread.read_eq]
    | parse hread hparse =>
      simp only [hread.replaced, hread.read_eq, Save.restore, hparse]
    | version hread hparse hversion =>
      simp only [hread.replaced, hread.read_eq, Save.restore, hparse, if_pos hversion]
    | restore hread hparse hversion hload' hrestore =>
      cases hload.symm.trans hload'
      simp only [hread.replaced, hread.read_eq, Save.restore, hparse, hversion, hrestore]
      rfl

/-- The sessions that there are between runs and in the course of them. -/
inductive Visited (r : Registry α) : Session α → Prop where
  | driven {s : Session α} (hs : Driven r s) : Visited r s
  | during {s t : Session α} (hs : Driven r s) {φ : Type}
      {answer : φ → (q : Request) → q.Answer × φ} {store after : φ} {id : String}
      {plan : Option SavePlan} {ticks : Nat} {resumed : List (Nat × Session α)}
      {result : Except Error Phase}
      (h : Comes answer store s id plan ticks resumed (result, t) after) : Visited r t

theorem Visited.sound (h : Visited r s) : Sound r s := by
  cases h with
  | driven hs => exact hs.sound
  | during hs h => exact h.sound hs.sound

/-- A run ends with a save that fails exactly if it comes to the tick that the save was planned for,
and the session that waits for this tick cannot be saved and reloaded. This session is what is
left. -/
theorem runVerb_save_error_iff (hs : Sound r s) {id : String} {plan : SavePlan}
    {cause : Save.Error} :
    (run answer store (s.runVerb id (some plan))).1 = (.error (.save cause), t) ↔
      ∃ ticks resumed ip before,
        Comes answer store s id (some plan) ticks resumed (.ok (.suspended ip), t) before ∧
        t.world.resumeAt.isNone = false ∧ ticks < maxTicks ∧ plan.atTick = ticks + 1 ∧
        (run answer before (t.saveAndReload plan.path)).1 = (.error (.save cause), t) := by
  constructor
  · intro h
    obtain ⟨ticks, resumed, outcome, before, hcomes, hends⟩ :=
      exists_ends answer store s id (some plan)
    rw [h] at hends
    cases hends with
    | failed =>
      obtain hother | ⟨_, hother⟩ := hcomes.error_cases <;> cases hother
    | @notSaved ip u _ _ harmed hticks hsave =>
      rw [saveIfDue] at hsave
      split at hsave
      · next hdue =>
        obtain ⟨rfl, -⟩ := (saveAndReload_error_iff (hcomes.sound hs)).1 hsave
        exact ⟨ticks, resumed, ip, before, hcomes, harmed, hticks, hdue, hsave⟩
      · cases hsave
  · rintro ⟨ticks, resumed, ip, before, hcomes, harmed, hticks, hdue, hsave⟩
    rw [hcomes.run_eq, maxTicks_sub hticks, goOn_succ harmed, saveIfDue, if_pos hdue, Program.run_bind, hsave]
    rfl

/-- Whatever the storage does, a session that is not saved and reloaded has met with a fault and is
as it was before. A run ends with such a fault in the session that waited for the tick before which
it was to be saved, and this tick does not pass. -/
theorem reload_refused (r : Registry α) (answer : φ → (q : Request) → q.Answer × φ) (store : φ) :
    (∀ s, Visited r s → ∀ path e t,
      (run answer store (s.saveAndReload path)).1 = (.error e, t) ↔
        t = s ∧ ∃ cause, e = .save cause ∧ ReloadFault answer store s path cause) ∧
    ∀ s, Driven r s → ∀ id plan cause t,
      (run answer store (s.runVerb id (some plan))).1 = (.error (.save cause), t) ↔
        ∃ ticks resumed ip before,
          Comes answer store s id (some plan) ticks resumed (.ok (.suspended ip), t) before ∧
          t.world.resumeAt.isNone = false ∧ ticks < maxTicks ∧ plan.atTick = ticks + 1 ∧
          (run answer before (t.saveAndReload plan.path)).1 = (.error (.save cause), t) :=
  ⟨fun _ hs _ _ _ => saveAndReload_error_iff hs.sound,
    fun _ hs _ _ _ _ => runVerb_save_error_iff hs.sound⟩

/-- The text of the error of a save. -/
def saveMessage? {β : Type} : Except Error β → Option String
  | .error (.save cause) => some cause.message
  | _ => none

theorem exists_of_saveMessage? {β γ : Type} {x : Except Error β × γ} {text : String}
    (h : saveMessage? x.1 = some text) :
    ∃ cause, x = (.error (.save cause), x.2) ∧ cause.message = text := by
  obtain ⟨result, t⟩ := x
  cases result with
  | ok => cases h
  | error e =>
    cases e with
    | save cause => exact ⟨cause, rfl, Option.some.inj h⟩
    | _ => cases h

/-- A storage that takes whatever is written, and in which every file is read as the same text. -/
def readAs (text : String) (_ : Unit) : (q : Request) → q.Answer × Unit
  | .read _ => (.ok text, ())
  | .resolve path => (.ok path, ())
  | .isFile _ | .isDirectory _ => (true, ())
  | .createDirectories _ | .write .. | .rename .. | .remove _ => (.ok (), ())
  | .log _ => ((), ())

/-- The save that is read has a state that the first of two verbs takes over and one that the
second, a lever, refuses: a run of the lever that is saved before its third tick ends there. -/
theorem reload_refused_lever :
    let definitions : Json := .object [("verbs", .array
      [.object [("id", .string "look"), ("actions", .array [])],
        .object [("id", .string "use"), ("actions", .array
          [.object [("kind", .string "sound"), ("sound", .string "lever")],
            .object [("kind", .string "wait"), ("time", .int 2)]])]])]
    let state (ip : Int) : Json := .object [("ip", .int ip), ("actions", .array [])]
    let states : Json := .object [("verbs", .object [("look", state 0), ("use", state 9)])]
    let answer := readAs (Save.document states (Snapshot.toJson ⟨7.0, none, default⟩)).compact
    let text := "failed to restore verbs from save: verb 'use': instruction pointer 9 out of " ++
      "range for 2 actions"
    ∃ s t : Session DemoAction, (Session.load Demo.registry definitions .proceed).value = .ok s ∧
      (∃ cause, (run answer () (s.saveAndReload "save")).1 = (.error (.save cause), s) ∧
        cause.message = text) ∧
      (∃ cause, (run answer () (s.runVerb "use" (some ⟨3, "save"⟩))).1 = (.error (.save cause), t) ∧
        cause.message = text) ∧
      t.world.transcript = ["sound lever @1"] ∧ t.world.clock = 0.0 + tickLength + tickLength ∧
      ∃ resumed ip before, Comes answer () s "use" (some ⟨3, "save"⟩) 2 resumed
        (.ok (.suspended ip), t) before := by
  intro definitions state states answer text
  let s : Session DemoAction :=
    { registry := Demo.registry, definitions, policy := .proceed
      catalog := (Catalog.loadDefinitions {} Demo.registry definitions).value.2 }
  have hs : (Session.load Demo.registry definitions .proceed).value = .ok s :=
    value_load (by decide +kernel)
  obtain ⟨hsaved, hran, htranscript, hclock⟩ :
      let ended := (run answer () (s.runVerb "use" (some ⟨3, "save"⟩))).1
      saveMessage? (run answer () (s.saveAndReload "save")).1.1 = some text ∧
        saveMessage? ended.1 = some text ∧ ended.2.world.transcript = ["sound lever @1"] ∧
        ended.2.world.clock = 0.0 + tickLength + tickLength := by decide +kernel
  obtain ⟨cause, hfailed, htext⟩ := exists_of_saveMessage? hsaved
  obtain ⟨cause', hended, htext'⟩ := exists_of_saveMessage? hran
  obtain ⟨hreload, hrun⟩ := reload_refused Demo.registry answer ()
  obtain ⟨hsame, -⟩ := (hreload s (.driven (.load hs)) "save" _ _).1 hfailed
  rw [hsame] at hfailed
  obtain ⟨ticks, resumed, ip, before, hcomes, -, -, hticks, -⟩ :=
    (hrun s (.load hs) "use" ⟨3, "save"⟩ _ _).1 hended
  obtain rfl : 2 = ticks := Nat.succ.inj hticks
  exact ⟨s, _, hs, ⟨cause, hfailed, htext⟩, ⟨cause', hended, htext'⟩, htranscript, hclock,
    resumed, ip, before, hcomes⟩

end VerbScript.Demo.Session
