import VerbScript.Proofs.Demo.Progress
import VerbScript.Proofs.Demo.Snapshot
import VerbScript.Proofs.Save.File

/-!
# Saves of the demo

A save holds the whole state of a catalog of the demo's verbs: it is read into any catalog that was
loaded from the same definitions, and what that catalog has been through before does not matter
(`restore_render`). So a save that is read from a file brings back the pointer, the phase and the
progress of every verb, and the snapshot next to them.
-/

namespace VerbScript.Demo

open Json (Reader Readable)

/-- Of two catalogs that were reached from the same definitions, the second is the first but for the
policy once it has read the first one's states. -/
theorem readRuntimeState_of_reached {definitions : Json} {c d : Catalog DemoAction}
    (hc : Catalog.Reached registry definitions c) (hd : Catalog.Reached registry definitions d)
    (hkept : ∀ e ∈ c.verbs.entries, Kept e.2) :
    (d.readRuntimeState c.runtimeState).value = (.ok (), c.withPolicy d.policy) := by
  refine Catalog.readRuntimeState_of_resumable fun id => ?_
  have hkin := hc.kin hd id
  generalize hv : c.get? id = v? at hkin ⊢
  generalize hu : d.get? id = u? at hkin ⊢
  cases hkin with
  | none => exact .none
  | @some v u hsteps =>
    obtain ⟨hvid, -, hrange⟩ := hc.wellFormed id v hv
    obtain ⟨huid, hpolicy, -⟩ := hd.wellFormed id u hu
    have hmem : (id, v) ∈ c.verbs.entries := Table.mem_of_get? hv
    exact .some ⟨resumable_of_kin (huid.trans hvid.symm) hsteps hrange (hkept _ hmem), hpolicy⟩

/-- The text of a save is taken over as what it was written from. -/
theorem restore_render {definitions : Json} {c d : Catalog DemoAction} {s : Snapshot}
    (hc : Catalog.Reached registry definitions c) (hd : Catalog.Reached registry definitions d)
    (hkept : ∀ e ∈ c.verbs.entries, Kept e.2) (hs : s.TimesReadBack) :
    ∃ text, Save.render c.runtimeState s = .ok text ∧
      ∀ path, (Save.restore path d text).value = (.ok s, c.withPolicy d.policy) := by
  have hreadable : Readable (Reader.depthLimit - 1)
      (.object (c.verbs.entries.map fun e => (e.1, e.2.runtimeState))) :=
    readable_catalog hkept 122
  obtain ⟨text, hrender, hread⟩ := Save.read?_render
    [(Catalog.verbsKey, .object (c.verbs.entries.map fun e => (e.1, e.2.runtimeState)))]
    (Snapshot.hostKept hs) (by simp)
    (fun m hm => by obtain rfl := List.mem_singleton.1 hm; exact hreadable)
    (by simp [Save.versionKey, Catalog.verbsKey]) (by simp [Save.hostKey, Catalog.verbsKey])
  refine ⟨text, hrender, fun path => ?_⟩
  have hstates : (d.readRuntimeState (.object [(Catalog.verbsKey,
      .object (c.verbs.entries.map fun e => (e.1, e.2.runtimeState)))])).value =
      (.ok (), c.withPolicy d.policy) := readRuntimeState_of_reached hc hd hkept
  simp only [Save.restore, hread, ne_eq, not_true_eq_false, if_false, hstates]

/-- A save of a catalog that was reached from definitions is read into any other catalog that was
reached from them: what is handed back is the snapshot that was saved, and every verb has the
pointer, the phase and the progress that it was saved with, if the saved times read back. -/
theorem save_kept {definitions : Json} {c d : Catalog DemoAction} {s : Snapshot}
    (hc : Catalog.Reached registry definitions c) (hd : Catalog.Reached registry definitions d)
    (hkept : ∀ e ∈ c.verbs.entries, Kept e.2) (hs : s.TimesReadBack) :
    ∃ text d', Save.render c.runtimeState s = .ok text ∧
      (∀ {φ : Type} (answer : φ → (r : Request) → r.Answer × φ) (store : φ) (path : String),
        (Program.run answer store (Save.write path c s)).1 =
          (Program.run answer store (replaceFile path text)).1.mapError (.write path)) ∧
      (∀ {φ : Type} (answer : φ → (r : Request) → r.Answer × φ) (store : φ) (path : String),
        (answer store (.read path)).1 = .ok text →
          (Program.run answer store (Save.load path d)).1 = (.ok s, d')) ∧
      d'.policy = d.policy ∧
      ∀ id, (d'.get? id).map (fun v => (v.ip, v.phase, RuntimeState.captured v.steps)) =
        (c.get? id).map fun v => (v.ip, v.phase, RuntimeState.captured v.steps) := by
  obtain ⟨text, hrender, hrestore⟩ := restore_render hc hd hkept hs
  refine ⟨text, c.withPolicy d.policy, hrender, fun answer store path => ?_,
    fun answer store path hread => ?_, rfl, fun id => ?_⟩
  · rw [Save.run_write answer store path c hrender]
  · rw [Save.run_load answer store path d hread, hrestore]
  · rw [Catalog.get?_withPolicy, Option.map_map]
    rfl

/-- The verb of a lever is saved while it waits, and read into a catalog that cancelled it. -/
theorem save_kept_lever :
    let definitions : Json := .object [("verbs", .array [.object [("id", .string "use"),
      ("actions", .array [.object [("kind", .string "sound"), ("sound", .string "lever")],
        .object [("kind", .string "wait"), ("time", .int 2)]])]])]
    let s : Snapshot := ⟨0.3, some 2.3, Table.ofList [("the \"mate\"", "leaning\n")]⟩
    ∃ (c d d' : Catalog DemoAction) (text : String),
      Catalog.Reached registry definitions c ∧ Catalog.Reached registry definitions d ∧
        (c.get? "use").map Verb.phase = some (.suspended 1) ∧
        (d.get? "use").map Verb.phase = some .finished ∧
        Save.render c.runtimeState s = .ok text ∧
        (∀ {φ : Type} (answer : φ → (r : Request) → r.Answer × φ) (store : φ) (path : String),
          (answer store (.read path)).1 = .ok text →
            (Program.run answer store (Save.load path d)).1 = (.ok s, d')) ∧
        (d'.get? "use").map Verb.phase = some (.suspended 1) := by
  intro definitions s
  let loaded (policy : FailurePolicy) : Catalog DemoAction :=
    (Catalog.loadDefinitions { policy } registry definitions).value.2
  have hloaded (policy : FailurePolicy) : Catalog.Reached registry definitions (loaded policy) :=
    .of_isOk (by cases policy <;> decide +kernel)
  have hc := (hloaded .proceed).run (v := ((loaded .proceed).get? "use").get (by decide +kernel))
    (Option.some_get _).symm ({} : World)
  have hd := (hloaded .abort).cancel (v := ((loaded .abort).get? "use").get (by decide +kernel))
    (Option.some_get _).symm
  obtain ⟨text, d', hrender, -, hload, -, hsame⟩ := save_kept hc hd (s := s)
    (by decide +kernel) (by decide +kernel)
  refine ⟨_, _, d', text, hc, hd, by decide +kernel, by decide +kernel, hrender, hload, ?_⟩
  have huse := congrArg (Option.map fun shown => shown.2.1) (hsame "use")
  rw [Option.map_map, Option.map_map] at huse
  exact huse.trans (by decide +kernel)

end VerbScript.Demo
