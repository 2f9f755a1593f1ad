import VerbScript.Proofs.Storage.Program
import VerbScript.Save.File

/-!
# Saves in storage

What writing and loading a save ask of the storage comes down to replacing the file and to reading
it (`run_write`, `run_load`, `run_load_of_fault`).
-/

namespace VerbScript.Save

variable {α ω η φ : Type} [Action α ω] [Host η]
  (answer : φ → (r : Request) → r.Answer × φ) (store : φ) (path : String) (c : Catalog α)

open Program (run logged)

/-- A catalog that takes over a text stays as it is or reads a document of runtime states. -/
theorem restore_catalog (text : String) :
    (restore (η := η) path c text).value.2 = c ∨
      ∃ payload, (restore (η := η) path c text).value.2 = (c.readRuntimeState payload).value.2 := by
  rw [restore]
  split
  · exact .inl rfl
  · next parts _ =>
    split
    · exact .inl rfl
    · refine .inr ⟨parts.catalog, ?_⟩
      simp only
      split <;> next hread => rw [hread]

/-- A text is refused because it is no save, because of its version, or because the catalog refuses
its document. -/
theorem restore_error_cases {path : String} {c d : Catalog α} {text : String} {e : Error}
    (h : (restore (η := η) path c text).value = (.error e, d)) :
    (∃ failure, read? (η := η) text = .error failure ∧ e = .parse path failure ∧ d = c) ∨
    ∃ parts : Parts η, read? text = .ok parts ∧
      (parts.version ≠ version ∧ e = .versionMismatch path parts.version ∧ d = c ∨
        parts.version = version ∧ ∃ cause, e = .restore path cause ∧
          (c.readRuntimeState parts.catalog).value = (.error cause, d)) := by
  rw [restore] at h
  split at h
  · next failure hparts =>
    cases h
    exact .inl ⟨failure, hparts, rfl, rfl⟩
  · next parts hparts =>
    refine .inr ⟨parts, hparts, ?_⟩
    split at h
    · next hversion =>
      cases h
      exact .inl ⟨hversion, rfl, rfl⟩
    · next hversion =>
      simp only at h
      split at h
      · next cause _ hread =>
        cases h
        exact .inr ⟨Decidable.not_not.1 hversion, cause, rfl, hread⟩
      · cases h

/-- Whatever a load is answered, the catalog stays as it is or reads a document of runtime states.
-/
theorem always_load : (load (η := η) path c).Always fun loaded =>
    loaded.2 = c ∨ ∃ payload, loaded.2 = (c.readRuntimeState payload).value.2 := by
  refine (Program.always_true _).bind fun answer _ => ?_
  cases answer with
  | error fault => exact .inl rfl
  | ok text =>
    exact (Program.always_true _).bind fun _ _ => restore_catalog path c text

/-- A save is written as its file is replaced by its text, and the log tells of it. -/
theorem run_write {host : η} {text : String} (hrender : render c.runtimeState host = .ok text) :
    run answer store (write path c host) =
      let replaced := run answer store (replaceFile path text)
      (replaced.1.mapError (.write path), logged answer replaced.2
        (if replaced.1.isOk then [.runtimeSaved path c.verbs.size] else [])) := by
  rw [write, hrender]
  show run answer store (replaceFile path text >>= _) = _
  rw [Program.run_bind]
  generalize run answer store (replaceFile path text) = replaced
  obtain ⟨outcome, store⟩ := replaced
  cases outcome with
  | ok => rfl
  | error fault => rfl

/-- A save is loaded as its text is taken over. -/
theorem run_load {text : String} (hread : (answer store (.read path)).1 = .ok text) :
    run answer store (load (η := η) path c) =
      ((restore path c text).value,
        logged answer (answer store (.read path)).2 (restore (η := η) path c text).events) := by
  rw [load, Program.run_bind, Program.request, Program.run_ask, hread]
  show run answer _ (Program.log _ >>= _) = _
  rw [Program.run_bind, Program.run_log]
  rfl

/-- A save that cannot be read leaves the catalog as it is. -/
theorem run_load_of_fault {fault : StorageFault}
    (hread : (answer store (.read path)).1 = .error fault) :
    (run answer store (load (η := η) path c)).1 = (.error (.read path fault), c) := by
  rw [load, Program.run_bind, Program.request, Program.run_ask, hread]
  rfl

end VerbScript.Save
