import VerbScript.Proofs.Catalog.Reached
import VerbScript.Proofs.Verb.Definition

/-!
# The steps of a reached catalog are configured

Verbs are loaded with steps that were made and configured through the registry, and these stay so
whatever is called on the verbs (`Catalog.Reached.configured`).
-/

namespace VerbScript.Catalog

open Registry (Configured)

variable {α ω : Type} [Action α ω] {r : Registry α}

/-- The steps of all verbs were made and configured through a registry. -/
def AllConfigured (r : Registry α) (c : Catalog α) : Prop :=
  ∀ id v, c.get? id = some v → ∀ s ∈ v.steps, Configured r s

theorem AllConfigured.insert {c : Catalog α} (hc : c.AllConfigured r) {v : Verb α}
    (hv : ∀ s ∈ v.steps, Configured r s) : (c.insert v).AllConfigured r := by
  intro id w hw
  rw [get?_insert] at hw
  split at hw
  · cases hw
    exact hv
  · exact hc id w hw

theorem AllConfigured.moved {c d : Catalog α} (hc : c.AllConfigured r) (h : c.Moved d) :
    d.AllConfigured r := by
  intro id w hw
  have hrel := h.verbs id
  rw [hw] at hrel
  generalize hv : c.get? id = v? at hrel
  cases hrel with
  | some hvw => exact hvw.configured (hc id _ hv)

theorem AllConfigured.loadEntry {l : Loading α} (h : l.catalog.AllConfigured r) (index : Nat)
    (entry : Json) : (Catalog.loadEntry r l index entry).catalog.AllConfigured r := by
  simp only [Catalog.loadEntry]
  split
  · next v hv =>
    split
    · exact h
    · exact h.insert (Verb.configured_ofDefinition hv)
  · exact h

theorem AllConfigured.loadEntries {l : Loading α} (h : l.catalog.AllConfigured r) (index : Nat)
    (entries : List Json) : (Catalog.loadEntries r l index entries).catalog.AllConfigured r := by
  induction entries generalizing l index with
  | nil => exact h
  | cons e rest ih => exact ih (h.loadEntry index e) (index + 1)

theorem allConfigured_loadDefinitions {definitions : Json} {policy : FailurePolicy}
    {report : LoadReport} {c : Catalog α}
    (h : (loadDefinitions { policy } r definitions).value = (.ok report, c)) :
    c.AllConfigured r := by
  have hnew : AllConfigured r ({ policy } : Catalog α) := fun id v hv => by cases hv
  rw [loadDefinitions] at h
  split at h
  · cases h
  · cases h
    exact AllConfigured.loadEntries (l := ⟨{ policy }, {}, []⟩) hnew 0 _

/-- The steps of all verbs of a reached catalog were made and configured through its registry. -/
theorem Reached.configured {definitions : Json} {c : Catalog α} (h : Reached r definitions c) :
    c.AllConfigured r := by
  obtain ⟨report, c₀, hload, hmoved⟩ := h.exists_loaded
  exact (allConfigured_loadDefinitions hload).moved hmoved

end VerbScript.Catalog
