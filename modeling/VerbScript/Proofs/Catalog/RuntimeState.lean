import VerbScript.Proofs.Catalog.Reached
import VerbScript.Proofs.Verb.RuntimeState

/-!
# Runtime states of catalogs

A catalog that reads the runtime states of another one with the same ids is then in the same state,
if each of its verbs can be brought to the state of its counterpart (`Verb.Resumable`): only the
policies are still its own (`Catalog.readRuntimeState_of_resumable`). Each state goes to the verb
under its own id, and no other verb changes (`Catalog.readStates_runtimeStates`).
-/

namespace VerbScript

variable {α ω : Type} [Action α ω]

/-- The verb `u` can be brought to the state of `v`: its steps can follow, and are the steps of `v`
when they did. -/
structure Verb.Resumable (v u : Verb α) : Prop where
  id_eq : u.id = v.id
  canFollow : List.Forall₂ Step.CanFollow v.steps u.steps
  following : List.zipWith Step.following v.steps u.steps = v.steps
  inRange : v.InRange
  fits : Number.FitsInt64 v.ip

theorem Verb.Resumable.value_readRuntimeState {v u : Verb α} (h : v.Resumable u) :
    (u.readRuntimeState v.runtimeState).value = (.ok (), { v with policy := u.policy }) := by
  rw [Verb.value_readRuntimeState h.canFollow h.inRange.1 h.inRange.2 h.fits, h.following, h.id_eq]

namespace Catalog

theorem runtimeEnvelope_runtimeState (c : Catalog α) :
    runtimeEnvelope c.runtimeState =
      .ok (c.verbs.entries.map fun (id, v) => (id, v.runtimeState)) :=
  Json.Decoder.record₁_object rfl

/-- States are taken over by the verbs under their ids, and no other verb changes. -/
theorem readStates_runtimeStates {es : List (String × Verb α)} (hkeys : (es.map (·.1)).Nodup)
    {d : Catalog α} (hes : ∀ e ∈ es, ∃ u, d.get? e.1 = some u ∧ e.2.Resumable u ∧
      u.policy = d.policy) :
    ∃ d', (d.readStates (es.map fun (id, v) => (id, v.runtimeState))).value = (.ok (), d') ∧
      d'.policy = d.policy ∧ ∀ id, d'.get? id =
        ((Table.lookup id es).map fun v => { v with policy := d.policy }).or (d.get? id) := by
  induction es generalizing d with
  | nil => exact ⟨d, rfl, rfl, fun id => rfl⟩
  | cons e es ih =>
    obtain ⟨id, v⟩ := e
    rw [List.map_cons, List.nodup_cons] at hkeys
    rw [List.forall_mem_cons] at hes
    obtain ⟨⟨u, hu, hresume, hpolicy⟩, htail⟩ := hes
    have hothers : ∀ e ∈ es, ∃ u, (d.set id { v with policy := d.policy }).get? e.1 = some u ∧
        e.2.Resumable u ∧ u.policy = d.policy := by
      intro e he
      have hne : e.1 ≠ id := fun heq => hkeys.1 (List.mem_map.2 ⟨e, he, heq⟩)
      rw [get?_set_of_ne hne]
      exact htail e he
    obtain ⟨d', hread, hpolicy', hget⟩ := ih hkeys.2 hothers
    refine ⟨d', ?_, hpolicy', fun key => ?_⟩
    · rw [List.map_cons, readStates, hu]
      simp only [hresume.value_readRuntimeState, Traced.value_after, hpolicy, hread]
    · rw [hget, get?_set, Table.lookup_cons]
      by_cases hkey : key = id
      · subst hkey
        rw [if_pos rfl, if_pos rfl, Table.lookup_eq_none hkeys.1, hu]
        rfl
      · rw [if_neg hkey, if_neg (Ne.symm hkey)]
        rfl

/-- A catalog that reads the states of another one with the same ids, whose verbs it can resume, is
then the other one but for the policy. -/
theorem readRuntimeState_of_resumable {c d : Catalog α}
    (h : ∀ id, Option.Rel (fun v u => Verb.Resumable v u ∧ u.policy = d.policy)
      (c.get? id) (d.get? id)) :
    (d.readRuntimeState c.runtimeState).value = (.ok (), c.withPolicy d.policy) := by
  have hes : ∀ e ∈ c.verbs.entries, ∃ u, d.get? e.1 = some u ∧ e.2.Resumable u ∧
      u.policy = d.policy := by
    intro e he
    have hrel := h e.1
    rw [get?, Table.get?_of_mem he] at hrel
    generalize hu : d.get? e.1 = u? at hrel
    cases hrel with
    | some hvu => exact ⟨_, rfl, hvu⟩
  have hknown : (c.verbs.entries.map fun (id, v) => (id, v.runtimeState)).find?
      (fun s => !d.contains s.1) = none := by
    refine List.find?_eq_none.2 fun s hs => ?_
    obtain ⟨e, he, rfl⟩ := List.mem_map.1 hs
    obtain ⟨u, hu, -⟩ := hes e he
    have : d.verbs.get? e.1 = some u := hu
    simp [contains, Table.contains, this]
  obtain ⟨d', hread, hpolicy, hget⟩ := readStates_runtimeStates c.verbs.nodup_keys hes
  have hd' : d' = c.withPolicy d.policy := by
    refine ext_get? hpolicy fun id => ?_
    rw [hget, get?_withPolicy]
    show ((c.get? id).map _).or _ = _
    have hrel := h id
    generalize c.get? id = v? at hrel ⊢
    generalize d.get? id = u? at hrel ⊢
    cases hrel with
    | none => rfl
    | some _ => rfl
  rw [readRuntimeState, runtimeEnvelope_runtimeState]
  simp only [hknown, hread, hd']

end Catalog

end VerbScript
