import VerbScript.Catalog.Basic
import VerbScript.Proofs.Table
import VerbScript.Proofs.Verb.Moved

/-!
# Catalogs that were loaded and driven

`Catalog.Reached` describes the catalogs that loading definitions and then running, resuming,
cancelling and restoring their verbs can lead to. In such a catalog every verb has the id it is
found under, the policy of the catalog and a pointer within its steps (`Reached.wellFormed`), and
its steps are the loaded ones, moved (`Reached.exists_loaded`). What is loaded depends on the
policy only in the policy of the verbs (`loadDefinitions_withPolicy`), so two catalogs that were
loaded from the same definitions hold moved copies of the same verbs.
-/

namespace VerbScript.Catalog

variable {α ω : Type} [Action α ω]

/-- The catalogs that loading definitions and calling on the verbs lead to. -/
inductive Reached (r : Registry α) (definitions : Json) : Catalog α → Prop where
  | load {policy : FailurePolicy} {report : LoadReport} {c : Catalog α}
      (h : (loadDefinitions { policy } r definitions).value = (.ok report, c)) :
      Reached r definitions c
  | run {c : Catalog α} (hc : Reached r definitions c) {id : String} {v : Verb α}
      (hv : c.get? id = some v) (w : ω) : Reached r definitions (c.set id (v.run w).verb)
  | resume {c : Catalog α} (hc : Reached r definitions c) {id : String} {v : Verb α}
      (hv : c.get? id = some v) (w : ω) : Reached r definitions (c.set id (v.resume w).verb)
  | cancel {c : Catalog α} (hc : Reached r definitions c) {id : String} {v : Verb α}
      (hv : c.get? id = some v) : Reached r definitions (c.set id v.cancel.1)
  | restore {c : Catalog α} (hc : Reached r definitions c) (payload : Json) :
      Reached r definitions (c.readRuntimeState payload).value.2

/-! ## Moved catalogs -/

/-- The catalog `d` holds the verbs of `c`, moved. -/
structure Moved (c d : Catalog α) : Prop where
  policy_eq : d.policy = c.policy
  verbs : ∀ id, Option.Rel Verb.Moved (c.get? id) (d.get? id)

theorem get?_set (c : Catalog α) (id key : String) (v : Verb α) :
    (c.set id v).get? key = if key = id then (c.get? key).map fun _ => v else c.get? key :=
  Table.get?_modify c.verbs id key fun _ => v

theorem get?_set_of_ne {id key : String} (hne : key ≠ id) (c : Catalog α) (v : Verb α) :
    (c.set id v).get? key = c.get? key := by
  rw [get?_set, if_neg hne]

theorem get?_set_self {c : Catalog α} {id : String} {v : Verb α} (hv : c.get? id = some v)
    (w : Verb α) : (c.set id w).get? id = some w := by
  rw [get?_set, if_pos rfl, hv]
  rfl

theorem contains_set (c : Catalog α) (id key : String) (v : Verb α) :
    (c.set id v).contains key = c.contains key := by
  show ((c.set id v).get? key).isSome = (c.get? key).isSome
  rw [get?_set]
  split
  · exact Option.isSome_map
  · rfl

theorem Moved.refl (c : Catalog α) : c.Moved c := by
  refine ⟨rfl, fun id => ?_⟩
  cases c.get? id with
  | none => exact .none
  | some v => exact .some (.refl v)

theorem Moved.trans {c d e : Catalog α} (hcd : c.Moved d) (hde : d.Moved e) : c.Moved e := by
  refine ⟨hde.policy_eq.trans hcd.policy_eq, fun id => ?_⟩
  have hcd := hcd.verbs id
  have hde := hde.verbs id
  generalize c.get? id = v? at hcd ⊢
  generalize d.get? id = u? at hcd hde
  cases hcd with
  | none => exact hde
  | some h =>
    generalize e.get? id = w? at hde ⊢
    cases hde with
    | some h' => exact .some (h.trans h')

theorem moved_set {c : Catalog α} {id : String} {v w : Verb α} (hv : c.get? id = some v)
    (h : v.Moved w) : c.Moved (c.set id w) := by
  refine ⟨rfl, fun key => ?_⟩
  rw [get?_set]
  split
  · next hkey =>
    rw [hkey, hv]
    exact .some h
  · exact (Moved.refl c).verbs key

theorem moved_readStates (c : Catalog α) (states : List (String × Json)) :
    c.Moved (c.readStates states).value.2 := by
  induction states generalizing c with
  | nil => exact .refl c
  | cons s rest ih =>
    rw [readStates]
    split
    · exact ih c
    · next v hv =>
      have hset := moved_set hv (v.moved_readRuntimeState s.2)
      simp only
      split
      · exact hset
      · exact hset.trans (ih _)

theorem moved_readRuntimeState (c : Catalog α) (payload : Json) :
    c.Moved (c.readRuntimeState payload).value.2 := by
  rw [readRuntimeState]
  split
  · exact .refl c
  · split
    · exact .refl c
    · exact moved_readStates c _

/-! ## Well-formed catalogs -/

/-- Every verb has the id that it is found under, the policy of the catalog and a pointer within its
steps. -/
def WellFormed (c : Catalog α) : Prop :=
  ∀ id v, c.get? id = some v → v.id = id ∧ v.policy = c.policy ∧ v.InRange

theorem WellFormed.moved {c d : Catalog α} (hc : c.WellFormed) (h : c.Moved d) : d.WellFormed := by
  intro id w hw
  have hrel := h.verbs id
  rw [hw] at hrel
  generalize hv : c.get? id = v? at hrel
  cases hrel with
  | some hvw =>
    obtain ⟨hid, hpolicy, hrange⟩ := hc id _ hv
    exact ⟨hvw.id_eq.trans hid, hvw.policy_eq.trans (hpolicy.trans h.policy_eq.symm),
      hvw.inRange hrange⟩

theorem get?_insert (c : Catalog α) (v : Verb α) (id : String) :
    (c.insert v).get? id = if id = v.id then some { v with policy := c.policy } else c.get? id :=
  Table.get?_insert c.verbs v.id id { v with policy := c.policy }

/-- A verb that is read off a definition has not run. -/
theorem ip_ofDefinition {r : Registry α} {entry : Json} {v : Verb α}
    (h : (Verb.ofDefinition r entry).value = .ok v) : v.ip = notStarted := by
  rw [Verb.ofDefinition, Traced.value_map] at h
  cases hread : (Definition.read r entry).value with
  | error e => rw [hread] at h; cases h
  | ok d =>
    rw [hread] at h
    cases h
    rfl

theorem WellFormed.insert {c : Catalog α} (hc : c.WellFormed) {v : Verb α}
    (hv : v.ip = notStarted) : (c.insert v).WellFormed := by
  intro id w hw
  rw [get?_insert] at hw
  split at hw
  · next hid =>
    cases hw
    refine ⟨hid.symm, rfl, ?_⟩
    simp only [Verb.InRange, hv, notStarted]
    omega
  · exact hc id w hw

/-- An entry is loaded as a verb that has not run, or the catalog stays as it is. -/
theorem loadEntry_catalog (r : Registry α) (l : Loading α) (index : Nat) (entry : Json) :
    (loadEntry r l index entry).catalog = l.catalog ∨
      ∃ v, v.ip = notStarted ∧ (loadEntry r l index entry).catalog = l.catalog.insert v := by
  simp only [loadEntry]
  split
  · next v hv =>
    split
    · exact .inl rfl
    · exact .inr ⟨v, ip_ofDefinition hv, rfl⟩
  · exact .inl rfl

theorem WellFormed.loadEntries {r : Registry α} {l : Loading α} (h : l.catalog.WellFormed)
    (index : Nat) (entries : List Json) :
    (Catalog.loadEntries r l index entries).catalog.WellFormed ∧
      (Catalog.loadEntries r l index entries).catalog.policy = l.catalog.policy := by
  induction entries generalizing l index with
  | nil => exact ⟨h, rfl⟩
  | cons e rest ih =>
    rw [Catalog.loadEntries]
    rcases loadEntry_catalog r l index e with heq | ⟨v, hv, heq⟩
    · obtain ⟨hwf, hpolicy⟩ := ih (heq ▸ h) (index + 1)
      exact ⟨hwf, hpolicy.trans (congrArg Catalog.policy heq)⟩
    · obtain ⟨hwf, hpolicy⟩ := ih (heq ▸ h.insert hv) (index + 1)
      exact ⟨hwf, hpolicy.trans (by rw [heq]; rfl)⟩

/-- What definitions are loaded as is well-formed. -/
theorem wellFormed_loadDefinitions {r : Registry α} {definitions : Json} {policy : FailurePolicy}
    {report : LoadReport} {c : Catalog α}
    (h : (loadDefinitions { policy } r definitions).value = (.ok report, c)) :
    c.WellFormed ∧ c.policy = policy := by
  have hnew : Catalog.WellFormed ({ policy } : Catalog α) := fun id v hv => by cases hv
  rw [loadDefinitions] at h
  split at h
  · cases h
  · cases h
    exact WellFormed.loadEntries (l := ⟨{ policy }, {}, []⟩) hnew 0 _

/-! ## Policies -/

/-- The catalog with another policy for itself and its verbs. -/
def withPolicy (c : Catalog α) (policy : FailurePolicy) : Catalog α :=
  ⟨c.verbs.mapValues fun _ v => { v with policy }, policy⟩

theorem get?_withPolicy (c : Catalog α) (policy : FailurePolicy) (id : String) :
    (c.withPolicy policy).get? id = (c.get? id).map fun v => { v with policy } :=
  Table.get?_mapValues _ c.verbs id

theorem ext_get? {c d : Catalog α} (hpolicy : c.policy = d.policy)
    (h : ∀ id, c.get? id = d.get? id) : c = d := by
  obtain ⟨verbs, policy⟩ := c
  obtain ⟨verbs', policy'⟩ := d
  cases hpolicy
  cases Table.ext_get? h
  rfl

theorem set_self {c : Catalog α} {id : String} {v : Verb α} (hv : c.get? id = some v) : c.set id v = c := by
  refine ext_get? rfl fun key => ?_
  by_cases hkey : key = id
  · rw [hkey, get?_set_self hv, hv]
  · exact get?_set_of_ne hkey c v

theorem set_set (c : Catalog α) (id : String) (v w : Verb α) :
    (c.set id v).set id w = c.set id w := by
  refine ext_get? rfl fun key => ?_
  rw [get?_set, get?_set, get?_set]
  split
  · cases c.get? key with
    | none => rfl
    | some u => rfl
  · rfl

/-- A well-formed catalog has its own policy already. -/
theorem WellFormed.withPolicy_self {c : Catalog α} (h : c.WellFormed) :
    c.withPolicy c.policy = c := by
  refine ext_get? rfl fun id => ?_
  rw [get?_withPolicy]
  cases hv : c.get? id with
  | none => rfl
  | some v =>
    obtain ⟨-, hpolicy, -⟩ := h id v hv
    rw [Option.map_some, ← hpolicy]

theorem insert_withPolicy (c : Catalog α) (policy : FailurePolicy) (v : Verb α) :
    (c.withPolicy policy).insert v = (c.insert v).withPolicy policy := by
  refine ext_get? rfl fun id => ?_
  rw [get?_insert, get?_withPolicy, get?_withPolicy, get?_insert]
  split
  · rfl
  · rfl

/-- The loading with another policy for its catalog. -/
def Loading.withPolicy (l : Loading α) (policy : FailurePolicy) : Loading α :=
  { l with catalog := l.catalog.withPolicy policy }

theorem loadEntry_withPolicy (r : Registry α) (l : Loading α) (policy : FailurePolicy) (index : Nat)
    (entry : Json) :
    loadEntry r (l.withPolicy policy) index entry = (loadEntry r l index entry).withPolicy policy := by
  simp only [loadEntry, Loading.withPolicy, insert_withPolicy]
  split
  · split
    · rfl
    · rfl
  · rfl

theorem loadEntries_withPolicy (r : Registry α) (l : Loading α) (policy : FailurePolicy)
    (index : Nat) (entries : List Json) :
    loadEntries r (l.withPolicy policy) index entries =
      (loadEntries r l index entries).withPolicy policy := by
  induction entries generalizing l index with
  | nil => rfl
  | cons e rest ih => rw [loadEntries, loadEntry_withPolicy, ih, loadEntries]

/-- What is loaded from definitions depends on the policy only in the policies of the verbs. -/
theorem loadDefinitions_withPolicy {r : Registry α} {definitions : Json} {policy : FailurePolicy}
    {report : LoadReport} {c : Catalog α}
    (h : (loadDefinitions { policy } r definitions).value = (.ok report, c))
    (other : FailurePolicy) :
    (loadDefinitions { policy := other } r definitions).value = (.ok report, c.withPolicy other) := by
  rw [loadDefinitions] at h ⊢
  split at h
  · cases h
  · next entries hentries =>
    have hload := loadEntries_withPolicy r (⟨{ policy }, {}, []⟩ : Loading α) other 0 entries
    cases h
    exact Prod.ext (congrArg (fun l => Except.ok l.report) hload) (congrArg Loading.catalog hload)

/-! ## Reached catalogs -/

namespace Reached

variable {r : Registry α} {definitions : Json} {c d : Catalog α}

/-- What definitions are loaded as is reached, whether or not all of their entries were loaded. -/
theorem of_isOk {policy : FailurePolicy}
    (h : (loadDefinitions { policy } r definitions).value.1.isOk = true) :
    Reached r definitions (loadDefinitions { policy } r definitions).value.2 := by
  generalize hload : (loadDefinitions { policy } r definitions).value = loaded at h ⊢
  obtain ⟨outcome, c⟩ := loaded
  cases outcome with
  | ok report => exact .load hload
  | error cause => cases h

/-- The verbs of a reached catalog are those that its definitions are loaded as, moved. -/
theorem exists_loaded (h : Reached r definitions c) :
    ∃ report c₀, (loadDefinitions { policy := c.policy } r definitions).value = (.ok report, c₀) ∧
      c₀.Moved c := by
  induction h with
  | @load policy report c h =>
    obtain rfl := (wellFormed_loadDefinitions h).2
    exact ⟨report, c, h, .refl c⟩
  | run _ hv w ih =>
    obtain ⟨report, c₀, hload, hmoved⟩ := ih
    exact ⟨report, c₀, hload, hmoved.trans (moved_set hv (Verb.moved_run _ w))⟩
  | resume _ hv w ih =>
    obtain ⟨report, c₀, hload, hmoved⟩ := ih
    exact ⟨report, c₀, hload, hmoved.trans (moved_set hv (Verb.moved_resume _ w))⟩
  | cancel _ hv ih =>
    obtain ⟨report, c₀, hload, hmoved⟩ := ih
    exact ⟨report, c₀, hload, hmoved.trans (moved_set hv (Verb.moved_cancel _))⟩
  | @restore c _ payload ih =>
    obtain ⟨report, c₀, hload, hmoved⟩ := ih
    have hread := moved_readRuntimeState c payload
    exact ⟨report, c₀, hread.policy_eq ▸ hload, hmoved.trans hread⟩

theorem wellFormed (h : Reached r definitions c) : c.WellFormed := by
  obtain ⟨report, c₀, hload, hmoved⟩ := h.exists_loaded
  exact (wellFormed_loadDefinitions hload).1.moved hmoved

/-- Two catalogs that were reached from the same definitions hold verbs under the same ids, and the
steps of these are moved copies of the same steps. -/
theorem kin (hc : Reached r definitions c) (hd : Reached r definitions d) (id : String) :
    Option.Rel (fun v u : Verb α => List.Forall₂ Step.Kin v.steps u.steps)
      (c.get? id) (d.get? id) := by
  obtain ⟨report, c₀, hload, hmoved⟩ := hc.exists_loaded
  obtain ⟨report', d₀, hload', hmoved'⟩ := hd.exists_loaded
  have hd₀ : d₀ = c₀.withPolicy d.policy := by
    have := loadDefinitions_withPolicy hload d.policy
    rw [hload'] at this
    exact congrArg Prod.snd this
  have hcrel := hmoved.verbs id
  have hdrel := hmoved'.verbs id
  rw [hd₀, get?_withPolicy] at hdrel
  generalize c₀.get? id = v₀? at hcrel hdrel
  generalize c.get? id = v? at hcrel ⊢
  generalize d.get? id = u? at hdrel ⊢
  cases hcrel with
  | none =>
    cases hdrel
    exact .none
  | some hv =>
    cases hdrel with
    | some hu => exact .some (Step.kin_of_moved hv.steps hu.steps)

end Reached

end VerbScript.Catalog
