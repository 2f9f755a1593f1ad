import Mathlib.Data.List.Nodup
import VerbScript.Action.Registry
import VerbScript.Proofs.Action.Property
import VerbScript.Proofs.Verb.Moved

/-!
# Steps that a registry has configured

`Registry.Configured` describes the steps that can come about when steps are made and their
properties set through a registry only, whatever their actions have done since. The kinds of a
registry behave (`Registry.Lawful`) when a new action has no property set, setting a property
changes this one property only and is refused or not by kind and value alone, and executing,
cancelling and restoring an action change no property. Then every value that such a step holds is
one its domain admits and any action of its kind accepts (`Registry.Lawful.sound`).
-/

namespace VerbScript

deriving instance DecidableEq for Step

variable {α ω : Type} [Action α ω]

namespace Registry

/-- A step that was made through a registry and whose properties were set through it, whatever has
become of it in the life of its verb. -/
inductive Configured (r : Registry α) : Step α → Prop where
  | create {kind : String} {s : Step α} (h : r.create kind = .ok s) : Configured r s
  | setProperty {s : Step α} (hs : Configured r s) (name raw : String) :
      Configured r (r.setProperty s name raw).2
  | moved {s t : Step α} (hs : Configured r s) (h : s.Moved t) : Configured r t

/-- The actions `a` and `b` have the same tag and hold the same values. -/
def Alike (tag : α → String) (a b : α) : Prop :=
  tag b = tag a ∧ ∀ name, Action.property? b name = Action.property? a name

theorem Alike.refl (tag : α → String) (a : α) : Alike tag a a := ⟨rfl, fun _ => rfl⟩

theorem Alike.trans {tag : α → String} {a b c : α} (hab : Alike tag a b) (hbc : Alike tag b c) :
    Alike tag a c :=
  ⟨hbc.1.trans hab.1, fun name => (hbc.2 name).trans (hab.2 name)⟩

/-- An action holds a value of the declared domain after the property was set to it, unless it
refused the value, which changes nothing. -/
def Takes (a : α) (d : Property.Declaration) : Prop :=
  ∀ v, d.domain.Admits v → Action.property? (Action.setProperty a d.name v).2 d.name =
    if (Action.setProperty a d.name v).1.isOk then some v else Action.property? a d.name

/-- The kinds of a registry behave as kinds are meant to; `tag` is the id of the kind that an action
belongs to. -/
structure Lawful (r : Registry α) (tag : α → String) : Prop where
  /-- No property is declared twice. -/
  nodup_names : ∀ k ∈ r.kinds, (k.properties.map (·.name)).Nodup
  /-- No property has the name that a definition keeps for the kind. -/
  not_reserved : ∀ k ∈ r.kinds, kindKey ∉ k.properties.map (·.name)
  tag_make : ∀ k ∈ r.kinds, tag k.make = k.id
  property?_make : ∀ k ∈ r.kinds, ∀ name, Action.property? k.make name = none
  tag_setProperty : ∀ (a : α) name v, tag (Action.setProperty a name v).2 = tag a
  /-- Setting a property leaves the others alone. -/
  property?_setProperty_of_ne : ∀ (a : α) name v other, other ≠ name →
    Action.property? (Action.setProperty a name v).2 other = Action.property? a other
  takes : ∀ k ∈ r.kinds, ∀ d ∈ k.properties, ∀ a : α, tag a = k.id → Takes a d
  /-- Whether a value is accepted does not depend on the values that are held. -/
  setProperty_congr : ∀ (a b : α) name v, tag b = tag a →
    (Action.setProperty b name v).1 = (Action.setProperty a name v).1
  execute : ∀ (a : α) (w : ω), Alike tag a (Action.execute a w).action
  cancel : ∀ (a b : α) events, Action.cancel? a = some (b, events) → Alike tag a b
  restore : ∀ (a : α) p payload, Action.progress? a = some p → Alike tag a (p.restore payload).2

/-- A step holds values of its kind: each is admitted by the domain of its property, and every action
of the kind accepts it. -/
structure Sound (r : Registry α) (tag : α → String) (k : Kind α) (s : Step α) : Prop where
  mem : k ∈ r.kinds
  kind? : r.kind? s.kind = some k
  kind_eq : s.kind = k.id
  tag_eq : tag s.action = k.id
  admits : ∀ d ∈ k.properties, ∀ v, Action.property? s.action d.name = some v → d.domain.Admits v
  accepts : ∀ d ∈ k.properties, ∀ v, Action.property? s.action d.name = some v →
    ∀ a : α, tag a = k.id → (Action.setProperty a d.name v).1 = .ok ()

variable {r : Registry α} {tag : α → String}

theorem kind_of_kind? {id : String} {k : Kind α} (h : r.kind? id = some k) :
    r.kind id = .ok k ∧ k ∈ r.kinds ∧ k.id = id := by
  refine ⟨by rw [kind, h], List.mem_of_find?_eq_some h, ?_⟩
  simpa using List.find?_some h

theorem kind?_of_kind {id : String} {k : Kind α} (h : r.kind id = .ok k) : r.kind? id = some k := by
  rw [kind] at h
  split at h
  · next k' hk =>
    cases h
    exact hk
  · cases h

theorem declaration_of_kind? {id : String} {k : Kind α} (h : r.kind? id = some k) (name : String) :
    r.declaration id name =
      match k.declaration? name with
      | some d => .ok d
      | none => .error (.unknownProperty id name) := by
  rw [declaration, kind, h]
  rfl

/-- A new step is one of a kind of the registry, with the action that the kind makes. -/
theorem create_eq_ok {id : String} {s : Step α} (h : r.create id = .ok s) :
    ∃ k, r.kind? id = some k ∧ s = ⟨k.id, k.make⟩ := by
  rw [create] at h
  cases hk : r.kind id with
  | error e => rw [hk] at h; cases h
  | ok k =>
    rw [hk] at h
    cases h
    exact ⟨k, kind?_of_kind hk, rfl⟩

namespace Sound

variable {k : Kind α} {s : Step α}

/-- What keeps kind, tag and values keeps a step sound. -/
theorem of_alike (h : Sound r tag k s) {t : Step α} (hkind : t.kind = s.kind)
    (ha : Alike tag s.action t.action) : Sound r tag k t where
  mem := h.mem
  kind? := hkind ▸ h.kind?
  kind_eq := hkind.trans h.kind_eq
  tag_eq := ha.1.trans h.tag_eq
  admits d hd v hv := h.admits d hd v (ha.2 d.name ▸ hv)
  accepts d hd v hv := h.accepts d hd v (ha.2 d.name ▸ hv)

/-- A new step is sound: it holds no values. -/
theorem of_create (hr : Lawful r tag) {id : String} (h : r.create id = .ok s) :
    ∃ k, Sound r tag k s := by
  obtain ⟨k, hk, rfl⟩ := create_eq_ok h
  obtain ⟨-, hmem, hid⟩ := kind_of_kind? hk
  refine ⟨k, hmem, hid ▸ hk, rfl, hr.tag_make k hmem, ?_, ?_⟩
  · intro d _ v hv
    cases (hr.property?_make k hmem d.name).symm.trans hv
  · intro d _ v hv
    cases (hr.property?_make k hmem d.name).symm.trans hv

theorem declaration_eq (h : Sound r tag k s) (name : String) :
    r.declaration s.kind name =
      match k.declaration? name with
      | some d => .ok d
      | none => .error (.unknownProperty s.kind name) :=
  declaration_of_kind? h.kind? name

/-- A text stands for what the declared domain of the property makes of it. -/
theorem coerce_eq_ok_iff (h : Sound r tag k s) {name raw : String} {v : Property.Value} :
    r.coerce s name raw = .ok v ↔
      ∃ d, k.declaration? name = some d ∧ d.domain.coerce raw = .ok v := by
  rw [coerce, h.declaration_eq]
  cases hd : k.declaration? name with
  | none => simp [bind, Except.bind]
  | some d =>
    cases hv : d.domain.coerce raw with
    | error e => simp [bind, Except.bind, hv]
    | ok u => simp [bind, Except.bind, hv]

end Sound

theorem mem_of_declaration? {k : Kind α} {name : String} {d : Property.Declaration}
    (h : k.declaration? name = some d) : d ∈ k.properties ∧ d.name = name :=
  ⟨List.mem_of_find?_eq_some h, by simpa using List.find?_some h⟩

namespace Lawful

/-- The declarations of a kind are told apart by their names. -/
theorem eq_of_name_eq (hr : Lawful r tag) {k : Kind α} (hk : k ∈ r.kinds)
    {d e : Property.Declaration} (hd : d ∈ k.properties) (he : e ∈ k.properties)
    (h : d.name = e.name) : d = e :=
  List.inj_on_of_nodup_map (hr.nodup_names k hk) hd he h

/-- Setting a property keeps a step sound, whether the value is accepted or not. -/
theorem sound_setProperty (hr : Lawful r tag) {k : Kind α} {s : Step α} (h : Sound r tag k s)
    (name raw : String) : Sound r tag k (r.setProperty s name raw).2 := by
  cases hc : r.coerce s name raw with
  | error e =>
    rw [setProperty, hc]
    exact h
  | ok v =>
    obtain ⟨d, hd, hv⟩ := h.coerce_eq_ok_iff.1 hc
    obtain ⟨hmem, rfl⟩ := mem_of_declaration? hd
    have hadmits := Property.Domain.admits_of_coerce hv
    have hself := hr.takes k h.mem d hmem s.action h.tag_eq v hadmits
    have hother := hr.property?_setProperty_of_ne s.action d.name v
    -- a value that is held afterwards was held before, or it is the new one and was accepted
    have hheld : ∀ e ∈ k.properties, ∀ u,
        Action.property? (Action.setProperty s.action d.name v).2 e.name = some u →
        Action.property? s.action e.name = some u ∨
          e = d ∧ u = v ∧ (Action.setProperty s.action d.name v).1 = .ok () := by
      intro e he u hu
      by_cases hname : e.name = d.name
      · obtain rfl := hr.eq_of_name_eq h.mem he hmem hname
        rw [hself] at hu
        split at hu
        · next hok =>
          cases hu
          cases hres : (Action.setProperty s.action e.name v).1 with
          | error e => rw [hres] at hok; cases hok
          | ok => exact .inr ⟨rfl, rfl, rfl⟩
        · exact .inl hu
      · exact .inl (hother e.name hname ▸ hu)
    rw [setProperty, hc]
    refine ⟨h.mem, h.kind?, h.kind_eq, (hr.tag_setProperty ..).trans h.tag_eq, ?_, ?_⟩
    · intro e he u hu
      rcases hheld e he u hu with hu | ⟨rfl, rfl, -⟩
      · exact h.admits e he u hu
      · exact hadmits
    · intro e he u hu a ha
      rcases hheld e he u hu with hu | ⟨rfl, rfl, hok⟩
      · exact h.accepts e he u hu a ha
      · rw [hr.setProperty_congr s.action a _ _ (ha.trans h.tag_eq.symm), hok]

theorem alike_of_moved (hr : Lawful r tag) {s t : Step α} (h : s.Moved t) :
    Alike tag s.action t.action := by
  induction h with
  | refl => exact ⟨rfl, fun _ => rfl⟩
  | execute _ w ih => exact ih.trans (hr.execute _ w)
  | cancel _ ha ih => exact ih.trans (hr.cancel _ _ _ ha)
  | restore _ hp payload ih => exact ih.trans (hr.restore _ _ payload hp)

/-- Every step that a registry has configured is sound. -/
theorem sound (hr : Lawful r tag) {s : Step α} (h : Configured r s) : ∃ k, Sound r tag k s := by
  induction h with
  | create h => exact Sound.of_create hr h
  | setProperty _ name raw ih =>
    obtain ⟨k, hk⟩ := ih
    exact ⟨k, hr.sound_setProperty hk name raw⟩
  | moved _ h ih =>
    obtain ⟨k, hk⟩ := ih
    exact ⟨k, hk.of_alike h.kind_eq (hr.alike_of_moved h)⟩

end Lawful

namespace Configured

/-- Setting properties one after the other is setting each. -/
theorem configure {s t : Step α} {properties : List (String × String)} (hs : Configured r s)
    (h : r.configure s properties = .ok t) : Configured r t := by
  induction properties generalizing s with
  | nil =>
    cases h
    exact hs
  | cons p rest ih =>
    rw [Registry.configure] at h
    split at h
    · next u hu =>
      have := hs.setProperty p.1 p.2
      rw [hu] at this
      exact ih this h
    · cases h

/-- A step that is built at once is made and configured. -/
theorem build {id : String} {properties : List (String × String)} {s : Step α}
    (h : r.build id properties = .ok s) : Configured r s := by
  rw [Registry.build] at h
  cases hnew : r.create id with
  | error e => rw [hnew] at h; cases h
  | ok t =>
    rw [hnew] at h
    exact (Configured.create hnew).configure h

theorem moved_list {ss ts : List (Step α)} (h : List.Forall₂ Step.Moved ss ts)
    (hss : ∀ s ∈ ss, Configured r s) : ∀ t ∈ ts, Configured r t := by
  induction h with
  | nil => exact hss
  | cons hst _ ih =>
    rw [List.forall_mem_cons] at hss ⊢
    exact ⟨.moved hss.1 hst, ih hss.2⟩

end Configured

end Registry

end VerbScript
