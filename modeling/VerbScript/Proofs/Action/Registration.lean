import Mathlib.Data.List.Nodup
import VerbScript.Action.Index

/-!
# Registration

A kind is registered exactly if it is acceptable on its own and its id is not taken
(`Represents.registers`). Whatever calls are made, the index of a registry holds the
place of each kind under its id and nothing else (`Registry.Indexed.Represents`): this is what one call
keeps (`Represents.registered`) and so what all of them keep (`Represents.registeredAll`). From it follows
that all queries agree with one another (`Represents.agrees`) and with a `Registry` without an index
(`Represents.answers`), and that the kind found under an id is the first acceptable one that was to be
registered under it (`Represents.kind?_registerAll`).
-/

namespace VerbScript

variable {α : Type}

/-! ## Kinds -/

namespace Kind

/-- The names of the properties of a kind. -/
def names (k : Kind α) : List String := k.properties.map (·.name)

/-- What a kind has to be like on its own to be registered. -/
structure Acceptable (k : Kind α) : Prop where
  /-- The id is not blank. -/
  named : Text.trimBlank k.id.toList ≠ []
  /-- No property has the name that a definition keeps for the kind. -/
  unreserved : kindKey ∉ k.names
  /-- No property is declared twice. -/
  nodup : k.names.Nodup

theorem acceptable_iff {k : Kind α} : k.Acceptable ↔
    Text.trimBlank k.id.toList ≠ [] ∧ kindKey ∉ k.names ∧ k.names.Nodup :=
  ⟨fun h => ⟨h.named, h.unreserved, h.nodup⟩, fun h => ⟨h.1, h.2.1, h.2.2⟩⟩

instance (k : Kind α) : Decidable k.Acceptable := decidable_of_iff _ acceptable_iff.symm

/-- A call that adds to the properties of a kind. -/
inductive Call where
  | property (name : String) (domain : Property.Domain)
  | inherit (base : List Property.Declaration)

/-- The kind after a call. -/
def call (k : Kind α) : Call → Kind α
  | .property name domain => k.property name domain
  | .inherit base => k.inherit base

/-- How a kind is put together: the calls that give it its properties, the first one first. -/
structure Plan (α : Type) where
  id : String
  make : α
  calls : List Call := []

/-- The kind that is put together. -/
def Plan.kind (p : Plan α) : Kind α := p.calls.foldl call { id := p.id, make := p.make }

theorem checkProperties_eq_ok_iff {id : String} {earlier : List String}
    {ds : List Property.Declaration} :
    checkProperties id earlier ds = .ok () ↔ kindKey ∉ ds.map (·.name) ∧ (ds.map (·.name)).Nodup ∧
      ∀ d ∈ ds, d.name ∉ earlier := by
  induction ds generalizing earlier with
  | nil => simp [checkProperties]
  | cons d rest ih =>
    rw [checkProperties]
    by_cases hreserved : d.name = kindKey
    · simp [hreserved]
    · by_cases hearlier : d.name ∈ earlier
      · simp [hreserved, hearlier]
      · rw [if_neg hreserved, if_neg hearlier, ih]
        simp only [List.map_cons, List.mem_cons, List.nodup_cons, forall_eq_or_imp, not_or]
        grind

/-- What can be told of a kind alone is whether it is acceptable. -/
theorem validate_eq_ok_iff {k : Kind α} : k.validate = .ok () ↔ k.Acceptable := by
  rw [validate, acceptable_iff, names]
  by_cases hblank : Text.trimBlank k.id.toList = []
  · simp [hblank]
  · simp [hblank, checkProperties_eq_ok_iff]

/-! ### Inheritance -/

theorem mem_names_iff {k : Kind α} {name : String} :
    name ∈ k.names ↔ (k.declaration? name).isSome = true := by
  simp [names, declaration?]

/-- What is inherited stands in front, in the order of the base, without what the kind declares
itself. -/
theorem properties_inherit (k : Kind α) (base : List Property.Declaration) :
    (k.inherit base).properties = base.filter (fun d => d.name ∉ k.names) ++ k.properties := by
  simp only [inherit, mem_names_iff, Bool.not_eq_true, Option.isSome_eq_false_iff, Bool.decide_eq_true]

/-- A property is declared as the kind itself declares it, and else as the base does. -/
theorem declaration?_inherit (k : Kind α) (base : List Property.Declaration) (name : String) :
    (k.inherit base).declaration? name =
      (k.declaration? name).or (base.find? fun d => d.name == name) := by
  rw [declaration?, properties_inherit, List.find?_append, ← declaration?]
  by_cases hown : name ∈ k.names
  · -- nothing of this name is inherited
    have hnone : (base.filter fun d => d.name ∉ k.names).find? (fun d => d.name == name) = none := by
      simp only [List.find?_eq_none, List.mem_filter, decide_eq_true_eq, beq_iff_eq]
      rintro d ⟨-, hd⟩ rfl
      exact hd hown
    obtain ⟨d, hd⟩ := Option.isSome_iff_exists.1 (mem_names_iff.1 hown)
    rw [hnone, hd]
    rfl
  · have hfind : (base.filter fun d => d.name ∉ k.names).find? (fun d => d.name == name) =
        base.find? fun d => d.name == name := by
      rw [List.find?_filter]
      congr 1
      funext d
      by_cases hd : d.name = name
      · simp [hd, hown]
      · simp [hd]
    have hnone : k.declaration? name = none := by
      simpa [mem_names_iff] using hown
    rw [hfind, hnone, Option.or_none]
    rfl

end Kind

/-- The members of a list with one more at the end. -/
theorem getElem?_concat_cases {β : Type} {bs : List β} {b c : β} {i : Nat}
    (h : (bs ++ [b])[i]? = some c) : bs[i]? = some c ∨ i = bs.length ∧ c = b := by
  rw [List.getElem?_append] at h
  split at h
  · exact .inl h
  · next hi =>
    obtain ⟨hlt, hc⟩ := List.getElem?_eq_some_iff.1 h
    have hzero : i - bs.length = 0 := by simpa using hlt
    refine .inr ⟨by omega, ?_⟩
    simpa [hzero] using hc.symm

/-! ## One call -/

namespace Registry.Indexed

variable {r : Indexed α} {k : Kind α} {id : String}

/-- The index holds the place of each kind under its id, and nothing else. -/
structure Represents (r : Indexed α) : Prop where
  nodup_ids : r.ids.Nodup
  place_iff : ∀ id i, r.places.get? id = some i ↔ ∃ k, r.kinds[i]? = some k ∧ k.id = id

/-- A call registers a kind behind the others, or it is refused and nothing changes. -/
theorem register_cases (r : Indexed α) (k : Kind α) :
    k.Acceptable ∧ r.contains k.id = false ∧
        r.register k = (.ok (), ⟨r.kinds ++ [k], r.places.insert k.id r.kinds.length⟩) ∨
      ¬ (k.Acceptable ∧ r.contains k.id = false) ∧ ∃ e, r.register k = (.error e, r) := by
  rw [register]
  cases hvalid : k.validate with
  | error e =>
    have hnot : ¬ k.Acceptable := fun h => by
      rw [Kind.validate_eq_ok_iff.2 h] at hvalid
      cases hvalid
    exact .inr ⟨fun h => hnot h.1, e, rfl⟩
  | ok =>
    cases htaken : r.places.contains k.id with
    | true => exact .inr ⟨fun h => Bool.noConfusion (htaken.symm.trans h.2), _, rfl⟩
    | false => exact .inl ⟨Kind.validate_eq_ok_iff.1 hvalid, htaken, rfl⟩

namespace Represents

theorem empty : ({} : Indexed α).Represents where
  nodup_ids := .nil
  place_iff := fun id i => ⟨nofun, fun ⟨k, hk, _⟩ => by cases hk⟩

/-- There is an entry for exactly the ids of the kinds. -/
theorem contains_iff (h : r.Represents) : r.contains id = true ↔ id ∈ r.ids := by
  rw [contains, Table.contains, Option.isSome_iff_exists, ids, List.mem_map]
  constructor
  · rintro ⟨i, hi⟩
    obtain ⟨k, hk, rfl⟩ := (h.place_iff id i).1 hi
    exact ⟨k, List.mem_of_getElem? hk, rfl⟩
  · rintro ⟨k, hk, rfl⟩
    obtain ⟨i, hi⟩ := List.mem_iff_getElem?.1 hk
    exact ⟨i, (h.place_iff k.id i).2 ⟨k, hi, rfl⟩⟩

/-- A kind is found under its id. -/
theorem kind?_eq_some_iff (h : r.Represents) : r.kind? id = some k ↔ k ∈ r.kinds ∧ k.id = id := by
  rw [kind?, Option.bind_eq_some_iff]
  constructor
  · rintro ⟨i, hi, hk⟩
    obtain ⟨k', hk', rfl⟩ := (h.place_iff id i).1 hi
    cases hk.symm.trans hk'
    exact ⟨List.mem_of_getElem? hk, rfl⟩
  · rintro ⟨hk, rfl⟩
    obtain ⟨i, hi⟩ := List.mem_iff_getElem?.1 hk
    exact ⟨i, (h.place_iff k.id i).2 ⟨k, hi, rfl⟩, hi⟩

/-- The first kind of an id is the only one. -/
theorem find?_eq_some_iff (h : r.Represents) :
    r.registry.kind? id = some k ↔ k ∈ r.kinds ∧ k.id = id := by
  constructor
  · intro hk
    exact ⟨List.mem_of_find?_eq_some hk, by simpa using List.find?_some hk⟩
  · rintro ⟨hk, rfl⟩
    have hsome : (r.registry.kind? k.id).isSome = true := List.find?_isSome.2 ⟨k, hk, by simp⟩
    obtain ⟨k', hk'⟩ := Option.isSome_iff_exists.1 hsome
    have hid : k'.id = k.id := by simpa using List.find?_some hk'
    rw [hk', List.inj_on_of_nodup_map h.nodup_ids (List.mem_of_find?_eq_some hk') hk hid]

theorem kind?_registry (h : r.Represents) (id : String) : r.registry.kind? id = r.kind? id :=
  Option.ext fun _ => h.find?_eq_some_iff.trans h.kind?_eq_some_iff.symm

/-- The index holds the place that a search finds. -/
theorem indexOf?_registry (h : r.Represents) (id : String) :
    r.registry.indexOf? id = r.places.get? id := by
  refine Option.ext fun i => ?_
  rw [h.place_iff, indexOf?, List.findIdx?_eq_some_iff_getElem]
  constructor
  · rintro ⟨hi, hk, -⟩
    exact ⟨r.kinds[i], List.getElem?_eq_getElem hi, eq_of_beq hk⟩
  · rintro ⟨k, hk, rfl⟩
    obtain ⟨hi, rfl⟩ := List.getElem?_eq_some_iff.1 hk
    refine ⟨hi, beq_self_eq_true _, fun j hj hid => ?_⟩
    -- a kind before this one has another id
    have hlt : j < r.kinds.length := Nat.lt_trans hj hi
    have hinj := List.inj_on_of_nodup_map h.nodup_ids
    have hij : r.kinds[j] = r.kinds[i] :=
      hinj (List.getElem_mem hlt) (List.getElem_mem hi) (eq_of_beq hid)
    exact Nat.ne_of_lt hj (((List.Nodup.of_map _ h.nodup_ids).getElem_inj_iff).1 hij)

/-- One call keeps the index. -/
theorem registered (h : r.Represents) (k : Kind α) : (r.register k).2.Represents := by
  rcases r.register_cases k with ⟨-, hfree, hregister⟩ | ⟨-, e, hregister⟩
  · rw [hregister]
    have hnew : k.id ∉ r.ids := fun hid => by
      rw [h.contains_iff.2 hid] at hfree
      cases hfree
    refine ⟨?_, fun id i => ?_⟩
    · simp only [ids, List.map_append, List.map_cons, List.map_nil]
      exact List.nodup_append.2 ⟨h.nodup_ids, List.nodup_singleton _, by
        rintro a ha b hb rfl
        cases List.mem_singleton.1 hb
        exact hnew ha⟩
    · rw [Table.get?_insert]
      split
      · next hid =>
        subst hid
        constructor
        · intro hi
          cases hi
          exact ⟨k, List.getElem?_concat_length, rfl⟩
        · rintro ⟨k', hk', hid⟩
          obtain hk' | ⟨rfl, -⟩ := getElem?_concat_cases hk'
          · exact absurd (hid ▸ List.mem_map_of_mem (List.mem_of_getElem? hk')) hnew
          · rfl
      · next hid =>
        rw [h.place_iff]
        constructor
        · rintro ⟨k', hk', rfl⟩
          exact ⟨k', (List.getElem?_append_left (List.getElem?_eq_some_iff.1 hk').1).trans hk', rfl⟩
        · rintro ⟨k', hk', rfl⟩
          obtain hk' | ⟨-, rfl⟩ := getElem?_concat_cases hk'
          · exact ⟨k', hk', rfl⟩
          · exact absurd rfl hid
  · rw [hregister]
    exact h

end Represents

/-- What a call does: it puts an acceptable kind whose id is not taken behind the others, and refuses
any other kind, which changes nothing. -/
structure Registers (r : Indexed α) (k : Kind α) : Prop where
  ok_iff : (r.register k).1 = .ok () ↔ k.Acceptable ∧ k.id ∉ r.ids
  kinds_eq : (r.register k).2.kinds = if k.Acceptable ∧ k.id ∉ r.ids then r.kinds ++ [k] else r.kinds
  refused : (r.register k).1 ≠ .ok () → (r.register k).2 = r

theorem Represents.registers (h : r.Represents) (k : Kind α) : r.Registers k := by
  have hfree : r.contains k.id = false ↔ k.id ∉ r.ids := by
    rw [← h.contains_iff, Bool.not_eq_true]
  rcases r.register_cases k with ⟨haccept, hcontains, hregister⟩ | ⟨hnot, e, hregister⟩
  · have hboth : k.Acceptable ∧ k.id ∉ r.ids := ⟨haccept, hfree.1 hcontains⟩
    refine ⟨?_, ?_, ?_⟩
    · rw [hregister]
      exact iff_of_true rfl hboth
    · rw [hregister, if_pos hboth]
    · rw [hregister]
      exact fun h => absurd rfl h
  · rw [hfree] at hnot
    refine ⟨?_, ?_, ?_⟩
    · rw [hregister]
      exact iff_of_false nofun hnot
    · rw [hregister, if_neg hnot]
    · rw [hregister]
      exact fun _ => rfl

/-! ## Queries -/

/-- All queries know the ids of the kinds, and no others. -/
structure Agrees (r : Indexed α) : Prop where
  known : ∀ id ∈ r.ids, ∃ k ∈ r.kinds, k.id = id ∧ r.contains id = true ∧ r.kind? id = some k ∧
    r.create id = .ok ⟨id, k.make⟩ ∧ r.propertiesOf id = .ok k.properties
  unknown : ∀ id ∉ r.ids, r.contains id = false ∧ r.kind? id = none ∧
    r.create id = .error (.unknownKind id) ∧ r.propertiesOf id = .error (.unknownKind id)

theorem Represents.agrees (h : r.Represents) : r.Agrees where
  known id hid := by
    obtain ⟨k, hk, rfl⟩ := List.mem_map.1 hid
    have hkind : r.kind? k.id = some k := h.kind?_eq_some_iff.2 ⟨hk, rfl⟩
    refine ⟨k, hk, rfl, h.contains_iff.2 hid, hkind, ?_, ?_⟩
    · rw [create, kind, hkind]
      rfl
    · rw [propertiesOf, kind, hkind]
      rfl
  unknown id hid := by
    have hkind : r.kind? id = none := by
      refine Option.eq_none_iff_forall_ne_some.2 fun k hk => hid ?_
      obtain ⟨hmem, rfl⟩ := h.kind?_eq_some_iff.1 hk
      exact List.mem_map_of_mem hmem
    refine ⟨?_, hkind, ?_, ?_⟩
    · rw [← Bool.not_eq_true, h.contains_iff]
      exact hid
    · rw [create, kind, hkind]
      rfl
    · rw [propertiesOf, kind, hkind]
      rfl

/-- With its index a registry answers as the one without does, which searches. -/
structure Answers (r : Indexed α) (q : Registry α) : Prop where
  ids : q.ids = r.ids
  indexOf? : ∀ id, q.indexOf? id = r.places.get? id
  kind? : ∀ id, q.kind? id = r.kind? id
  contains : ∀ id, q.contains id = r.contains id
  create : ∀ id, q.create id = r.create id
  propertiesOf : ∀ id, q.propertiesOf id = r.propertiesOf id
  register : ∀ k, q.register k = (r.register k).1.map fun _ => (r.register k).2.registry

theorem Represents.answers (h : r.Represents) : r.Answers r.registry := by
  have hkind (id : String) : r.registry.kind id = r.kind id := by
    have hregistry := h.kind?_registry id
    cases hk : r.kind? id with
    | some k => simp only [Registry.kind, hregistry, kind, hk]
    | none => simp only [Registry.kind, hregistry, kind, hk]
  have hcontains (id : String) : r.registry.contains id = r.contains id := by
    rw [Registry.contains, h.kind?_registry, Bool.eq_iff_iff, Option.isSome_iff_exists,
      h.contains_iff, ids, List.mem_map]
    exact exists_congr fun k => h.kind?_eq_some_iff
  refine ⟨rfl, h.indexOf?_registry, h.kind?_registry, hcontains, fun id => ?_, fun id => ?_,
    fun k => ?_⟩
  · rw [Registry.create, hkind, create]
  · rw [Registry.propertiesOf, hkind, propertiesOf]
  · rw [Registry.register, register, hcontains]
    cases k.validate with
    | error e => rfl
    | ok =>
      show (if r.places.contains k.id = true then .error (.duplicateKind k.id)
        else .ok ⟨r.kinds ++ [k]⟩ : Except Error (Registry α)) = _
      split
      · rfl
      · rfl

/-! ## All calls -/

/-- The registry after calls, the first one first. -/
def registerAll (r : Indexed α) (ks : List (Kind α)) : Indexed α :=
  ks.foldl (fun r k => (r.register k).2) r

theorem Represents.registeredAll (h : r.Represents) (ks : List (Kind α)) :
    (r.registerAll ks).Represents := by
  induction ks generalizing r with
  | nil => exact h
  | cons k rest ih => exact ih (h.registered k)

/-- The kinds that are registered stand behind those that were, in the order of their calls. -/
theorem exists_kinds_registerAll (r : Indexed α) (ks : List (Kind α)) :
    ∃ new, new.Sublist ks ∧ (r.registerAll ks).kinds = r.kinds ++ new := by
  induction ks generalizing r with
  | nil => exact ⟨[], .slnil, (List.append_nil _).symm⟩
  | cons k rest ih =>
    obtain ⟨new, hnew, hkinds⟩ := ih (r.register k).2
    rw [registerAll, List.foldl_cons, ← registerAll, hkinds]
    rcases r.register_cases k with ⟨-, -, hregister⟩ | ⟨-, e, hregister⟩
    · rw [hregister]
      exact ⟨k :: new, hnew.cons_cons k, by simp⟩
    · rw [hregister]
      exact ⟨new, hnew.cons k, rfl⟩

/-- What is found under an id after a call is what was found before, or the kind of the call. -/
theorem Represents.kind?_register (h : r.Represents) (k : Kind α) (id : String) :
    (r.register k).2.kind? id =
      (r.kind? id).or (if k.Acceptable ∧ k.id = id then some k else none) := by
  have hafter := h.registered k
  rcases r.register_cases k with ⟨haccept, hfree, hregister⟩ | ⟨hnot, e, hregister⟩
  · have hmem (k' : Kind α) : k' ∈ (r.register k).2.kinds ↔ k' ∈ r.kinds ∨ k' = k := by
      rw [hregister, List.mem_append, List.mem_singleton]
    by_cases hid : k.id = id
    · subst hid
      have hnew : k.id ∉ r.ids := fun hid => Bool.noConfusion (hfree.symm.trans (h.contains_iff.2 hid))
      obtain ⟨-, hnone, -, -⟩ := h.agrees.unknown k.id hnew
      rw [hnone, Option.none_or, if_pos ⟨haccept, rfl⟩]
      exact hafter.kind?_eq_some_iff.2 ⟨(hmem k).2 (.inr rfl), rfl⟩
    · rw [if_neg fun hk => hid hk.2, Option.or_none]
      refine Option.ext fun k' => ?_
      rw [hafter.kind?_eq_some_iff, h.kind?_eq_some_iff, hmem]
      refine and_congr_left fun hk' => or_iff_left ?_
      rintro rfl
      exact hid hk'
  · rw [hregister]
    by_cases hk : k.Acceptable ∧ k.id = id
    · obtain ⟨haccept, rfl⟩ := hk
      have htaken : r.contains k.id = true := by
        rw [← Bool.not_eq_false]
        exact fun hfree => hnot ⟨haccept, hfree⟩
      obtain ⟨k', -, -, -, hk', -⟩ := h.agrees.known k.id (h.contains_iff.1 htaken)
      rw [hk', Option.some_or]
    · rw [if_neg hk, Option.or_none]

/-- What is found under an id is what was found before, or the first acceptable kind of this id. -/
theorem Represents.kind?_registerAll (h : r.Represents) (ks : List (Kind α)) (id : String) :
    (r.registerAll ks).kind? id =
      (r.kind? id).or (ks.find? fun k => k.Acceptable ∧ k.id = id) := by
  induction ks generalizing r with
  | nil => exact (Option.or_none).symm
  | cons k rest ih =>
    rw [registerAll, List.foldl_cons, ← registerAll, ih (h.registered k), h.kind?_register, Option.or_assoc,
      List.find?_cons]
    congr 1
    by_cases hk : k.Acceptable ∧ k.id = id
    · simp [hk]
    · simp [hk]

/-- With its index a registry is filled as the one without is. -/
theorem Represents.registry_registerAll (h : r.Represents) (ks : List (Kind α)) :
    (r.registerAll ks).registry =
      ks.foldl (fun q k => (q.register k).toOption.getD q) r.registry := by
  induction ks generalizing r with
  | nil => rfl
  | cons k rest ih =>
    rw [registerAll, List.foldl_cons, List.foldl_cons, ← registerAll, ih (h.registered k),
      h.answers.register]
    congr 1
    rcases r.register_cases k with ⟨-, -, hregister⟩ | ⟨-, e, hregister⟩
    · rw [hregister]
      rfl
    · rw [hregister]
      rfl

/-- Whatever kinds are registered, put together by whatever calls: a further kind is registered exactly if it
is acceptable and its id is not taken, and else nothing changes. The index holds the place of each kind
under its id and nothing else, all queries agree on the ids of the kinds, and the registry answers as one
without an index that was filled in the same way. The kinds are in the order of their calls, and under an
id the first acceptable one is found; further calls leave it where it is. What a kind inherits is put in
front, in the order of the base and without what is declared already, and what is declared stays as it
is. -/
theorem registerAll_exact (plans : List (Kind.Plan α)) :
    let ks := plans.map Kind.Plan.kind
    let r := registerAll {} ks
    (∀ p : Kind.Plan α, r.Registers p.kind) ∧ r.Represents ∧ r.Agrees ∧
    r.Answers (ks.foldl (fun q k => (q.register k).toOption.getD q) .empty) ∧
    r.kinds.Sublist ks ∧
    (∀ id, r.kind? id = ks.find? fun k => k.Acceptable ∧ k.id = id) ∧
    (∀ more : List (Kind.Plan α), let later := r.registerAll (more.map Kind.Plan.kind)
      r.kinds <+: later.kinds ∧ ∀ id i, r.places.get? id = some i → later.places.get? id = some i) ∧
    ∀ (p : Kind.Plan α) (base : List Property.Declaration),
      (p.kind.inherit base).properties =
        base.filter (fun d => d.name ∉ p.kind.names) ++ p.kind.properties ∧
      ∀ name, (p.kind.inherit base).declaration? name =
        (p.kind.declaration? name).or (base.find? fun d => d.name == name) := by
  intro ks r
  have hr : r.Represents := .registeredAll .empty ks
  have hregistry : r.registry = ks.foldl (fun q k => (q.register k).toOption.getD q) .empty :=
    Represents.empty.registry_registerAll ks
  refine ⟨fun p => hr.registers p.kind, hr, hr.agrees, hregistry ▸ hr.answers, ?_, fun id => ?_,
    fun more => ?_, fun p base => ⟨p.kind.properties_inherit base, p.kind.declaration?_inherit base⟩⟩
  · obtain ⟨new, hnew, hkinds⟩ := exists_kinds_registerAll ({} : Indexed α) ks
    exact hkinds.trans (List.nil_append new) ▸ hnew
  · exact Represents.empty.kind?_registerAll ks id
  · intro later
    obtain ⟨new, -, hkinds⟩ := r.exists_kinds_registerAll (more.map Kind.Plan.kind)
    refine ⟨⟨new, hkinds.symm⟩, fun id i hi => ?_⟩
    obtain ⟨k, hk, hid⟩ := (hr.place_iff id i).1 hi
    refine ((hr.registeredAll _).place_iff id i).2 ⟨k, ?_, hid⟩
    rw [hkinds, List.getElem?_append_left (List.getElem?_eq_some_iff.1 hk).1, hk]

/-- A kind without a name and one whose id is taken are refused, and so is one that inherits a property
twice. -/
example : (registerAll ({} : Indexed Unit) ([⟨"chime", (), [.property "pitch" .int]⟩, ⟨" ", (), []⟩,
    ⟨"bell", (), [.property "loud" .bool, .inherit [⟨"comment", .text⟩, ⟨"loud", .text⟩]]⟩,
    ⟨"gong", (), [.inherit [⟨"comment", .text⟩, ⟨"comment", .text⟩]]⟩,
    ⟨"chime", (), []⟩].map Kind.Plan.kind)).kinds.map (fun k => (k.id, k.names)) =
      [("chime", ["pitch"]), ("bell", ["comment", "loud"])] := by decide

end Registry.Indexed

end VerbScript
