import Mathlib.Data.List.Perm.Basic
import VerbScript.Proofs.Demo.Kinds
import VerbScript.Proofs.Trace.Kinds
import VerbScript.Proofs.Verb.Denotation

/-!
# The order of keys in a definition

The keys of a definition and those of its entries may stand in any order (`Definition.Reordered`):
what is read of the document has the same id and steps of the same kinds with the same values, or it
is refused either way (`Verb.ofDefinition_reordered`). Two values that are given under different
names can be given in either order (`Definition.Sets.swap`), since an action of a lawful kind accepts
a value or not whatever it holds, and keeps the values under other names. Which error is reported
does depend on the order.
-/

namespace VerbScript

variable {α ω : Type}

/-- A key that stands once in an object is looked up wherever it stands. -/
theorem Json.lookup_of_perm {ms ns : List (String × Json)} (hperm : ms.Perm ns)
    (hkeys : (ms.map (·.1)).Nodup) (key : String) :
    lookup key ms = lookup key ns := by
  induction hperm with
  | nil => rfl
  | cons m _ ih =>
    rw [lookup_cons, lookup_cons, ih (List.nodup_cons.1 hkeys).2]
  | swap m n ms =>
    simp only [lookup_cons]
    by_cases hm : m.1 = key
    · have hn : n.1 ≠ key := by
        rintro hn
        simp [hm, hn] at hkeys
      rw [if_neg hn, if_pos hm, if_pos hm]
    · rw [if_neg hm, if_neg hm]
  | trans hms _ ih ih' => exact (ih hkeys).trans (ih' ((hms.map _).nodup_iff.1 hkeys))

namespace Definition

/-! ## Documents whose keys are in another order -/

/-- An entry with its keys in another order; an object has each key once. -/
inductive EntryReordered : Json → Json → Prop where
  | refl (v : Json) : EntryReordered v v
  | object {ms ns : List (String × Json)} (hperm : ms.Perm ns) (hkeys : (ms.map (·.1)).Nodup) :
      EntryReordered (.object ms) (.object ns)

/-- The entries of a definition, the keys of each in another order. -/
inductive EntriesReordered : Json → Json → Prop where
  | refl (v : Json) : EntriesReordered v v
  | array {vs ws : List Json} (h : List.Forall₂ EntryReordered vs ws) :
      EntriesReordered (.array vs) (.array ws)

/-- A member of a definition; only entries have their keys in another order. -/
inductive MemberReordered : String × Json → String × Json → Prop where
  | refl (m : String × Json) : MemberReordered m m
  | entries {v w : Json} (h : EntriesReordered v w) :
      MemberReordered (actionsKey, v) (actionsKey, w)

/-- A definition with its own keys and those of its entries in another order. -/
inductive Reordered : Json → Json → Prop where
  | refl (payload : Json) : Reordered payload payload
  | object {ms ns os : List (String × Json)} (hmembers : List.Forall₂ MemberReordered ms ns)
      (hperm : ns.Perm os) : Reordered (.object ms) (.object os)
  | array {id v w : Json} {rest : List Json} (h : EntriesReordered v w) :
      Reordered (.array (id :: v :: rest)) (.array (id :: w :: rest))

theorem EntryReordered.symm {v w : Json} (h : EntryReordered v w) : EntryReordered w v := by
  cases h with
  | refl => exact .refl v
  | object hperm hkeys => exact .object hperm.symm ((hperm.map _).nodup_iff.1 hkeys)

theorem EntriesReordered.symm {v w : Json} (h : EntriesReordered v w) : EntriesReordered w v := by
  cases h with
  | refl => exact .refl v
  | array h => exact .array (h.flip.imp fun _ _ => EntryReordered.symm)

theorem MemberReordered.symm {m n : String × Json} (h : MemberReordered m n) :
    MemberReordered n m := by
  cases h with
  | refl => exact .refl m
  | entries h => exact .entries h.symm

theorem Reordered.symm {p q : Json} (h : Reordered p q) : Reordered q p := by
  cases h with
  | refl => exact .refl p
  | object hmembers hperm =>
    obtain ⟨ns', hmembers', hperm'⟩ :=
      List.perm_comp_forall₂ hperm.symm (hmembers.flip.imp fun _ _ => MemberReordered.symm)
    exact .object hmembers' hperm'
  | array h => exact .array h.symm

/-! ## One value and another -/

section
variable [Action α ω] {r : Registry α} {tag : α → String} {k : Kind α} {a b c : α}

/-- The value that a property of the kind gets from a document, unless it is left unset. -/
def given? (k : Kind α) (name : String) (v : Json) : Option Property.Value :=
  match propertyText 0 name v, k.declaration? name with
  | .ok (some raw), some d => (d.domain.coerce raw).toOption
  | _, _ => none

theorem Sets.tag_eq (hr : r.Lawful tag) {name : String} {v : Json} (h : Sets k a name v b) :
    tag b = tag a := by
  cases h with
  | unset => rfl
  | @value d v raw x b hd htext hvalue hset =>
    have htag := hr.tag_setProperty a name x
    rwa [hset] at htag

/-- An action has the value that it was given, and the others as before. -/
theorem Sets.property?_eq (hr : r.Lawful tag) (hk : k ∈ r.kinds) (ha : tag a = k.id)
    {name : String} {v : Json} (h : Sets k a name v b) (other : String) :
    Action.property? b other =
      if other = name then (given? k name v).or (Action.property? a name)
      else Action.property? a other := by
  cases h with
  | unset =>
    show _ = if other = name then Action.property? a name else _
    split
    · next h => rw [h]
    · rfl
  | @value d v raw x b hd htext hvalue hset =>
    obtain ⟨hmem, rfl⟩ := Registry.mem_of_declaration? hd
    have hgiven : given? k d.name v = some x := by
      simp only [given?, propertyText_of_hasText htext, hd, hvalue, Except.toOption]
    have htakes := hr.takes k hk d hmem a ha x (Property.Domain.admits_of_coerce hvalue)
    have hother := hr.property?_setProperty_of_ne a d.name x other
    rw [hset] at htakes hother
    split
    · next h => rw [h, htakes, hgiven]; rfl
    · next h => exact hother h

/-- Whether an action is given a value does not depend on the values it holds. -/
theorem Sets.exists_of_tag_eq (hr : r.Lawful tag) {a' : α} (htag : tag a' = tag a) {name : String}
    {v : Json} (h : Sets k a name v b) : ∃ b', Sets k a' name v b' := by
  cases h with
  | unset hd => exact ⟨a', .unset hd⟩
  | @value d v raw x b hd htext hvalue hset =>
    have hok : (Action.setProperty a' name x).1 = .ok () := by
      rw [hr.setProperty_congr a a' name x htag, hset]
    exact ⟨_, .value hd htext hvalue (Prod.ext hok rfl)⟩

/-- Actions that hold the same values do so after they were given the same value. -/
theorem Sets.exists_alike (hr : r.Lawful tag) (hk : k ∈ r.kinds) (ha : tag a = k.id)
    {a' : α} (halike : Registry.Alike tag a a') {name : String} {v : Json}
    (h : Sets k a name v b) : ∃ b', Sets k a' name v b' ∧ Registry.Alike tag b b' := by
  obtain ⟨b', h'⟩ := h.exists_of_tag_eq hr halike.1
  refine ⟨b', h', ?_, fun other => ?_⟩
  · rw [h'.tag_eq hr, h.tag_eq hr, halike.1]
  · rw [h'.property?_eq hr hk (halike.1.trans ha), h.property?_eq hr hk ha, halike.2, halike.2]

/-- Values under different names are given in either order. -/
theorem Sets.swap (hr : r.Lawful tag) (hk : k ∈ r.kinds) (ha : tag a = k.id) {m n : String × Json}
    (hne : m.1 ≠ n.1) (hm : Sets k a m.1 m.2 b) (hn : Sets k b n.1 n.2 c) :
    ∃ b' c', Sets k a n.1 n.2 b' ∧ Sets k b' m.1 m.2 c' ∧ Registry.Alike tag c c' := by
  have hb := hm.tag_eq hr
  obtain ⟨b', hn'⟩ := hn.exists_of_tag_eq hr hb.symm
  have hb' := hn'.tag_eq hr
  obtain ⟨c', hm'⟩ := hm.exists_of_tag_eq hr hb'
  refine ⟨b', c', hn', hm', ?_, fun other => ?_⟩
  · rw [hm'.tag_eq hr, hb', hn.tag_eq hr, hb]
  · rw [hm'.property?_eq hr hk (hb'.trans ha), hn'.property?_eq hr hk ha,
      hn'.property?_eq hr hk ha, hn.property?_eq hr hk (hb.trans ha), hm.property?_eq hr hk ha,
      hm.property?_eq hr hk ha, if_neg hne, if_neg hne.symm]
    by_cases hother : other = m.1
    · rw [if_pos hother, if_neg (hother ▸ hne), if_pos hother]
    · simp only [if_neg hother]

/-! ## One entry -/

theorem Configures.exists_alike (hr : r.Lawful tag) (hk : k ∈ r.kinds) (ha : tag a = k.id)
    {a' : α} (halike : Registry.Alike tag a a') {ms : List (String × Json)}
    (h : Configures k a ms b) : ∃ b', Configures k a' ms b' ∧ Registry.Alike tag b b' := by
  induction h generalizing a' with
  | nil => exact ⟨a', .nil a', halike⟩
  | kind _ ih =>
    obtain ⟨b', h', hb'⟩ := ih ha halike
    exact ⟨b', .kind h', hb'⟩
  | key hname hset _ ih =>
    obtain ⟨b', hset', hb'⟩ := hset.exists_alike hr hk ha halike
    obtain ⟨c', h', hc'⟩ := ih ((hset.tag_eq hr).trans ha) hb'
    exact ⟨c', .key hname hset' h', hc'⟩

/-- Neighbours in an entry with different names can be exchanged. -/
theorem Configures.swap (hr : r.Lawful tag) (hk : k ∈ r.kinds) (ha : tag a = k.id)
    {m n : String × Json} (hne : m.1 ≠ n.1) {ms : List (String × Json)}
    (h : Configures k a (m :: n :: ms) b) :
    ∃ b', Configures k a (n :: m :: ms) b' ∧ Registry.Alike tag b b' := by
  obtain ⟨name, v⟩ := m
  obtain ⟨name', v'⟩ := n
  by_cases hname : name = kindKey
  · subst hname
    obtain ⟨c, hset, h⟩ := (configures_cons_iff hne.symm).1 (configures_kind_iff.1 h)
    exact ⟨b, .key hne.symm hset (.kind h), .refl tag b⟩
  · obtain ⟨c, hset, h⟩ := (configures_cons_iff hname).1 h
    by_cases hname' : name' = kindKey
    · subst hname'
      exact ⟨b, .kind (.key hname hset (configures_kind_iff.1 h)), .refl tag b⟩
    · obtain ⟨d, hset', h⟩ := (configures_cons_iff hname').1 h
      obtain ⟨c', d', hfirst, hsecond, hd⟩ := Sets.swap hr hk ha hne hset hset'
      have hdtag : tag d = k.id := (hset'.tag_eq hr).trans ((hset.tag_eq hr).trans ha)
      obtain ⟨b', h', hb'⟩ := h.exists_alike hr hk hdtag hd
      exact ⟨b', .key hname' hfirst (.key hname hsecond h'), hb'⟩

/-- An action is given the values of an entry whatever the order of its keys is. -/
theorem Configures.perm (hr : r.Lawful tag) (hk : k ∈ r.kinds) {ms ns : List (String × Json)}
    (hperm : ms.Perm ns) (hkeys : (ms.map (·.1)).Nodup) (ha : tag a = k.id)
    (h : Configures k a ms b) : ∃ b', Configures k a ns b' ∧ Registry.Alike tag b b' := by
  induction hperm generalizing a b with
  | nil => exact ⟨b, h, .refl tag b⟩
  | @cons m ms ns _ ih =>
    have hrest := (List.nodup_cons.1 hkeys).2
    obtain ⟨name, v⟩ := m
    by_cases hname : name = kindKey
    · subst hname
      obtain ⟨b', h', hb'⟩ := ih hrest ha (configures_kind_iff.1 h)
      exact ⟨b', .kind h', hb'⟩
    · obtain ⟨c, hset, h⟩ := (configures_cons_iff hname).1 h
      obtain ⟨b', h', hb'⟩ := ih hrest ((hset.tag_eq hr).trans ha) h
      exact ⟨b', .key hname hset h', hb'⟩
  | swap m n ms =>
    have hne : n.1 ≠ m.1 := by
      rintro heq
      simp [heq] at hkeys
    exact h.swap hr hk ha hne
  | @trans ms ns os hms _ ih ih' =>
    obtain ⟨c, hc, hbc⟩ := ih hkeys ha h
    obtain ⟨d, hd, hcd⟩ := ih' ((hms.map _).nodup_iff.1 hkeys) ha hc
    exact ⟨d, hd, hbc.trans hcd⟩

end

end Definition

/-- Steps of the same kind whose actions hold the same values. -/
def Step.SameValues [Action α ω] (s t : Step α) : Prop :=
  t.kind = s.kind ∧ ∀ name, Action.property? t.action name = Action.property? s.action name

namespace Definition

variable [Action α ω] {r : Registry α} {tag : α → String} {ms ns : List (String × Json)}

namespace EntryReordered

theorem hasKind_eq (h : EntryReordered (.object ms) (.object ns)) : hasKind ms = hasKind ns := by
  cases h with
  | refl => rfl
  | object hperm hkeys => rw [hasKind, hasKind, Json.lookup_of_perm hperm hkeys]

/-- A reordered entry defines a step with the same values. -/
theorem makes (h : EntryReordered (.object ms) (.object ns)) (hr : r.Lawful tag) {s : Step α}
    (hmakes : Makes r ms s) : ∃ t, Makes r ns t ∧ s.SameValues t := by
  cases h with
  | refl => exact ⟨s, hmakes, rfl, fun _ => rfl⟩
  | object hperm hkeys =>
    obtain ⟨k, hlookup, hkind, hconf⟩ := hmakes
    obtain ⟨-, hmem, -⟩ := Registry.kind_of_kind? hkind
    obtain ⟨b, hb, halike⟩ := hconf.perm hr hmem hperm hkeys (hr.tag_make k hmem)
    rw [Json.lookup_of_perm hperm hkeys] at hlookup
    exact ⟨⟨s.kind, b⟩, ⟨k, hlookup, hkind, hb⟩, rfl, halike.2⟩

end EntryReordered

/-! ## The entries -/

/-- Entries, the keys of each in another order. -/
abbrev KeysReordered (entries entries' : List (List (String × Json))) : Prop :=
  List.Forall₂ (fun ms ns => EntryReordered (.object ms) (.object ns)) entries entries'

variable {entries entries' : List (List (String × Json))}

/-- Reordered entries define steps with the same values, one by one. -/
theorem KeysReordered.makes (h : KeysReordered entries entries') (hr : r.Lawful tag)
    {steps : List (Step α)} (hsteps : List.Forall₂ (Makes r) (entries.filter hasKind) steps) :
    ∃ steps', List.Forall₂ (Makes r) (entries'.filter hasKind) steps' ∧
      List.Forall₂ Step.SameValues steps steps' := by
  induction h generalizing steps with
  | nil =>
    cases hsteps
    exact ⟨[], .nil, .nil⟩
  | @cons ms ns entries entries' hentry _ ih =>
    by_cases hkind : hasKind ms
    · rw [List.filter_cons_of_pos hkind] at hsteps
      rw [List.filter_cons_of_pos (hentry.hasKind_eq ▸ hkind)]
      cases hsteps with
      | cons hmakes hsteps =>
        obtain ⟨t, ht, hst⟩ := hentry.makes hr hmakes
        obtain ⟨steps', hsteps', hsame⟩ := ih hsteps
        exact ⟨t :: steps', .cons ht hsteps', .cons hst hsame⟩
    · rw [List.filter_cons_of_neg hkind] at hsteps
      rw [List.filter_cons_of_neg (hentry.hasKind_eq ▸ hkind)]
      exact ih hsteps

theorem exists_keysReordered {ws : List Json}
    (h : List.Forall₂ EntryReordered (entries.map .object) ws) :
    ∃ entries', ws = entries'.map .object ∧ KeysReordered entries entries' := by
  rw [List.forall₂_map_left_iff] at h
  induction h with
  | nil => exact ⟨[], rfl, .nil⟩
  | @cons ms w entries ws hentry _ ih =>
    obtain ⟨entries', rfl, hentries⟩ := ih
    cases hentry with
    | refl => exact ⟨ms :: entries', rfl, .cons (.refl _) hentries⟩
    | @object _ ns hperm hkeys => exact ⟨ns :: entries', rfl, .cons (.object hperm hkeys) hentries⟩

theorem EntriesReordered.eq_array {w : Json}
    (h : EntriesReordered (.array (entries.map .object)) w) :
    ∃ entries', w = .array (entries'.map .object) ∧ KeysReordered entries entries' := by
  cases h with
  | refl => exact ⟨entries, rfl, List.forall₂_same.2 fun _ _ => .refl _⟩
  | array h =>
    obtain ⟨entries', rfl, hentries⟩ := exists_keysReordered h
    exact ⟨entries', rfl, hentries⟩

/-! ## The document -/

theorem MemberReordered.fst_eq {m n : String × Json} (h : MemberReordered m n) : n.1 = m.1 := by
  cases h <;> rfl

theorem MemberReordered.entries_of_snd {m n : String × Json} (h : MemberReordered m n) :
    EntriesReordered m.2 n.2 := by
  cases h with
  | refl => exact .refl m.2
  | entries h => exact h

/-- Only entries are reordered. -/
theorem MemberReordered.eq_of_ne {m n : String × Json} (h : MemberReordered m n)
    (hne : m.1 ≠ actionsKey) : n = m := by
  cases h with
  | refl => rfl
  | entries => exact absurd rfl hne

/-- The one member with a key is still the only one when the members are reordered. -/
theorem only_of_reordered {ms ns os : List (String × Json)}
    (hmembers : List.Forall₂ MemberReordered ms ns) (hperm : ns.Perm os) {key : String} {v : Json}
    (h : Json.Only key v ms) : ∃ w, Json.Only key w os ∧ MemberReordered (key, v) (key, w) := by
  have hkey : ∀ m n, MemberReordered m n → ((m.1 == key) = true ↔ (n.1 == key) = true) :=
    fun _ _ h => by rw [h.fst_eq]
  have hfilter : List.Forall₂ MemberReordered (ms.filter (·.1 == key)) (ns.filter (·.1 == key)) :=
    List.rel_filter (fun {m n} => hkey m n) hmembers
  rw [show ms.filter (·.1 == key) = [(key, v)] from h] at hfilter
  have hos := (hperm.filter (·.1 == key)).symm
  cases hns : ns.filter (·.1 == key) with
  | nil =>
    rw [hns] at hfilter
    cases hfilter
  | cons n rest =>
    rw [hns] at hfilter hos
    cases hfilter with
    | cons hn hrest =>
      cases hrest
      obtain ⟨name, w⟩ := n
      obtain rfl : name = key := hn.fst_eq
      exact ⟨w, List.perm_singleton.1 hos, hn⟩

/-- A reordered definition has the shape of one, with reordered entries. -/
theorem Shape.reordered {p q : Json} {id : String} (hshape : Shape p id entries)
    (h : Reordered p q) : ∃ entries', Shape q id entries' ∧ KeysReordered entries entries' := by
  cases h with
  | refl => exact ⟨entries, hshape, List.forall₂_same.2 fun _ _ => .refl _⟩
  | object hmembers hperm =>
    cases hshape with
    | object hid hactions =>
      obtain ⟨v, hv, hid⟩ := only_of_reordered hmembers hperm hid
      obtain ⟨w, hw, hactions⟩ := only_of_reordered hmembers hperm hactions
      obtain ⟨entries', rfl, hentries⟩ := hactions.entries_of_snd.eq_array
      cases hid.eq_of_ne (show idKey ≠ actionsKey by decide)
      exact ⟨entries', .object hv hw, hentries⟩
  | array h =>
    cases hshape with
    | array =>
      obtain ⟨entries', rfl, hentries⟩ := h.eq_array
      exact ⟨entries', .array, hentries⟩

/-- A reordered definition stands for the same id and for steps with the same values. -/
theorem StandsFor.reordered (hr : r.Lawful tag) {p q : Json} {id : String} {steps : List (Step α)}
    (hstands : StandsFor r p id steps) (h : Reordered p q) :
    ∃ steps', StandsFor r q id steps' ∧ List.Forall₂ Step.SameValues steps steps' := by
  obtain ⟨entries, hshape, hsteps⟩ := hstands
  obtain ⟨entries', hshape', hentries⟩ := hshape.reordered h
  obtain ⟨steps', hsteps', hsame⟩ := hentries.makes hr hsteps
  exact ⟨steps', ⟨entries', hshape', hsteps'⟩, hsame⟩

end Definition

namespace Verb

open Definition

variable [Action α ω] {r : Registry α} {tag : α → String}

/-- Both readings failed, or both returned verbs with the same id and with steps that have the same
kinds and hold the same values, in the same order. -/
inductive SameReading : Except DocumentError (Verb α) → Except DocumentError (Verb α) → Prop where
  | ok {v w : Verb α} (hid : w.id = v.id) (hsteps : List.Forall₂ Step.SameValues v.steps w.steps) :
      SameReading (.ok v) (.ok w)
  | error (e e' : DocumentError) : SameReading (.error e) (.error e')

theorem ofDefinition_eq_ok_iff {payload : Json} {v : Verb α} :
    (ofDefinition r payload).value = .ok v ↔
      ∃ id steps, StandsFor r payload id steps ∧ v = { id, steps } := by
  have hread := (settles_read r payload).ok
  rw [ofDefinition, Traced.value_map]
  cases h : (Definition.read r payload).value with
  | error e =>
    constructor
    · rintro ⟨⟩
    · rintro ⟨id, steps, hstands, -⟩
      cases h.symm.trans ((hread (id, steps)).2 hstands)
  | ok d =>
    have hstands := (hread d).1 h
    constructor
    · rintro ⟨⟩
      exact ⟨d.1, d.2, hstands, rfl⟩
    · rintro ⟨id, steps, hstands', rfl⟩
      cases h.symm.trans ((hread (id, steps)).2 hstands')
      rfl

/-- What is read of a definition does not depend on the order of its keys. -/
theorem sameReading_of_reordered (hr : r.Lawful tag) {p q : Json} (h : Reordered p q) :
    SameReading (ofDefinition r p).value (ofDefinition r q).value := by
  cases hp : (ofDefinition r p).value with
  | ok v =>
    obtain ⟨id, steps, hstands, rfl⟩ := ofDefinition_eq_ok_iff.1 hp
    obtain ⟨steps', hstands', hsame⟩ := hstands.reordered hr h
    rw [ofDefinition_eq_ok_iff.2 ⟨id, steps', hstands', rfl⟩]
    exact .ok rfl hsame
  | error e =>
    cases hq : (ofDefinition r q).value with
    | error e' => exact .error e e'
    | ok w =>
      obtain ⟨id, steps, hstands, rfl⟩ := ofDefinition_eq_ok_iff.1 hq
      obtain ⟨steps', hstands', -⟩ := hstands.reordered hr h.symm
      cases hp.symm.trans (ofDefinition_eq_ok_iff.2 ⟨id, steps', hstands', rfl⟩)

/-- The order of the keys in a definition over the demo's kinds, or over those that leave a trace,
does not matter: either both documents are refused, or both stand for the same id and for steps of
the same kinds with the same values. -/
theorem ofDefinition_reordered {p q : Json} (h : Reordered p q) :
    SameReading (ofDefinition Demo.registry p).value (ofDefinition Demo.registry q).value ∧
      SameReading (ofDefinition Trace.registry p).value (ofDefinition Trace.registry q).value :=
  ⟨sameReading_of_reordered Demo.registry_lawful h,
    sameReading_of_reordered Trace.registry_lawful h⟩

/-- The actions of a definition may come before its id, the kind of an entry last, and a volume
before its sound. -/
theorem ofDefinition_reordered_sound :
    let entry : List (String × Json) :=
      [("kind", .string "sound"), ("sound", .string "creak"), ("volume", .ofFloat 0.5)]
    let p : Json := .object [("id", .string "open"), ("actions", .array [.object entry])]
    let q : Json := .object
      [("actions", .array [.object entry.reverse]), ("id", .string "open")]
    Reordered p q ∧ (ofDefinition Demo.registry p).value.isOk ∧
      SameReading (ofDefinition Demo.registry p).value (ofDefinition Demo.registry q).value := by
  intro entry p q
  have hentry : EntryReordered (.object entry) (.object entry.reverse) :=
    .object entry.reverse_perm.symm (by decide)
  have h : Reordered p q :=
    .object (.cons (.refl _) (.cons (.entries (.array (.cons hentry .nil))) .nil)) (.swap _ _ _)
  exact ⟨h, by decide +kernel, (ofDefinition_reordered h).1⟩

end Verb

end VerbScript
