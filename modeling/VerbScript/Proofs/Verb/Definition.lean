import VerbScript.Proofs.Action.Configured
import VerbScript.Proofs.Json.Decoder
import VerbScript.Verb.Definition

/-!
# Definitions are read as they are written

A verb whose steps were configured through a lawful registry is written as a document from which a
verb is read that has the same kinds and values (`Verb.exists_ofDefinition`), and that is written as
the same document. The entries of the document go through the reader one property after the other
(`Definition.readProperties_propertyMembers`): each is coerced to the value that it was written
from, which an action of its kind accepts.
-/

namespace VerbScript

variable {α ω : Type} [Action α ω]

/-- The steps `s` and `t` are of one kind and hold the same value, or both none, under every name
that the kind declares. -/
def Registry.SameDefinition (r : Registry α) (s t : Step α) : Prop :=
  t.kind = s.kind ∧ ∀ ds, r.propertiesOf s.kind = .ok ds → ∀ d ∈ ds,
    Action.property? t.action d.name = Action.property? s.action d.name

/-- The doubles among the values that a step holds read back. -/
def Step.FloatsReadBack (s : Step α) : Prop :=
  ∀ name x, Action.property? s.action name = some (.float x) → Property.ReadsBack x

namespace Definition

variable {r : Registry α} {tag : α → String} {k : Kind α} {s t : Step α}

/-- A value of a domain is written so that it is read as the text that stands for it. -/
theorem propertyText_toJson {d : Property.Domain} {v : Property.Value} (h : d.Admits v)
    (index : Nat) (name : String) : propertyText index name v.toJson = .ok (some v.raw) := by
  cases h with
  | bool b => rfl
  | int hn => rfl
  | float hx =>
    rw [Property.Value.toJson, Json.ofFloat, if_pos hx]
    rfl
  | text s => rfl
  | choice hs => rfl

theorem propertiesOf_eq (h : r.Sound tag k s) : r.propertiesOf s.kind = .ok k.properties := by
  rw [Registry.propertiesOf, Registry.kind, h.kind?]
  rfl

/-- A declared name is looked up as its own declaration. -/
theorem declaration?_of_mem (hr : r.Lawful tag) (hk : k ∈ r.kinds) {d : Property.Declaration}
    (hd : d ∈ k.properties) : k.declaration? d.name = some d := by
  cases he : k.declaration? d.name with
  | none => simpa using List.find?_eq_none.1 he d hd
  | some e =>
    obtain ⟨hmem, hname⟩ := Registry.mem_of_declaration? he
    rw [hr.eq_of_name_eq hk hmem hd hname]

/-- A step reads the value that another step of its kind holds. -/
theorem readProperty_toJson (hr : r.Lawful tag) (hs : r.Sound tag k s) (ht : r.Sound tag k t)
    (hfloat : s.FloatsReadBack) (index : Nat) {d : Property.Declaration} (hd : d ∈ k.properties)
    {v : Property.Value} (hv : Action.property? s.action d.name = some v) :
    ∃ a, readProperty r index t d.name v.toJson = .ok { t with action := a } ∧
      r.Sound tag k { t with action := a } ∧ Action.property? a d.name = some v ∧
      ∀ name, name ≠ d.name → Action.property? a name = Action.property? t.action name := by
  have hadmits := hs.admits d hd v hv
  have hdecl := declaration?_of_mem hr hs.mem hd
  have hcoerce : r.coerce t d.name v.raw = .ok v :=
    ht.coerce_eq_ok_iff.2 ⟨d, hdecl, Property.Domain.coerce_raw hadmits fun x hx =>
      hfloat d.name x (hx ▸ hv)⟩
  have haccept := hs.accepts d hd v hv t.action ht.tag_eq
  have hset : r.setProperty t d.name v.raw =
      (.ok (), { t with action := (Action.setProperty t.action d.name v).2 }) := by
    rw [Registry.setProperty, hcoerce]
    simp only [haccept]
    rfl
  refine ⟨(Action.setProperty t.action d.name v).2, ?_, ?_, ?_, ?_⟩
  · rw [readProperty, ht.declaration_eq, hdecl, propertyText_toJson hadmits]
    simp only [bind, Except.bind]
    rw [hset]
    rfl
  · have := hr.sound_setProperty ht d.name v.raw
    rwa [hset] at this
  · rw [hr.takes k hs.mem d hd t.action ht.tag_eq v hadmits, haccept]
    rfl
  · exact fun name hname => hr.property?_setProperty_of_ne _ _ _ name hname

/-- A step without values reads the values that another step of its kind holds, one declared
property after the other. -/
theorem readProperties_propertyMembers (hr : r.Lawful tag) (hs : r.Sound tag k s)
    (hfloat : s.FloatsReadBack) (index : Nat) {ds : List Property.Declaration}
    (hds : ∀ d ∈ ds, d ∈ k.properties) (hnodup : (ds.map (·.name)).Nodup) {t : Step α}
    (ht : r.Sound tag k t) (hunset : ∀ d ∈ ds, Action.property? t.action d.name = none) :
    ∃ a, readProperties r index t (propertyMembers s.action ds) = .ok { t with action := a } ∧
      r.Sound tag k { t with action := a } ∧
      (∀ d ∈ ds, Action.property? a d.name = Action.property? s.action d.name) ∧
      ∀ name ∉ ds.map (·.name), Action.property? a name = Action.property? t.action name := by
  induction ds generalizing t with
  | nil => exact ⟨t.action, rfl, ht, by simp, fun _ _ => rfl⟩
  | cons d ds ih =>
    simp only [List.forall_mem_cons, List.map_cons, List.nodup_cons] at hds hunset hnodup
    cases hv : Action.property? s.action d.name with
    | none =>
      obtain ⟨a, ha, hsound, hvalues, hothers⟩ := ih hds.2 hnodup.2 ht hunset.2
      have hmembers : propertyMembers s.action (d :: ds) = propertyMembers s.action ds := by
        simp [propertyMembers, hv]
      refine ⟨a, hmembers ▸ ha, hsound, ?_, ?_⟩
      · refine List.forall_mem_cons.2 ⟨?_, hvalues⟩
        rw [hothers d.name hnodup.1, hunset.1, hv]
      · intro name hname
        rw [List.map_cons, List.mem_cons, not_or] at hname
        exact hothers name hname.2
    | some v =>
      obtain ⟨b, hb, hbsound, hbvalue, hbothers⟩ :=
        readProperty_toJson hr hs ht hfloat index hds.1 hv
      have hne : ∀ e ∈ ds, e.name ≠ d.name := fun e he heq =>
        hnodup.1 (heq ▸ List.mem_map_of_mem he)
      obtain ⟨a, ha, hsound, hvalues, hothers⟩ := ih hds.2 hnodup.2 hbsound
        fun e he => (hbothers e.name (hne e he)).trans (hunset.2 e he)
      have hkey : d.name ≠ kindKey := fun heq =>
        hr.not_reserved k hs.mem (heq ▸ List.mem_map_of_mem hds.1)
      have hmembers : propertyMembers s.action (d :: ds) =
          (d.name, v.toJson) :: propertyMembers s.action ds := by
        simp [propertyMembers, hv]
      refine ⟨a, ?_, hsound, ?_, ?_⟩
      · rw [hmembers, readProperties, if_neg hkey, hb]
        exact ha
      · refine List.forall_mem_cons.2 ⟨?_, hvalues⟩
        rw [hothers d.name hnodup.1, hbvalue, hv]
      · intro name hname
        rw [List.map_cons, List.mem_cons, not_or] at hname
        exact (hothers name hname.2).trans (hbothers name hname.1)

theorem entry_eq (h : r.Sound tag k s) (index : Nat) :
    entry r index s =
      .ok (.object ((kindKey, .string s.kind) :: propertyMembers s.action k.properties)) := by
  rw [entry, propertiesOf_eq h]
  rfl

/-- An entry of a kind that is registered is read as a new step and then property by property. -/
theorem readEntry_of_create {index : Nat} {ms : List (String × Json)} {kind : String}
    (hkind : Json.lookup kindKey ms = some (.string kind)) (hcreate : r.create kind = .ok s) :
    readEntry r index ms = some <$> readProperties r index s ms := by
  rw [readEntry, hkind]
  show (r.create kind).mapError (DocumentError.entry index) >>= _ = _
  rw [hcreate]
  rfl

/-- The entry of a step is read as a step with the same definition, from which the same entry is
written. -/
theorem readEntry_entry (hr : r.Lawful tag) (hs : r.Sound tag k s) (hfloat : s.FloatsReadBack)
    (index : Nat) : ∃ ms t, entry r index s = .ok (.object ms) ∧
      readEntry r index ms = .ok (some t) ∧ r.SameDefinition s t ∧
      ∀ i, entry r i t = .ok (.object ms) := by
  obtain ⟨hkind, hmem, -⟩ := Registry.kind_of_kind? hs.kind?
  have hcreate : r.create s.kind = .ok ⟨k.id, k.make⟩ := by
    rw [Registry.create, hkind]
    rfl
  have hnew : r.Sound tag k ⟨k.id, k.make⟩ := by
    obtain ⟨k', hk'⟩ := Registry.Sound.of_create hr hcreate
    have hk : k' = k := by
      have := hk'.kind?
      rw [← hs.kind_eq, hs.kind?] at this
      exact (Option.some.inj this).symm
    exact hk ▸ hk'
  obtain ⟨a, ha, hsound, hvalues, -⟩ := readProperties_propertyMembers hr hs hfloat index
    (fun _ hd => hd) (hr.nodup_names k hmem) hnew fun d _ => hr.property?_make k hmem d.name
  have hmembers : propertyMembers a k.properties = propertyMembers s.action k.properties :=
    List.filterMap_congr fun d hd => by rw [hvalues d hd]
  refine ⟨_, ⟨k.id, a⟩, entry_eq hs index, ?_, ⟨hs.kind_eq.symm, ?_⟩, ?_⟩
  · rw [readEntry_of_create (by rw [Json.lookup_cons, if_pos rfl]) hcreate, readProperties,
      if_pos rfl, ha]
    rfl
  · intro ds hds d hd
    rw [propertiesOf_eq hs] at hds
    cases hds
    exact hvalues d hd
  · intro i
    rw [entry_eq hsound, hmembers, hs.kind_eq]

/-- The entries of steps are read as steps with the same definitions, from which the same entries
are written. -/
theorem readEntries_entries (hr : r.Lawful tag) (verb : String) {steps : List (Step α)}
    (hs : ∀ s ∈ steps, (∃ k, r.Sound tag k s) ∧ s.FloatsReadBack) (index : Nat) :
    ∃ es ts, entries r index steps = .ok (es.map Json.object) ∧
      (readEntries r verb index es).value = .ok ts ∧ List.Forall₂ r.SameDefinition steps ts ∧
      ∀ i, entries r i ts = .ok (es.map Json.object) := by
  induction steps generalizing index with
  | nil => exact ⟨[], [], rfl, rfl, .nil, fun _ => rfl⟩
  | cons s steps ih =>
    simp only [List.forall_mem_cons] at hs
    obtain ⟨⟨⟨k, hk⟩, hfloat⟩, htail⟩ := hs
    obtain ⟨ms, t, hentry, hread, hsame, hagain⟩ := readEntry_entry hr hk hfloat index
    obtain ⟨es, ts, hentries, hreads, hsames, hagains⟩ := ih htail (index + 1)
    refine ⟨ms :: es, t :: ts, ?_, ?_, .cons hsame hsames, ?_⟩
    · rw [entries, hentry, hentries]
      rfl
    · rw [readEntries, hread]
      simp only [Traced.value_map, hreads]
      rfl
    · intro i
      rw [entries, hagain, hagains]
      rfl

/-! ## Steps that a definition makes -/

theorem configured_readProperty {index : Nat} {name : String} {v : Json} (hs : r.Configured s)
    (h : readProperty r index s name v = .ok t) : r.Configured t := by
  obtain ⟨_, -, h⟩ := exists_of_bind_eq_ok h
  obtain ⟨raw?, -, h⟩ := exists_of_bind_eq_ok h
  cases raw? with
  | none =>
    cases h
    exact hs
  | some raw =>
    have hset := hs.setProperty name raw
    simp only at h
    cases hres : r.setProperty s name raw with
    | mk result u =>
      rw [hres] at h hset
      cases result with
      | error e => cases h
      | ok =>
        cases h
        exact hset

theorem configured_readProperties {index : Nat} {ms : List (String × Json)} (hs : r.Configured s)
    (h : readProperties r index s ms = .ok t) : r.Configured t := by
  induction ms generalizing s with
  | nil =>
    cases h
    exact hs
  | cons m ms ih =>
    rw [readProperties] at h
    split at h
    · exact ih hs h
    · obtain ⟨u, hread, h⟩ := exists_of_bind_eq_ok h
      exact ih (configured_readProperty hs hread) h

theorem configured_readEntry {index : Nat} {ms : List (String × Json)}
    (h : readEntry r index ms = .ok (some t)) : r.Configured t := by
  have hentry := h
  rw [readEntry] at h
  split at h
  · cases h
  · cases h
  · next kind hkind =>
    cases hnew : r.create kind with
    | error e => rw [hnew] at h; cases h
    | ok u =>
      rw [readEntry_of_create hkind hnew] at hentry
      cases hread : readProperties r index u ms with
      | error e => rw [hread] at hentry; cases hentry
      | ok t' =>
        rw [hread] at hentry
        cases hentry
        exact configured_readProperties (.create hnew) hread
  · cases h

theorem configured_readEntries {verb : String} {index : Nat} {es : List (List (String × Json))}
    {steps : List (Step α)} (h : (readEntries r verb index es).value = .ok steps) :
    ∀ s ∈ steps, r.Configured s := by
  induction es generalizing index steps with
  | nil =>
    cases h
    exact List.forall_mem_nil _
  | cons e es ih =>
    rw [readEntries] at h
    split at h
    · cases h
    · exact ih h
    · next s hs =>
      rw [Traced.value_map] at h
      cases hrest : (readEntries r verb (index + 1) es).value with
      | error e => rw [hrest] at h; cases h
      | ok rest =>
        rw [hrest] at h
        cases h
        exact List.forall_mem_cons.2 ⟨configured_readEntry hs, ih hrest⟩

end Definition

namespace Verb

/-- The definition of a verb whose steps were configured through a lawful registry is read as a verb
with the same id, kinds and values, from which the same definition is written. -/
theorem exists_ofDefinition {r : Registry α} {tag : α → String} (hr : r.Lawful tag) {v : Verb α}
    (hv : ∀ s ∈ v.steps, r.Configured s) (hfloat : ∀ s ∈ v.steps, s.FloatsReadBack) :
    ∃ doc w, v.definition r = .ok doc ∧ (ofDefinition r doc).value = .ok w ∧ w.id = v.id ∧
      List.Forall₂ r.SameDefinition v.steps w.steps ∧ w.definition r = .ok doc := by
  obtain ⟨es, ts, hentries, hreads, hsame, hagain⟩ :=
    Definition.readEntries_entries hr v.id (fun s hs => ⟨hr.sound (hv s hs), hfloat s hs⟩) 0
  refine ⟨_, { id := v.id, steps := ts }, by rw [definition, hentries]; rfl, ?_, rfl, hsame, ?_⟩
  · have henvelope : Definition.envelope (.object [(Definition.idKey, .string v.id),
        (Definition.actionsKey, .array (es.map Json.object))]) = .ok (v.id, es) := by
      refine Json.Decoder.record₂_object (by decide) rfl (Json.Decoder.items_array ?_)
      exact List.forall₂_map_left_iff.2 (List.forall₂_same.2 fun _ _ => rfl)
    rw [ofDefinition, Traced.value_map, Definition.read, henvelope]
    simp only [hreads]
    rfl
  · rw [definition, hagain]
    rfl

/-- The steps of a verb that is read off a definition were configured through the registry. -/
theorem configured_ofDefinition {r : Registry α} {doc : Json} {v : Verb α}
    (h : (ofDefinition r doc).value = .ok v) : ∀ s ∈ v.steps, r.Configured s := by
  rw [ofDefinition, Traced.value_map, Definition.read] at h
  split at h
  · cases h
  · next id es _ =>
    cases hsteps : (Definition.readEntries r id 0 es).value with
    | error e =>
      simp only [hsteps] at h
      cases h
    | ok steps =>
      simp only [hsteps] at h
      cases h
      exact Definition.configured_readEntries hsteps

/-- The steps of a verb stay configured in its life. -/
theorem Moved.configured {r : Registry α} {v w : Verb α} (h : v.Moved w)
    (hv : ∀ s ∈ v.steps, r.Configured s) : ∀ s ∈ w.steps, r.Configured s :=
  Registry.Configured.moved_list h.steps hv

end Verb

end VerbScript
