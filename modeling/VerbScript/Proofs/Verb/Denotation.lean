import VerbScript.Proofs.Verb.Definition
import VerbScript.Trace.Kinds
import VerbScript.Verb.RuntimeState

/-!
# What a definition stands for

A definition stands for an id and steps when it has the shape of one, and every entry with a kind
defines a step (`Definition.StandsFor`): the kind is registered, every other key is declared, and
each value is `null` or has a text that the property can be set to. A document that stands for
nothing has one fault (`Definition.Fault`): its shape, or what is wrong with the first entry that
defines no step, which is its kind, or else the first of its keys that the action is not given.

`Verb.read_definition_iff` says that a verb takes over the documents that stand for something, as
what they stand for, and refuses the others with their fault and unchanged. Each reader is settled
by what it reads, from one value (`Definition.settles_readProperty`) to the whole document
(`Definition.settles_read`).
-/

namespace VerbScript

variable {α ω : Type}

namespace Definition

/-! ## Documents that are definitions -/

/-- The text that the value of a property stands for. -/
inductive HasText : Json → String → Prop where
  | string (s : String) : HasText (.string s) s
  | number (n : Json.Number) : HasText (.number n) n.text
  | bool (b : Bool) : HasText (.bool b) (if b then "true" else "false")

/-- A value that has parts, which no property takes. -/
inductive Nested : Json → Prop where
  | array (vs : List Json) : Nested (.array vs)
  | object (ms : List (String × Json)) : Nested (.object ms)

variable [Action α ω]

section
variable (k : Kind α)

/-- An action of the kind that is given a value under a name becomes another one. -/
inductive Sets (a : α) (name : String) : Json → α → Prop where
  | unset {d : Property.Declaration} (hd : k.declaration? name = some d) : Sets a name .null a
  | value {d : Property.Declaration} {v : Json} {raw : String} {x : Property.Value} {b : α}
      (hd : k.declaration? name = some d) (htext : HasText v raw)
      (hvalue : d.domain.coerce raw = .ok x) (hset : Action.setProperty a name x = (.ok (), b)) :
      Sets a name v b

/-- Why an action of the kind is not given a value under a name. -/
inductive KeyFault (index : Nat) (a : α) (name : String) (v : Json) : DocumentError → Prop where
  | undeclared (hd : k.declaration? name = none) :
      KeyFault index a name v (.entry index (.unknownProperty k.id name))
  | nested {d : Property.Declaration} (hd : k.declaration? name = some d) (hv : Nested v) :
      KeyFault index a name v (.nestedValue index name v)
  | notCoerced {d : Property.Declaration} {raw : String} {x : Property.Expectation}
      (hd : k.declaration? name = some d) (htext : HasText v raw)
      (hvalue : d.domain.coerce raw = .error x) :
      KeyFault index a name v (.entry index (.invalidValue k.id name raw x.text))
  | refused {d : Property.Declaration} {raw : String} {x : Property.Value} {cause : ActionError}
      (hd : k.declaration? name = some d) (htext : HasText v raw)
      (hvalue : d.domain.coerce raw = .ok x)
      (hset : (Action.setProperty a name x).1 = .error cause) :
      KeyFault index a name v (.entry index (.invalidValue k.id name raw cause.message))

/-- An action of the kind that is given the values of an entry, in document order and without the
kind itself, becomes another one. -/
inductive Configures : α → List (String × Json) → α → Prop where
  | nil (a : α) : Configures a [] a
  | kind {v : Json} {ms : List (String × Json)} {a b : α} (h : Configures a ms b) :
      Configures a ((kindKey, v) :: ms) b
  | key {name : String} {v : Json} {ms : List (String × Json)} {a b c : α}
      (hname : name ≠ kindKey) (hset : Sets k a name v b) (h : Configures b ms c) :
      Configures a ((name, v) :: ms) c

/-- The first value of an entry that an action of the kind is not given, and why. -/
inductive FirstKeyFault (index : Nat) (a : α) (ms : List (String × Json)) :
    DocumentError → Prop where
  | intro {before rest : List (String × Json)} {name : String} {v : Json} {b : α}
      {e : DocumentError} (hms : ms = before ++ (name, v) :: rest) (hname : name ≠ kindKey)
      (hbefore : Configures k a before b) (hfault : KeyFault k index b name v e) :
      FirstKeyFault index a ms e

end

/-- Whether an entry has a kind, be it one that is registered or not. -/
def hasKind (entry : List (String × Json)) : Bool :=
  match Json.lookup kindKey entry with
  | none | some .null => false
  | some _ => true

/-- The entry defines the step. -/
def Makes (r : Registry α) (entry : List (String × Json)) (s : Step α) : Prop :=
  ∃ k, Json.lookup kindKey entry = some (.string s.kind) ∧ r.kind? s.kind = some k ∧
    Configures k k.make entry s.action

/-- What an entry is read as: as no step if it has no kind, and else as the one that it defines. -/
inductive ReadAs (r : Registry α) (entry : List (String × Json)) : Option (Step α) → Prop where
  | skipped (hkind : ¬ hasKind entry) : ReadAs r entry none
  | made {s : Step α} (hmakes : Makes r entry s) : ReadAs r entry (some s)

/-- Why an entry defines no step. -/
inductive EntryFault (r : Registry α) (index : Nat) (entry : List (String × Json)) :
    DocumentError → Prop where
  | kindNotText {v : Json} (hlookup : Json.lookup kindKey entry = some v) (hnull : v ≠ .null)
      (htext : ∀ kind, v ≠ .string kind) : EntryFault r index entry (.kindNotText index v)
  | unknownKind {kind : String} (hlookup : Json.lookup kindKey entry = some (.string kind))
      (hkind : r.kind? kind = none) : EntryFault r index entry (.entry index (.unknownKind kind))
  | key {kind : String} {k : Kind α} {e : DocumentError}
      (hlookup : Json.lookup kindKey entry = some (.string kind)) (hkind : r.kind? kind = some k)
      (hfault : FirstKeyFault k index k.make entry e) : EntryFault r index entry e

/-- The first of some entries that defines no step though it has a kind, and why. -/
inductive FirstEntryFault (r : Registry α) (index : Nat) (entries : List (List (String × Json))) :
    DocumentError → Prop where
  | intro {before rest : List (List (String × Json))} {entry : List (String × Json)}
      {e : DocumentError} (hentries : entries = before ++ entry :: rest)
      (hbefore : ∀ b ∈ before, hasKind b → ∃ s, Makes r b s)
      (hfault : EntryFault r (index + before.length) entry e) : FirstEntryFault r index entries e

/-- The document has the shape of a definition with the given id and entries. -/
def Shape (payload : Json) (id : String) (entries : List (List (String × Json))) : Prop :=
  Json.HoldsPair idKey actionsKey (.string id) (.array (entries.map .object)) payload

/-- The document defines a verb with the given id and steps. -/
def StandsFor (r : Registry α) (payload : Json) (id : String) (steps : List (Step α)) : Prop :=
  ∃ entries, Shape payload id entries ∧ List.Forall₂ (Makes r) (entries.filter hasKind) steps

/-- Why a document defines no verb. -/
inductive Fault (r : Registry α) (payload : Json) : DocumentError → Prop where
  | malformed {misfit : Json.Misfit} (hshape : ∀ id entries, ¬ Shape payload id entries)
      (hmisfit : envelope payload = .error misfit) : Fault r payload (.malformed .definition misfit)
  | entry {id : String} {entries : List (List (String × Json))} {e : DocumentError}
      (hshape : Shape payload id entries) (hfault : FirstEntryFault r 0 entries e) :
      Fault r payload e

/-! ## One value -/

variable {r : Registry α} {k : Kind α}

theorem propertyText_of_hasText {v : Json} {raw : String} (h : HasText v raw) (index : Nat)
    (name : String) : propertyText index name v = .ok (some raw) := by
  cases h <;> rfl

/-- A value with a text sets the property, if it is declared, to what the text stands for. -/
theorem readProperty_of_hasText {s : Step α} (hk : r.kind? s.kind = some k) {name : String}
    {d : Property.Declaration} (hd : k.declaration? name = some d) {v : Json} {raw : String}
    (htext : HasText v raw) (index : Nat) :
    readProperty r index s name v =
      match d.domain.coerce raw with
      | .error x => .error (.entry index (.invalidValue s.kind name raw x.text))
      | .ok x =>
        match Action.setProperty s.action name x with
        | (.ok (), b) => .ok { s with action := b }
        | (.error cause, _) =>
          .error (.entry index (.invalidValue s.kind name raw cause.message)) := by
  have hdecl := Registry.declaration_of_kind? hk name
  simp only [hd] at hdecl
  rw [readProperty, hdecl, propertyText_of_hasText htext]
  simp only [bind, Except.bind, Except.mapError, Registry.setProperty, Registry.coerce, hdecl]
  cases hvalue : d.domain.coerce raw with
  | error x => simp
  | ok x =>
    cases hset : Action.setProperty s.action name x with
    | mk result b => cases result <;> simp [hset, pure, Except.pure]

/-- A value is given to an action or has a fault. -/
theorem sets_or_keyFault (k : Kind α) (index : Nat) (a : α) (name : String) (v : Json) :
    (∃ b, Sets k a name v b) ∨ ∃ e, KeyFault k index a name v e := by
  -- a value with a text is given unless the text stands for nothing or the action refuses it
  have htext {raw : String} {d : Property.Declaration} (hd : k.declaration? name = some d)
      (htext : HasText v raw) : (∃ b, Sets k a name v b) ∨ ∃ e, KeyFault k index a name v e := by
    cases hvalue : d.domain.coerce raw with
    | error x => exact .inr ⟨_, .notCoerced hd htext hvalue⟩
    | ok x =>
      cases hset : Action.setProperty a name x with
      | mk result b =>
        cases result with
        | ok => exact .inl ⟨b, .value hd htext hvalue hset⟩
        | error cause => exact .inr ⟨_, .refused hd htext hvalue (congrArg Prod.fst hset)⟩
  cases hd : k.declaration? name with
  | none => exact .inr ⟨_, .undeclared hd⟩
  | some d =>
    cases v with
    | null => exact .inl ⟨a, .unset hd⟩
    | bool b => exact htext hd (.bool b)
    | number n => exact htext hd (.number n)
    | string s => exact htext hd (.string s)
    | array vs => exact .inr ⟨_, .nested hd (.array vs)⟩
    | object ms => exact .inr ⟨_, .nested hd (.object ms)⟩

/-- A value is given to a property or not as its declaration and the action say. -/
theorem settles_readProperty {s : Step α} (hk : r.kind? s.kind = some k) (index : Nat)
    (name : String) (v : Json) :
    Settles (readProperty r index s name v)
      (fun t => t.kind = s.kind ∧ Sets k s.action name v t.action)
      (KeyFault k index s.action name v) := by
  obtain ⟨kind, a⟩ := s
  obtain rfl : k.id = kind := (Registry.kind_of_kind? hk).2.2
  have hdecl := Registry.declaration_of_kind? hk name
  apply Settles.of_total
  · rintro ⟨_, b⟩ ⟨rfl, hset⟩
    cases hset with
    | unset hd =>
      simp only [hd] at hdecl
      rw [readProperty, hdecl]
      rfl
    | value hd htext hvalue hset =>
      simp only [readProperty_of_hasText hk hd htext, hvalue, hset]
  · intro e hfault
    cases hfault with
    | undeclared hd =>
      simp only [hd] at hdecl
      rw [readProperty, hdecl]
      rfl
    | nested hd hv =>
      simp only [hd] at hdecl
      rw [readProperty, hdecl]
      cases hv <;> rfl
    | notCoerced hd htext hvalue => simp only [readProperty_of_hasText hk hd htext, hvalue]
    | refused hd htext hvalue hset =>
      simp only [readProperty_of_hasText hk hd htext, hvalue]
      split
      · next h => cases (congrArg Prod.fst h).symm.trans hset
      · next h =>
        cases (congrArg Prod.fst h).symm.trans hset
        rfl
  · rcases sets_or_keyFault k index a name v with ⟨b, hset⟩ | hfault
    · exact .inl ⟨⟨k.id, b⟩, rfl, hset⟩
    · exact .inr hfault

/-! ## One entry -/

theorem configures_cons_iff {a c : α} {name : String} {v : Json} {ms : List (String × Json)}
    (hname : name ≠ kindKey) :
    Configures k a ((name, v) :: ms) c ↔ ∃ b, Sets k a name v b ∧ Configures k b ms c := by
  constructor
  · intro h
    cases h with
    | kind => exact absurd rfl hname
    | key _ hset h => exact ⟨_, hset, h⟩
  · rintro ⟨b, hset, h⟩
    exact .key hname hset h

theorem configures_kind_iff {a b : α} {v : Json} {ms : List (String × Json)} :
    Configures k a ((kindKey, v) :: ms) b ↔ Configures k a ms b := by
  refine ⟨fun h => ?_, .kind⟩
  cases h with
  | kind h => exact h
  | key hname => exact absurd rfl hname

theorem firstKeyFault_cons_iff {index : Nat} {a : α} {name : String} {v : Json}
    {ms : List (String × Json)} {e : DocumentError} (hname : name ≠ kindKey) :
    FirstKeyFault k index a ((name, v) :: ms) e ↔
      KeyFault k index a name v e ∨ ∃ b, Sets k a name v b ∧ FirstKeyFault k index b ms e := by
  constructor
  · rintro @⟨before, rest, name', v', b, e, hms, hname', hbefore, hfault⟩
    cases before with
    | nil =>
      cases hms
      cases hbefore
      exact .inl hfault
    | cons m before =>
      cases hms
      obtain ⟨c, hset, hbefore⟩ := (configures_cons_iff hname).1 hbefore
      exact .inr ⟨c, hset, rfl, hname', hbefore, hfault⟩
  · rintro (hfault | ⟨b, hset, rfl, hname', hbefore, hfault⟩)
    · exact ⟨(List.nil_append _).symm, hname, .nil a, hfault⟩
    · exact ⟨(List.cons_append ..).symm, hname', .key hname hset hbefore, hfault⟩

theorem firstKeyFault_kind_iff {index : Nat} {a : α} {v : Json} {ms : List (String × Json)}
    {e : DocumentError} :
    FirstKeyFault k index a ((kindKey, v) :: ms) e ↔ FirstKeyFault k index a ms e := by
  constructor
  · rintro @⟨before, rest, name, v', b, e, hms, hname, hbefore, hfault⟩
    cases before with
    | nil =>
      cases hms
      exact absurd rfl hname
    | cons m before =>
      cases hms
      exact ⟨rfl, hname, configures_kind_iff.1 hbefore, hfault⟩
  · rintro ⟨rfl, hname, hbefore, hfault⟩
    exact ⟨(List.cons_append ..).symm, hname, .kind hbefore, hfault⟩

/-- The values of an entry are given one after the other, up to the first that is not. -/
theorem settles_readProperties {s : Step α} (hk : r.kind? s.kind = some k) (index : Nat)
    (ms : List (String × Json)) :
    Settles (readProperties r index s ms)
      (fun t => t.kind = s.kind ∧ Configures k s.action ms t.action)
      (FirstKeyFault k index s.action ms) := by
  induction ms generalizing s with
  | nil =>
    refine .of_total ?_ ?_ (.inl ⟨s, rfl, .nil _⟩)
    · rintro ⟨_, _⟩ ⟨rfl, hset⟩
      cases hset
      rfl
    · rintro e ⟨hms, -⟩
      simp at hms
  | cons m ms ih =>
    obtain ⟨name, v⟩ := m
    rw [readProperties]
    split
    · next hname =>
      subst hname
      exact (ih hk).congr (fun t => and_congr_right' configures_kind_iff.symm)
        fun e => firstKeyFault_kind_iff.symm
    · next hname =>
      refine ((settles_readProperty hk index name v).bind fun t ht => ih (ht.1 ▸ hk)).congr ?_ ?_
      · intro t
        rw [configures_cons_iff hname]
        constructor
        · rintro ⟨u, ⟨hkind, hset⟩, hkind', h⟩
          exact ⟨hkind'.trans hkind, u.action, hset, h⟩
        · rintro ⟨hkind, b, hset, h⟩
          exact ⟨⟨s.kind, b⟩, ⟨rfl, hset⟩, hkind, h⟩
      · intro e
        rw [firstKeyFault_cons_iff hname]
        refine or_congr_right ⟨?_, ?_⟩
        · rintro ⟨u, ⟨-, hset⟩, h⟩
          exact ⟨u.action, hset, h⟩
        · rintro ⟨b, hset, h⟩
          exact ⟨⟨s.kind, b⟩, ⟨rfl, hset⟩, h⟩

theorem hasKind_of_lookup {entry : List (String × Json)} {v : Json}
    (hlookup : Json.lookup kindKey entry = some v) (hnull : v ≠ .null) : hasKind entry := by
  rw [hasKind, hlookup]
  split
  · contradiction
  · next h => exact absurd (Option.some.inj h) hnull
  · rfl

theorem Makes.hasKind {entry : List (String × Json)} {s : Step α} (h : Makes r entry s) :
    hasKind entry := by
  obtain ⟨k, hlookup, -⟩ := h
  exact hasKind_of_lookup hlookup nofun

theorem readEntry_of_kind? {index : Nat} {entry : List (String × Json)} {kind : String}
    (hlookup : Json.lookup kindKey entry = some (.string kind)) (hkind : r.kind? kind = some k) :
    readEntry r index entry = some <$> readProperties r index ⟨kind, k.make⟩ entry := by
  obtain ⟨hkind', -, rfl⟩ := Registry.kind_of_kind? hkind
  exact readEntry_of_create hlookup (by rw [Registry.create, hkind']; rfl)

/-- An entry is skipped, or it defines a step, or it has a fault. -/
theorem settles_readEntry (r : Registry α) (index : Nat) (entry : List (String × Json)) :
    Settles (readEntry r index entry) (ReadAs r entry) (EntryFault r index entry) := by
  have hsettles {kind : String} {k : Kind α} (hkind : r.kind? kind = some k) :=
    settles_readProperties (s := ⟨kind, k.make⟩) hkind index entry
  apply Settles.of_total
  · intro s? h
    cases h with
    | skipped hkind =>
      unfold hasKind at hkind
      rw [readEntry]
      split at hkind
      · next hlookup => rw [hlookup]
      · next hlookup => rw [hlookup]
      · exact absurd rfl hkind
    | @made s hmakes =>
      obtain ⟨kind, a⟩ := s
      obtain ⟨k, hlookup, hkind, hconf⟩ := hmakes
      rw [readEntry_of_kind? hlookup hkind, ((hsettles hkind).ok ⟨kind, a⟩).2 ⟨rfl, hconf⟩]
      rfl
  · intro e hfault
    cases hfault with
    | @kindNotText v hlookup hnull htext =>
      rw [readEntry, hlookup]
      cases v with
      | null => exact absurd rfl hnull
      | string kind => exact absurd rfl (htext kind)
      | _ => rfl
    | unknownKind hlookup hkind =>
      rw [readEntry, hlookup]
      simp only [Registry.create, Registry.kind, hkind]
      rfl
    | key hlookup hkind hfault =>
      rw [readEntry_of_kind? hlookup hkind, ((hsettles hkind).error e).2 hfault]
      rfl
  · cases hlookup : Json.lookup kindKey entry with
    | none => exact .inl ⟨none, .skipped (by simp [hasKind, hlookup])⟩
    | some v =>
      cases v with
      | null => exact .inl ⟨none, .skipped (by simp [hasKind, hlookup])⟩
      | string kind =>
        cases hkind : r.kind? kind with
        | none => exact .inr ⟨_, .unknownKind hlookup hkind⟩
        | some k =>
          rcases (hsettles hkind).total with ⟨⟨_, a⟩, rfl, hconf⟩ | ⟨e, hfault⟩
          · exact .inl ⟨some _, .made ⟨k, hlookup, hkind, hconf⟩⟩
          · exact .inr ⟨e, .key hlookup hkind hfault⟩
      | _ => exact .inr ⟨_, .kindNotText hlookup (by simp) (by simp)⟩

/-! ## The entries -/

theorem firstEntryFault_cons_iff {index : Nat} {entry : List (String × Json)}
    {entries : List (List (String × Json))} {e : DocumentError} :
    FirstEntryFault r index (entry :: entries) e ↔
      EntryFault r index entry e ∨
        (hasKind entry → ∃ s, Makes r entry s) ∧ FirstEntryFault r (index + 1) entries e := by
  constructor
  · rintro @⟨before, rest, entry', e, hentries, hbefore, hfault⟩
    cases before with
    | nil =>
      cases hentries
      exact .inl hfault
    | cons b before =>
      cases hentries
      rw [List.forall_mem_cons] at hbefore
      rw [List.length_cons, Nat.add_comm before.length, ← Nat.add_assoc] at hfault
      exact .inr ⟨hbefore.1, rfl, hbefore.2, hfault⟩
  · rintro (hfault | ⟨hentry, @⟨before, rest, entry', e, rfl, hbefore, hfault⟩⟩)
    · exact ⟨(List.nil_append _).symm, nofun, hfault⟩
    · refine ⟨(List.cons_append ..).symm, List.forall_mem_cons.2 ⟨hentry, hbefore⟩, ?_⟩
      rwa [List.length_cons, Nat.add_comm before.length, ← Nat.add_assoc]

theorem exists_readAs_iff {entry : List (String × Json)} :
    (∃ s?, ReadAs r entry s?) ↔ (hasKind entry → ∃ s, Makes r entry s) := by
  constructor
  · rintro ⟨s?, hread⟩ h
    cases hread with
    | skipped hkind => exact absurd h hkind
    | made hmakes => exact ⟨_, hmakes⟩
  · intro hmakes
    by_cases h : hasKind entry
    · obtain ⟨s, hs⟩ := hmakes h
      exact ⟨some s, .made hs⟩
    · exact ⟨none, .skipped h⟩

theorem forall₂_filter_cons_iff {entry : List (String × Json)}
    {rest : List (List (String × Json))} {steps : List (Step α)} :
    List.Forall₂ (Makes r) ((entry :: rest).filter hasKind) steps ↔
      ∃ s?, ReadAs r entry s? ∧ ∃ tail, List.Forall₂ (Makes r) (rest.filter hasKind) tail ∧
        s?.toList ++ tail = steps := by
  by_cases h : hasKind entry
  · rw [List.filter_cons_of_pos h, List.forall₂_cons_left_iff]
    constructor
    · rintro ⟨s, tail, hmakes, htail, rfl⟩
      exact ⟨some s, .made hmakes, tail, htail, rfl⟩
    · rintro ⟨s?, hread, tail, htail, rfl⟩
      cases hread with
      | skipped hkind => exact absurd h hkind
      | made hmakes => exact ⟨_, tail, hmakes, htail, rfl⟩
  · rw [List.filter_cons_of_neg h]
    constructor
    · exact fun hsteps => ⟨none, .skipped h, steps, hsteps, rfl⟩
    · rintro ⟨s?, hread, tail, htail, rfl⟩
      cases hread with
      | skipped => exact htail
      | made hmakes => exact absurd hmakes.hasKind h

theorem value_readEntries_cons (r : Registry α) (verb : String) (index : Nat)
    (entry : List (String × Json)) (rest : List (List (String × Json))) :
    (readEntries r verb index (entry :: rest)).value = do
      let s? ← readEntry r index entry
      let steps ← (readEntries r verb (index + 1) rest).value
      return s?.toList ++ steps := by
  rw [readEntries]
  cases readEntry r index entry with
  | error e => rfl
  | ok s? =>
    cases s? with
    | none =>
      rw [Traced.value_after]
      cases (readEntries r verb (index + 1) rest).value <;> rfl
    | some s => rfl

/-- The entries with a kind define the steps, in order, up to the first that has a fault. -/
theorem settles_readEntries (r : Registry α) (verb : String) (index : Nat)
    (entries : List (List (String × Json))) :
    Settles (readEntries r verb index entries).value
      (List.Forall₂ (Makes r) (entries.filter hasKind)) (FirstEntryFault r index entries) := by
  induction entries generalizing index with
  | nil =>
    refine .of_total ?_ ?_ (.inl ⟨[], .nil⟩)
    · rintro steps ⟨⟩
      rfl
    · rintro e ⟨hentries, -⟩
      simp at hentries
  | cons entry rest ih =>
    rw [value_readEntries_cons]
    refine ((settles_readEntry r index entry).bind fun s? _ =>
      (ih (index + 1)).bind fun steps _ => Settles.pure (s?.toList ++ steps)).congr ?_ ?_
    · exact fun steps => forall₂_filter_cons_iff.symm
    · intro e
      rw [firstEntryFault_cons_iff, ← exists_readAs_iff]
      simp only [and_false, exists_false, or_false, exists_and_right]

/-! ## The document -/

theorem envelope_eq_ok_iff {payload : Json} {id : String}
    {entries : List (List (String × Json))} :
    envelope payload = .ok (id, entries) ↔ Shape payload id entries := by
  have hentries (w : Json) : Json.Decoder.items Json.Decoder.members w = .ok entries ↔
      w = .array (entries.map .object) := by
    simp only [Json.Decoder.items_eq_ok_iff, Json.Decoder.members_eq_ok_iff]
    simp only [← List.forall₂_map_right_iff, List.forall₂_eq_eq_eq, exists_eq_right]
  rw [envelope, Json.Decoder.record₂_eq_ok_iff (by decide)]
  simp only [Json.Decoder.string_eq_ok_iff, hentries]
  exact ⟨fun ⟨_, _, h, rfl, rfl⟩ => h, fun h => ⟨_, _, h, rfl, rfl⟩⟩

theorem settles_read (r : Registry α) (payload : Json) :
    Settles (read r payload).value (fun d => StandsFor r payload d.1 d.2) (Fault r payload) := by
  apply Settles.of_total
  · rintro ⟨id, steps⟩ ⟨entries, hshape, hsteps⟩
    have hread := ((settles_readEntries r id 0 entries).ok steps).2 hsteps
    simp only [read, envelope_eq_ok_iff.2 hshape, hread]
  · intro e hfault
    cases hfault with
    | malformed _ hmisfit => simp only [read, hmisfit]
    | @entry id entries e hshape hfault =>
      have hread := ((settles_readEntries r id 0 entries).error e).2 hfault
      simp only [read, envelope_eq_ok_iff.2 hshape, hread]
  · cases henvelope : envelope payload with
    | error misfit =>
      refine .inr ⟨_, .malformed (fun id entries hshape => ?_) henvelope⟩
      cases henvelope.symm.trans (envelope_eq_ok_iff.2 hshape)
    | ok d =>
      have hshape := envelope_eq_ok_iff.1 henvelope
      rcases (settles_readEntries r d.1 0 d.2).total with ⟨steps, hsteps⟩ | ⟨e, hfault⟩
      · exact .inl ⟨(d.1, steps), d.2, hshape, hsteps⟩
      · exact .inr ⟨e, .entry hshape hfault⟩

end Definition

namespace Verb

open Definition

variable [Action α ω]

/-- A verb takes over exactly the definitions that stand for something: it has their id and their
steps then, is not started and keeps its policy. Any other document is refused with its fault, and
changes nothing. -/
theorem read_definition_iff (r : Registry α) (v : Verb α) (payload : Json) :
    let result := (v.read r .definition payload).value
    (result.1 = .ok () ↔ ∃ id steps, StandsFor r payload id steps) ∧
    (∀ id steps, StandsFor r payload id steps → result.2 = { v with id, steps, ip := notStarted }) ∧
    (∀ e, result.1 = .error e ↔ Fault r payload e) ∧
    (∀ e, result.1 = .error e → result.2 = v) := by
  obtain ⟨hok, herror⟩ := settles_read r payload
  intro result
  cases hread : (Definition.read r payload).value with
  | ok d =>
    obtain ⟨id, steps⟩ := d
    have hresult : result = (.ok (), { v.replaceSteps steps with id }) := by
      show (v.readDefinition r payload).value = _
      rw [readDefinition, Traced.value_map, hread]
    simp only [hread, Except.ok.injEq] at hok
    refine ⟨iff_of_true (congrArg Prod.fst hresult) ⟨id, steps, (hok (id, steps)).1 rfl⟩,
      fun id' steps' h => ?_, fun e => ?_, fun e he => ?_⟩
    · cases (hok (id', steps')).2 h
      exact congrArg Prod.snd hresult
    · rw [← herror, hread, hresult]
      exact iff_of_false nofun nofun
    · cases (congrArg Prod.fst hresult).symm.trans he
  | error e =>
    have hresult : result = (.error e, v) := by
      show (v.readDefinition r payload).value = _
      rw [readDefinition, Traced.value_map, hread]
    have hnone (id : String) (steps : List (Step α)) : ¬ StandsFor r payload id steps := fun h => by
      cases hread.symm.trans ((hok (id, steps)).2 h)
    refine ⟨iff_of_false ?_ ?_, fun id steps h => absurd h (hnone id steps), fun e' => ?_,
      fun _ _ => congrArg Prod.snd hresult⟩
    · rw [hresult]
      nofun
    · rintro ⟨id, steps, h⟩
      exact hnone id steps h
    · rw [← herror, hread, hresult, Except.error.injEq, Except.error.injEq]

/-- An entry without a kind is skipped and one of a note is read, also where its kind comes second;
the entry behind them is refused by its place in the document. -/
theorem read_definition_iff_notes :
    let v : Verb Trace.TraceAction := { id := "old", steps := [⟨"pause", .pause {}⟩], ip := 0 }
    let entries : List (List (String × Json)) :=
      [[("kind", .null), ("bogus", .array [])],
        [("repeat", .int 2), ("kind", .string "note"), ("text", .string "hello"), ("loud", .null)]]
    let bad : List (String × Json) := [("kind", .string "note"), ("loud", .null), ("bogus", .null)]
    let document (entries : List (List (String × Json))) : Json :=
      .object [("actions", .array (entries.map .object)), ("id", .string "use")]
    let accepted := (v.read Trace.registry .definition (document entries)).value
    let refused := (v.read Trace.registry .definition (document (entries ++ [bad]))).value
    accepted.1 = .ok () ∧
      accepted.2 =
        { v with
          id := "use"
          steps := [⟨"note", .note { text := some "hello", repetitions := some 2 }⟩]
          ip := notStarted } ∧
      refused.1 = .error (.entry 2 (.unknownProperty "note" "bogus")) ∧ refused.2 = v := by
  intro v entries bad document
  have hmakes : Makes Trace.registry entries[1]
      ⟨"note", .note { text := some "hello", repetitions := some 2 }⟩ := by
    refine ⟨Trace.kinds[0], rfl, rfl, .key (by decide) (.value rfl (.number _) rfl rfl) ?_⟩
    exact .kind (.key (by decide) (.value rfl (.string _) rfl rfl)
      (.key (by decide) (.unset rfl) (.nil _)))
  have hstands : StandsFor Trace.registry (document entries) "use"
      [⟨"note", .note { text := some "hello", repetitions := some 2 }⟩] :=
    ⟨entries, .object rfl rfl, .cons hmakes .nil⟩
  have hbefore : ∀ b ∈ entries, hasKind b → ∃ s, Makes Trace.registry b s :=
    List.forall_mem_cons.2 ⟨nofun, List.forall_mem_singleton.2 fun _ => ⟨_, hmakes⟩⟩
  have hbad : bad = [("kind", .string "note"), ("loud", .null)] ++ ("bogus", .null) :: [] := rfl
  have hkeys : FirstKeyFault Trace.kinds[0] 2 Trace.kinds[0].make bad
      (.entry 2 (.unknownProperty "note" "bogus")) :=
    ⟨hbad, by decide, .kind (.key (by decide) (.unset rfl) (.nil _)), .undeclared rfl⟩
  have hfault : Fault Trace.registry (document (entries ++ [bad]))
      (.entry 2 (.unknownProperty "note" "bogus")) :=
    .entry (.object rfl rfl) (.intro rfl hbefore (.key rfl rfl hkeys))
  obtain ⟨haccepted, htaken, -⟩ := v.read_definition_iff Trace.registry (document entries)
  obtain ⟨-, -, hrefused, hkept⟩ :=
    v.read_definition_iff Trace.registry (document (entries ++ [bad]))
  have herror := (hrefused _).2 hfault
  exact ⟨haccepted.2 ⟨_, _, hstands⟩, htaken _ _ hstands, herror, hkept _ herror⟩

end Verb

end VerbScript
