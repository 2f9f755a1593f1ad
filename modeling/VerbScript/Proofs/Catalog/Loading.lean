import VerbScript.Proofs.Catalog.Keyed
import VerbScript.Proofs.Json.Decoder
import VerbScript.Trace.Kinds

/-!
# Loading definitions entry by entry

What becomes of an entry of a catalog's definitions depends on it and on the entries before it only
(`Catalog.Outcome`): it is loaded if it defines a verb whose id none of those defines a verb with, and
else it is reported as failed. Loading goes through the entries in order and gives every one its
outcome (`Catalog.exists_outcomes`): the report lists the outcomes, and the catalog has taken in the
verbs that were loaded. So nothing changes if the entries that failed are left out
(`Catalog.loadDefinitions_each`).
-/

namespace VerbScript.Catalog

variable {α ω : Type} [Action α ω]

/-- An entry defines a verb: it is read as it. -/
def Defines (r : Registry α) (entry : Json) (v : Verb α) : Prop :=
  (Verb.ofDefinition r entry).value = .ok v

/-- What becomes of an entry behind others: a verb that is loaded, or a failure that is reported. -/
inductive Outcome (r : Registry α) (earlier : List Json) (entry : Json) :
    Except LoadFailure (Verb α) → Prop where
  | loaded {v : Verb α} (hv : Defines r entry v)
      (hnew : ∀ e ∈ earlier, ∀ u, Defines r e u → u.id ≠ v.id) : Outcome r earlier entry (.ok v)
  | repeated {v u : Verb α} {e : Json} (hv : Defines r entry v) (he : e ∈ earlier)
      (hu : Defines r e u) (hid : u.id = v.id) :
      Outcome r earlier entry
        (.error ⟨earlier.length, definedId? entry, .duplicateVerb v.id⟩)
  | refused {cause : DocumentError} (h : (Verb.ofDefinition r entry).value = .error cause) :
      Outcome r earlier entry (.error ⟨earlier.length, definedId? entry,
        .verb ((definedId? entry).getD (entryName earlier.length)) cause⟩)

/-- What becomes of entries behind others, one after the other. -/
inductive Outcomes (r : Registry α) :
    List Json → List Json → List (Except LoadFailure (Verb α)) → Prop where
  | nil (earlier : List Json) : Outcomes r earlier [] []
  | cons {earlier entries : List Json} {entry : Json} {o : Except LoadFailure (Verb α)}
      {os : List (Except LoadFailure (Verb α))} (h : Outcome r earlier entry o)
      (htail : Outcomes r (earlier ++ [entry]) entries os) :
      Outcomes r earlier (entry :: entries) (o :: os)

/-- The verbs that were loaded. -/
def loadedVerbs (os : List (Except LoadFailure (Verb α))) : List (Verb α) :=
  os.filterMap Except.toOption

/-- The failures that were reported. -/
def failures (os : List (Except LoadFailure (Verb α))) : List LoadFailure :=
  os.filterMap fun
    | .ok _ => none
    | .error f => some f

/-- A verb with the given id is defined by one of the entries. -/
def DefinesId (r : Registry α) (entries : List Json) (id : String) : Prop :=
  ∃ e ∈ entries, ∃ v, Defines r e v ∧ v.id = id

variable {r : Registry α} {earlier entries : List Json} {entry : Json}
  {o : Except LoadFailure (Verb α)} {os : List (Except LoadFailure (Verb α))}

/-! ## Outcomes -/

theorem Defines.unique {v u : Verb α} (hv : Defines r entry v) (hu : Defines r entry u) : v = u :=
  Except.ok.inj (hv.symm.trans hu)

theorem definesId_append {id : String} :
    DefinesId r (earlier ++ entries) id ↔ DefinesId r earlier id ∨ DefinesId r entries id := by
  simp only [DefinesId, List.mem_append, or_and_right, exists_or]

theorem definesId_singleton {v : Verb α} (h : Defines r entry v) {id : String} :
    DefinesId r [entry] id ↔ v.id = id := by
  constructor
  · rintro ⟨e, he, u, hu, hid⟩
    obtain rfl := List.mem_singleton.1 he
    exact hu.unique h ▸ hid
  · exact fun hid => ⟨entry, List.mem_singleton_self _, v, h, hid⟩

/-- An entry is loaded exactly if it defines a verb with an id that is new. -/
theorem Outcome.eq_ok_iff (h : Outcome r earlier entry o) {v : Verb α} :
    o = .ok v ↔ Defines r entry v ∧ ¬ DefinesId r earlier v.id := by
  constructor
  · rintro rfl
    cases h with
    | loaded hv hnew => exact ⟨hv, fun ⟨e, he, u, hu, hid⟩ => hnew e he u hu hid⟩
  · rintro ⟨hv, hnew⟩
    cases h with
    | loaded hu _ => rw [hu.unique hv]
    | repeated hu he hw hid => exact absurd ⟨_, he, _, hw, hu.unique hv ▸ hid⟩ hnew
    | refused hcause => cases hcause.symm.trans hv

theorem Outcome.index_of_error {f : LoadFailure} (h : Outcome r earlier entry (.error f)) :
    f.index = earlier.length := by
  cases h with
  | repeated => rfl
  | refused => rfl

theorem Outcomes.length_eq (h : Outcomes r earlier entries os) : os.length = entries.length := by
  induction h with
  | nil => rfl
  | cons _ _ ih => rw [List.length_cons, ih, List.length_cons]

/-- The entry at a place is loaded exactly if it defines a verb with an id that no entry before it
does. -/
theorem Outcomes.getElem?_eq_ok_iff (h : Outcomes r earlier entries os) (i : Nat) (v : Verb α) :
    os[i]? = some (.ok v) ↔ ∃ e, entries[i]? = some e ∧ Defines r e v ∧
      ¬ DefinesId r (earlier ++ entries.take i) v.id := by
  induction h generalizing i with
  | nil => simp
  | @cons earlier entries entry o os ho _ ih =>
    cases i with
    | zero => simpa using ho.eq_ok_iff
    | succ i => simpa using ih i

/-- The failure of the entry at a place is reported with the place. -/
theorem Outcomes.index_eq (h : Outcomes r earlier entries os) {i : Nat} {f : LoadFailure}
    (hf : os[i]? = some (.error f)) : f.index = earlier.length + i := by
  induction h generalizing i with
  | nil => cases hf
  | cons ho _ ih =>
    cases i with
    | zero =>
      obtain rfl := Option.some.inj hf
      exact ho.index_of_error
    | succ i =>
      have := ih hf
      rw [List.length_append, List.length_singleton] at this
      omega

theorem Outcomes.earlier_le_index (h : Outcomes r earlier entries os) :
    ∀ f ∈ failures os, earlier.length ≤ f.index := by
  induction h with
  | nil => exact List.forall_mem_nil _
  | @cons earlier entries entry o os ho _ ih =>
    have htail : ∀ f ∈ failures os, earlier.length ≤ f.index := fun f hf => by
      have := ih f hf
      rw [List.length_append] at this
      omega
    cases o with
    | ok v => exact htail
    | error f => exact List.forall_mem_cons.2 ⟨Nat.le_of_eq ho.index_of_error.symm, htail⟩

/-- Verbs that are loaded have ids of their own, which no verb before them has. -/
theorem Outcomes.nodup_ids (h : Outcomes r earlier entries os) :
    ((loadedVerbs os).map (·.id)).Nodup ∧ ∀ v ∈ loadedVerbs os, ¬ DefinesId r earlier v.id := by
  induction h with
  | nil => exact ⟨List.nodup_nil, List.forall_mem_nil _⟩
  | @cons earlier entries entry o os ho _ ih =>
    obtain ⟨hnodup, hnew⟩ := ih
    simp only [definesId_append, not_or] at hnew
    cases o with
    | error f => exact ⟨hnodup, fun v hv => (hnew v hv).1⟩
    | ok v =>
      obtain ⟨hv, hvnew⟩ := ho.eq_ok_iff.1 rfl
      refine ⟨List.nodup_cons.2 ⟨?_, hnodup⟩,
        List.forall_mem_cons.2 ⟨hvnew, fun u hu => (hnew u hu).1⟩⟩
      rw [List.mem_map]
      rintro ⟨u, hu, hid⟩
      exact (hnew u hu).2 ((definesId_singleton hv).2 hid.symm)

theorem Outcomes.notStarted (h : Outcomes r earlier entries os) :
    ∀ v ∈ loadedVerbs os, v.phase = .notStarted := by
  intro v hv
  obtain ⟨o, ho, hok⟩ := List.mem_filterMap.1 hv
  obtain ⟨i, hi⟩ := List.getElem?_of_mem ho
  cases o with
  | error f => cases hok
  | ok u =>
    obtain rfl := Option.some.inj hok
    obtain ⟨e, -, he, -⟩ := (h.getElem?_eq_ok_iff i u).1 hi
    exact Verb.phase_eq_notStarted_iff.2 (ip_ofDefinition he)

/-! ## Loading -/

/-- What loading entries has come to: the ids that were loaded are those of the verbs that the entries
define. -/
def Loading.Seen (r : Registry α) (l : Loading α) (entries : List Json) : Prop :=
  ∀ id, id ∈ l.report.loaded ↔ DefinesId r entries id

/-- One more entry is given its outcome. -/
theorem exists_outcome {l : Loading α} (hseen : l.Seen r earlier) (entry : Json) :
    ∃ o, Outcome r earlier entry o ∧
      let l' := loadEntry r l earlier.length entry
      l'.report = ⟨l.report.loaded ++ (loadedVerbs [o]).map (·.id), l.report.failed ++ failures [o]⟩ ∧
        l'.catalog = (loadedVerbs [o]).foldl insert l.catalog ∧ l'.Seen r (earlier ++ [entry]) := by
  cases hread : (Verb.ofDefinition r entry).value with
  | error cause =>
    refine ⟨_, .refused hread, ?_, ?_, ?_⟩
    · simp only [loadEntry, hread]
      exact congrArg₂ LoadReport.mk (List.append_nil _).symm rfl
    · simp only [loadEntry, hread]
      rfl
    · intro id
      have hnone : ¬ DefinesId r [entry] id := by
        rintro ⟨e, he, u, hu, -⟩
        obtain rfl := List.mem_singleton.1 he
        cases hread.symm.trans hu
      simp only [loadEntry, hread, hseen id, definesId_append, hnone, or_false]
  | ok v =>
    by_cases hid : v.id ∈ l.report.loaded
    · obtain ⟨e, he, u, hu, heq⟩ := (hseen v.id).1 hid
      refine ⟨_, .repeated hread he hu heq, ?_, ?_, ?_⟩
      · simp only [loadEntry, hread, if_pos hid]
        exact congrArg₂ LoadReport.mk (List.append_nil _).symm rfl
      · simp only [loadEntry, hread, if_pos hid]
        rfl
      · intro id
        simp only [loadEntry, hread, if_pos hid, definesId_append, definesId_singleton hread,
          ← hseen id]
        exact ⟨.inl, fun h => h.elim (fun h => h) fun heq => heq ▸ hid⟩
    · refine ⟨_, .loaded hread fun e he u hu heq => hid ((hseen v.id).2 ⟨e, he, u, hu, heq⟩),
        ?_, ?_, ?_⟩
      · simp only [loadEntry, hread, if_neg hid]
        exact congrArg₂ LoadReport.mk rfl (List.append_nil _).symm
      · simp only [loadEntry, hread, if_neg hid]
        rfl
      · intro id
        simp only [loadEntry, hread, if_neg hid, List.mem_append, List.mem_singleton,
          definesId_append, definesId_singleton hread, hseen id, eq_comm]

theorem loadedVerbs_cons (o : Except LoadFailure (Verb α)) (os) :
    loadedVerbs (o :: os) = loadedVerbs [o] ++ loadedVerbs os :=
  List.filterMap_append (l := [o])

theorem failures_cons (o : Except LoadFailure (Verb α)) (os) :
    failures (o :: os) = failures [o] ++ failures os :=
  List.filterMap_append (l := [o])

/-- Entries are given their outcomes one after the other: these are what the report tells, and the
catalog takes the verbs in that are loaded. -/
theorem exists_outcomes {l : Loading α} (hseen : l.Seen r earlier) (entries : List Json) :
    ∃ os, Outcomes r earlier entries os ∧
      let l' := loadEntries r l earlier.length entries
      l'.report = ⟨l.report.loaded ++ (loadedVerbs os).map (·.id), l.report.failed ++ failures os⟩ ∧
        l'.catalog = (loadedVerbs os).foldl insert l.catalog := by
  induction entries generalizing earlier l with
  | nil =>
    exact ⟨[], .nil earlier, congrArg₂ LoadReport.mk (List.append_nil _).symm
      (List.append_nil _).symm, rfl⟩
  | cons e rest ih =>
    obtain ⟨o, ho, hreport, hcatalog, hseen⟩ := exists_outcome hseen e
    obtain ⟨os, hos, hreport', hcatalog'⟩ := ih hseen
    rw [List.length_append, List.length_singleton] at hreport' hcatalog'
    refine ⟨o :: os, .cons ho hos, ?_, ?_⟩
    · rw [loadEntries, hreport', hreport, loadedVerbs_cons o os, failures_cons o os, List.map_append]
      simp only [List.append_assoc]
    · rw [loadEntries, hcatalog', hcatalog, loadedVerbs_cons o os, List.foldl_append]

/-- The report on definitions lists the outcomes of their entries, and the catalog takes in the verbs that
are loaded. -/
theorem exists_loadDefinitions (c : Catalog α) (r : Registry α) {payload : Json} {entries : List Json}
    (henvelope : definitionsEnvelope payload = .ok entries) :
    ∃ os, Outcomes r [] entries os ∧ (c.loadDefinitions r payload).value =
      (.ok ⟨(loadedVerbs os).map (·.id), failures os⟩, (loadedVerbs os).foldl insert c) := by
  have hseen : Loading.Seen r (⟨c, {}, []⟩ : Loading α) [] := fun id =>
    ⟨fun h => absurd h List.not_mem_nil, fun ⟨_, he, _⟩ => absurd he List.not_mem_nil⟩
  obtain ⟨os, hos, hreport, hcatalog⟩ := exists_outcomes hseen entries
  refine ⟨os, hos, ?_⟩
  simp only [loadDefinitions, henvelope]
  exact congrArg₂ (fun report d => (Except.ok report, d)) hreport hcatalog

/-- Entries that define verbs with ids that are new are loaded as these verbs. -/
theorem loadEntries_of_defines {l : Loading α} {vs : List (Verb α)}
    (h : List.Forall₂ (Defines r) entries vs)
    (hids : (l.report.loaded ++ vs.map (·.id)).Nodup) (index : Nat) :
    let l' := loadEntries r l index entries
    l'.report = { l.report with loaded := l.report.loaded ++ vs.map (·.id) } ∧
      l'.catalog = vs.foldl insert l.catalog := by
  induction h generalizing l index with
  | nil => exact ⟨congrArg₂ LoadReport.mk (List.append_nil _).symm rfl, rfl⟩
  | @cons e v entries vs hv _ ih =>
    have hnew : v.id ∉ l.report.loaded := fun hmem =>
      (List.nodup_append.1 hids).2.2 v.id hmem v.id (List.mem_cons_self ..) rfl
    have hload : (loadEntry r l index e).report =
        { l.report with loaded := l.report.loaded ++ [v.id] } ∧
        (loadEntry r l index e).catalog = l.catalog.insert v := by
      have hv : (Verb.ofDefinition r e).value = .ok v := hv
      simp only [loadEntry, hv, if_neg hnew]
      exact ⟨trivial, trivial⟩
    have hids : ((loadEntry r l index e).report.loaded ++ vs.map (·.id)).Nodup := by
      rw [hload.1]
      simpa using hids
    obtain ⟨hreport, hcatalog⟩ := ih hids (index + 1)
    refine ⟨?_, ?_⟩
    · rw [loadEntries, hreport, hload.1]
      simp
    · rw [loadEntries, hcatalog, hload.2, List.foldl_cons]

/-! ## What is found afterwards -/

theorem policy_foldl_insert (c : Catalog α) (vs : List (Verb α)) :
    (vs.foldl insert c).policy = c.policy := by
  induction vs generalizing c with
  | nil => rfl
  | cons v vs ih => exact ih (c.insert v)

theorem get?_foldl_insert_of_not_mem {id : String} {vs : List (Verb α)}
    (h : id ∉ vs.map (·.id)) (c : Catalog α) : (vs.foldl insert c).get? id = c.get? id := by
  induction vs generalizing c with
  | nil => rfl
  | cons v vs ih =>
    rw [List.map_cons, List.mem_cons, not_or] at h
    rw [List.foldl_cons, ih h.2, get?_insert, if_neg h.1]

/-- Of verbs with ids of their own each is found under its id, with the policy of the catalog. -/
theorem get?_foldl_insert {vs : List (Verb α)} (h : (vs.map (·.id)).Nodup) (c : Catalog α) :
    ∀ v ∈ vs, (vs.foldl insert c).get? v.id = some { v with policy := c.policy } := by
  induction vs generalizing c with
  | nil => exact List.forall_mem_nil _
  | cons v vs ih =>
    rw [List.map_cons, List.nodup_cons] at h
    refine List.forall_mem_cons.2 ⟨?_, ih h.2 (c.insert v)⟩
    rw [List.foldl_cons, get?_foldl_insert_of_not_mem h.1, get?_insert, if_pos rfl]

/-! ## Leaving failed entries out -/

/-- A list without the members at some places. -/
def without {β : Type} (places : List Nat) (xs : List β) : List β :=
  (xs.zipIdx.filter fun x => x.2 ∉ places).map (·.1)

/-- An array without the items at some places. -/
def withoutItems (places : List Nat) : Json → Json
  | .array es => .array (without places es)
  | v => v

/-- Definitions, in either of their forms, without the entries at some places. -/
def withoutEntries (places : List Nat) : Json → Json
  | .object ms =>
    .object (ms.map fun m => if m.1 = verbsKey then (m.1, withoutItems places m.2) else m)
  | .array (v :: rest) => .array (withoutItems places v :: rest)
  | v => v

omit [Action α ω] in
theorem items_withoutItems (places : List Nat) {v : Json} {es : List Json}
    (h : Json.Decoder.items Json.Decoder.any v = .ok es) :
    Json.Decoder.items Json.Decoder.any (withoutItems places v) = .ok (without places es) := by
  cases v with
  | array vs =>
    rw [Json.Decoder.items_any] at h
    cases h
    exact Json.Decoder.items_any _
  | _ => cases h

/-- The members of definitions hold the entries that they held, without those that are left out. -/
theorem fields₁_without (places : List Nat) {ms : List (String × Json)} {a : Option (List Json)}
    {es : List Json}
    (h : Json.Decoder.fields₁ ⟨verbsKey, Json.Decoder.items Json.Decoder.any⟩ a ms = .ok es) :
    Json.Decoder.fields₁ ⟨verbsKey, Json.Decoder.items Json.Decoder.any⟩ (a.map (without places))
        (ms.map fun m => if m.1 = verbsKey then (m.1, withoutItems places m.2) else m) =
      .ok (without places es) := by
  induction ms generalizing a with
  | nil =>
    cases a with
    | none => cases h
    | some es =>
      cases h
      rfl
  | cons m rest ih =>
    obtain ⟨k, v⟩ := m
    rw [Json.Decoder.fields₁] at h
    split at h
    · next hk =>
      obtain ⟨b, hb, hrest⟩ := exists_of_bind_eq_ok h
      obtain ⟨rfl, vs, hvs, rfl⟩ := Json.Decoder.Field.exists_of_read hb
      rw [List.map_cons, if_pos hk, Json.Decoder.fields₁, if_pos hk, Option.map_none,
        Json.Decoder.Field.read_none (items_withoutItems places hvs)]
      exact ih hrest
    · next hk =>
      rw [List.map_cons, if_neg hk, Json.Decoder.fields₁, if_neg hk]
      exact ih h

theorem definitionsEnvelope_withoutEntries (places : List Nat) {payload : Json} {es : List Json}
    (h : definitionsEnvelope payload = .ok es) :
    definitionsEnvelope (withoutEntries places payload) = .ok (without places es) := by
  cases payload with
  | object ms => exact fields₁_without places (a := none) h
  | array vs =>
    cases vs with
    | nil => cases h
    | cons v rest =>
      obtain ⟨xs, hxs, hrest⟩ := exists_of_bind_eq_ok h
      have hread := items_withoutItems places (eq_ok_of_mapError hxs)
      split at hrest
      · next hempty =>
        cases hrest
        rw [withoutEntries, definitionsEnvelope, Json.Decoder.record₁,
          Json.Decoder.within_of_ok hread]
        simp only [hempty]
        rfl
      · cases hrest
  | _ => cases h

/-- The entries that are left define the verbs that were loaded. -/
theorem Outcomes.defines_without (h : Outcomes r earlier entries os) {places : List Nat}
    (hplaces : ∀ i, earlier.length ≤ i → (i ∈ places ↔ ∃ f ∈ failures os, f.index = i)) :
    List.Forall₂ (Defines r)
      (((entries.zipIdx earlier.length).filter fun x => x.2 ∉ places).map (·.1)) (loadedVerbs os) := by
  induction h with
  | nil => exact .nil
  | @cons earlier entries entry o os ho htail ih =>
    have hle := htail.earlier_le_index
    rw [List.length_append, List.length_singleton] at hle ih
    have hrest : ∀ i, earlier.length + 1 ≤ i → (i ∈ places ↔ ∃ f ∈ failures os, f.index = i) := by
      intro i hi
      rw [hplaces i (by omega)]
      cases o with
      | ok v => rfl
      | error f =>
        have := ho.index_of_error
        show (∃ g ∈ f :: failures os, _) ↔ _
        rw [List.exists_mem_cons_iff]
        exact or_iff_right (by omega)
    rw [List.zipIdx_cons]
    cases o with
    | ok v =>
      have hkept : earlier.length ∉ places := by
        rw [hplaces _ (Nat.le_refl _)]
        rintro ⟨f, hf, hindex⟩
        have := hle f hf
        omega
      rw [List.filter_cons_of_pos (by simpa using hkept)]
      exact .cons (ho.eq_ok_iff.1 rfl).1 (ih hrest)
    | error f =>
      have hleft : earlier.length ∈ places :=
        (hplaces _ (Nat.le_refl _)).2 ⟨f, List.mem_cons_self .., ho.index_of_error⟩
      rw [List.filter_cons_of_neg (by simpa using hleft)]
      exact ih hrest

/-! ## Definitions as a whole -/

/-- What loading entries into the catalog `c` comes to: every entry has its outcome, the report lists the
outcomes in the order of the entries, and the catalog `d` holds a verb for each entry that was loaded,
and what `c` holds apart from that. -/
structure LoadsEach (r : Registry α) (c : Catalog α) (entries : List Json)
    (outcomes : List (Except LoadFailure (Verb α))) (report : LoadReport) (d : Catalog α) : Prop where
  each : Outcomes r [] entries outcomes
  length_eq : outcomes.length = entries.length
  loaded_eq : report.loaded = (loadedVerbs outcomes).map (·.id)
  failed_eq : report.failed = failures outcomes
  /-- An entry is loaded exactly if it defines a verb with an id that no entry before it does. -/
  loaded_iff : ∀ (i : Nat) (v : Verb α), outcomes[i]? = some (.ok v) ↔
    ∃ e, entries[i]? = some e ∧ Defines r e v ∧ ¬ DefinesId r (entries.take i) v.id
  /-- A failure names the place of its entry. -/
  index_eq : ∀ (i : Nat) (f : LoadFailure), outcomes[i]? = some (.error f) → f.index = i
  nodup : report.loaded.Nodup
  taken : ∀ v ∈ loadedVerbs outcomes,
    v.phase = .notStarted ∧ d.get? v.id = some { v with policy := c.policy }
  kept : ∀ id, id ∉ report.loaded → d.get? id = c.get? id
  policy_eq : d.policy = c.policy

/-- Loading definitions that have no entries changes nothing. Else every entry is loaded or fails on its
own, and without the ones that fail the same verbs are loaded into the same catalog. -/
theorem loadDefinitions_each (c : Catalog α) (r : Registry α) (payload : Json) :
    (∀ misfit, definitionsEnvelope payload = .error misfit →
      (c.loadDefinitions r payload).value = (.error (.malformed misfit), c)) ∧
    (∀ entries, definitionsEnvelope payload = .ok entries →
      ∃ outcomes report d, (c.loadDefinitions r payload).value = (.ok report, d) ∧
        LoadsEach r c entries outcomes report d ∧
        (c.loadDefinitions r (withoutEntries (report.failed.map (·.index)) payload)).value =
          (.ok { loaded := report.loaded }, d)) := by
  constructor
  · intro misfit h
    rw [loadDefinitions, h]
  · intro entries henvelope
    obtain ⟨os, hos, hload⟩ := exists_loadDefinitions c r henvelope
    refine ⟨os, _, _, hload, ?_, ?_⟩
    · exact {
        each := hos
        length_eq := hos.length_eq
        loaded_eq := rfl
        failed_eq := rfl
        loaded_iff := hos.getElem?_eq_ok_iff
        index_eq := fun i f hf => (hos.index_eq hf).trans (Nat.zero_add i)
        nodup := hos.nodup_ids.1
        taken := fun v hv => ⟨hos.notStarted v hv, get?_foldl_insert hos.nodup_ids.1 c v hv⟩
        kept := fun id hid => get?_foldl_insert_of_not_mem hid c
        policy_eq := policy_foldl_insert c (loadedVerbs os) }
    · have hwithout := definitionsEnvelope_withoutEntries ((failures os).map (·.index)) henvelope
      obtain ⟨hreport, hcatalog⟩ := loadEntries_of_defines (l := ⟨c, {}, []⟩)
        (hos.defines_without fun i _ => List.mem_map) hos.nodup_ids.1 0
      simp only [loadDefinitions, hwithout]
      exact congrArg₂ (fun report d => (Except.ok report, d)) hreport hcatalog

/-- A kind that is unknown, an id that comes twice and an entry that is written as an array, loaded into a
catalog that holds verbs with two of the ids; and a document without entries. -/
theorem loadDefinitions_each_look :
    let c : Catalog Trace.TraceAction :=
      insert { policy := .abort } { id := "look", ip := 2 } |>.insert { id := "talk" }
    let look := Json.object [("id", .string "look"), ("actions", .array [])]
    let entries := [.object [("id", .string "look"), ("actions", .array [.object
      [("kind", .string "fly")]])], look, .array [.string "use", .array []], look]
    let payload := Json.object [("verbs", .array entries)]
    let loaded := (c.loadDefinitions Trace.registry payload).value
    loaded.1.toOption.map (fun report => (report.loaded, report.failed.map (·.index))) =
        some (["look", "use"], [0, 3]) ∧
      loaded.2.get? "talk" = c.get? "talk" ∧
      (c.loadDefinitions Trace.registry (.object [("verbs", .array [look, .array
        [.string "use", .array []]])])).value = (.ok { loaded := ["look", "use"] }, loaded.2) ∧
      (c.loadDefinitions Trace.registry .null).value.2 = c := by
  intro c look entries payload loaded
  have hreport : loaded.1.toOption.map
      (fun report => (report.loaded, report.failed.map (·.index))) =
        some (["look", "use"], [0, 3]) := by decide +kernel
  obtain ⟨os, report, d, hload, heach, hwithout⟩ :=
    (loadDefinitions_each c Trace.registry payload).2 entries rfl
  have hloaded : loaded = (.ok report, d) := hload
  rw [hloaded] at hreport ⊢
  obtain ⟨hids, hplaces⟩ := Prod.ext_iff.1 (Option.some.inj hreport)
  dsimp only at hids hplaces
  refine ⟨hreport, heach.kept "talk" (hids ▸ by decide), ?_, ?_⟩
  · rw [hplaces, hids] at hwithout
    exact hwithout
  · exact congrArg Prod.snd ((loadDefinitions_each c Trace.registry .null).1 _ rfl)

end VerbScript.Catalog
