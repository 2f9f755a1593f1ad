import VerbScript.Proofs.Catalog.Configured
import VerbScript.Proofs.Catalog.Loading
import VerbScript.Proofs.Demo.Kinds

/-!
# Written definitions are a normal form

Whatever definitions a catalog was loaded from, the document that it writes holds for each of its verbs
an entry that defines the verb again and from which the same entry is written
(`Catalog.exists_writeEntries`), in ascending order of the ids. Entries that define verbs with ids of
their own are loaded without failures (`Catalog.loadEntries_of_defines`), and the catalog that they are
loaded into writes the same document (`Catalog.exists_definitions`).
-/

namespace VerbScript.Catalog

variable {α ω : Type} [Action α ω] {r : Registry α} {tag : α → String}

/-! ## Ids -/

omit [Action α ω] in
theorem mem_ids {c : Catalog α} {id : String} : id ∈ c.ids ↔ ∃ v, c.get? id = some v := by
  constructor
  · intro h
    obtain ⟨e, he, rfl⟩ := List.mem_map.1 h
    exact ⟨e.2, Table.get?_of_mem he⟩
  · rintro ⟨v, hv⟩
    exact List.mem_map_of_mem (Table.mem_of_get? hv)

/-- Verbs with ids of their own are put into a new catalog under these. -/
theorem ids_foldl_insert {vs : List (Verb α)} (h : (vs.map (·.id)).Nodup) (policy : FailurePolicy) :
    (vs.foldl insert { policy }).ids.Perm (vs.map (·.id)) := by
  refine (List.perm_ext_iff_of_nodup (Table.nodup_keys _) h).2 fun id => mem_ids.trans ⟨?_, ?_⟩
  · rintro ⟨v, hv⟩
    by_contra hid
    rw [get?_foldl_insert_of_not_mem hid] at hv
    cases hv
  · intro hid
    obtain ⟨v, hv, rfl⟩ := List.mem_map.1 hid
    exact ⟨_, get?_foldl_insert h { policy } v hv⟩

/-- A catalog that definitions are loaded as holds the verbs that the report lists, under their ids. -/
theorem ids_loadDefinitions {definitions : Json} {policy : FailurePolicy} {report : LoadReport}
    {c : Catalog α} (h : (loadDefinitions { policy } r definitions).value = (.ok report, c)) :
    c.ids.Perm report.loaded := by
  cases henvelope : definitionsEnvelope definitions with
  | error misfit =>
    rw [loadDefinitions, henvelope] at h
    cases h
  | ok entries =>
    obtain ⟨os, hos, hload⟩ := exists_loadDefinitions { policy } r henvelope
    cases h.symm.trans hload
    exact ids_foldl_insert hos.nodup_ids.1 policy

/-- Verbs in ascending order of their ids are the entries of the catalog that they are put into. -/
theorem entries_foldl_insert {vs : List (Verb α)} (h : (vs.map (·.id)).Pairwise (· < ·))
    (policy : FailurePolicy) :
    (vs.foldl insert { policy }).verbs.entries = vs.map fun v => (v.id, { v with policy }) := by
  have hverbs : ∀ (c : Catalog α), c.policy = policy → (vs.foldl insert c).verbs =
      (vs.map fun v => (v.id, { v with policy })).foldl (fun t e => t.insert e.1 e.2) c.verbs := by
    clear h
    induction vs with
    | nil => exact fun c _ => rfl
    | cons v vs ih =>
      rintro c rfl
      exact ih (c.insert v) rfl
  rw [hverbs _ rfl]
  refine Table.foldl_insert_entries Table.empty _ ?_
  show ((vs.map _).map _).Pairwise _
  rwa [List.map_map]

/-! ## Entries -/

/-- Each verb is written as an entry that defines one with its id, from which the same entry is
written. -/
theorem exists_writeEntries (hr : r.Lawful tag) {es : List (String × Verb α)}
    (hes : ∀ e ∈ es, ∀ s ∈ e.2.steps, r.Configured s ∧ s.FloatsReadBack) :
    ∃ ds vs, writeEntries r es = .ok ds ∧
      List.Forall₂ (fun d v => Defines r d v ∧ v.definition r = .ok d) ds vs ∧
      vs.map (·.id) = es.map fun e => e.2.id := by
  induction es with
  | nil => exact ⟨[], [], rfl, .nil, rfl⟩
  | cons e es ih =>
    rw [List.forall_mem_cons] at hes
    obtain ⟨d, v, hdefinition, hread, hid, -, hagain⟩ := Verb.exists_ofDefinition hr
      (fun s hs => (hes.1 s hs).1) fun s hs => (hes.1 s hs).2
    obtain ⟨ds, vs, hwrite, hvs, hids⟩ := ih hes.2
    refine ⟨d :: ds, v :: vs, ?_, .cons ⟨hread, hagain⟩ hvs, ?_⟩
    · rw [writeEntries, hdefinition, hwrite]
      rfl
    · rw [List.map_cons, List.map_cons, hid, hids]

theorem writeEntries_of_definition {ds : List Json} {es : List (String × Verb α)}
    (h : List.Forall₂ (fun d e => e.2.definition r = .ok d) ds es) : writeEntries r es = .ok ds := by
  induction h with
  | nil => rfl
  | cons hd _ ih =>
    rw [writeEntries, hd, ih]
    rfl

/-! ## Documents -/

/-- A catalog whose verbs are under their own ids and were configured through a lawful registry is
written as a document that is loaded without failures, in ascending order of the ids, into any new
catalog, which is written as the same document. -/
theorem exists_definitions (hr : r.Lawful tag) {c : Catalog α} (hkeyed : c.KeyedById)
    (hc : c.AllConfigured r)
    (hfloat : ∀ id v, c.get? id = some v → ∀ s ∈ v.steps, s.FloatsReadBack) :
    ∃ w, c.definitions r = .ok w ∧ ∀ policy, ∃ d,
      (loadDefinitions { policy } r w).value = (.ok { loaded := c.ids }, d) ∧
      d.definitions r = .ok w := by
  have hes : ∀ e ∈ c.verbs.entries, ∀ s ∈ e.2.steps, r.Configured s ∧ s.FloatsReadBack :=
    fun e he s hs => ⟨hc e.1 e.2 (Table.get?_of_mem he) s hs,
      hfloat e.1 e.2 (Table.get?_of_mem he) s hs⟩
  obtain ⟨ds, vs, hwrite, hvs, hids⟩ := exists_writeEntries hr hes
  rw [hkeyed.ids_eq] at hids
  have hsorted : (vs.map (·.id)).Pairwise (· < ·) := hids ▸ c.verbs.sorted
  refine ⟨.object [(verbsKey, .array ds)], by rw [definitions, hwrite]; rfl, fun policy => ?_⟩
  have henvelope : definitionsEnvelope (.object [(verbsKey, .array ds)]) = .ok ds :=
    Json.Decoder.record₁_object (Json.Decoder.items_any ds)
  obtain ⟨hreport, hcatalog⟩ := loadEntries_of_defines (l := ⟨{ policy }, {}, []⟩)
    (hvs.imp fun _ _ h => h.1) (hsorted.imp fun h => String.ne_of_lt h) 0
  refine ⟨vs.foldl insert { policy }, ?_, ?_⟩
  · simp only [loadDefinitions, henvelope]
    rw [← hids]
    exact congrArg₂ (fun report d => (Except.ok report, d)) hreport hcatalog
  · have hagain : writeEntries r (vs.foldl insert { policy }).verbs.entries = .ok ds := by
      rw [entries_foldl_insert hsorted]
      exact writeEntries_of_definition (List.forall₂_map_right_iff.2 (hvs.imp fun _ _ h => h.2))
    rw [definitions, hagain]
    rfl

/-- Whatever definitions of the demo's kinds a catalog was loaded from, it is written as a document that
is loaded without failures, in ascending order of the ids, into any new catalog, which is written as the
same document, if the doubles among the values read back. -/
theorem definitions_normalForm {payload : Json} {policy : FailurePolicy} {report : LoadReport}
    {c : Catalog Demo.DemoAction}
    (h : (loadDefinitions { policy } Demo.registry payload).value = (.ok report, c))
    (hfloat : ∀ id v, c.get? id = some v → ∀ s ∈ v.steps, s.FloatsReadBack) :
    ∃ w, c.definitions Demo.registry = .ok w ∧ c.ids.Perm report.loaded ∧
      c.ids.Pairwise (· < ·) ∧ ∀ other, ∃ d,
        (loadDefinitions { policy := other } Demo.registry w).value =
          (.ok { loaded := c.ids }, d) ∧
        d.definitions Demo.registry = .ok w := by
  have hnew : KeyedById ({ policy } : Catalog Demo.DemoAction) := fun id v hv => by cases hv
  have hkeyed := hnew.loadDefinitions Demo.registry payload
  rw [h] at hkeyed
  obtain ⟨w, hwrite, hload⟩ := exists_definitions Demo.registry_lawful hkeyed
    (allConfigured_loadDefinitions h) hfloat
  exact ⟨w, hwrite, ids_loadDefinitions h, c.verbs.sorted, hload⟩

/-- Numbers and truth values as texts, an integer and a text for doubles, a `null`, an entry without a kind,
a verb that is written as an array, one that comes twice, one of an unknown kind, and an unknown key. -/
theorem definitions_normalForm_lever :
    let payload := Json.object [("version", .int 3), ("verbs", .array [
      .object [("id", .string "use"), ("actions", .array [
        .object [("kind", .string "wait"), ("comment", .null), ("time", .int 2)],
        .object [("comment", .string "no kind")],
        .object [("volume", .string " 5e-1"), ("sound", .bool true), ("kind", .string "sound")]])],
      .array [.string "lever", .array [.object [("kind", .string "set_state"), ("actor", .int 7)]]],
      .object [("id", .string "use"), ("actions", .array [])],
      .object [("id", .string "door"), ("actions", .array [.object [("kind", .string "fly")]])]])]
    let w := Json.object [("verbs", .array [
      .object [("id", .string "lever"), ("actions", .array [
        .object [("kind", .string "set_state"), ("actor", .string "7")]])],
      .object [("id", .string "use"), ("actions", .array [
        .object [("kind", .string "wait"), ("time", .ofFloat 2)],
        .object [("kind", .string "sound"), ("sound", .string "true"), ("volume", .ofFloat 0.5)]])]])]
    let c : Catalog Demo.DemoAction := (loadDefinitions {} Demo.registry payload).value.2
    c.definitions Demo.registry = .ok w ∧ ∃ d,
      (loadDefinitions { policy := .abort } Demo.registry w).value =
        (.ok { loaded := ["lever", "use"] }, d) ∧
      d.definitions Demo.registry = .ok w := by
  intro payload w c
  have hsteps : c.verbs.entries.flatMap (·.2.steps) =
      [⟨"set_state", .setState { actor := some "7" }⟩, ⟨"wait", .wait { time := some 2 }⟩,
        ⟨"sound", .sound { sound := some "true", volume := some 0.5 }⟩] := by decide +kernel
  have hids : c.ids = ["lever", "use"] := by decide +kernel
  have hfloat : ∀ id v, c.get? id = some v → ∀ s ∈ v.steps, s.FloatsReadBack := by
    intro id v hv s hs name x hx
    have hmem : s ∈ c.verbs.entries.flatMap (·.2.steps) :=
      List.mem_flatMap.2 ⟨_, Table.mem_of_get? hv, hs⟩
    simp only [hsteps, List.mem_cons, List.not_mem_nil, or_false] at hmem
    rcases hmem with rfl | rfl | rfl
    all_goals
      rcases Demo.DemoAction.name_of_float hx with rfl | rfl
      all_goals
        cases hx
        try decide +kernel
  have hload : (loadDefinitions {} Demo.registry payload).value = (.ok _, c) := rfl
  obtain ⟨w', hwrite, -, -, hagain⟩ := definitions_normalForm hload hfloat
  have hw : w' = w := Except.ok.inj (hwrite.symm.trans rfl)
  rw [hw, hids] at hagain
  exact ⟨hw ▸ hwrite, hagain .abort⟩

end VerbScript.Catalog
