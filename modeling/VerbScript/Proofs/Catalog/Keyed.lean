import VerbScript.Proofs.Catalog.Reached
import VerbScript.Proofs.Verb.Order

/-!
# Verbs under their own ids

A catalog puts a verb in under the id that the verb has then, and it stays there whatever becomes of the
id. What the catalog itself does keeps every verb under its own id, and so does whatever is done to a
verb of it, unless that gives the verb another id (`Catalog.keyedById_after_iff`). So the ids of the
verbs are told apart, after every one of some operations in a row, exactly if none of these gives a verb
another id (`Catalog.neverRenames_iff_uniqueIds`). Nothing keeps an operation from doing so, and then two
verbs can have one id (`Catalog.not_uniqueIds_rename`).
-/

namespace VerbScript

variable {α ω : Type}

/-- What can be done to a verb: something is called on it, a step is added, or it is given another id or
a document. -/
inductive Verb.Change (α ω : Type) where
  | call (c : Call ω)
  | add (s : Step α)
  | rename (id : String)
  | read (r : Registry α) (mode : DocumentMode) (payload : Json)

/-- What can be done to a catalog, also to the verb under a key. -/
inductive Catalog.Operation (α ω : Type) where
  | insert (v : Verb α)
  | erase (id : String)
  | load (r : Registry α) (payload : Json)
  | restore (payload : Json)
  | change (key : String) (x : Verb.Change α ω)

variable [Action α ω]

namespace Verb

/-- The verb after a change. -/
def changed (v : Verb α) : Change α ω → Verb α
  | .call c => v.after c
  | .add s => v.add s
  | .rename id => { v with id }
  | .read r mode payload => (v.read r mode payload).value.2

/-- The id that a change brings: the one that is given, or the one of a definition that is accepted. -/
def Change.newId? : Change α ω → Option String
  | .rename id => some id
  | .read r .definition payload => (Definition.read r payload).value.toOption.map (·.1)
  | _ => none

theorem id_after (v : Verb α) (c : Call ω) : (v.after c).id = v.id := by
  cases c with
  | run w => exact (moved_run v w).id_eq
  | resume w => exact (moved_resume v w).id_eq
  | cancel => exact (moved_cancel v).id_eq
  | setPolicy policy => rfl

/-- A verb keeps its id in a change that brings none. -/
theorem id_changed (v : Verb α) (x : Change α ω) : (v.changed x).id = x.newId?.getD v.id := by
  cases x with
  | call c => exact v.id_after c
  | add s => rfl
  | rename id => rfl
  | read r mode payload =>
    cases mode with
    | definition =>
      rw [changed, Verb.read, readDefinition, Traced.value_map, Change.newId?]
      cases (Definition.read r payload).value with
      | ok d => rfl
      | error e => rfl
    | runtime => exact (moved_readRuntimeState v payload).id_eq

end Verb

namespace Catalog

/-- The catalog after an operation. -/
def after (c : Catalog α) : Operation α ω → Catalog α
  | .insert v => c.insert v
  | .erase id => c.erase id
  | .load r payload => (c.loadDefinitions r payload).value.2
  | .restore payload => (c.readRuntimeState payload).value.2
  | .change key x =>
    match c.get? key with
    | some v => c.set key (v.changed x)
    | none => c

/-- The catalog after operations in a row. -/
def afterAll (c : Catalog α) : List (Operation α ω) → Catalog α
  | [] => c
  | op :: rest => (c.after op).afterAll rest

/-- The operation gives a verb of the catalog an id that it is not under. -/
def Renames (c : Catalog α) : Operation α ω → Prop
  | .change key x => c.contains key = true ∧ ∃ id, x.newId? = some id ∧ id ≠ key
  | _ => False

/-- None of the operations in a row gives a verb an id that it is not under. -/
def NeverRenames (c : Catalog α) : List (Operation α ω) → Prop
  | [] => True
  | op :: rest => ¬ c.Renames op ∧ (c.after op).NeverRenames rest

/-- Every verb is under its own id. -/
def KeyedById (c : Catalog α) : Prop := ∀ id v, c.get? id = some v → v.id = id

/-- The id in the definition of a verb. -/
def definedId? (definition : Json) : Option String :=
  (definition.member? Definition.idKey).bind Json.string?

/-- The ids of the verbs are told apart: a verb is found under its own id, and the verbs, and also their
definitions, are listed in strictly ascending order of their ids. -/
structure UniqueIds (c : Catalog α) : Prop where
  keyed : c.KeyedById
  verbs : (c.verbs.entries.map fun e => e.2.id).Pairwise (· < ·)
  definitions : ∀ (r : Registry α) (document : Json), c.definitions r = .ok document →
    ∃ entries, document = .object [(verbsKey, .array entries)] ∧
      entries.map definedId? = c.ids.map some ∧ c.ids.Pairwise (· < ·)

/-! ## Operations -/

variable {c d : Catalog α}

theorem KeyedById.moved (hc : c.KeyedById) (h : c.Moved d) : d.KeyedById := by
  intro id v hv
  have hrel := h.verbs id
  rw [hv] at hrel
  generalize hu : c.get? id = u? at hrel
  cases hrel with
  | some huv => exact huv.id_eq.trans (hc id _ hu)

theorem KeyedById.insert (hc : c.KeyedById) (v : Verb α) : (c.insert v).KeyedById := by
  intro id w hw
  rw [get?_insert] at hw
  split at hw
  · next hid =>
    cases hw
    exact hid.symm
  · exact hc id w hw

theorem get?_erase (c : Catalog α) (id key : String) :
    (c.erase id).get? key = if key = id then none else c.get? key :=
  Table.get?_erase c.verbs id key

theorem KeyedById.erase (hc : c.KeyedById) (id : String) : (c.erase id).KeyedById := by
  intro key v hv
  rw [get?_erase] at hv
  split at hv
  · cases hv
  · exact hc key v hv

theorem KeyedById.loadEntries {r : Registry α} {l : Loading α} (h : l.catalog.KeyedById)
    (index : Nat) (entries : List Json) :
    (Catalog.loadEntries r l index entries).catalog.KeyedById := by
  induction entries generalizing l index with
  | nil => exact h
  | cons e rest ih =>
    refine ih ?_ (index + 1)
    rcases loadEntry_catalog r l index e with heq | ⟨v, -, heq⟩
    · exact heq ▸ h
    · exact heq ▸ h.insert v

theorem KeyedById.loadDefinitions (hc : c.KeyedById) (r : Registry α) (payload : Json) :
    (c.loadDefinitions r payload).value.2.KeyedById := by
  rw [Catalog.loadDefinitions]
  split
  · exact hc
  · exact KeyedById.loadEntries (l := ⟨c, {}, []⟩) hc 0 _

/-- What is put in the place of a verb is under its own id, or the catalog no longer has every verb under
its own. -/
theorem keyedById_set_iff (hc : c.KeyedById) {key : String} {v : Verb α} (hv : c.get? key = some v)
    (w : Verb α) : (c.set key w).KeyedById ↔ w.id = key := by
  have hself := get?_set_self hv w
  refine ⟨fun h => h key w hself, fun hid id u hu => ?_⟩
  by_cases hkey : id = key
  · subst hkey
    rw [hself] at hu
    cases hu
    exact hid
  · rw [get?_set_of_ne hkey] at hu
    exact hc id u hu

/-- An operation keeps every verb under its own id, unless it gives one of them another. -/
theorem keyedById_after_iff (hc : c.KeyedById) (op : Operation α ω) :
    (c.after op).KeyedById ↔ ¬ c.Renames op := by
  cases op with
  | insert v => exact iff_of_true (hc.insert v) id
  | erase key => exact iff_of_true (hc.erase key) id
  | load r payload => exact iff_of_true (hc.loadDefinitions r payload) id
  | restore payload => exact iff_of_true (hc.moved (moved_readRuntimeState c payload)) id
  | change key x =>
    rw [after, Renames, contains, Table.contains]
    cases hv : c.get? key with
    | none =>
      have : c.verbs.get? key = none := hv
      simp [this, hc]
    | some v =>
      have hsome : c.verbs.get? key = some v := hv
      simp only [keyedById_set_iff hc hv, v.id_changed, hc key v hv, hsome]
      cases x.newId? with
      | none => simp
      | some id => simp [eq_comm]

/-! ## Operations in a row -/

theorem KeyedById.ids_eq (hc : c.KeyedById) :
    (c.verbs.entries.map fun e => e.2.id) = c.ids :=
  List.map_congr_left fun e he => hc e.1 e.2 (Table.get?_of_mem he)

theorem definedId?_definition {r : Registry α} {v : Verb α} {document : Json}
    (h : v.definition r = .ok document) : definedId? document = some v.id := by
  obtain ⟨entries, -, h⟩ := exists_of_bind_eq_ok h
  cases h
  rfl

theorem definedId?_writeEntries {r : Registry α} {es : List (String × Verb α)} {documents : List Json}
    (h : writeEntries r es = .ok documents) :
    documents.map definedId? = es.map fun e => some e.2.id := by
  induction es generalizing documents with
  | nil =>
    cases h
    rfl
  | cons e rest ih =>
    obtain ⟨first, hfirst, h⟩ := exists_of_bind_eq_ok h
    obtain ⟨others, hothers, h⟩ := exists_of_bind_eq_ok h
    cases h
    rw [List.map_cons, List.map_cons, definedId?_definition (eq_ok_of_mapError hfirst), ih hothers]

theorem KeyedById.uniqueIds (hc : c.KeyedById) : c.UniqueIds where
  keyed := hc
  verbs := hc.ids_eq ▸ c.verbs.sorted
  definitions r document h := by
    obtain ⟨entries, hentries, h⟩ := exists_of_bind_eq_ok h
    cases h
    refine ⟨entries, rfl, ?_, c.verbs.sorted⟩
    rw [definedId?_writeEntries hentries, ← hc.ids_eq, List.map_map]
    rfl

/-- After every one of some operations in a row each verb is under its own id, exactly if none of them
gives a verb another. -/
theorem neverRenames_iff_keyedById (hc : c.KeyedById) (ops : List (Operation α ω)) :
    c.NeverRenames ops ↔ ∀ before, before <+: ops → (c.afterAll before).KeyedById := by
  induction ops generalizing c with
  | nil =>
    refine iff_of_true trivial fun before hbefore => ?_
    rw [List.prefix_nil.1 hbefore]
    exact hc
  | cons op rest ih =>
    rw [NeverRenames, ← keyedById_after_iff hc op]
    constructor
    · rintro ⟨hop, hrest⟩ before hbefore
      cases before with
      | nil => exact hc
      | cons first before =>
        obtain ⟨rfl, htail⟩ := List.cons_prefix_cons.1 hbefore
        exact (ih hop).1 hrest before htail
    · intro h
      have hop : (c.after op).KeyedById :=
        h [op] (List.cons_prefix_cons.2 ⟨rfl, List.nil_prefix⟩)
      exact ⟨hop, (ih hop).2 fun before hbefore =>
        h (op :: before) (List.cons_prefix_cons.2 ⟨rfl, hbefore⟩)⟩

/-- Whatever is done to a new catalog and its verbs, after every operation each verb is under its own id,
and the verbs and their definitions are listed by distinct ids in ascending order, exactly if no
operation gives a verb an id that it is not under. -/
theorem neverRenames_iff_uniqueIds (policy : FailurePolicy) (ops : List (Operation α ω)) :
    let new : Catalog α := { policy }
    new.NeverRenames ops ↔ ∀ before, before <+: ops → (new.afterAll before).UniqueIds := by
  intro new
  have hnew : new.KeyedById := fun id v hv => by cases hv
  rw [neverRenames_iff_keyedById hnew]
  exact forall₂_congr fun before _ => ⟨KeyedById.uniqueIds, UniqueIds.keyed⟩

/-- One of two verbs is given the id of the other: both are listed by that id, and of their definitions
only one is loaded again. -/
theorem not_uniqueIds_rename :
    let ops : List (Operation Trace.TraceAction Trace.World) :=
      [.insert { id := "look" }, .insert { id := "use" }, .change "look" (.rename "use")]
    let c : Catalog Trace.TraceAction := afterAll {} ops
    ¬ c.UniqueIds ∧ c.ids = ["look", "use"] ∧
      (c.verbs.entries.map fun e => e.2.id) = ["use", "use"] ∧
      ∃ document report d, c.definitions Trace.registry = .ok document ∧
        (loadDefinitions {} Trace.registry document).value = (.ok report, d) ∧
        report.failed.length = 1 ∧ d.ids = ["use"] := by
  intro ops c
  have hverbs : (c.verbs.entries.map fun e => e.2.id) = ["use", "use"] := by decide +kernel
  refine ⟨fun h => ?_, by decide +kernel, hverbs, _, _, _, rfl, rfl, by decide +kernel,
    by decide +kernel⟩
  have hsorted := h.verbs
  rw [hverbs] at hsorted
  exact absurd hsorted (by decide +kernel)

end Catalog

end VerbScript
