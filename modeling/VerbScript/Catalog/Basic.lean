import VerbScript.Table
import VerbScript.Verb.RuntimeState

/-!
# Catalogs of verbs

A `Catalog` holds verbs under the ids they had when they were inserted, in ascending order, and
gives each the failure policy of the catalog. Its definitions and its runtime states are read and
written as a whole: `Catalog.loadDefinitions` reports a verb that cannot be read and goes on with
the next, while `Catalog.readRuntimeState` stops at the first verb that refuses, and the verbs
before it keep what they read.
-/

namespace VerbScript

open Log (Event)

variable {α ω : Type}

/-- Verbs under their ids, with a failure policy for all of them. -/
structure Catalog (α : Type) where
  verbs : Table (Verb α) := default
  policy : FailurePolicy := default

/-- Why a catalog's document is refused. -/
inductive Catalog.Error where
  | malformed (misfit : Json.Misfit)
  | duplicateVerb (id : String)
  | unknownVerb (id : String)
  | verb (id : String) (cause : DocumentError)

/-- The text of an error. -/
def Catalog.Error.message : Catalog.Error → String
  | malformed misfit =>
    "malformed catalog payload at " ++ misfit.place.text ++ ": " ++ misfit.mismatch.message
  | duplicateVerb id => "verb '" ++ id ++ "' is defined more than once"
  | unknownVerb id => "runtime state references unknown verb '" ++ id ++ "'"
  | verb id cause => "verb '" ++ id ++ "': " ++ cause.message

/-- An entry of a catalog's definitions that was not loaded. -/
structure LoadFailure where
  /-- The place of the entry among the definitions. -/
  index : Nat
  /-- The id of the verb, if the entry has one. -/
  id? : Option String
  error : Catalog.Error

/-- What became of the entries of a catalog's definitions. -/
structure LoadReport where
  loaded : List String := []
  failed : List LoadFailure := []

/-- Whether every entry was loaded. -/
def LoadReport.isClean (r : LoadReport) : Bool := r.failed.isEmpty

namespace Catalog

/-- The verb under an id. -/
def get? (c : Catalog α) (id : String) : Option (Verb α) := c.verbs.get? id

/-- Whether there is a verb under an id. -/
def contains (c : Catalog α) (id : String) : Bool := c.verbs.contains id

/-- The ids in ascending order. -/
def ids (c : Catalog α) : List String := c.verbs.keys

/-- The catalog with a verb under its id, in place of the one that was there. -/
def insert (c : Catalog α) (v : Verb α) : Catalog α :=
  { c with verbs := c.verbs.insert v.id { v with policy := c.policy } }

/-- The catalog without the verb under an id. -/
def erase (c : Catalog α) (id : String) : Catalog α := { c with verbs := c.verbs.erase id }

/-- The catalog with another verb in the place of the one under an id, if there is one. -/
def set (c : Catalog α) (id : String) (v : Verb α) : Catalog α :=
  { c with verbs := c.verbs.modify id fun _ => v }

/-- The key of the verbs in the documents of a catalog. -/
def verbsKey : String := "verbs"

/-! ## Definitions -/

/-- The entries of a catalog's definitions. -/
def definitionsEnvelope : Json.Decoder (List Json) :=
  Json.Decoder.record₁ "DefinitionCatalog" ⟨verbsKey, Json.Decoder.items Json.Decoder.any⟩

/-- How an entry without an id is called. -/
def entryName (index : Nat) : String := "verbs[" ++ toString index ++ "]"

/-- What a loading has come to. -/
structure Loading (α : Type) where
  catalog : Catalog α
  report : LoadReport
  events : List Event

variable [Action α ω]

/-- Loads the entry with the given index. An id that an entry before it has loaded is refused. -/
def loadEntry (r : Registry α) (l : Loading α) (index : Nat) (entry : Json) : Loading α :=
  let id? := (entry.member? Definition.idKey).bind Json.string?
  let read := Verb.ofDefinition r entry
  let events := l.events ++ read.events
  match read.value with
  | .ok v =>
    if v.id ∈ l.report.loaded then
      let failure := ⟨index, id?, .duplicateVerb v.id⟩
      { l with report := { l.report with failed := l.report.failed ++ [failure] }, events }
    else
      { catalog := l.catalog.insert v
        report := { l.report with loaded := l.report.loaded ++ [v.id] }
        events }
  | .error cause =>
    let id := id?.getD (entryName index)
    let failure := ⟨index, id?, .verb id cause⟩
    { l with
      report := { l.report with failed := l.report.failed ++ [failure] }
      events := events ++ [.definitionRejected id cause.message] }

/-- Loads entries, the first of them having the given index. -/
def loadEntries (r : Registry α) : Loading α → Nat → List Json → Loading α
  | l, _, [] => l
  | l, index, e :: rest => loadEntries r (loadEntry r l index e) (index + 1) rest

/-- Loads definitions into a catalog, each verb on its own. -/
def loadDefinitions (c : Catalog α) (r : Registry α) (payload : Json) :
    Traced (Except Error LoadReport × Catalog α) :=
  match definitionsEnvelope payload with
  | .error misfit => ⟨(.error (.malformed misfit), c), []⟩
  | .ok entries =>
    let l := loadEntries r ⟨c, {}, []⟩ 0 entries
    ⟨(.ok l.report, l.catalog),
      l.events ++ [.catalogLoaded l.report.loaded.length l.report.failed.length]⟩

/-- The definitions of verbs under their ids. -/
def writeEntries (r : Registry α) : List (String × Verb α) → Except Error (List Json)
  | [] => .ok []
  | (id, v) :: rest => do
    let d ← (v.definition r).mapError (.verb id)
    let ds ← writeEntries r rest
    return d :: ds

/-- The definitions of all verbs, in ascending order of their ids. -/
def definitions (c : Catalog α) (r : Registry α) : Except Error Json := do
  let entries ← writeEntries r c.verbs.entries
  return .object [(verbsKey, .array entries)]

/-! ## Runtime states -/

/-- The runtime states of a catalog's verbs under their ids. -/
def runtimeEnvelope : Json.Decoder (List (String × Json)) :=
  Json.Decoder.record₁ "RuntimeCatalog" ⟨verbsKey, Json.Decoder.members⟩

/-- The runtime states of all verbs under their ids. -/
def runtimeState (c : Catalog α) : Json :=
  .object [(verbsKey, .object (c.verbs.entries.map fun (id, v) => (id, v.runtimeState)))]

/-- Takes runtime states over one after the other. -/
def readStates (c : Catalog α) : List (String × Json) → Traced (Except Error Unit × Catalog α)
  | [] => ⟨(.ok (), c), []⟩
  | (id, state) :: rest =>
    match c.get? id with
    | none => readStates c rest
    | some v =>
      let read := v.readRuntimeState state
      let c := c.set id read.value.2
      match read.value.1 with
      | .error cause => ⟨(.error (.verb id cause), c), read.events⟩
      | .ok () => (readStates c rest).after read.events

/-- Takes the runtime states of a document over into the verbs that are already there. -/
def readRuntimeState (c : Catalog α) (payload : Json) : Traced (Except Error Unit × Catalog α) :=
  match runtimeEnvelope payload with
  | .error misfit => ⟨(.error (.malformed misfit), c), []⟩
  | .ok states =>
    match states.find? fun s => !c.contains s.1 with
    | some (id, _) => ⟨(.error (.unknownVerb id), c), []⟩
    | none => readStates c states

end Catalog

end VerbScript
