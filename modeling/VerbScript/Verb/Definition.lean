import VerbScript.Verb.Document

/-!
# Definitions of verbs

The definition of a verb is its id and, for each step, the kind and the properties that are set.
`Verb.definition` writes it, the properties in the order of their declaration; `Verb.ofDefinition`
reads it and builds the verb anew. An entry without a kind is skipped, and a property that is
`null` is left unset but has to be declared.
-/

namespace VerbScript

open Log (Event)

variable {α ω : Type}

/-- A result and the events that led to it. -/
structure Traced (β : Type) where
  value : β
  events : List Event := []

namespace Traced

variable {β γ : Type}

/-- The result with events before its own. -/
def after (events : List Event) (t : Traced β) : Traced β :=
  { t with events := events ++ t.events }

/-- The result changed. -/
def map (f : β → γ) (t : Traced β) : Traced γ := ⟨f t.value, t.events⟩

@[simp] theorem value_after (events : List Event) (t : Traced β) :
    (t.after events).value = t.value := rfl

@[simp] theorem value_map (f : β → γ) (t : Traced β) : (t.map f).value = f t.value := rfl

end Traced

namespace Definition

open Json (Decoder)

/-- The key of a verb's id. -/
def idKey : String := "id"

/-- The key of a verb's entries. -/
def actionsKey : String := "actions"

/-- The id and the entries of a definition. -/
def envelope : Decoder (String × List (List (String × Json))) :=
  Decoder.record₂ "DefinitionPayload" ⟨idKey, Decoder.string⟩
    ⟨actionsKey, Decoder.items Decoder.members⟩

/-- The text that a property's value in a definition stands for; `null` leaves it unset. -/
def propertyText (index : Nat) (name : String) : Json → Except DocumentError (Option String)
  | .null => .ok none
  | .string s => .ok (some s)
  | .number n => .ok (some n.text)
  | .bool b => .ok (some (if b then "true" else "false"))
  | found => .error (.nestedValue index name found)

variable [Action α ω]

/-- Sets one property of a step from a definition. -/
def readProperty (r : Registry α) (index : Nat) (s : Step α) (name : String) (v : Json) :
    Except DocumentError (Step α) := do
  let _ ← (r.declaration s.kind name).mapError (.entry index)
  match ← propertyText index name v with
  | none => return s
  | some raw =>
    match r.setProperty s name raw with
    | (.ok (), s) => return s
    | (.error e, _) => .error (.entry index e)

/-- Sets the properties of a step from an entry, in document order. -/
def readProperties (r : Registry α) (index : Nat) (s : Step α) :
    List (String × Json) → Except DocumentError (Step α)
  | [] => .ok s
  | (name, v) :: rest =>
    if name = kindKey then readProperties r index s rest
    else do
      let s ← readProperty r index s name v
      readProperties r index s rest

/-- The step that an entry defines, if it has a kind. -/
def readEntry (r : Registry α) (index : Nat) (entry : List (String × Json)) :
    Except DocumentError (Option (Step α)) :=
  match Json.lookup kindKey entry with
  | none | some .null => .ok none
  | some (.string kind) => do
    let s ← (r.create kind).mapError (.entry index)
    some <$> readProperties r index s entry
  | some found => .error (.kindNotText index found)

/-- The steps that entries define, the first of them having the given index. -/
def readEntries (r : Registry α) (verb : String) :
    Nat → List (List (String × Json)) → Traced (Except DocumentError (List (Step α)))
  | _, [] => ⟨.ok [], []⟩
  | index, entry :: rest =>
    match readEntry r index entry with
    | .error e => ⟨.error e, []⟩
    | .ok none => (readEntries r verb (index + 1) rest).after [.entrySkipped verb index]
    | .ok (some s) => (readEntries r verb (index + 1) rest).map fun steps => (s :: ·) <$> steps

/-- The id and the steps that a definition stands for. -/
def read (r : Registry α) (payload : Json) :
    Traced (Except DocumentError (String × List (Step α))) :=
  match envelope payload with
  | .error misfit => ⟨.error (.malformed .definition misfit), []⟩
  | .ok (id, entries) =>
    let steps := readEntries r id 0 entries
    match steps.value with
    | .error e => ⟨.error e, steps.events⟩
    | .ok list => ⟨.ok (id, list), steps.events ++ [.definitionRead id list.length]⟩

/-- The members of an entry: the properties of an action that are set, in the order of their
declaration. -/
def propertyMembers (action : α) (properties : List Property.Declaration) :
    List (String × Json) :=
  properties.filterMap fun d =>
    (Action.property? action d.name).map fun v => (d.name, v.toJson)

/-- The entry of a step. -/
def entry (r : Registry α) (index : Nat) (s : Step α) : Except DocumentError Json := do
  let properties ← (r.propertiesOf s.kind).mapError (.entry index)
  return .object ((kindKey, .string s.kind) :: propertyMembers s.action properties)

/-- The entries of steps, the first of them having the given index. -/
def entries (r : Registry α) : Nat → List (Step α) → Except DocumentError (List Json)
  | _, [] => .ok []
  | index, s :: rest => do
    let e ← entry r index s
    let es ← entries r (index + 1) rest
    return e :: es

end Definition

namespace Verb

variable [Action α ω]

/-- The definition of a verb. -/
def definition (r : Registry α) (v : Verb α) : Except DocumentError Json := do
  let entries ← Definition.entries r 0 v.steps
  return .object [(Definition.idKey, .string v.id), (Definition.actionsKey, .array entries)]

/-- Gives a verb the id and the steps of a definition; a definition that is refused changes
nothing. -/
def readDefinition (r : Registry α) (v : Verb α) (payload : Json) :
    Traced (Except DocumentError Unit × Verb α) :=
  (Definition.read r payload).map fun
    | .ok (id, steps) => (.ok (), { v.replaceSteps steps with id })
    | .error e => (.error e, v)

/-- The verb that a definition stands for. -/
def ofDefinition (r : Registry α) (payload : Json) : Traced (Except DocumentError (Verb α)) :=
  (Definition.read r payload).map fun d => d.map fun (id, steps) => { id, steps }

end Verb

end VerbScript
