import VerbScript.Action.Basic

/-!
# Kinds of actions and their registry

A `Kind` has an id, the properties it declares and the action it makes; a `Registry` is the list
of the kinds that were accepted, in order. `Registry.register` accepts a kind with an id that is
not blank and not taken, with no property declared twice and none of the name that a definition
keeps for the kind itself. Through a registry, steps are made by the id of their kind and their
properties are set by name and text.
-/

namespace VerbScript

variable {α ω : Type}

/-- The key of a definition that holds the kind of a step; no property may have this name. -/
def kindKey : String := "kind"

/-- A kind of action. -/
structure Kind (α : Type) where
  id : String
  properties : List Property.Declaration := []
  /-- The action that a new step of this kind starts with. -/
  make : α

namespace Kind

/-- The first declaration of a property. -/
def declaration? (k : Kind α) (name : String) : Option Property.Declaration :=
  k.properties.find? fun d => d.name == name

/-- The kind with one more property at the end. -/
def property (k : Kind α) (name : String) (domain : Property.Domain) : Kind α :=
  { k with properties := k.properties ++ [⟨name, domain⟩] }

/-- The kind with the properties of a base that it does not declare itself put before its own. -/
def inherit (k : Kind α) (base : List Property.Declaration) : Kind α :=
  { k with
    properties := base.filter (fun d => (k.declaration? d.name).isNone) ++ k.properties }

end Kind

/-- Why a registry refuses. -/
inductive Registry.Error where
  | blankId
  | duplicateKind (kind : String)
  | duplicateProperty (kind property : String)
  | reservedProperty (kind property : String)
  | unknownKind (kind : String)
  | unknownProperty (kind property : String)
  | invalidValue (kind property value expected : String)
  deriving Repr, DecidableEq

/-- The text of a refusal. -/
def Registry.Error.message : Registry.Error → String
  | blankId => "action kind id cannot be empty"
  | duplicateKind kind => "duplicate action kind registration: " ++ kind
  | duplicateProperty kind property =>
    "action kind '" ++ kind ++ "' declares property '" ++ property ++ "' more than once"
  | reservedProperty kind property =>
    "action kind '" ++ kind ++ "' cannot declare reserved property '" ++ property ++ "'"
  | unknownKind kind => "unknown action kind '" ++ kind ++ "'"
  | unknownProperty kind property =>
    "unknown property '" ++ property ++ "' for action kind '" ++ kind ++ "'"
  | invalidValue kind property value expected =>
    "invalid value '" ++ value ++ "' for property '" ++ property ++ "' of action kind '" ++ kind ++
      "': expected " ++ expected

namespace Kind

/-- Looks for a reserved or repeated name among the properties after `earlier`. -/
def checkProperties (id : String) (earlier : List String) :
    List Property.Declaration → Except Registry.Error Unit
  | [] => .ok ()
  | d :: rest =>
    if d.name = kindKey then .error (.reservedProperty id d.name)
    else if d.name ∈ earlier then .error (.duplicateProperty id d.name)
    else checkProperties id (d.name :: earlier) rest

/-- Whether a kind may be registered as far as it alone can tell. -/
def validate (k : Kind α) : Except Registry.Error Unit :=
  if (Text.trimBlank k.id.toList).isEmpty then .error .blankId
  else checkProperties k.id [] k.properties

end Kind

/-- The kinds that steps can be made from, in the order of their registration. -/
structure Registry (α : Type) where
  kinds : List (Kind α) := []

namespace Registry

/-- The registry without kinds. -/
def empty : Registry α := ⟨[]⟩

/-- The place of the kind with the given id. -/
def indexOf? (r : Registry α) (id : String) : Option Nat :=
  r.kinds.findIdx? fun k => k.id == id

/-- The kind with the given id. -/
def kind? (r : Registry α) (id : String) : Option (Kind α) :=
  r.kinds.find? fun k => k.id == id

/-- Whether a kind has the given id. -/
def contains (r : Registry α) (id : String) : Bool := (r.kind? id).isSome

/-- The ids of the kinds in the order of their registration. -/
def ids (r : Registry α) : List String := r.kinds.map (·.id)

/-- The registry with one more kind. -/
def register (r : Registry α) (k : Kind α) : Except Error (Registry α) := do
  k.validate
  if r.contains k.id then .error (.duplicateKind k.id)
  else return ⟨r.kinds ++ [k]⟩

/-- The kind with the given id, which has to be there. -/
def kind (r : Registry α) (id : String) : Except Error (Kind α) :=
  match r.kind? id with
  | some k => .ok k
  | none => .error (.unknownKind id)

/-- The properties that a kind declares. -/
def propertiesOf (r : Registry α) (id : String) : Except Error (List Property.Declaration) :=
  (r.kind id).map (·.properties)

/-- The declaration of a property, which has to be there. -/
def declaration (r : Registry α) (id name : String) : Except Error Property.Declaration := do
  let k ← r.kind id
  match k.declaration? name with
  | some d => .ok d
  | none => .error (.unknownProperty id name)

/-- A new step of a kind. -/
def create (r : Registry α) (id : String) : Except Error (Step α) :=
  (r.kind id).map fun k => ⟨k.id, k.make⟩

variable [Action α ω]

/-- The value that a text stands for in a property of a step. -/
def coerce (r : Registry α) (s : Step α) (name raw : String) : Except Error Property.Value := do
  let d ← r.declaration s.kind name
  match d.domain.coerce raw with
  | .ok v => .ok v
  | .error e => .error (.invalidValue s.kind name raw e.text)

/-- Sets a property of a step to the value that a text stands for. -/
def setProperty (r : Registry α) (s : Step α) (name raw : String) :
    Except Error Unit × Step α :=
  match r.coerce s name raw with
  | .error e => (.error e, s)
  | .ok v =>
    let (result, action) := Action.setProperty s.action name v
    (result.mapError fun e => .invalidValue s.kind name raw e.message, { s with action })

/-- Sets properties of a step one after the other, up to the first that is refused. -/
def configure (r : Registry α) (s : Step α) : List (String × String) → Except Error (Step α)
  | [] => .ok s
  | (name, raw) :: rest =>
    match r.setProperty s name raw with
    | (.ok (), s) => r.configure s rest
    | (.error e, _) => .error e

/-- A new step of a kind with properties set in order. -/
def build (r : Registry α) (id : String) (properties : List (String × String)) :
    Except Error (Step α) := do
  let s ← r.create id
  r.configure s properties

end Registry

end VerbScript
