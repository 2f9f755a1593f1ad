import VerbScript.Action.Registry
import VerbScript.Table

/-!
# Registries with an index

A `Registry.Indexed` keeps its kinds in the order of their registration and, in a table beside them,
the place of each kind under its id, so that a kind is found without going through the others. It is
filled by one call after another, and a call that is refused leaves it as it is.
-/

namespace VerbScript.Registry

variable {α : Type}

/-- Kinds in the order of their registration, and the place of each under its id. -/
structure Indexed (α : Type) where
  kinds : List (Kind α) := []
  places : Table Nat := default

namespace Indexed

/-- Registers a kind, unless it is refused. -/
def register (r : Indexed α) (k : Kind α) : Except Error Unit × Indexed α :=
  match k.validate with
  | .error e => (.error e, r)
  | .ok () =>
    if r.places.contains k.id then (.error (.duplicateKind k.id), r)
    else (.ok (), ⟨r.kinds ++ [k], r.places.insert k.id r.kinds.length⟩)

/-- The kind with the given id. -/
def kind? (r : Indexed α) (id : String) : Option (Kind α) :=
  (r.places.get? id).bind fun i => r.kinds[i]?

/-- Whether a kind has the given id. -/
def contains (r : Indexed α) (id : String) : Bool := r.places.contains id

/-- The ids of the kinds in the order of their registration. -/
def ids (r : Indexed α) : List String := r.kinds.map (·.id)

/-- The kind with the given id, which has to be there. -/
def kind (r : Indexed α) (id : String) : Except Error (Kind α) :=
  match r.kind? id with
  | some k => .ok k
  | none => .error (.unknownKind id)

/-- The properties that a kind declares. -/
def propertiesOf (r : Indexed α) (id : String) : Except Error (List Property.Declaration) :=
  (r.kind id).map (·.properties)

/-- A new step of a kind. -/
def create (r : Indexed α) (id : String) : Except Error (Step α) :=
  (r.kind id).map fun k => ⟨k.id, k.make⟩

/-- The registry of the same kinds without an index. -/
def registry (r : Indexed α) : Registry α := ⟨r.kinds⟩

end Indexed

end VerbScript.Registry
