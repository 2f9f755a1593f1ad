import VerbScript.Catalog.Basic
import VerbScript.Json.Record

/-!
# The text of a save

A save is an object with the version of the format, a section of the host and, as members of its
own, the runtime states of a catalog. `Save.render` writes it, indented; `Save.read?` reads the
three parts off a text and takes every other member for a part of the catalog's document. A host
is a type with a form in a document and a reader (`Host`).
-/

namespace VerbScript

/-- Why a host's section has no form in a document. -/
inductive EncodeFault where
  /-- A key is not a text. -/
  | keyNotText
  deriving Repr, DecidableEq

/-- The text of a fault of encoding. -/
def EncodeFault.message : EncodeFault → String
  | keyNotText => "key must be a string"

/-- A type that can stand in the host's section of a save. -/
class Host (η : Type) where
  /-- The form of a host in a document. -/
  encode : η → Except EncodeFault Json
  /-- Reads a host whose arrays and objects are nested no deeper than the argument. -/
  reader : Nat → Json.Reader η

namespace Save

variable {α ω η : Type}

/-- The version of the format. -/
def version : Nat := 1

/-- The key of the version. -/
def versionKey : String := "save_version"

/-- The key of the host's section. -/
def hostKey : String := "host"

/-- The members of an object value. -/
def membersOf : Json → List (String × Json)
  | .object ms => ms
  | _ => []

/-- The document of a save. -/
def document (catalog host : Json) : Json :=
  .object ((versionKey, .int version) :: (hostKey, host) :: membersOf catalog)

/-- The text of a save. -/
def render [Host η] (catalog : Json) (host : η) : Except EncodeFault String :=
  (Host.encode host).map fun h => (document catalog h).pretty

/-- The parts of a save. -/
structure Parts (η : Type) where
  version : Nat
  host : η
  /-- The catalog's document. -/
  catalog : Json

/-- The parts of a save that have been read. -/
structure Partial (η : Type) where
  version : Option Nat := none
  host : Option η := none
  rest : List (String × Json) := []

/-- Reads the value of a key of a save. -/
def field [Host η] (depth : Nat) (s : Partial η) (key : String) : Json.Reader (Partial η) :=
  if key = versionKey then
    .map (fun v => { s with version := v }) (.once key s.version .word32)
  else if key = hostKey then
    .map (fun h => { s with host := h }) (.once key s.host (Host.reader depth))
  else .map (fun rest => { s with rest }) (Json.Reader.addMember (.value depth) s.rest key)

/-- The parts of a save when all of them have been read. -/
def Partial.finish (s : Partial η) : Except Json.Mismatch (Parts η) :=
  match s.version, s.host with
  | none, _ => .error (.missingField versionKey)
  | some _, none => .error (.missingField hostKey)
  | some version, some host => .ok ⟨version, host, .object s.rest⟩

/-- Reads a save. -/
def reader [Host η] : Json.Reader (Parts η) :=
  .ofObject "struct RuntimeSaveIn"
    (.record (field (Json.Reader.depthLimit - 1)) {} Partial.finish)

/-- The parts of the save that a text begins with; what follows it does not count. -/
def read? [Host η] (text : String) : Except Json.Failure (Parts η) :=
  (reader (Json.Cursor.start text)).map (·.value)

end Save

end VerbScript
