import VerbScript.Save.Format
import VerbScript.Storage.Replace

/-!
# Save files

`Save.write` replaces a file by the save of a catalog and a host; `Save.load` reads it into a
catalog that already holds the verbs and hands the host back. The version is looked at once the
whole save has been read, and before the catalog is touched.
-/

namespace VerbScript.Save

variable {α ω η : Type}

/-- Why a save is not written or not read. -/
inductive Error where
  | encode (fault : EncodeFault)
  | write (path : String) (fault : StorageFault)
  | read (path : String) (fault : StorageFault)
  | parse (path : String) (failure : Json.Failure)
  | versionMismatch (path : String) (found : Nat)
  | restore (path : String) (cause : Catalog.Error)

/-- The text of an error. -/
def Error.message : Error → String
  | encode fault => "failed to encode save: " ++ fault.message
  | write path fault => "failed to write save " ++ path ++ ": " ++ fault.message
  | read path fault => "failed to read save " ++ path ++ ": " ++ fault.message
  | parse path failure =>
    "failed to parse save " ++ path ++ " at " ++ failure.place.text ++ ": " ++ failure.message
  | versionMismatch path found =>
    "save " ++ path ++ " has version " ++ toString found ++ ", expected " ++ toString version
  | restore path cause => "failed to restore verbs from " ++ path ++ ": " ++ cause.message

variable [Action α ω] [Host η]

/-- Writes the runtime states of a catalog and a host to a file. -/
def write (path : String) (c : Catalog α) (host : η) : Program (Except Error Unit) := do
  match render c.runtimeState host with
  | .error fault => return .error (.encode fault)
  | .ok text =>
    match ← replaceFile path text with
    | .error fault => return .error (.write path fault)
    | .ok () =>
      Program.log [.runtimeSaved path c.verbs.size]
      return .ok ()

/-- Takes a text read from `path` over into a catalog. -/
def restore (path : String) (c : Catalog α) (text : String) :
    Traced (Except Error η × Catalog α) :=
  match read? text with
  | .error failure => ⟨(.error (.parse path failure), c), []⟩
  | .ok parts =>
    if parts.version ≠ version then ⟨(.error (.versionMismatch path parts.version), c), []⟩
    else
      let read := c.readRuntimeState parts.catalog
      match read.value with
      | (.error cause, c) => ⟨(.error (.restore path cause), c), read.events⟩
      | (.ok (), c) =>
        ⟨(.ok parts.host, c), read.events ++ [.runtimeLoaded path c.verbs.size]⟩

/-- Reads a file into a catalog and hands back the host's section. -/
def load (path : String) (c : Catalog α) : Program (Except Error η × Catalog α) := do
  match ← Program.request (.read path) with
  | .error fault => return (.error (.read path fault), c)
  | .ok text =>
    let read := restore path c text
    Program.log read.events
    return read.value

end VerbScript.Save
