import VerbScript.Storage.Path
import VerbScript.Storage.Program

/-!
# Replacing a file as a whole

`replaceFile` writes a text beside its target and then moves it into place, so that the target
holds its old content or the whole new one whenever the program stops. If the move fails, the text
that was written beside it is removed.
-/

namespace VerbScript

/-- The path beside `path` where a new content is written first. -/
def stagingPath (path : String) : String :=
  let name := (Path.fileName? path).getD "runtime.save" ++ ".partial"
  match Path.parent? path with
  | some directory => Path.join directory name
  | none => name

/-- Creates the directory that a file is to stand in. -/
def createParent (path : String) : Program (Except StorageFault Unit) :=
  match Path.parent? path with
  | some directory => .request (.createDirectories directory)
  | none => pure (.ok ())

/-- Gives the file at `path` the content `text`, all of it or nothing. -/
def replaceFile (path text : String) : Program (Except StorageFault Unit) := do
  match ← createParent path with
  | .error e => return .error e
  | .ok () =>
    let staging := stagingPath path
    match ← Program.request (.write staging text) with
    | .error e => return .error e
    | .ok () =>
      match ← Program.request (.rename staging path) with
      | .ok () => return .ok ()
      | .error e =>
        let _ ← Program.request (.remove staging)
        return .error e

end VerbScript
