import VerbScript.Demo.Startup
import VerbScript.Log.Filter

/-!
# The command

The command runs the demo against the files of the machine: `answer` answers the requests of a
program, and `main` takes the choices from the environment. The command fails if the demo does not
come to its end, and does not begin if a word of the log filter begins or ends inside a character.
-/

namespace VerbScript.Command

/-- The number and the text of a fault of the machine. -/
def numberAndText : IO.Error → UInt32 × String
  | .alreadyExists _ n s | .inappropriateType _ n s | .invalidArgument _ n s
  | .noSuchThing _ n s | .permissionDenied _ n s | .resourceExhausted _ n s => (n, s)
  | .interrupted _ n s | .noFileOrDirectory _ n s => (n, s)
  | .hardwareFault n s | .illegalOperation n s | .otherError n s | .protocolError n s
  | .resourceBusy n s | .resourceVanished n s | .timeExpired n s | .unsatisfiedConstraints n s
  | .unsupportedOperation n s => (n, s)
  | .unexpectedEof => (0, "end of file")
  | .userError s => (0, s)

/-- A fault of the machine. Its number may be given as a negative one, modulo the words. -/
def faultOf (e : IO.Error) : StorageFault :=
  let (n, text) := numberAndText e
  let number := if n < 0x80000000 then n else -n
  match number.toNat with
  | 2 => .missing
  | 16 => .busy
  | 17 => .occupied
  | 20 => .notDirectory
  | 21 => .isDirectory
  | 22 => .invalid
  | 36 => .nameTooLong
  | k => .other (text ++ " (os error " ++ toString k ++ ")")

/-- The value of an action, or the fault that it ran into. -/
def attempt {α : Type} (action : IO α) : IO (Except StorageFault α) := do
  match ← action.toBaseIO with
  | .ok v => return .ok v
  | .error e => return .error (faultOf e)

/-- The content of a file as text. -/
def readText (path : String) : IO (Except StorageFault String) := do
  match ← attempt (IO.FS.readBinFile path) with
  | .error e => return .error e
  | .ok bytes =>
    match String.fromUTF8? bytes with
    | some s => return .ok s
    | none => return .error .notText

/-- Whether something of a type stands at a path. -/
def isOfType (type : IO.FS.FileType) (path : String) : IO Bool := do
  match ← attempt (System.mkFilePath [path]).metadata with
  | .ok found => return found.type == type
  | .error _ => return false

/-- Answers a request, and shows an event if the filter admits its record. -/
def answer (shown : Log.Filter) : (r : Request) → IO r.Answer
  | .createDirectories path => attempt (IO.FS.createDirAll path)
  | .write path text => attempt (IO.FS.writeFile path text)
  | .rename source target => attempt (IO.FS.rename source target)
  | .remove path => attempt (IO.FS.removeFile path)
  | .read path => readText path
  | .isFile path => isOfType .file path
  | .isDirectory path => isOfType .dir path
  | .resolve path => attempt (return (← IO.FS.realPath path).toString)
  | .log event => (shown.lines [event]).forM IO.println

/-- The exit code of a run. -/
def exitCode (finished : Bool) : UInt32 := if finished then 0 else 1

/-- The exit code of a command that stops before the run because its filter breaks a character. -/
def exitBroken : UInt32 := 101

end VerbScript.Command

open VerbScript in
/-- Runs the demo; the exit code is zero if it comes to its end. -/
def main : IO UInt32 := do
  let environment : Demo.Environment :=
    { root? := ← IO.getEnv Demo.rootVariable
      verb? := ← IO.getEnv Demo.verbVariable
      policy? := ← IO.getEnv Demo.policyVariable
      saveAtTick? := ← IO.getEnv Demo.saveVariable
      executable := (← IO.appPath).toString }
  match Log.Filter.choose (← IO.getEnv "RUST_LOG") with
  | none => return Command.exitBroken
  | some shown =>
    let finished ← (Demo.program environment).runIn (Command.answer shown)
    return Command.exitCode finished
