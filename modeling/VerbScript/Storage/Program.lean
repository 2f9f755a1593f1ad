import VerbScript.Log.Event

/-!
# Programs that use storage

A `Program` is a computation that asks for one thing after another: to read or write a file, to
look at a path, to write an event to the log. What answers is chosen when the program is run:
`Program.run` takes any function from a state and a request to an answer and a new state, so that
what a program does is a value that can be reasoned about for every behaviour of the storage.
-/

namespace VerbScript

/-- What can go wrong with a file or a directory. -/
inductive StorageFault where
  | missing
  | occupied
  | notDirectory
  | isDirectory
  | busy
  | invalid
  | nameTooLong
  | nulInName
  | notText
  | noTree
  | other (text : String)
  deriving Repr, DecidableEq

/-- The text of a fault of the storage. -/
def StorageFault.message : StorageFault → String
  | missing => "No such file or directory (os error 2)"
  | occupied => "File exists (os error 17)"
  | notDirectory => "Not a directory (os error 20)"
  | isDirectory => "Is a directory (os error 21)"
  | busy => "Device or resource busy (os error 16)"
  | invalid => "Invalid argument (os error 22)"
  | nameTooLong => "File name too long (os error 36)"
  | nulInName => "file name contained an unexpected NUL byte"
  | notText => "stream did not contain valid UTF-8"
  | noTree => "failed to create whole tree"
  | other text => text

/-- What a program may ask for. -/
inductive Request where
  /-- Creates a directory and those above it. -/
  | createDirectories (path : String)
  /-- Gives a file a content. -/
  | write (path text : String)
  /-- Moves a file, in place of what was there. -/
  | rename (source target : String)
  | remove (path : String)
  | read (path : String)
  | isFile (path : String)
  | isDirectory (path : String)
  /-- The path of an existing file or directory from the root, without detours. -/
  | resolve (path : String)
  | log (event : Log.Event)

/-- What a request is answered with. -/
@[reducible] def Request.Answer : Request → Type
  | createDirectories _ | write _ _ | rename _ _ | remove _ => Except StorageFault Unit
  | read _ | resolve _ => Except StorageFault String
  | isFile _ | isDirectory _ => Bool
  | log _ => Unit

/-- A computation that asks for one thing after another. -/
inductive Program (α : Type) where
  | done (value : α)
  | ask (request : Request) (next : request.Answer → Program α)

namespace Program

variable {α β φ : Type}

/-- The program `p`, and what follows from its value. -/
def bind : Program α → (α → Program β) → Program β
  | done value, f => f value
  | ask request next, f => ask request fun answer => (next answer).bind f

instance : Monad Program where
  pure := done
  bind := bind

/-- Runs a program where `answer` answers its requests. -/
def run (answer : φ → (r : Request) → r.Answer × φ) : φ → Program α → α × φ
  | s, done value => (value, s)
  | s, ask request next =>
    let (a, s) := answer s request
    run answer s (next a)

/-- Runs a program in a monad, where `answer` answers its requests. -/
def runIn {m : Type → Type} [Monad m] (answer : (r : Request) → m r.Answer) : Program α → m α
  | done value => pure value
  | ask request next => do runIn answer (next (← answer request))

/-- The program that asks for one thing. -/
def request (r : Request) : Program r.Answer := ask r done

/-- Writes events to the log. -/
def log : List Log.Event → Program Unit
  | [] => done ()
  | e :: rest => ask (.log e) fun _ => log rest

/-- Writes a record of the host to the log. -/
def note (r : Log.Record) : Program Unit := log [.host r]

@[simp] theorem run_done (answer : φ → (r : Request) → r.Answer × φ) (s : φ) (value : α) :
    run answer s (done value) = (value, s) := rfl

@[simp] theorem run_pure (answer : φ → (r : Request) → r.Answer × φ) (s : φ) (value : α) :
    run answer s (pure value) = (value, s) := rfl

theorem run_ask (answer : φ → (r : Request) → r.Answer × φ) (s : φ) (r : Request)
    (next : r.Answer → Program α) :
    run answer s (ask r next) = run answer (answer s r).2 (next (answer s r).1) := rfl

/-- A program runs as its first part does and then as what follows. -/
theorem run_bind (answer : φ → (r : Request) → r.Answer × φ) (s : φ) (p : Program α)
    (f : α → Program β) :
    run answer s (p >>= f) = run answer (run answer s p).2 (f (run answer s p).1) := by
  show run answer s (p.bind f) = _
  induction p generalizing s with
  | done value => rfl
  | ask request next ih => exact ih _ _

end Program

end VerbScript
