import VerbScript.Storage.Path
import VerbScript.Storage.Program
import VerbScript.Table

/-!
# Storage in memory

A `Tree` is a file system held as a value: the files and directories under their locations, a
location being the names from the root down, and the log that programs have written. `Tree.answer`
answers the requests of a program as a file system does that has no links and where everything is
permitted.
-/

namespace VerbScript

/-- What stands at a location. -/
inductive Tree.Entry where
  | file (content : ByteArray)
  | directory

/-- Files and directories under their locations, and the log, the last event first. -/
structure Tree where
  entries : Table Tree.Entry := default
  /-- The directory that relative paths start from. -/
  current : List String := []
  events : List Log.Event := []

namespace Tree

/-- The names from the root down to a file or a directory. -/
abbrev Location := List String

/-- A location as an absolute path; the root is empty. -/
def Location.key (l : Location) : String := String.join (l.map ("/" ++ ·))

/-- What stands at a location. -/
def entry? (t : Tree) (l : Location) : Option Entry :=
  if l.isEmpty then some .directory else t.entries.get? (Location.key l)

/-- The tree with something at a location. -/
def place (t : Tree) (l : Location) (e : Entry) : Tree :=
  { t with entries := t.entries.insert (Location.key l) e }

/-- The tree with nothing at a location. -/
def clear (t : Tree) (l : Location) : Tree :=
  { t with entries := t.entries.erase (Location.key l) }

/-- The longest name that a file may have, in bytes. -/
def nameLimit : Nat := 255

/-- The length in bytes from which on a path is refused. -/
def pathLimit : Nat := 4096

/-- The fault of a name that nothing stands under. -/
def absent (name : String) : StorageFault :=
  if nameLimit < name.utf8ByteSize then .nameTooLong else .missing

/-- Follows names from a directory down; every one of them has to be a directory. -/
def walk (t : Tree) (l : Location) : List String → Except StorageFault Location
  | [] => .ok l
  | name :: rest =>
    if name = "." then walk t l rest
    else if name = ".." then walk t l.dropLast rest
    else
      match t.entry? (l ++ [name]) with
      | some .directory => walk t (l ++ [name]) rest
      | some (.file _) => .error .notDirectory
      | none => .error (absent name)

/-- The end of a path seen from the directory it stands in. -/
inductive Last where
  | name (n : String)
  /-- The root, or a dot or two dots; the location of the directory that is meant. -/
  | directory (l : Location)

/-- Where a path leads. -/
structure Target where
  parent : Location
  last : Last
  /-- Whether the path ends in a slash. -/
  slashed : Bool

/-- Finds the directory that the end of a path stands in, however long the path is. -/
def follow (t : Tree) (path : String) : Except StorageFault Target := do
  let cs := path.toList
  if cs.isEmpty then .error .missing
  else if '\x00' ∈ cs then .error .nulInName
  else
    let names := ((cs.splitOn '/').filter fun n => !n.isEmpty).map String.ofList
    let start := if cs.head? = some '/' then [] else t.current
    let parent ← t.walk start names.dropLast
    let slashed := decide (cs.getLast? = some '/')
    match names.getLast? with
    | none => return ⟨[], .directory [], slashed⟩
    | some n =>
      if n = "." then return ⟨parent, .directory parent, slashed⟩
      else if n = ".." then return ⟨parent, .directory parent.dropLast, slashed⟩
      else return ⟨parent, .name n, slashed⟩

/-- Finds the directory that the end of a path stands in. -/
def locate (t : Tree) (path : String) : Except StorageFault Target :=
  if '\x00' ∉ path.toList ∧ pathLimit ≤ path.utf8ByteSize then .error .nameTooLong
  else t.follow path

/-- What stands at a target, and its location. -/
def atTarget (t : Tree) (target : Target) : Except StorageFault (Location × Entry) :=
  match target.last with
  | .directory l => .ok (l, .directory)
  | .name n =>
    let l := target.parent ++ [n]
    match t.entry? l with
    | none => .error (absent n)
    | some (.file content) =>
      if target.slashed then .error .notDirectory else .ok (l, .file content)
    | some .directory => .ok (l, .directory)

/-- What stands at the end of a path, and its location. -/
def look (t : Tree) (path : String) : Except StorageFault (Location × Entry) :=
  (t.locate path).bind t.atTarget

/-- Whether a path leads to a directory. -/
def isDirectory (t : Tree) (path : String) : Bool :=
  match t.look path with
  | .ok (_, .directory) => true
  | _ => false

/-- Whether a path leads to a file. -/
def isFile (t : Tree) (path : String) : Bool :=
  match t.look path with
  | .ok (_, .file _) => true
  | _ => false

/-- Creates a directory in one that is there. -/
def createDirectory (t : Tree) (path : String) : Except StorageFault Tree := do
  let target ← t.locate path
  match target.last with
  | .directory _ => .error .occupied
  | .name n =>
    let l := target.parent ++ [n]
    match t.entry? l with
    | some _ => .error .occupied
    | none =>
      if nameLimit < n.utf8ByteSize then .error .nameTooLong else return t.place l .directory

/-- Creates the first of some paths, each of which is the parent of the one before it. -/
def createFirst (t : Tree) : List String → Except StorageFault Unit × Tree
  | [] => (.error .noTree, t)
  | path :: up =>
    if path.isEmpty then (.ok (), t)
    else
      match t.createDirectory path with
      | .ok t => (.ok (), t)
      | .error .missing =>
        match createFirst t up with
        | (.error e, t) => (.error e, t)
        | (.ok (), t) =>
          match t.createDirectory path with
          | .ok t => (.ok (), t)
          | .error e => (if t.isDirectory path then .ok () else .error e, t)
      | .error e => (if t.isDirectory path then .ok () else .error e, t)

/-- Creates a directory and those above it. -/
def createDirectories (t : Tree) (path : String) : Except StorageFault Unit × Tree :=
  t.createFirst (Path.ancestors path)

/-- Gives a file a content, in a directory that is there. -/
def write (t : Tree) (path : String) (content : ByteArray) : Except StorageFault Tree := do
  let target ← t.locate path
  match target.last with
  | .directory _ => .error .isDirectory
  | .name n =>
    let l := target.parent ++ [n]
    if target.slashed then .error .isDirectory
    else
      match t.entry? l with
      | some .directory => .error .isDirectory
      | some (.file _) => return t.place l (.file content)
      | none =>
        if nameLimit < n.utf8ByteSize then .error .nameTooLong
        else return t.place l (.file content)

/-- The content of a file as text. -/
def read (t : Tree) (path : String) : Except StorageFault String := do
  match ← t.look path with
  | (_, .directory) => .error .isDirectory
  | (_, .file content) =>
    match String.fromUTF8? content with
    | some s => return s
    | none => .error .notText

/-- Moves a file, in place of the file that was there. -/
def rename (t : Tree) (source target : String) : Except StorageFault Tree := do
  let s ← t.locate source
  let d ← t.locate target
  match s.last, d.last with
  | .name n, .name m =>
    match t.entry? (s.parent ++ [n]) with
    | none => .error (absent n)
    | some .directory => .error .busy
    | some (.file content) =>
      let l := d.parent ++ [m]
      if d.slashed then .error .notDirectory
      else
        match t.entry? l with
        | some .directory => .error .isDirectory
        | some (.file _) => return (t.clear (s.parent ++ [n])).place l (.file content)
        | none =>
          if nameLimit < m.utf8ByteSize then .error .nameTooLong
          else return (t.clear (s.parent ++ [n])).place l (.file content)
  | _, _ => .error .busy

/-- Removes a file. -/
def remove (t : Tree) (path : String) : Except StorageFault Tree := do
  match ← t.look path with
  | (_, .directory) => .error .isDirectory
  | (l, .file _) => return t.clear l

/-- The path of a file or a directory from the root, without detours. The path is followed name by
name, so that it may be of any length. -/
def resolve (t : Tree) (path : String) : Except StorageFault String :=
  ((t.follow path).bind t.atTarget).map fun (l, _) => if l.isEmpty then "/" else Location.key l

/-- The outcome of a change that may be refused. -/
def attempt (t : Tree) (change : Except StorageFault Tree) : Except StorageFault Unit × Tree :=
  match change with
  | .ok t => (.ok (), t)
  | .error e => (.error e, t)

/-- Answers a request. -/
def answer (t : Tree) : (r : Request) → r.Answer × Tree
  | .createDirectories path => t.createDirectories path
  | .write path text => t.attempt (t.write path text.toUTF8)
  | .rename source target => t.attempt (t.rename source target)
  | .remove path => t.attempt (t.remove path)
  | .read path => (t.read path, t)
  | .isFile path => (t.isFile path, t)
  | .isDirectory path => (t.isDirectory path, t)
  | .resolve path => (t.resolve path, t)
  | .log event => ((), { t with events := event :: t.events })

/-- Runs a program on a tree. -/
def run {α : Type} (t : Tree) (p : Program α) : α × Tree := p.run answer t

/-- The files and directories below a location, as paths from there; directories end in a slash. -/
def listing (t : Tree) (l : Location) : List String :=
  let base := Location.key l ++ "/"
  t.entries.entries.filterMap fun (key, e) =>
    if key.startsWith base then
      let path := String.ofList (key.toList.drop base.length)
      some (match e with
        | .file _ => path
        | .directory => path ++ "/")
    else none

end Tree

end VerbScript
