/-!
# Paths

Paths are texts with slashes between their names. Empty names count for nothing, nor does a single
dot except at the start of a relative path; two dots are a name like any other, since only the
file system knows where they lead. `Path.parent?` takes the last name off, `Path.fileName?` is
that name, and `Path.ancestors` lists a path and all that is left of it, name by name.
-/

namespace VerbScript.Path

/-- `tail` is the end of a path backwards: drops the slashes and the single dots that it begins
with. -/
def dropIdle : List Char → List Char
  | [] => []
  | c :: r =>
    if c = '/' then dropIdle r
    else if c = '.' ∧ (r.isEmpty ∨ r.head? = some '/') then dropIdle r
    else c :: r

/-- The count of characters that stand for the start: the root or the current directory. -/
def leadLength : List Char → Nat
  | [] => 0
  | c :: r =>
    if c = '/' then 1
    else if c = '.' ∧ (r.isEmpty ∨ r.head? = some '/') then 1
    else 0

/-- The names of a path backwards, from the last one on, without idle characters at the end. -/
def namesBackwards (cs : List Char) : List Char := dropIdle (cs.drop (leadLength cs)).reverse

/-- A path without its last name; the root and the empty path have no parent. -/
def parent? (path : String) : Option String :=
  let cs := path.toList
  let lead := cs.take (leadLength cs)
  let names := namesBackwards cs
  if names.isEmpty then
    if lead = ['.'] then some "" else none
  else
    some (String.ofList (lead ++ (dropIdle (names.dropWhile (· ≠ '/'))).reverse))

/-- The last name of a path, unless it is the start or leads upwards. -/
def fileName? (path : String) : Option String :=
  let name := (namesBackwards path.toList).takeWhile (· ≠ '/')
  if name.isEmpty ∨ name = ['.', '.'] then none else some (String.ofList name.reverse)

/-- The path of `name` seen from the directory `base`. -/
def join (base name : String) : String :=
  if name.toList.head? = some '/' then name
  else if base.isEmpty ∨ base.toList.getLast? = some '/' then base ++ name
  else base ++ "/" ++ name

/-- A path and its ancestors, at most `n` of these. -/
def ancestorsUpTo : Nat → String → List String
  | 0, path => [path]
  | n + 1, path =>
    path :: match parent? path with
      | some up => ancestorsUpTo n up
      | none => []

/-- A path, its parent, the parent of that, and so on. -/
def ancestors (path : String) : List String := ancestorsUpTo path.length path

end VerbScript.Path
