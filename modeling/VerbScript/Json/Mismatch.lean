import VerbScript.Json.Basic
import VerbScript.Text.Quoted

/-!
# Values of the wrong shape

What can be wrong with a value that is well formed but not what was asked for (`Mismatch`), and
the place in the document where it stands (`Place`). A place is written as a path, `a.b[2].c`; the
root has a name of its own.
-/

namespace VerbScript.Json

/-- A step from a value to one inside it. -/
inductive Segment where
  | key (k : String)
  | index (i : Nat)
  /-- A place that has no key yet. -/
  | unknown
  deriving Repr, DecidableEq

/-- A place in a document: the steps from the root. -/
abbrev Place := List Segment

namespace Segment

/-- A step as a path shows it. -/
def text : Segment → String
  | key k => k
  | index i => "[" ++ toString i ++ "]"
  | unknown => "?"

/-- Whether a point stands before a step that is not the first. -/
def isPointed : Segment → Bool
  | index _ => false
  | _ => true

end Segment

/-- The steps of a place joined to a path. -/
def Place.join : Place → String
  | [] => "."
  | s :: rest => rest.foldl (fun t r => t ++ (if r.isPointed then "." else "") ++ r.text) s.text

/-- A place as a message shows it. -/
def Place.text (p : Place) : String :=
  let path := Place.join p
  if path = "" ∨ path = "." then "<root>" else path

/-- What stands where something else was asked for. -/
inductive Found where
  | null
  | bool (b : Bool)
  | number (n : Number)
  | string (s : String)
  | sequence
  | map

namespace Found

/-- The kind of a value. -/
def ofJson : Json → Found
  | .null => null
  | .bool b => bool b
  | .number n => number n
  | .string s => string s
  | .array _ => sequence
  | .object _ => map

/-- What was found as a message shows it. -/
def text : Found → String
  | null => "null"
  | bool b => "boolean `" ++ toString b ++ "`"
  | number (.int n) => "integer `" ++ VerbScript.Number.integerText n ++ "`"
  | number (.float x) => "floating point `" ++ Number.text (.float x) ++ "`"
  | string s => "string " ++ Text.quoted s
  | sequence => "sequence"
  | map => "map"

end Found

/-- How a value differs from what was asked for. -/
inductive Mismatch where
  | invalidType (found : Found) (expected : String)
  | outOfRange (n : Int) (expected : String)
  | missingField (name : String)
  | duplicateField (name : String)
  | invalidLength (length : Nat) (expected : String)

/-- The text of a mismatch. -/
def Mismatch.message : Mismatch → String
  | invalidType found expected => "invalid type: " ++ found.text ++ ", expected " ++ expected
  | outOfRange n expected =>
    "invalid value: integer `" ++ VerbScript.Number.integerText n ++ "`, expected " ++ expected
  | missingField name => "missing field `" ++ name ++ "`"
  | duplicateField name => "duplicate field `" ++ name ++ "`"
  | invalidLength n expected => "invalid length " ++ toString n ++ ", expected " ++ expected

end VerbScript.Json
