import VerbScript.Json.Mismatch

/-!
# Decoding values

A `Decoder` takes a document value to a value of a type of this library, or says what does not fit
and where (`Misfit`). A record may be written as an object, its keys in any order and others
ignored, or as an array of its fields in order. The members of an object are visited in document
order, so the first misfit is reported, and a missing field only after them.
-/

namespace VerbScript.Json

/-- A mismatch and its place. -/
structure Misfit where
  place : Place
  mismatch : Mismatch

/-- A misfit at the root of the value that is decoded. -/
def Misfit.root (m : Mismatch) : Misfit := ⟨[], m⟩

/-- A misfit seen from the value around it. -/
def Misfit.within (s : Segment) (m : Misfit) : Misfit := ⟨s :: m.place, m.mismatch⟩

/-- A way to read a value of a type. -/
abbrev Decoder (α : Type) := Json → Except Misfit α

namespace Decoder

variable {α β : Type}

/-- Refuses a value for its type. -/
def refuse (v : Json) (expected : String) : Except Misfit α :=
  .error (.root (.invalidType (.ofJson v) expected))

/-- The decoder `d` for the part of a value at `s`. -/
def within (s : Segment) (d : Decoder α) : Decoder α := fun v => (d v).mapError (Misfit.within s)

/-- Any value. -/
def any : Decoder Json := .ok

/-- A string. -/
def string : Decoder String
  | .string s => .ok s
  | v => refuse v "a string"

/-- An integer that fits a signed 64-bit word. -/
def int64 : Decoder Int
  | .number (.int n) =>
    if VerbScript.Number.FitsInt64 n then .ok n else .error (.root (.outOfRange n "i64"))
  | v => refuse v "i64"

/-- The items of an array, counted from `i`. -/
def itemsFrom (d : Decoder α) : Nat → List Json → Except Misfit (List α)
  | _, [] => .ok []
  | i, v :: rest => do
    let x ← within (.index i) d v
    let xs ← itemsFrom d (i + 1) rest
    return x :: xs

/-- The items of an array. -/
def items (d : Decoder α) : Decoder (List α)
  | .array vs => itemsFrom d 0 vs
  | v => refuse v "a sequence"

/-- The members of an object. -/
def members : Decoder (List (String × Json))
  | .object ms => .ok ms
  | v => refuse v "a map"

/-- A field of a record: its key and what stands there. -/
structure Field (α : Type) where
  key : String
  decoder : Decoder α

namespace Field

/-- Reads the value of a field that may have been read before. -/
def read (f : Field α) (seen : Option α) (v : Json) : Except Misfit (Option α) :=
  if seen.isSome then .error (.root (.duplicateField f.key))
  else some <$> within (.key f.key) f.decoder v

/-- The value of a field after all members were visited. -/
def require (f : Field α) : Option α → Except Misfit α
  | some x => .ok x
  | none => .error (.root (.missingField f.key))

end Field

/-- The members of a record of one field. -/
def fields₁ (f : Field α) (a : Option α) : List (String × Json) → Except Misfit α
  | [] => f.require a
  | (k, v) :: rest =>
    if k = f.key then do
      let a ← f.read a v
      fields₁ f a rest
    else fields₁ f a rest

/-- The members of a record of two fields. -/
def fields₂ (f : Field α) (g : Field β) (a : Option α) (b : Option β) :
    List (String × Json) → Except Misfit (α × β)
  | [] => do
    let x ← f.require a
    let y ← g.require b
    return (x, y)
  | (k, v) :: rest =>
    if k = f.key then do
      let a ← f.read a v
      fields₂ f g a b rest
    else if k = g.key then do
      let b ← g.read b v
      fields₂ f g a b rest
    else fields₂ f g a b rest

/-- A record called `name` of one field. -/
def record₁ (name : String) (f : Field α) : Decoder α
  | .object ms => fields₁ f none ms
  | .array [] =>
    .error (.root (.invalidLength 0 ("struct " ++ name ++ " with 1 element")))
  | .array (v :: rest) => do
    let x ← within (.index 0) f.decoder v
    if rest.isEmpty then return x
    else .error (.root (.invalidLength (rest.length + 1) "fewer elements in array"))
  | v => refuse v ("struct " ++ name)

/-- A record called `name` of two fields. -/
def record₂ (name : String) (f : Field α) (g : Field β) : Decoder (α × β)
  | .object ms => fields₂ f g none none ms
  | .array [] =>
    .error (.root (.invalidLength 0 ("struct " ++ name ++ " with 2 elements")))
  | .array [v] => do
    let _ ← within (.index 0) f.decoder v
    .error (.root (.invalidLength 1 ("struct " ++ name ++ " with 2 elements")))
  | .array (v :: w :: rest) => do
    let x ← within (.index 0) f.decoder v
    let y ← within (.index 1) g.decoder w
    if rest.isEmpty then return (x, y)
    else .error (.root (.invalidLength (rest.length + 2) "fewer elements in array"))
  | v => refuse v ("struct " ++ name)

end Decoder

end VerbScript.Json
