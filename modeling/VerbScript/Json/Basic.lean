import VerbScript.Number.FloatStyle

/-!
# Document values

The values of a JSON document. The members of an object keep their order, and a number is either
an integer or a double, as its text tells them apart. `Json.ofFloat` is the value of a double: one
that is not finite has no number form and becomes `null`.
-/

namespace VerbScript

/-- A number of a document. -/
inductive Json.Number where
  | int (n : Int)
  | float (x : Float)

/-- A document value; the members of an object are in document order. -/
inductive Json where
  | null
  | bool (b : Bool)
  | number (n : Json.Number)
  | string (s : String)
  | array (items : List Json)
  | object (members : List (String × Json))

namespace Json

instance : Inhabited Json := ⟨null⟩

/-- An integer as a document value. -/
def int (n : Int) : Json := number (.int n)

/-- A double as a document value. -/
def ofFloat (x : Float) : Json := if x.isFinite then number (.float x) else null

/-- The text of a number. -/
def Number.text : Number → String
  | .int n => Number.integerText n
  | .float x => Number.FloatStyle.document.text x

/-- The double nearest to a number. -/
def Number.toFloat : Number → Float
  | .int n => Float.ofInt n
  | .float x => x

/-- The first member of a list with the given key. -/
def lookup (key : String) (members : List (String × Json)) : Option Json :=
  (members.find? fun m => m.1 == key).map (·.2)

/-- The member of an object with the given key. -/
def member? (key : String) : Json → Option Json
  | object members => lookup key members
  | _ => none

/-- The text of a string value. -/
def string? : Json → Option String
  | string s => some s
  | _ => none

/-- The double nearest to a number value. -/
def float? : Json → Option Float
  | number n => some n.toFloat
  | _ => none

/-- The integer of a number value that is written as one. -/
def int? : Json → Option Int
  | number (.int n) => some n
  | _ => none

/-- `members` with `key` set to `v`: in its place if it is there, else at the end. -/
def put (key : String) (v : Json) : List (String × Json) → List (String × Json)
  | [] => [(key, v)]
  | m :: rest => if m.1 = key then (key, v) :: rest else m :: put key v rest

@[simp] theorem lookup_nil (key : String) : lookup key [] = none := rfl

theorem lookup_cons (key : String) (m : String × Json) (rest : List (String × Json)) :
    lookup key (m :: rest) = if m.1 = key then some m.2 else lookup key rest := by
  by_cases h : m.1 = key <;> simp [lookup, h]

@[simp] theorem lookup_put (key : String) (v : Json) (members : List (String × Json)) :
    lookup key (put key v members) = some v := by
  induction members with
  | nil => simp [put, lookup_cons]
  | cons m rest ih =>
    by_cases h : m.1 = key
    · simp [put, h, lookup_cons]
    · simp [put, h, lookup_cons, ih]

/-- Setting a key leaves the others alone. -/
theorem lookup_put_of_ne {key other : String} (h : other ≠ key) (v : Json)
    (members : List (String × Json)) : lookup other (put key v members) = lookup other members := by
  induction members with
  | nil => simp [put, lookup_cons, h.symm]
  | cons m rest ih =>
    by_cases hm : m.1 = key
    · subst hm
      simp [put, lookup_cons, h.symm]
    · simp only [put, hm, if_false, lookup_cons, ih]

end Json

end VerbScript
