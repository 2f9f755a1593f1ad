import VerbScript.Json.Basic
import VerbScript.Number.Decimal
import VerbScript.Text.Blank

/-!
# Properties

What a property of an action may hold. A property is declared with a `Property.Domain`, and its
value is written as a text: `Domain.coerce` reads the text, or says what was expected instead.
Blanks around a truth value or a number do not count; every character of a text does.
-/

namespace VerbScript.Property

/-- The values that a property admits. -/
inductive Domain where
  | bool
  | int
  | float
  | text
  /-- One of the listed texts. -/
  | choice (allowed : List String)
  deriving Repr, DecidableEq

/-- The value of a property. -/
inductive Value where
  | bool (b : Bool)
  | int (n : Int)
  | float (x : Float)
  | text (s : String)

/-- What was expected of a text that is no value of its domain. -/
inductive Expectation where
  | truthValue
  | integer
  | number
  | finiteNumber
  | oneOf (allowed : List String)
  deriving Repr, DecidableEq

/-- The listed texts with bars between them. -/
def alternatives (allowed : List String) : String := "|".intercalate allowed

/-- An expectation as a message shows it. -/
def Expectation.text : Expectation → String
  | truthValue => "bool (true|false)"
  | integer => "integer"
  | number => "number"
  | finiteNumber => "finite number"
  | oneOf allowed => "one of " ++ alternatives allowed

namespace Domain

/-- A domain as a listing shows it. -/
def name : Domain → String
  | bool => "bool"
  | int => "int"
  | float => "float"
  | text => "text"
  | choice allowed => alternatives allowed

/-- The value of this domain that a text stands for. -/
def coerce : Domain → String → Except Expectation Value
  | bool, raw =>
    let word := Text.trim raw
    if word = "true" then .ok (.bool true)
    else if word = "false" then .ok (.bool false)
    else .error .truthValue
  | int, raw =>
    match Number.int64? (Text.trimBlank raw.toList) with
    | some n => .ok (.int n)
    | none => .error .integer
  | float, raw =>
    match Number.readFloat? (Text.trimBlank raw.toList) with
    | some x => if x.isFinite then .ok (.float x) else .error .finiteNumber
    | none => .error .number
  | text, raw => .ok (.text raw)
  | choice allowed, raw =>
    if raw ∈ allowed then .ok (.text raw) else .error (.oneOf allowed)

end Domain

namespace Value

/-- The truth value that a value is. -/
def bool? : Value → Option Bool
  | bool b => some b
  | _ => none

/-- The integer that a value is. -/
def int? : Value → Option Int
  | int n => some n
  | _ => none

/-- The double that a value is, or that is nearest to the integer that it is. -/
def float? : Value → Option Float
  | float x => some x
  | int n => some (Float.ofInt n)
  | _ => none

/-- The text that a value is. -/
def text? : Value → Option String
  | text s => some s
  | _ => none

/-- The value in a document. -/
def toJson : Value → Json
  | bool b => .bool b
  | int n => .int n
  | float x => .ofFloat x
  | text s => .string s

end Value

/-- A property that a kind of action declares. -/
structure Declaration where
  name : String
  domain : Domain
  deriving Repr, DecidableEq

end VerbScript.Property
