import VerbScript.Number.Integer

/-!
# Decimal fractions

A `Decimal` is a signed decimal fraction as it is written, `± digits · 10 ^ exponent`, and
`Decimal.toFloat` is the double nearest to it, an exact tie going to the even one.
`Decimal.ofChars?` reads the free form that a property's text may have: digits with at most one
point and at least one digit around it, then at most one exponent. `readFloat?` also reads the
names of the doubles that are not numbers.
-/

namespace VerbScript.Number

/-- The decimal fraction `± digits · 10 ^ exponent`. -/
structure Decimal where
  negative : Bool
  digits : Nat
  exponent : Int
  deriving Repr, DecidableEq

namespace Decimal

/-- The double nearest to a decimal fraction; the sign of zero is kept. -/
def toFloat (d : Decimal) : Float :=
  let x := Float.ofScientific d.digits (decide (d.exponent < 0)) d.exponent.natAbs
  if d.negative then -x else x

/-- The fraction written as `whole`, a point and `fraction`, times ten to the `shift`. -/
def ofParts (negative : Bool) (whole fraction : List Char) (shift : Int) : Decimal where
  negative
  digits := foldDigits 0 (whole ++ fraction)
  exponent := shift - fraction.length

/-- The exponent that follows the digits of a decimal, `0` where none is written. -/
def exponent? : List Char → Option Int
  | [] => some 0
  | c :: cs => if c = 'e' ∨ c = 'E' then signed? cs else none

/-- Reads a decimal fraction without a sign. -/
def ofUnsigned? (negative : Bool) (cs : List Char) : Option Decimal :=
  let whole := cs.takeWhile Char.isDigit
  let tail := cs.dropWhile Char.isDigit
  let fraction := match tail with
    | '.' :: r => r.takeWhile Char.isDigit
    | _ => []
  let tail := match tail with
    | '.' :: r => r.dropWhile Char.isDigit
    | r => r
  if whole.isEmpty && fraction.isEmpty then none
  else (exponent? tail).map fun shift => ofParts negative whole fraction shift

/-- Reads a decimal fraction with at most one sign before it. -/
def ofChars? : List Char → Option Decimal
  | '-' :: cs => ofUnsigned? true cs
  | '+' :: cs => ofUnsigned? false cs
  | cs => ofUnsigned? false cs

end Decimal

/-- The double that is larger than every number. -/
def infinity : Float := 1.0 / 0.0

/-- The double that is not a number. -/
def nan : Float := 0.0 / 0.0

/-- The double that a name stands for, in any mixture of cases. -/
def named? (cs : List Char) : Option Float :=
  let name := String.ofList (cs.map Char.toLower)
  if name = "inf" ∨ name = "infinity" then some infinity
  else if name = "nan" then some nan
  else none

/-- The double that a text names or is nearest to. -/
def readFloat? (cs : List Char) : Option Float :=
  let unsigned := match cs with
    | '-' :: r => r
    | '+' :: r => r
    | r => r
  match named? unsigned with
  | some x => some (if cs.head? = some '-' then -x else x)
  | none => (Decimal.ofChars? cs).map Decimal.toFloat

end VerbScript.Number
