import VerbScript.Number.Decimal

/-!
# Numbers that are read in one pass

A document's number is read without going back: as many of its digits as fit an unsigned 64-bit word
make up a significand, and of those behind them only the whole ones count, for the exponent
(`Scaled.ofParts`). The double is the significand times or divided by a power of ten
(`Scaled.toFloat`). Both the significand and the result are rounded, so the double is close to what is
written but not always the nearest one, and it may be infinite where the nearest one is not.
-/

namespace VerbScript.Number

/-- The number `± significand · 10 ^ exponent`, whose significand fits an unsigned 64-bit word. -/
structure Scaled where
  negative : Bool
  significand : Nat
  exponent : Int
  deriving Repr, DecidableEq

namespace Scaled

/-- Continues `n` by digits as long as it fits an unsigned 64-bit word, and counts the digits that are
left then. -/
def takeDigits (n : Nat) : List Char → Nat × Nat
  | [] => (n, 0)
  | c :: ds =>
    let next := 10 * n + digitValue c
    if next < wordBound 64 then takeDigits next ds else (n, ds.length + 1)

/-- The number written as `whole`, a point and `fraction`, times ten to the `shift`. -/
def ofParts (negative : Bool) (whole fraction : List Char) (shift : Int) : Scaled :=
  let (n, left) := takeDigits 0 whole
  let (significand, ignored) := takeDigits n fraction
  { negative, significand, exponent := shift + left - (fraction.length - ignored : Nat) }

/-- The largest exponent whose power of ten is a double. -/
def maxPower : Nat := 308

/-- The double nearest to a power of ten. -/
def powerOfTen (k : Nat) : Float := Float.ofScientific 1 false k

/-- The double that a number is read as, but for its sign. -/
def magnitude (s : Scaled) : Float :=
  let x := Float.ofNat s.significand
  match s.exponent with
  | .ofNat k => if k ≤ maxPower then x * powerOfTen k else if s.significand = 0 then x else infinity
  | .negSucc k =>
    -- A significand that is divided by the largest power twice is zero, so no third division follows.
    if k < maxPower then x / powerOfTen (k + 1)
    else x / powerOfTen maxPower / powerOfTen (min (k + 1 - maxPower) maxPower)

/-- The double that a number is read as; the sign of zero is kept. -/
def toFloat (s : Scaled) : Float := if s.negative then -s.magnitude else s.magnitude

end Scaled

end VerbScript.Number
