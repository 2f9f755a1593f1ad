import VerbScript.Number.Integer

/-!
# The shortest digits of a double

A positive double is a fraction of two naturals (`magnitude`). On the grid of decimals with `n`
digits its two neighbours are the candidates (`onGrid?`); a candidate is a hit when the double
nearest to it is the given one (`readsBack`). The first grid with a hit gives the shortest digits,
of two hits the nearer one is taken, and an exact tie goes as the format wants it. Should no grid
of up to seventeen digits have a hit, the double's exact decimal expansion is taken, which no tie
or grid affects.
-/

namespace VerbScript.Number

/-- Where the middle between two candidates goes. -/
inductive Tie where
  | toEven
  | up
  deriving Repr, DecidableEq

/-- The decimal `digits · 10 ^ exponent` of a positive number. -/
structure Shortest where
  digits : Nat
  exponent : Int
  deriving Repr, DecidableEq

/-- The mantissa and the binary exponent of the positive double with the given bits. -/
def decode (bits : Nat) : Nat × Int :=
  let fraction : Nat := bits % wordBound 52
  let biased : Nat := bits / wordBound 52 % wordBound 11
  if biased = 0 then (fraction, -1074) else (wordBound 52 + fraction, (biased : Int) - 1075)

/-- The fraction `m · 2 ^ e` as a numerator and a denominator. -/
def magnitude (m : Nat) (e : Int) : Nat × Nat :=
  if 0 ≤ e then (m * Nat.pow 2 e.toNat, 1) else (m, Nat.pow 2 (-e).toNat)

/-- The count of decimal digits of `n`. -/
def digitCount (n : Nat) : Nat := (Nat.toDigits 10 n).length

/-- The exponent of the leading digit of `num / den`. -/
def leadingExponent (num den : Nat) : Int :=
  if den ≤ num then (digitCount (num / den) : Int) - 1
  else
    let k := digitCount (den / num)
    if num * Nat.pow 10 (k - 1) = den then -((k : Int) - 1) else -(k : Int)

/-- The largest multiple of `10 ^ unit` not above `num / den`, as a count of units, and the rest of
the division by `den` in the same scale. -/
def scaled (num den : Nat) (unit : Int) : Nat × Nat × Nat :=
  let n := if unit < 0 then num * Nat.pow 10 unit.natAbs else num
  let d := if unit < 0 then den else den * Nat.pow 10 unit.natAbs
  (n / d, n % d, d)

/-- Whether the double nearest to a decimal is `x`. -/
def readsBack (x : Float) (digits : Nat) (unit : Int) : Bool :=
  (Float.ofScientific digits (decide (unit < 0)) unit.natAbs).toBits == x.toBits

/-- The decimal with `n` digits that reads back as `x`, if there is one. -/
def onGrid? (tie : Tie) (x : Float) (num den : Nat) (lead : Int) (n : Nat) : Option Shortest :=
  let unit := lead + 1 - n
  let (low, rest, d) := scaled num den unit
  let high := low + 1
  let nearerLow := 2 * rest < d ∨ (2 * rest = d ∧ tie = .toEven ∧ low % 2 = 0)
  match readsBack x low unit, readsBack x high unit with
  | true, true => some ⟨if nearerLow then low else high, unit⟩
  | true, false => some ⟨low, unit⟩
  | false, true => some ⟨high, unit⟩
  | false, false => none

/-- The finite decimal expansion of `m · 2 ^ e`. -/
def exactDecimal (m : Nat) (e : Int) : Shortest :=
  if 0 ≤ e then ⟨m * Nat.pow 2 e.toNat, 0⟩ else ⟨m * Nat.pow 5 (-e).toNat, e⟩

/-- The shortest decimal that reads back as the positive finite double `x`. -/
def shortest (tie : Tie) (x : Float) : Shortest :=
  let (m, e) := decode x.toBits.toNat
  let (num, den) := magnitude m e
  let lead := leadingExponent num den
  ((List.range' 1 17).findSome? (onGrid? tie x num den lead)).getD (exactDecimal m e)

end VerbScript.Number
