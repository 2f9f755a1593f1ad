import VerbScript.Number.Shortest

/-!
# The text of a double

A `FloatStyle` holds the decisions of a format: which exponents are written positionally, whether
a whole number keeps `.0`, how an exponent is signed, where a tie goes and what the doubles that
are not numbers are called. The digits are always the shortest that read back. Three styles are in
use: `FloatStyle.document` for numbers of a document, `FloatStyle.plain` for amounts in prose and
`FloatStyle.record` for fields of a log record.
-/

namespace VerbScript.Number

/-- The decisions of a format for doubles. -/
structure FloatStyle where
  /-- The leading digit's exponents that are written without an exponent part. -/
  positional : Int → Bool
  /-- Whether a whole number ends in `.0`. -/
  keepsPoint : Bool
  /-- Whether a positive exponent has a plus. -/
  signsExponent : Bool
  tie : Tie
  /-- What stands for the double that is not a number. -/
  notANumber : String
  /-- What stands for an infinity, by whether it is negative. -/
  infinite : Bool → String

namespace FloatStyle

/-- Numbers of a document: positional from `1e-5` to below `1e16`, a signed exponent elsewhere. A
double that is not a number has no form of its own there. -/
def document : FloatStyle where
  positional e := decide (-5 ≤ e ∧ e ≤ 15)
  keepsPoint := true
  signsExponent := true
  tie := .toEven
  notANumber := "null"
  infinite _ := "null"

/-- Amounts in prose: never an exponent, never a needless point. -/
def plain : FloatStyle where
  positional _ := true
  keepsPoint := false
  signsExponent := false
  tie := .up
  notANumber := "NaN"
  infinite negative := if negative then "-inf" else "inf"

/-- Fields of a log record: positional from `1e-4` to below `1e16`. -/
def record : FloatStyle where
  positional e := decide (-4 ≤ e ∧ e ≤ 15)
  keepsPoint := true
  signsExponent := false
  tie := .up
  notANumber := "NaN"
  infinite negative := if negative then "-inf" else "inf"

/-- `digits` without the zeros at its end. -/
def dropTrailingZeros (digits : List Char) : List Char :=
  (digits.reverse.dropWhile (· = '0')).reverse

/-- The digits with a point after the one of exponent zero; `lead` is the exponent of the first. -/
def positionalText (style : FloatStyle) (digits : List Char) (lead : Int) : List Char :=
  if lead < 0 then
    '0' :: '.' :: List.replicate (lead.natAbs - 1) '0' ++ digits
  else
    let n := lead.toNat + 1
    let whole := digits.take n ++ List.replicate (n - digits.length) '0'
    let fraction := digits.drop n
    if fraction.isEmpty then
      if style.keepsPoint then whole ++ ['.', '0'] else whole
    else whole ++ '.' :: fraction

/-- The digits with a point after the first, and the exponent of the first. -/
def exponentText (style : FloatStyle) (digits : List Char) (lead : Int) : List Char :=
  let mantissa := match digits with
    | [] => []
    | [d] => [d]
    | d :: ds => d :: '.' :: ds
  let sign := if lead < 0 then ['-'] else if style.signsExponent then ['+'] else []
  mantissa ++ 'e' :: sign ++ Nat.toDigits 10 lead.natAbs

/-- The text of a positive finite double or of zero. -/
def magnitudeText (style : FloatStyle) (x : Float) : List Char :=
  if x == 0 then positionalText style ['0'] 0
  else
    let s := shortest style.tie x
    let digits := Nat.toDigits 10 s.digits
    let lead := s.exponent + digits.length - 1
    let digits := dropTrailingZeros digits
    if style.positional lead then positionalText style digits lead
    else exponentText style digits lead

/-- Whether the sign bit of a double is set. -/
def isNegative (x : Float) : Bool := decide (wordBound 63 ≤ x.toBits.toNat)

/-- The text of a double. -/
def text (style : FloatStyle) (x : Float) : String :=
  if x.isNaN then style.notANumber
  else if !x.isFinite then style.infinite (isNegative x)
  else
    let magnitude := magnitudeText style x.abs
    String.ofList (if isNegative x then '-' :: magnitude else magnitude)

end FloatStyle

end VerbScript.Number
