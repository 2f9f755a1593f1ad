/-!
# Integers written in decimal

A run of decimal digits is read by `natural?`, which refuses the empty run; `signed?` allows one
sign before it and `unsigned?` only a plus. The readers for 64-bit words add the range. Only the
ten ASCII digits count as digits.
-/

namespace VerbScript.Number

/-- The value of a decimal digit. -/
def digitValue (c : Char) : Nat := c.toNat - '0'.toNat

/-- The number that `ds` continues when the digits before it have the value `n`. -/
def foldDigits (n : Nat) (ds : List Char) : Nat :=
  ds.foldl (fun n c => 10 * n + digitValue c) n

/-- The value of a nonempty run of digits. -/
def natural? (ds : List Char) : Option Nat :=
  if !ds.isEmpty && ds.all Char.isDigit then some (foldDigits 0 ds) else none

/-- The value of a run of digits with at most one sign before it. -/
def signed? : List Char → Option Int
  | '-' :: ds => (natural? ds).map fun n => -(n : Int)
  | '+' :: ds => (natural? ds).map fun n => (n : Int)
  | ds => (natural? ds).map fun n => (n : Int)

/-- The value of a run of digits with at most one plus before it. -/
def unsigned? : List Char → Option Nat
  | '+' :: ds => natural? ds
  | ds => natural? ds

/-- The count of the values of a word with `bits` bits. -/
def wordBound (bits : Nat) : Nat := Nat.pow 2 bits

/-- Whether `n` fits a signed 64-bit word. -/
def FitsInt64 (n : Int) : Prop := -(wordBound 63 : Int) ≤ n ∧ n < wordBound 63

instance (n : Int) : Decidable (FitsInt64 n) := inferInstanceAs (Decidable (_ ∧ _))

/-- A signed decimal integer that fits a 64-bit word. -/
def int64? (cs : List Char) : Option Int := (signed? cs).filter fun n => decide (FitsInt64 n)

/-- An unsigned decimal integer that fits a 64-bit word. -/
def word64? (cs : List Char) : Option Nat :=
  (unsigned? cs).filter fun n => decide (n < wordBound 64)

/-- The decimal text of an integer. -/
def integerText (n : Int) : String :=
  match n with
  | .ofNat m => String.ofList (Nat.toDigits 10 m)
  | .negSucc m => String.ofList ('-' :: Nat.toDigits 10 (m + 1))

@[simp] theorem natural?_nil : natural? [] = none := by simp [natural?]

@[simp] theorem foldDigits_nil (n : Nat) : foldDigits n [] = n := rfl

@[simp] theorem foldDigits_cons (n : Nat) (c : Char) (ds : List Char) :
    foldDigits n (c :: ds) = foldDigits (10 * n + digitValue c) ds := by
  rw [foldDigits, List.foldl_cons, foldDigits]

end VerbScript.Number
