import VerbScript.Number.Integer

/-!
# Decimal digits and the numbers they stand for

The digits of a natural number have its value (`foldDigits_toDigits`), and no zero stands before
the others (`toDigits_eq_cons`). So the text of an integer is read as the integer, with its sign
(`signed?_integerText`), and by the reader for 64-bit words if it fits one (`int64?_integerText`).
-/

namespace VerbScript.Number

/-- The digits of a number have its value. -/
theorem foldDigits_toDigits (n : Nat) : foldDigits 0 (Nat.toDigits 10 n) = n :=
  Nat.ofDigitChars_ten_toDigits

theorem isDigit_of_mem_toDigits {n : Nat} {c : Char} (h : c ∈ Nat.toDigits 10 n) :
    c.isDigit = true :=
  Nat.isDigit_of_mem_toDigits (by decide) (by decide) h

theorem digitChar_ne_zero {n : Nat} (hpos : 0 < n) (hlt : n < 10) : Nat.digitChar n ≠ '0' := by
  have all : ∀ n < 10, 0 < n → Nat.digitChar n ≠ '0' := by decide
  exact all n hlt hpos

/-- The first digit of a positive number is not zero. -/
theorem toDigits_eq_cons {n : Nat} (h : 0 < n) :
    ∃ c cs, Nat.toDigits 10 n = c :: cs ∧ c ≠ '0' := by
  induction n using Nat.strongRecOn with
  | ind n ih =>
    by_cases hlt : n < 10
    · exact ⟨_, [], Nat.toDigits_of_lt_base hlt, digitChar_ne_zero h hlt⟩
    · obtain ⟨c, cs, hcs, hc⟩ := ih (n / 10) (by omega) (by omega)
      rw [Nat.toDigits_of_base_le (by decide) (by omega), hcs]
      exact ⟨c, _, rfl, hc⟩

/-- The digits of a number are read as the number. -/
theorem natural?_toDigits (n : Nat) : natural? (Nat.toDigits 10 n) = some n := by
  have hall : (Nat.toDigits 10 n).all Char.isDigit = true :=
    List.all_eq_true.2 fun c hc => isDigit_of_mem_toDigits hc
  simp [natural?, hall, foldDigits_toDigits]

theorem signed?_of_isDigit {c : Char} {cs : List Char} (h : c.isDigit = true) :
    signed? (c :: cs) = (natural? (c :: cs)).map fun n => (n : Int) := by
  rw [signed?.eq_def]
  split
  · next heq => cases heq; cases h
  · next heq => cases heq; cases h
  · rfl

/-- The text of an integer is read as the integer. -/
theorem signed?_integerText (n : Int) : signed? (integerText n).toList = some n := by
  cases n with
  | ofNat m =>
    have hdigits := natural?_toDigits m
    rw [integerText, String.toList_ofList]
    cases hcs : Nat.toDigits 10 m with
    | nil => exact absurd hcs Nat.toDigits_ne_nil
    | cons c cs =>
      have hc : c.isDigit = true := isDigit_of_mem_toDigits (n := m) (by simp [hcs])
      rw [signed?_of_isDigit hc, ← hcs, hdigits]
      rfl
  | negSucc m =>
    rw [integerText, String.toList_ofList, signed?, natural?_toDigits]
    rfl

/-- The text of an integer that fits a 64-bit word is read as the integer. -/
theorem int64?_integerText {n : Int} (h : FitsInt64 n) :
    int64? (integerText n).toList = some n := by
  simp [int64?, signed?_integerText, h]

end VerbScript.Number
