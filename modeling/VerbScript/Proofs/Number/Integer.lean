import Mathlib.Data.Nat.Digits.Defs
import VerbScript.Proofs.Number.FloatText
import VerbScript.Proofs.Text.Blank

/-!
# Integers are read exactly

What a text has to be to stand for an integer, apart from any reader: a run of decimal digits
(`DigitRun`), with at most one sign before it (`SignedRun`) or at most one plus (`UnsignedRun`). A
run stands for the sum of its digits times the powers of ten, however many of them there are. The
readers accept exactly these texts and give exactly these values (`natural?_eq_some_iff`,
`signed?_eq_some_iff`, `unsigned?_eq_some_iff`), and the readers for 64-bit words accept those of
them whose value fits (`int64?_eq_some_iff`, `word64?_eq_some_iff`).
-/

namespace VerbScript.Number

/-- A nonempty run of decimal digits, the most significant one first, and its value. -/
inductive DigitRun : List Char → Nat → Prop where
  | of {ds : List Nat} (hne : ds ≠ []) (hlt : ∀ d ∈ ds, d < 10) :
      DigitRun (ds.map Nat.digitChar) (Nat.ofDigits 10 ds.reverse)

/-- A run of digits with at most one sign before it, and its value. -/
inductive SignedRun : List Char → Int → Prop where
  | bare {cs : List Char} {n : Nat} (h : DigitRun cs n) : SignedRun cs n
  | plus {cs : List Char} {n : Nat} (h : DigitRun cs n) : SignedRun ('+' :: cs) n
  | minus {cs : List Char} {n : Nat} (h : DigitRun cs n) : SignedRun ('-' :: cs) (-n)

/-- A run of digits with at most one plus before it, and its value. -/
inductive UnsignedRun : List Char → Nat → Prop where
  | bare {cs : List Char} {n : Nat} (h : DigitRun cs n) : UnsignedRun cs n
  | plus {cs : List Char} {n : Nat} (h : DigitRun cs n) : UnsignedRun ('+' :: cs) n

/-! ## Digits -/

theorem isDigit_digitChar {d : Nat} (h : d < 10) : (Nat.digitChar d).isDigit = true := by
  have all : ∀ d < 10, (Nat.digitChar d).isDigit = true := by decide
  exact all d h

theorem digitValue_digitChar {d : Nat} (h : d < 10) : digitValue (Nat.digitChar d) = d := by
  have all : ∀ d < 10, digitValue (Nat.digitChar d) = d := by decide
  exact all d h

theorem digitValue_lt {c : Char} (h : c.isDigit = true) : digitValue c < 10 := by
  simp only [Char.isDigit, Bool.and_eq_true, decide_eq_true_eq] at h
  have hhigh : c.toNat ≤ 57 := h.2
  show c.toNat - 48 < 10
  omega

theorem digitChar_digitValue {c : Char} (h : c.isDigit = true) :
    Nat.digitChar (digitValue c) = c := by
  have hlt := digitValue_lt h
  simp only [Char.isDigit, Bool.and_eq_true, decide_eq_true_eq] at h
  have hlow : 48 ≤ c.toNat := h.1
  apply Char.toNat_inj.1
  rw [Nat.toNat_digitChar_of_lt_ten hlt]
  show 48 + (c.toNat - 48) = c.toNat
  omega

/-- Digit by digit, a run continues a number by the value of the run. -/
theorem foldDigits_map_digitChar {ds : List Nat} (h : ∀ d ∈ ds, d < 10) (n : Nat) :
    foldDigits n (ds.map Nat.digitChar) = 10 ^ ds.length * n + Nat.ofDigits 10 ds.reverse := by
  induction ds generalizing n with
  | nil => simp
  | cons d ds ih =>
    have hd : digitValue (Nat.digitChar d) = d := digitValue_digitChar (h d (List.mem_cons_self ..))
    rw [List.map_cons, foldDigits_cons, hd, ih fun e he => h e (List.mem_cons_of_mem _ he),
      List.reverse_cons, Nat.ofDigits_append, List.length_reverse, Nat.ofDigits_singleton,
      List.length_cons]
    ring

/-- A text of digits alone is written with their values. -/
theorem exists_map_digitChar {cs : List Char} (h : ∀ c ∈ cs, c.isDigit = true) :
    ∃ ds : List Nat, (∀ d ∈ ds, d < 10) ∧ cs = ds.map Nat.digitChar := by
  refine ⟨cs.map digitValue, fun d hd => ?_, ?_⟩
  · obtain ⟨c, hc, rfl⟩ := List.mem_map.1 hd
    exact digitValue_lt (h c hc)
  · have hmap : cs.map (Nat.digitChar ∘ digitValue) = cs.map id :=
      List.map_congr_left fun c hc => digitChar_digitValue (h c hc)
    rw [List.map_map, hmap, List.map_id]

theorem natural?_map_digitChar {ds : List Nat} (hne : ds ≠ []) (hlt : ∀ d ∈ ds, d < 10) :
    natural? (ds.map Nat.digitChar) = some (Nat.ofDigits 10 ds.reverse) := by
  have hall : (ds.map Nat.digitChar).all Char.isDigit = true := by
    simpa using fun d hd => isDigit_digitChar (hlt d hd)
  simp [natural?, hall, hne, foldDigits_map_digitChar hlt]

/-- A text is read as a natural number exactly if it is a run of digits of that value. -/
theorem natural?_eq_some_iff {cs : List Char} {n : Nat} : natural? cs = some n ↔ DigitRun cs n := by
  constructor
  · intro h
    have hread := h
    rw [natural?] at h
    split at h
    · next hdigits =>
      simp only [Bool.and_eq_true, Bool.not_eq_true', List.isEmpty_eq_false_iff,
        List.all_eq_true] at hdigits
      obtain ⟨hne, hall⟩ := hdigits
      obtain ⟨ds, hlt, rfl⟩ := exists_map_digitChar hall
      have hne : ds ≠ [] := fun hnil => hne (by rw [hnil]; rfl)
      rw [natural?_map_digitChar hne hlt] at hread
      cases hread
      exact .of hne hlt
    · cases h
  · rintro ⟨hne, hlt⟩
    exact natural?_map_digitChar hne hlt

/-! ## Signs -/

theorem DigitRun.isDigit {cs : List Char} {n : Nat} (h : DigitRun cs n) :
    ∀ c ∈ cs, c.isDigit = true := by
  obtain ⟨-, hlt⟩ := h
  intro c hc
  obtain ⟨d, hd, rfl⟩ := List.mem_map.1 hc
  exact isDigit_digitChar (hlt d hd)

/-- A run of digits begins with a digit, so with no sign. -/
theorem DigitRun.exists_cons {cs : List Char} {n : Nat} (h : DigitRun cs n) :
    ∃ c rest, cs = c :: rest ∧ c.isDigit = true := by
  have hdigit := h.isDigit
  obtain ⟨hne, -⟩ := h
  obtain ⟨d, ds, rfl⟩ := List.exists_cons_of_ne_nil hne
  exact ⟨_, _, rfl, hdigit _ (List.mem_cons_self ..)⟩

theorem unsigned?_of_isDigit {c : Char} {cs : List Char} (h : c.isDigit = true) :
    unsigned? (c :: cs) = natural? (c :: cs) := by
  rw [unsigned?.eq_def]
  split
  · next heq => cases heq; cases h
  · rfl

/-- A text is read as an integer exactly if it is a signed run of digits of that value. -/
theorem signed?_eq_some_iff {cs : List Char} {n : Int} : signed? cs = some n ↔ SignedRun cs n := by
  constructor
  · intro h
    rw [signed?.eq_def] at h
    split at h
    all_goals
      obtain ⟨_, hread, rfl⟩ := Option.map_eq_some_iff.1 h
      obtain ⟨m, hm, ⟨⟩⟩ := Option.bind_eq_some_iff.1 hread
    · exact .minus (natural?_eq_some_iff.1 hm)
    · exact .plus (natural?_eq_some_iff.1 hm)
    · exact .bare (natural?_eq_some_iff.1 hm)
  · intro h
    cases h with
    | bare h =>
      obtain ⟨c, rest, rfl, hc⟩ := h.exists_cons
      rw [signed?_of_isDigit hc, natural?_eq_some_iff.2 h]
      rfl
    | plus h | minus h =>
      rw [signed?, natural?_eq_some_iff.2 h]
      rfl

/-- A text is read as an integer without a minus exactly if it is an unsigned run of digits of that
value. -/
theorem unsigned?_eq_some_iff {cs : List Char} {n : Nat} :
    unsigned? cs = some n ↔ UnsignedRun cs n := by
  constructor
  · intro h
    rw [unsigned?.eq_def] at h
    split at h
    · exact .plus (natural?_eq_some_iff.1 h)
    · exact .bare (natural?_eq_some_iff.1 h)
  · intro h
    cases h with
    | bare h =>
      obtain ⟨c, rest, rfl, hc⟩ := h.exists_cons
      rw [unsigned?_of_isDigit hc, natural?_eq_some_iff.2 h]
    | plus h => rw [unsigned?, natural?_eq_some_iff.2 h]

/-! ## Words -/

theorem fitsInt64_iff {n : Int} : FitsInt64 n ↔ -2 ^ 63 ≤ n ∧ n < 2 ^ 63 := by
  simp [FitsInt64, wordBound]

theorem int64?_eq_some_iff {cs : List Char} {n : Int} :
    int64? cs = some n ↔ SignedRun cs n ∧ -2 ^ 63 ≤ n ∧ n < 2 ^ 63 := by
  rw [int64?, Option.filter_eq_some_iff, decide_eq_true_iff, signed?_eq_some_iff, fitsInt64_iff]

theorem word64?_eq_some_iff {cs : List Char} {n : Nat} :
    word64? cs = some n ↔ UnsignedRun cs n ∧ n < 2 ^ 64 := by
  rw [word64?, Option.filter_eq_some_iff, decide_eq_true_iff, unsigned?_eq_some_iff]
  rfl

example : int64? "-0009223372036854775808".toList = some (-2 ^ 63) := by decide +kernel

example : int64? "9223372036854775808".toList = none := by decide +kernel

/-! ## Blanks around an integer -/

theorem SignedRun.trimBlank_eq {cs : List Char} {n : Int} (h : SignedRun cs n) :
    Text.trimBlank cs = cs := by
  refine trimBlank_of_isNumeral fun c hc => ?_
  cases h with
  | bare h => exact isNumeral_of_isDigit (h.isDigit c hc)
  | plus h | minus h =>
    rcases List.mem_cons.1 hc with rfl | hc
    · rfl
    · exact isNumeral_of_isDigit (h.isDigit c hc)

theorem UnsignedRun.trimBlank_eq {cs : List Char} {n : Nat} (h : UnsignedRun cs n) :
    Text.trimBlank cs = cs := by
  cases h with
  | bare h => exact (SignedRun.bare h).trimBlank_eq
  | plus h => exact (SignedRun.plus h).trimBlank_eq

/-- The text is a signed run of digits with nothing but blanks around it. -/
def SignedText (raw : String) (n : Int) : Prop :=
  ∃ body, Text.Padded body raw.toList ∧ SignedRun body n

/-- The text is an unsigned run of digits with nothing but blanks around it. -/
def UnsignedText (raw : String) (n : Nat) : Prop :=
  ∃ body, Text.Padded body raw.toList ∧ UnsignedRun body n

theorem signedText_iff {raw : String} {n : Int} :
    SignedText raw n ↔ SignedRun (Text.trimBlank raw.toList) n :=
  Text.exists_padded_iff fun _ => SignedRun.trimBlank_eq

theorem unsignedText_iff {raw : String} {n : Nat} :
    UnsignedText raw n ↔ UnsignedRun (Text.trimBlank raw.toList) n :=
  Text.exists_padded_iff fun _ => UnsignedRun.trimBlank_eq

end VerbScript.Number
