import VerbScript.Number.FloatStyle
import VerbScript.Proofs.Number.Digits
import VerbScript.Text.Blank

/-!
# The characters of a number's text

The text of a finite double consists of digits, a point, signs and the letter of the exponent
(`isNumeral_of_mem_text`), and so does the text of an integer. None of these is blank, so nothing
is lost when blanks are taken off the ends of such a text (`trimBlank_text`,
`trimBlank_integerText`).
-/

namespace VerbScript.Number

/-- A character that may stand in the text of a number. -/
def isNumeral (c : Char) : Bool := c.isDigit || c = '.' || c = '-' || c = '+' || c = 'e'

theorem isNumeral_of_isDigit {c : Char} (h : c.isDigit = true) : isNumeral c = true := by
  simp [isNumeral, h]

theorem isNumeral_of_mem_toDigits {n : Nat} {c : Char} (h : c ∈ Nat.toDigits 10 n) :
    isNumeral c = true :=
  isNumeral_of_isDigit (isDigit_of_mem_toDigits h)

theorem isBlank_eq_false_of_isNumeral {c : Char} (h : isNumeral c = true) :
    Text.isBlank c = false := by
  simp only [isNumeral, Bool.or_eq_true, decide_eq_true_eq] at h
  rcases h with (((hdigit | rfl) | rfl) | rfl) | rfl
  · simp only [Char.isDigit, Bool.and_eq_true, decide_eq_true_eq] at hdigit
    have hlow : 48 ≤ c.toNat := hdigit.1
    have hhigh : c.toNat ≤ 57 := hdigit.2
    simp only [Text.isBlank, Bool.or_eq_false_iff, Bool.and_eq_false_iff,
      decide_eq_false_iff_not, beq_eq_false_iff_ne]
    omega
  all_goals rfl

/-- A text without blanks is left as it is when blanks are taken off its ends. -/
theorem trimBlank_of_isNumeral {cs : List Char} (h : ∀ c ∈ cs, isNumeral c = true) :
    Text.trimBlank cs = cs := by
  have hdrop {ds : List Char} (hds : ∀ c ∈ ds, isNumeral c = true) :
      ds.dropWhile Text.isBlank = ds := by
    cases ds with
    | nil => rfl
    | cons d ds =>
      have hd := isBlank_eq_false_of_isNumeral (hds d (List.mem_cons_self ..))
      exact List.dropWhile_cons_of_neg (by simp [hd])
  have hreverse : ∀ c ∈ cs.reverse, isNumeral c = true := fun c hc => h c (List.mem_reverse.1 hc)
  rw [Text.trimBlank, hdrop h, hdrop hreverse, List.reverse_reverse]

theorem isNaN_eq_false_of_isFinite {x : Float} (h : x.isFinite = true) : x.isNaN = false := by
  rw [Float.isFinite, Float.Model.isFinite] at h
  rw [Float.isNaN, Float.Model.isNaN]
  cases hx : x.toModel.unpack with
  | notANumber => rw [hx] at h; cases h
  | infinity => rfl
  | zero => rfl
  | finite => rfl

namespace FloatStyle

theorem mem_of_mem_dropTrailingZeros {c : Char} {ds : List Char}
    (h : c ∈ dropTrailingZeros ds) : c ∈ ds := by
  rw [dropTrailingZeros, List.mem_reverse] at h
  exact List.mem_reverse.1 ((List.dropWhile_sublist _).mem h)

theorem isNumeral_of_mem_positionalText {style : FloatStyle} {ds : List Char}
    (hds : ∀ d ∈ ds, isNumeral d = true) {lead : Int} {c : Char}
    (h : c ∈ positionalText style ds lead) : isNumeral c = true := by
  simp only [positionalText] at h
  split at h
  · simp only [List.cons_append, List.mem_cons, List.mem_append, List.mem_replicate] at h
    rcases h with rfl | rfl | ⟨-, rfl⟩ | h
    · rfl
    · rfl
    · rfl
    · exact hds _ h
  have hwhole : ∀ d ∈ ds.take (lead.toNat + 1) ++ List.replicate (lead.toNat + 1 - ds.length) '0',
      isNumeral d = true := by
    intro d hd
    rcases List.mem_append.1 hd with hd | hd
    · exact hds d (List.mem_of_mem_take hd)
    · rw [(List.mem_replicate.1 hd).2]
      rfl
  split at h
  · split at h
    · rcases List.mem_append.1 h with h | h
      · exact hwhole c h
      · simp only [List.mem_cons, List.not_mem_nil, or_false] at h
        rcases h with rfl | rfl
        all_goals rfl
    · exact hwhole c h
  · rcases List.mem_append.1 h with h | h
    · exact hwhole c h
    · rcases List.mem_cons.1 h with rfl | h
      · rfl
      · exact hds c (List.mem_of_mem_drop h)

theorem isNumeral_of_mem_exponentText {style : FloatStyle} {ds : List Char}
    (hds : ∀ d ∈ ds, isNumeral d = true) {lead : Int} {c : Char}
    (h : c ∈ exponentText style ds lead) : isNumeral c = true := by
  simp only [exponentText, List.mem_append, List.mem_cons] at h
  rcases h with (h | rfl | h) | h
  · split at h
    · cases h
    · exact hds c h
    · simp only [List.mem_cons] at h
      rcases h with rfl | rfl | h
      · exact hds _ (List.mem_cons_self ..)
      · rfl
      · exact hds c (List.mem_cons_of_mem _ h)
  · rfl
  · split at h
    · rw [List.mem_singleton.1 h]
      rfl
    · split at h
      · rw [List.mem_singleton.1 h]
        rfl
      · cases h
  · exact isNumeral_of_mem_toDigits h

theorem isNumeral_of_mem_magnitudeText {style : FloatStyle} {x : Float} {c : Char}
    (h : c ∈ magnitudeText style x) : isNumeral c = true := by
  simp only [magnitudeText] at h
  split at h
  · exact isNumeral_of_mem_positionalText (by simp [isNumeral]) h
  · have hds : ∀ d ∈ dropTrailingZeros (Nat.toDigits 10 (shortest style.tie x).digits),
        isNumeral d = true :=
      fun d hd => isNumeral_of_mem_toDigits (mem_of_mem_dropTrailingZeros hd)
    split at h
    · exact isNumeral_of_mem_positionalText hds h
    · exact isNumeral_of_mem_exponentText hds h

/-- Only characters of a number stand in the text of a finite double. -/
theorem isNumeral_of_mem_text {style : FloatStyle} {x : Float} (hx : x.isFinite = true) {c : Char}
    (h : c ∈ (style.text x).toList) : isNumeral c = true := by
  rw [text, isNaN_eq_false_of_isFinite hx, hx] at h
  simp only [Bool.false_eq_true, Bool.not_true, if_false, String.toList_ofList] at h
  split at h
  · rcases List.mem_cons.1 h with rfl | h
    · rfl
    · exact isNumeral_of_mem_magnitudeText h
  · exact isNumeral_of_mem_magnitudeText h

/-- Taking blanks off the text of a finite double changes nothing. -/
theorem trimBlank_text (style : FloatStyle) {x : Float} (hx : x.isFinite = true) :
    Text.trimBlank (style.text x).toList = (style.text x).toList :=
  trimBlank_of_isNumeral fun _ => isNumeral_of_mem_text hx

end FloatStyle

theorem isNumeral_of_mem_integerText {n : Int} {c : Char} (h : c ∈ (integerText n).toList) :
    isNumeral c = true := by
  cases n with
  | ofNat m =>
    rw [integerText, String.toList_ofList] at h
    exact isNumeral_of_mem_toDigits h
  | negSucc m =>
    rw [integerText, String.toList_ofList] at h
    rcases List.mem_cons.1 h with rfl | h
    · rfl
    · exact isNumeral_of_mem_toDigits h

/-- Taking blanks off the text of an integer changes nothing. -/
theorem trimBlank_integerText (n : Int) :
    Text.trimBlank (integerText n).toList = (integerText n).toList :=
  trimBlank_of_isNumeral fun _ => isNumeral_of_mem_integerText

end VerbScript.Number
