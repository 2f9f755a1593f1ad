import VerbScript.Proofs.Number.Integer
import VerbScript.Proofs.Verb.Definition

/-!
# The values that texts stand for

What a domain makes of a text is one of its values, each of its values is made of some text, and a
value is written in a definition so that it is read back (`Property.Domain.coerces_exactly`). Blanks
around a truth value or a number make no difference (`coerce_of_padded`), whereas a text is taken as
it stands, blanks included. An integer is written with decimal digits and at most one sign, and fits
a signed word of 64 bits (`coerce_int_eq_ok_iff`).
-/

namespace VerbScript.Property.Domain

/-- Blanks around a truth value or a number make no difference. -/
theorem coerce_of_padded {d : Domain} (hd : d = bool ∨ d = int ∨ d = float) {raw padded : String}
    (hpadded : Text.Padded raw.toList padded.toList) : d.coerce padded = d.coerce raw := by
  have htrim := hpadded.trimBlank_eq
  rcases hd with rfl | rfl | rfl
  · have hword : Text.trim padded = Text.trim raw := congrArg String.ofList htrim
    simp only [coerce, hword]
  · simp only [coerce, htrim]
  · simp only [coerce, htrim]

/-- A listed text is taken as it stands, and no other text is. -/
theorem coerce_choice_eq_ok_iff {allowed : List String} {raw : String} {v : Value} :
    (choice allowed).coerce raw = .ok v ↔ v = .text raw ∧ raw ∈ allowed := by
  simp only [coerce]
  split
  · next hmem => simp [hmem, eq_comm]
  · next hmem => simp [hmem]

/-- A text stands for an integer exactly if it is written as one that fits a word. -/
theorem coerce_int_eq_ok_iff {raw : String} {v : Value} :
    int.coerce raw = .ok v ↔
      ∃ n, v = .int n ∧ Number.SignedText raw n ∧ -2 ^ 63 ≤ n ∧ n < 2 ^ 63 := by
  simp only [Number.signedText_iff, ← Number.int64?_eq_some_iff, coerce]
  cases Number.int64? (Text.trimBlank raw.toList) <;> simp [eq_comm]

/-- A text is refused as an integer exactly if it is not written as one that fits a word. -/
theorem coerce_int_eq_error_iff {raw : String} {e : Expectation} :
    int.coerce raw = .error e ↔
      e = .integer ∧ ∀ n, Number.SignedText raw n → ¬ (-2 ^ 63 ≤ n ∧ n < 2 ^ 63) := by
  simp only [Number.signedText_iff, ← not_and, ← Number.int64?_eq_some_iff, coerce]
  cases Number.int64? (Text.trimBlank raw.toList) <;> simp [eq_comm]

/-- What is asked of how the domain `d` reads texts. -/
structure CoercesExactly (d : Domain) : Prop where
  /-- What is read is a value of the domain. -/
  admits {raw : String} {v : Value} (h : d.coerce raw = .ok v) : d.Admits v
  /-- Every value of the domain is read from some text; a double is, if its own text is read back. -/
  reaches {v : Value} (h : d.Admits v) (hfloat : ∀ x, v = .float x → ReadsBack x) :
    ∃ raw, d.coerce raw = .ok v
  /-- What is read is written so that it is read back; a double is, if its own text is. -/
  written {raw : String} {v : Value} (h : d.coerce raw = .ok v)
    (hfloat : ∀ x, v = .float x → ReadsBack x) (index : Nat) (name : String) :
    ∃ text, Definition.propertyText index name v.toJson = .ok (some text) ∧ d.coerce text = .ok v
  /-- Blanks around a truth value or a number make no difference. -/
  padded (hd : d = bool ∨ d = int ∨ d = float) {raw padded : String}
    (hpadded : Text.Padded raw.toList padded.toList) : d.coerce padded = d.coerce raw
  /-- Every text is taken as it stands. -/
  text (hd : d = text) (raw : String) : d.coerce raw = .ok (.text raw)
  /-- A listed text is taken as it stands, and no other text is. -/
  choice {allowed : List String} (hd : d = choice allowed) {raw : String} {v : Value} :
    d.coerce raw = .ok v ↔ v = .text raw ∧ raw ∈ allowed

/-- A domain makes values of its own of texts, exactly and so that they are read back. -/
theorem coerces_exactly (d : Domain) : d.CoercesExactly where
  admits := admits_of_coerce
  reaches {v} h hfloat := ⟨v.raw, coerce_raw h hfloat⟩
  written {_ v} h hfloat index name :=
    have hadmits := admits_of_coerce h
    ⟨v.raw, Definition.propertyText_toJson hadmits index name, coerce_raw hadmits hfloat⟩
  padded hd _ _ hpadded := coerce_of_padded hd hpadded
  text hd raw := by
    rw [hd]
    rfl
  choice hd := by
    rw [hd]
    exact coerce_choice_eq_ok_iff

/-- A zero keeps its sign, in the text that it is written as too. -/
theorem coerces_exactly_zero :
    float.coerce "\u00a0-0e5 " = .ok (.float (-0.0)) ∧
    ∃ text, Definition.propertyText 2 "volume" (Value.float (-0.0)).toJson = .ok (some text) ∧
      float.coerce text = .ok (.float (-0.0)) := by
  have hcoerce : float.coerce "\u00a0-0e5 " = .ok (.float (-0.0)) := by rfl
  have hfloat : ReadsBack (-0.0) := by decide +kernel
  refine ⟨hcoerce, (coerces_exactly float).written hcoerce ?_ 2 "volume"⟩
  rintro x ⟨⟩
  exact hfloat

end VerbScript.Property.Domain
