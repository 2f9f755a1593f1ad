import VerbScript.Action.Property
import VerbScript.Proofs.Number.FloatText

/-!
# Values of properties and their texts

Whatever a domain makes of a text it admits (`Domain.admits_of_coerce`), and the text of a value
that it admits stands for that value again (`Domain.coerce_raw`). For doubles this rests on the
double's own text being read back (`ReadsBack`).
-/

namespace VerbScript.Property

/-- A double whose text in a document is read as the double where it is the text of a property. -/
def ReadsBack (x : Float) : Prop :=
  Number.readFloat? (Json.Number.text (.float x)).toList = some x

instance (x : Float) : Decidable (ReadsBack x) := inferInstanceAs (Decidable (_ = _))

/-- The values of a domain. -/
inductive Domain.Admits : Domain → Value → Prop where
  | bool (b : Bool) : Admits .bool (.bool b)
  | int {n : Int} (hn : Number.FitsInt64 n) : Admits .int (.int n)
  | float {x : Float} (hx : x.isFinite = true) : Admits .float (.float x)
  | text (s : String) : Admits .text (.text s)
  | choice {allowed : List String} {s : String} (hs : s ∈ allowed) :
      Admits (.choice allowed) (.text s)

/-- The text that stands for a value in a document. -/
def Value.raw : Value → String
  | bool b => if b then "true" else "false"
  | int n => Number.integerText n
  | float x => Json.Number.text (.float x)
  | text s => s

namespace Domain

/-- What a domain makes of a text is one of its values. -/
theorem admits_of_coerce {d : Domain} {raw : String} {v : Value} (h : d.coerce raw = .ok v) :
    d.Admits v := by
  cases d with
  | bool =>
    simp only [coerce] at h
    split at h
    · cases h
      exact .bool true
    · split at h
      · cases h
        exact .bool false
      · cases h
  | int =>
    simp only [coerce] at h
    split at h
    · next n hn =>
      cases h
      rw [Number.int64?, Option.filter_eq_some_iff, decide_eq_true_eq] at hn
      exact .int hn.2
    · cases h
  | float =>
    simp only [coerce] at h
    split at h
    · split at h
      · next hx =>
        cases h
        exact .float hx
      · cases h
    · cases h
  | text =>
    cases h
    exact .text raw
  | choice allowed =>
    simp only [coerce] at h
    split at h
    · next hs =>
      cases h
      exact .choice hs
    · cases h

/-- The text of a value of a domain stands for the value. -/
theorem coerce_raw {d : Domain} {v : Value} (h : d.Admits v)
    (hfloat : ∀ x, v = .float x → ReadsBack x) : d.coerce v.raw = .ok v := by
  cases h with
  | bool b =>
    cases b with
    | false => rfl
    | true => rfl
  | @int n hn => simp only [Value.raw, coerce, Number.trimBlank_integerText,
      Number.int64?_integerText hn]
  | @float x hx =>
    have htrim := Number.FloatStyle.trimBlank_text .document hx
    have hread : Number.readFloat? (Text.trimBlank (Json.Number.text (.float x)).toList) = some x :=
      (congrArg Number.readFloat? htrim).trans (hfloat x rfl)
    simp only [Value.raw, coerce, hread, hx, if_true]
  | text s => rfl
  | choice hs => exact if_pos hs

end Domain

end VerbScript.Property
