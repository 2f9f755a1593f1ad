/-!
# The order of doubles around zero

A comparison with a double that is no number is never true, so that a double which is not at most
zero need not be positive. A finite one is (`pos_of_not_le_zero`).
-/

namespace VerbScript.Number

open Float.Model (UnpackedFloat)

theorem unpack_zero : (0.0 : Float).toModel.unpack = .zero .positive := by rfl

theorem le_zero_iff {x : Float} : x ≤ 0.0 ↔ x.toModel.unpack.le (.zero .positive) = true := by
  rw [← unpack_zero]
  exact decide_eq_true_iff

theorem zero_lt_iff {x : Float} :
    0.0 < x ↔ UnpackedFloat.lt (.zero .positive) x.toModel.unpack = true := by
  rw [← unpack_zero]
  exact decide_eq_true_iff

theorem zero_le_zero : (0.0 : Float) ≤ 0.0 := le_zero_iff.2 (by rw [unpack_zero]; rfl)

/-- A finite double that is not at most zero is positive. -/
theorem pos_of_not_le_zero {x : Float} (hfinite : x.isFinite = true) (h : ¬ x ≤ 0.0) :
    0.0 < x := by
  rw [Float.isFinite, Float.Model.isFinite] at hfinite
  rw [le_zero_iff] at h
  rw [zero_lt_iff]
  cases hx : x.toModel.unpack with
  | notANumber => rw [hx] at hfinite; cases hfinite
  | infinity => rw [hx] at hfinite; cases hfinite
  | zero => rw [hx] at h; exact absurd rfl h
  | finite s =>
    cases s with
    | positive => rfl
    | negative => rw [hx] at h; exact absurd rfl h

/-- A positive double is not at most zero. -/
theorem not_le_zero_of_pos {x : Float} (h : 0.0 < x) : ¬ x ≤ 0.0 := by
  rw [zero_lt_iff] at h
  rw [le_zero_iff]
  cases hx : x.toModel.unpack with
  | notANumber => rw [hx] at h; cases h
  | infinity s =>
    rw [hx] at h
    cases s with
    | positive => nofun
    | negative => cases h
  | zero => rw [hx] at h; cases h
  | finite s =>
    rw [hx] at h
    cases s with
    | positive => nofun
    | negative => cases h

end VerbScript.Number
