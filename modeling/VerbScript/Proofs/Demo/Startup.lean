import VerbScript.Demo.Startup
import VerbScript.Proofs.Verb.Coercion

/-!
# Integers from outside

The demo takes integers from definitions, where a property may be one, and from the environment,
which may name the tick to save at. Both are read exactly (`integers_exact`): a text stands for the
number that its digits have, or for none if that is too large for its word or no tick.
-/

namespace VerbScript.Demo

open Number (SignedText UnsignedText)
open Property (Domain)

/-- A tick to save at is written as an unsigned integer from one on that fits a word. -/
theorem tick?_eq_some_iff {raw : String} {n : Nat} :
    (Number.word64? (Text.trimBlank raw.toList)).filter (fun n => decide (0 < n)) = some n ↔
      UnsignedText raw n ∧ 1 ≤ n ∧ n < 2 ^ 64 := by
  rw [Option.filter_eq_some_iff, decide_eq_true_iff, Number.word64?_eq_some_iff,
    Number.unsignedText_iff, and_assoc, and_comm (a := n < 2 ^ 64), Nat.succ_le_iff]

theorem readSavePlan_eq_some_iff {raw saves : String} {plan : SavePlan} :
    (readSavePlan (some raw) saves).value = some plan ↔
      plan.path = Path.join saves saveName ∧ UnsignedText raw plan.atTick ∧ 1 ≤ plan.atTick ∧
        plan.atTick < 2 ^ 64 := by
  obtain ⟨atTick, path⟩ := plan
  rw [← tick?_eq_some_iff, readSavePlan]
  split
  · next n htick => simp [htick, eq_comm, and_comm]
  · next htick => simp [htick]

theorem readSavePlan_eq_none_iff {raw saves : String} :
    (readSavePlan (some raw) saves).value = none ↔
      ∀ n, UnsignedText raw n → ¬ (1 ≤ n ∧ n < 2 ^ 64) := by
  simp only [← not_and, ← tick?_eq_some_iff]
  rw [readSavePlan]
  split
  · next n htick => simp [htick]
  · next htick => simp [htick]

/-- A text stands for the integer `n` as the value of a property exactly if it is a run of decimal
digits of the value `n`, with at most one sign before it and nothing but blanks around it, and `n`
fits a signed word; any other text is refused. It stands for the tick `n` to save at exactly if it
is such a run with at most a plus before it, and `n` is positive and fits an unsigned word; any
other text makes no plan. -/
theorem integers_exact (raw : String) :
    (∀ v, Domain.int.coerce raw = .ok v ↔
      ∃ n, v = .int n ∧ SignedText raw n ∧ -2 ^ 63 ≤ n ∧ n < 2 ^ 63) ∧
    (∀ e, Domain.int.coerce raw = .error e ↔
      e = .integer ∧ ∀ n, SignedText raw n → ¬ (-2 ^ 63 ≤ n ∧ n < 2 ^ 63)) ∧
    (∀ saves plan, (readSavePlan (some raw) saves).value = some plan ↔
      plan.path = Path.join saves saveName ∧ UnsignedText raw plan.atTick ∧ 1 ≤ plan.atTick ∧
        plan.atTick < 2 ^ 64) ∧
    (∀ saves, (readSavePlan (some raw) saves).value = none ↔
      ∀ n, UnsignedText raw n → ¬ (1 ≤ n ∧ n < 2 ^ 64)) :=
  ⟨fun _ => Domain.coerce_int_eq_ok_iff, fun _ => Domain.coerce_int_eq_error_iff,
    fun _ _ => readSavePlan_eq_some_iff, fun _ => readSavePlan_eq_none_iff⟩

end VerbScript.Demo
