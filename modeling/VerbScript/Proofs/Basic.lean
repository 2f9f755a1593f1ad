import Mathlib.Data.List.Forall2

/-!
# Lists and results

What is used throughout of lists that are related member by member, and of computations that can
fail.
-/

namespace VerbScript

/-! ## Lists -/

/-- Members of three lists are related in turn, and so are those of the first and the last one. -/
theorem forall₂_comp {α β γ : Type} {P : α → β → Prop} {Q : β → γ → Prop} {R : α → γ → Prop}
    {as : List α} {bs : List β} {cs : List γ} (hab : List.Forall₂ P as bs)
    (hbc : List.Forall₂ Q bs cs) (h : ∀ a b c, P a b → Q b c → R a c) : List.Forall₂ R as cs := by
  induction hab generalizing cs with
  | nil =>
    cases hbc
    exact .nil
  | cons hp _ ih =>
    cases hbc with
    | cons hq htail => exact .cons (h _ _ _ hp hq) (ih htail)

/-- Members behind the first `n` of a list are related in turn to those of another list, and the
first `n` to themselves. -/
theorem forall₂_take_append {α : Type} {R : α → α → Prop} (hrefl : ∀ a, R a a) {as bs : List α}
    {n : Nat} (h : List.Forall₂ R (as.drop n) bs) : List.Forall₂ R as (as.take n ++ bs) := by
  have htake : List.Forall₂ R (as.take n) (as.take n) := List.forall₂_same.2 fun a _ => hrefl a
  have hall : List.Forall₂ R (as.take n ++ as.drop n) (as.take n ++ bs) := List.rel_append htake h
  rwa [List.take_append_drop] at hall

/-- A member of the second of two lists that are related is related to the one in its place. -/
theorem exists_of_getElem?_forall₂ {β γ : Type} {R : β → γ → Prop} {bs : List β} {cs : List γ}
    (h : List.Forall₂ R bs cs) {i : Nat} {c : γ} (hc : cs[i]? = some c) :
    ∃ b, bs[i]? = some b ∧ R b c := by
  obtain ⟨hi, rfl⟩ := List.getElem?_eq_some_iff.1 hc
  have hi' : i < bs.length := h.length_eq ▸ hi
  exact ⟨bs[i], List.getElem?_eq_getElem hi', h.get hi' hi⟩

/-- A list has one first member that `P` does not hold of. -/
theorem eq_of_first {α : Type} {P : α → Prop} {before before' rest rest' : List α} {a a' : α}
    (h : before ++ a :: rest = before' ++ a' :: rest') (hbefore : ∀ b ∈ before, P b)
    (hbefore' : ∀ b ∈ before', P b) (ha : ¬ P a) (ha' : ¬ P a') : before = before' ∧ a = a' := by
  induction before generalizing before' with
  | nil =>
    cases before' with
    | nil => exact ⟨rfl, (List.cons.inj h).1⟩
    | cons b before' =>
      obtain ⟨rfl, -⟩ := List.cons.inj h
      exact absurd (hbefore' a List.mem_cons_self) ha
  | cons b before ih =>
    cases before' with
    | nil =>
      obtain ⟨rfl, -⟩ := List.cons.inj h
      exact absurd (hbefore b List.mem_cons_self) ha'
    | cons b' before' =>
      obtain ⟨rfl, htail⟩ := List.cons.inj h
      rw [List.forall_mem_cons] at hbefore hbefore'
      obtain ⟨rfl, rfl⟩ := ih htail hbefore.2 hbefore'.2
      exact ⟨rfl, rfl⟩

/-! ## Results -/

variable {ε δ β γ : Type}

/-- What comes of two computations comes of the second one, and that of what comes of the first. -/
theorem exists_of_bind_eq_ok {x : Except ε β} {f : β → Except ε γ} {c : γ} (h : x >>= f = .ok c) :
    ∃ b, x = .ok b ∧ f b = .ok c := by
  cases x with
  | ok b => exact ⟨b, rfl, h⟩
  | error => cases h

theorem bind_eq_ok_iff {x : Except ε β} {f : β → Except ε γ} {c : γ} :
    x >>= f = .ok c ↔ ∃ b, x = .ok b ∧ f b = .ok c := by
  refine ⟨exists_of_bind_eq_ok, ?_⟩
  rintro ⟨b, rfl, h⟩
  exact h

theorem bind_eq_error_iff {x : Except ε β} {f : β → Except ε γ} {e : ε} :
    x >>= f = .error e ↔ x = .error e ∨ ∃ b, x = .ok b ∧ f b = .error e := by
  cases x <;> simp [Bind.bind, Except.bind]

/-- What comes of a computation whose results are changed is what came of it, changed. -/
theorem exists_of_map {x : Except ε β} {f : β → γ} {c : γ} (h : x.map f = .ok c) :
    ∃ b, x = .ok b ∧ f b = c := by
  cases x with
  | error => cases h
  | ok b => exact ⟨b, rfl, by simpa [Except.map] using h⟩

theorem toOption_eq_some_iff {x : Except ε β} {b : β} : x.toOption = some b ↔ x = .ok b := by
  cases x <;> simp [Except.toOption]

theorem toOption_eq_none_iff {x : Except ε β} : x.toOption = none ↔ ∃ e, x = .error e := by
  cases x <;> simp [Except.toOption]

theorem toOption_map (f : β → γ) (x : Except ε β) : (x.map f).toOption = x.toOption.map f := by
  cases x <;> rfl

theorem toOption_mapError (f : ε → δ) (x : Except ε β) : (x.mapError f).toOption = x.toOption := by
  cases x <;> rfl

/-- What is returned with its errors renamed is returned without. -/
theorem eq_ok_of_mapError {x : Except ε β} {f : ε → δ} {b : β} (h : x.mapError f = .ok b) :
    x = .ok b := by
  cases x with
  | ok =>
    cases h
    rfl
  | error => cases h

/-- What is returned where an error was possible is returned without the error's condition. -/
theorem eq_ok_of_ite {p : Prop} [Decidable p] {e : ε} {x : Except ε β} {b : β}
    (h : (if p then .error e else x) = .ok b) : ¬ p ∧ x = .ok b := by
  split at h
  · cases h
  · next hp => exact ⟨hp, h⟩

/-- A computation returns exactly what `P` holds of, and fails with exactly what `Q` holds of. -/
structure Settles (x : Except ε β) (P : β → Prop) (Q : ε → Prop) : Prop where
  ok : ∀ b, x = .ok b ↔ P b
  error : ∀ e, x = .error e ↔ Q e

namespace Settles

variable {x : Except ε β} {P P' : β → Prop} {Q Q' : ε → Prop}

/-- What holds of something in any case decides a computation that returns it or fails with it. -/
theorem of_total (hok : ∀ b, P b → x = .ok b) (herror : ∀ e, Q e → x = .error e)
    (htotal : (∃ b, P b) ∨ ∃ e, Q e) : Settles x P Q := by
  refine ⟨fun b => ⟨fun h => ?_, hok b⟩, fun e => ⟨fun h => ?_, herror e⟩⟩
  · rcases htotal with ⟨c, hc⟩ | ⟨e, he⟩
    · cases h.symm.trans (hok c hc)
      exact hc
    · cases h.symm.trans (herror e he)
  · rcases htotal with ⟨c, hc⟩ | ⟨e', he⟩
    · cases h.symm.trans (hok c hc)
    · cases h.symm.trans (herror e' he)
      exact he

theorem total (h : Settles x P Q) : (∃ b, P b) ∨ ∃ e, Q e := by
  cases hx : x with
  | ok b => exact .inl ⟨b, (h.ok b).1 hx⟩
  | error e => exact .inr ⟨e, (h.error e).1 hx⟩

theorem pure (b : β) : Settles (Pure.pure b : Except ε β) (b = ·) fun _ => False :=
  ⟨fun _ => by simp [Pure.pure, Except.pure], fun _ => by simp [Pure.pure, Except.pure]⟩

theorem congr (h : Settles x P Q) (hok : ∀ b, P b ↔ P' b) (herror : ∀ e, Q e ↔ Q' e) :
    Settles x P' Q' where
  ok b := (h.ok b).trans (hok b)
  error e := (h.error e).trans (herror e)

/-- One computation after another returns what the second one does, and fails as either of them
does. -/
theorem bind {f : β → Except ε γ} {R : β → γ → Prop} {S : β → ε → Prop} (hx : Settles x P Q)
    (hf : ∀ b, P b → Settles (f b) (R b) (S b)) :
    Settles (x >>= f) (fun c => ∃ b, P b ∧ R b c) fun e => Q e ∨ ∃ b, P b ∧ S b e where
  ok c := by
    simp only [bind_eq_ok_iff, hx.ok]
    exact exists_congr fun b => and_congr_right fun hb => (hf b hb).ok c
  error e := by
    simp only [bind_eq_error_iff, hx.ok, hx.error]
    exact or_congr_right (exists_congr fun b => and_congr_right fun hb => (hf b hb).error e)

end Settles

end VerbScript
