import Mathlib.Data.List.Forall2
import VerbScript.Proofs.Json.Decoder
import VerbScript.Trace.Kinds
import VerbScript.Verb.RuntimeState

/-!
# Runtime states are taken over step by step

A runtime state holds the progress of the actions that have any, in order and without their
positions. `RuntimeState.restore_captured` shows that writing and reading skip the same steps, so
that each payload goes to the step it was captured from, and `Verb.value_readRuntimeState` what a
verb is which has taken over what another one captured. What an action makes of a payload is its own affair: all that is
asked of it is `Step.CanFollow`.
-/

namespace VerbScript

variable {α ω : Type} [Action α ω]

/-- A step `t` can take over the progress of a step `s` of the same kind: neither has progress, or
`t` accepts what `s` captures and then captures the same. -/
inductive Step.CanFollow (s t : Step α) : Prop where
  | idle (hkind : s.kind = t.kind) (hs : Action.progress? s.action = none)
      (ht : Action.progress? t.action = none) : CanFollow s t
  | resumable {p q r : Progress α} {a : α} (hkind : s.kind = t.kind)
      (hs : Action.progress? s.action = some p) (ht : Action.progress? t.action = some q)
      (haccept : q.restore p.captured = (.ok (), a)) (ha : Action.progress? a = some r)
      (hsame : r.captured = p.captured) : CanFollow s t

/-- The step `t` after it was handed the progress of `s`. -/
def Step.following (s t : Step α) : Step α :=
  match Action.progress? s.action, Action.progress? t.action with
  | some p, some q => { t with action := (q.restore p.captured).2 }
  | _, _ => t

namespace Step

theorem following_of_progress?_eq_none (s : Step α) {t : Step α}
    (ht : Action.progress? t.action = none) : s.following t = t := by
  unfold following
  split
  · next heq => rw [ht] at heq; cases heq
  · rfl

theorem CanFollow.kind_eq {s t : Step α} (h : s.CanFollow t) : s.kind = t.kind := by
  cases h with
  | idle hkind => exact hkind
  | resumable hkind => exact hkind

/-- A step that followed another one captures what that one captures. -/
theorem CanFollow.captured_following {s t : Step α} (h : s.CanFollow t) :
    (Action.progress? (s.following t).action).map Progress.captured =
      (Action.progress? s.action).map Progress.captured := by
  cases h with
  | idle _ hs ht => rw [following_of_progress?_eq_none s ht, ht, hs]
  | resumable _ hs ht haccept ha hsame => simp [following, hs, ht, haccept, ha, hsame]

end Step

namespace RuntimeState

/-- What was captured from steps is handed to the steps that can follow them, each entry to the one
at the position that it was captured from. -/
theorem restore_captured (index : Nat) {ss ts : List (Step α)}
    (h : List.Forall₂ Step.CanFollow ss ts) :
    restore index ts (captured ss) =
      (.ok (captured ss).length, List.zipWith Step.following ss ts) := by
  induction h generalizing index with
  | nil => rfl
  | @cons s t ss ts hst _ ih =>
    cases hst with
    | idle _ hs ht =>
      have hcaptured : captured (s :: ss) = captured ss := by simp [captured, hs]
      rw [hcaptured, restore, ht]
      simp only [ih, List.zipWith_cons_cons, Step.following_of_progress?_eq_none s ht]
    | @resumable p q r a _ hs ht haccept ha hsame =>
      have hcaptured : captured (s :: ss) = p.captured :: captured ss := by simp [captured, hs]
      have hfollow : s.following t = { t with action := a } := by
        simp [Step.following, hs, ht, haccept]
      rw [hcaptured, restore, ht]
      simp only [haccept, ih, List.zipWith_cons_cons, hfollow, Except.map, List.length_cons]

/-- Steps that followed others capture what these capture. -/
theorem captured_zipWith_following {ss ts : List (Step α)}
    (h : List.Forall₂ Step.CanFollow ss ts) :
    captured (List.zipWith Step.following ss ts) = captured ss := by
  induction h with
  | nil => rfl
  | @cons s t ss ts hst _ ih =>
    have hhead := hst.captured_following
    simp only [captured] at ih ⊢
    rw [List.zipWith_cons_cons, List.filterMap_cons, List.filterMap_cons, hhead, ih]

/-- The pointer and the entries of a runtime state are read as they were written. -/
theorem envelope_runtimeState {v : Verb α} (h : Number.FitsInt64 v.ip) :
    envelope v.runtimeState = .ok (v.ip, captured v.steps) :=
  Json.Decoder.record₂_object (by decide) (Json.Decoder.int64_int h) (Json.Decoder.items_any _)

end RuntimeState

namespace Trace

/-- A pause takes over the seconds that another one captured, if they are finite. -/
theorem Pause.restore_captured (a b : Pause) (h : a.elapsed.isFinite = true) :
    b.restore (.object [(Pause.elapsedKey, .ofFloat a.elapsed)]) =
      (.ok (), { b with elapsed := a.elapsed }) := by
  rw [Json.ofFloat, if_pos h]
  rfl

theorem canFollow_pause (a b : Pause) (h : a.elapsed.isFinite = true) (kind : String) :
    Step.CanFollow (⟨kind, .pause a⟩ : Step TraceAction) ⟨kind, .pause b⟩ := by
  refine .resumable rfl rfl rfl (a := .pause { b with elapsed := a.elapsed }) ?_ rfl rfl
  simp only [Progress.mapAction, Pause.restore_captured a b h]
  rfl

theorem following_pause (a b : Pause) (h : a.elapsed.isFinite = true) (kind : String) :
    Step.following (⟨kind, .pause a⟩ : Step TraceAction) ⟨kind, .pause b⟩ =
      ⟨kind, .pause { b with elapsed := a.elapsed }⟩ := by
  show Step.mk kind ((b.restore (.object [(Pause.elapsedKey, .ofFloat a.elapsed)])).map id
    TraceAction.pause).2 = _
  rw [Pause.restore_captured a b h]
  rfl

/-- Two pauses with the given seconds behind them, each after a step without progress. -/
def twoPauses (first second : Float) : List (Step TraceAction) :=
  [⟨"note", .note {}⟩, ⟨"pause", .pause { elapsed := first }⟩, ⟨"broken", .broken {}⟩,
    ⟨"pause", .pause { elapsed := second }⟩]

theorem canFollow_twoPauses {x y : Float} (hx : x.isFinite = true) (hy : y.isFinite = true)
    (x' y' : Float) : List.Forall₂ Step.CanFollow (twoPauses x y) (twoPauses x' y') :=
  .cons (.idle rfl rfl rfl) (.cons (canFollow_pause { elapsed := x } _ hx _)
    (.cons (.idle rfl rfl rfl) (.cons (canFollow_pause { elapsed := y } _ hy _) .nil)))

end Trace

namespace Verb

open Trace (twoPauses canFollow_twoPauses following_pause)

/-- Verbs of the same length are in the same phase where their pointers agree. -/
theorem phase_congr {v w : Verb α} (hip : w.ip = v.ip) (hlength : w.steps.length = v.steps.length) :
    w.phase = v.phase := by
  simp only [phase, current?, hip, hlength]

/-- A runtime state is taken over by a verb whose steps can follow those it was captured from. -/
theorem value_readRuntimeState {v u : Verb α} (h : List.Forall₂ Step.CanFollow v.steps u.steps)
    (hlow : notStarted ≤ v.ip) (hhigh : v.ip ≤ v.steps.length) (hfits : Number.FitsInt64 v.ip) :
    (u.readRuntimeState v.runtimeState).value =
      (.ok (), { u with steps := List.zipWith Step.following v.steps u.steps, ip := v.ip }) := by
  have hrange : ¬ (v.ip < notStarted ∨ (u.steps.length : Int) < v.ip) := by
    have := h.length_eq
    omega
  simp only [readRuntimeState, RuntimeState.envelope_runtimeState hfits, if_neg hrange,
    RuntimeState.restore_captured 0 h]

/-- A verb that reads what another one wrote is then in the same runtime state, if its steps can
follow the other's: the pointer and the phase are the other's, each step has been handed the
progress of the step at its own position, and nothing else has changed. -/
theorem readRuntimeState_runtimeState {v u : Verb α}
    (h : List.Forall₂ Step.CanFollow v.steps u.steps) (hlow : notStarted ≤ v.ip)
    (hhigh : v.ip ≤ v.steps.length) (hfits : Number.FitsInt64 v.ip) :
    ∃ w : Verb α, (u.readRuntimeState v.runtimeState).value = (.ok (), w) ∧
      w.ip = v.ip ∧ w.phase = v.phase ∧ w.runtimeState = v.runtimeState ∧
      (∀ (i : Nat) (s t : Step α), v.steps[i]? = some s → u.steps[i]? = some t →
        w.steps[i]? = some (s.following t)) ∧
      (∀ (i : Nat) (t : Step α), u.steps[i]? = some t → Action.progress? t.action = none →
        w.steps[i]? = some t) ∧
      w.id = u.id ∧ w.policy = u.policy ∧ w.steps.length = u.steps.length := by
  have hlength : (List.zipWith Step.following v.steps u.steps).length = u.steps.length := by
    rw [List.length_zipWith, h.length_eq, Nat.min_self]
  have hstep (i : Nat) (s t : Step α) (hs : v.steps[i]? = some s) (ht : u.steps[i]? = some t) :
      (List.zipWith Step.following v.steps u.steps)[i]? = some (s.following t) := by
    rw [List.getElem?_zipWith, hs, ht]
  refine ⟨_, value_readRuntimeState h hlow hhigh hfits, rfl, ?_, ?_, hstep, ?_, rfl, rfl, hlength⟩
  · exact phase_congr rfl (hlength.trans h.length_eq.symm)
  · simp only [runtimeState, RuntimeState.captured_zipWith_following h]
  · intro i t ht hidle
    obtain ⟨s, hs⟩ : ∃ s, v.steps[i]? = some s := by
      have := h.length_eq ▸ (List.getElem?_eq_some_iff.1 ht).1
      exact ⟨_, List.getElem?_eq_getElem this⟩
    rw [hstep i s t hs ht, Step.following_of_progress?_eq_none s hidle]

/-- Two pauses keep their seconds apart when they are handed to two others. -/
theorem readRuntimeState_runtimeState_twoPauses :
    ∃ w : Verb Trace.TraceAction,
      (readRuntimeState { id := "u", steps := twoPauses 0.0 0.0, policy := .abort }
        (runtimeState { id := "v", steps := twoPauses 2.5 0.5, ip := 3 })).value = (.ok (), w) ∧
      w.ip = 3 ∧ w.phase = .suspended 3 ∧ w.id = "u" ∧
      w.steps[1]? = some ⟨"pause", .pause { elapsed := 2.5 }⟩ ∧
      w.steps[3]? = some ⟨"pause", .pause { elapsed := 0.5 }⟩ := by
  have hfirst : (2.5 : Float).isFinite = true := by decide +kernel
  have hsecond : (0.5 : Float).isFinite = true := by decide +kernel
  obtain ⟨w, hw, hip, hphase, -, hsteps, -, hid, -⟩ := readRuntimeState_runtimeState
    (v := { id := "v", steps := twoPauses 2.5 0.5, ip := 3 })
    (u := { id := "u", steps := twoPauses 0.0 0.0, policy := .abort })
    (canFollow_twoPauses hfirst hsecond _ _) (by decide) (by decide) (by decide)
  refine ⟨w, hw, hip, hphase, hid, ?_, ?_⟩
  · rw [hsteps 1 _ _ rfl rfl, following_pause { elapsed := 2.5 } _ hfirst]
  · rw [hsteps 3 _ _ rfl rfl, following_pause { elapsed := 0.5 } _ hsecond]

end Verb

end VerbScript
