import VerbScript.Proofs.Catalog.RuntimeState
import VerbScript.Proofs.Demo.Kinds
import VerbScript.Proofs.Json.Pretty

/-!
# The progress of the demo's verbs

Whatever becomes of an action of the demo in the life of its verb, only the time at which a wait
began changes (`DemoAction.unstarted_of_moved`), and that time is the whole of its progress. So of
two verbs that were made from one, the second can be brought to the state of the first
(`resumable_of_kin`), and the runtime state of a verb is a value that a text can hold
(`readable_runtimeState`), if the times at which its waits began read back (`Kept`).
-/

namespace VerbScript.Demo

open Json (ReadsBack Readable)

/-- The time at which a wait began. -/
def DemoAction.startedAt? : DemoAction → Option Float
  | .wait a => a.startedAt
  | _ => none

/-- The action as if it had not been executed. -/
def DemoAction.unstarted : DemoAction → DemoAction
  | .wait a => .wait { a with startedAt := none }
  | a => a

/-- The pointer of a verb is a word, and the times at which its waits began read back. -/
def Kept (v : Verb DemoAction) : Prop :=
  Number.FitsInt64 v.ip ∧ ∀ s ∈ v.steps, ∀ x ∈ s.action.startedAt?, ReadsBack x

instance (v : Verb DemoAction) : Decidable (Kept v) := inferInstanceAs (Decidable (_ ∧ _))

/-! ## Moved steps -/

theorem DemoAction.unstarted_of_moved {s t : Step DemoAction} (h : s.Moved t) :
    t.action.unstarted = s.action.unstarted := by
  induction h with
  | refl => rfl
  | @execute t _ w ih =>
    rcases execute_action t.action w with h | ⟨b, startedAt, hb, h⟩
    · rw [h, ih]
    · rw [h, ← ih, hb]
      rfl
  | @cancel t _ a events ha ih =>
    rw [← ih]
    cases ht : t.action with
    | wait b =>
      rw [ht] at ha
      cases ha
      rfl
    | _ => rw [ht] at ha; cases ha
  | @restore t _ p hp payload ih =>
    rw [← ih]
    cases ht : t.action with
    | wait b =>
      rw [ht] at hp
      cases hp
      obtain ⟨startedAt, hrestore⟩ := b.restore_snd payload
      show DemoAction.unstarted (.wait (b.restore payload).2) = _
      rw [hrestore]
      rfl
    | _ => rw [ht] at hp; cases hp

/-- A wait takes over the time at which another one began, if it is finite. -/
theorem Wait.restore_captured (b : Wait) {startedAt : Option Float}
    (h : ∀ x ∈ startedAt, x.isFinite = true) :
    b.restore (.object [(startedKey, (startedAt.map Json.ofFloat).getD .null)]) =
      (.ok (), { b with startedAt }) := by
  cases startedAt with
  | none => rfl
  | some x =>
    rw [Option.map_some, Option.getD_some, Json.ofFloat, if_pos (h x rfl)]
    rfl

/-- A step follows another one that differs in no more than when a wait began, and is then the same,
if that time is finite. -/
theorem canFollow_of_unstarted {s t : Step DemoAction} (hkind : s.kind = t.kind)
    (h : s.action.unstarted = t.action.unstarted)
    (hfinite : ∀ x ∈ s.action.startedAt?, x.isFinite = true) :
    s.CanFollow t ∧ s.following t = s := by
  obtain ⟨kind, a⟩ := s
  obtain ⟨_, b⟩ := t
  cases hkind
  cases a with
  | wait a =>
    cases b with
    | wait b =>
      obtain ⟨comment, time, startedAt⟩ := a
      obtain ⟨_, _, startedAt'⟩ := b
      cases h
      have hfinite : ∀ x ∈ startedAt, x.isFinite = true := hfinite
      have hrestore := Wait.restore_captured ⟨comment, time, startedAt'⟩ hfinite
      have haccept : ((Wait.restore ⟨comment, time, startedAt'⟩
          (.object [(Wait.startedKey, (startedAt.map Json.ofFloat).getD .null)])).map id
            DemoAction.wait) = (.ok (), .wait ⟨comment, time, startedAt⟩) := by
        rw [hrestore]
        rfl
      exact ⟨.resumable rfl rfl rfl haccept rfl rfl,
        congrArg (fun r => Step.mk kind r.2) haccept⟩
    | _ => cases h
  | _ =>
    cases b
    all_goals cases h
    all_goals exact ⟨.idle rfl rfl rfl, rfl⟩

/-- Moved copies of the same steps can follow each other, and are then the same, if the times at
which the first ones began read back. -/
theorem canFollow_of_kin {ss ts : List (Step DemoAction)} (h : List.Forall₂ Step.Kin ss ts)
    (htimes : ∀ s ∈ ss, ∀ x ∈ s.action.startedAt?, ReadsBack x) :
    List.Forall₂ Step.CanFollow ss ts ∧ List.zipWith Step.following ss ts = ss := by
  induction h with
  | nil => exact ⟨.nil, rfl⟩
  | @cons s t ss ts hst _ ih =>
    rw [List.forall_mem_cons] at htimes
    obtain ⟨s₀, hs, ht⟩ := hst
    obtain ⟨hfollow, hsame⟩ := canFollow_of_unstarted (hs.kind_eq.trans ht.kind_eq.symm)
      ((DemoAction.unstarted_of_moved hs).trans (DemoAction.unstarted_of_moved ht).symm)
      fun x hx => (htimes.1 x hx).1
    obtain ⟨hfollows, hsames⟩ := ih htimes.2
    exact ⟨.cons hfollow hfollows, by rw [List.zipWith_cons_cons, hsame, hsames]⟩

/-! ## Verbs -/

/-- Of two verbs that were made from one, the second can be brought to the state of the first. -/
theorem resumable_of_kin {v u : Verb DemoAction} (hid : u.id = v.id)
    (hkin : List.Forall₂ Step.Kin v.steps u.steps) (hrange : v.InRange) (hkept : Kept v) :
    v.Resumable u := by
  obtain ⟨hfollow, hsame⟩ := canFollow_of_kin hkin hkept.2
  exact ⟨hid, hfollow, hsame, hrange, hkept.1⟩

theorem readable_captured {s : Step DemoAction} {p : Progress DemoAction}
    (hp : Action.progress? s.action = some p) (htimes : ∀ x ∈ s.action.startedAt?, ReadsBack x)
    (depth : Nat) : Readable (depth + 1) p.captured := by
  cases hs : s.action with
  | wait a =>
    rw [hs] at hp htimes
    cases hp
    refine .object (by simp) fun m hm => ?_
    obtain rfl := List.mem_singleton.1 hm
    show Readable depth ((a.startedAt.map Json.ofFloat).getD .null)
    cases hstarted : a.startedAt with
    | none => exact .null depth
    | some x => exact .ofFloat depth (htimes x hstarted)
  | _ => rw [hs] at hp; cases hp

/-- The runtime state of a verb is a value that a text can hold. -/
theorem readable_runtimeState {v : Verb DemoAction} (h : Kept v) (depth : Nat) :
    Readable (depth + 3) v.runtimeState := by
  refine .object (by simp [RuntimeState.ipKey, Definition.actionsKey]) ?_
  simp only [List.forall_mem_cons]
  refine ⟨?_, ?_, List.forall_mem_nil _⟩
  · refine .int _ h.1.1 (Int.lt_trans h.1.2 ?_)
    decide
  · refine .array fun e he => ?_
    obtain ⟨s, hs, hcaptured⟩ := List.mem_filterMap.1 he
    obtain ⟨p, hp, rfl⟩ := Option.map_eq_some_iff.1 hcaptured
    exact readable_captured hp (h.2 s hs) depth

/-- The runtime states of the verbs of a catalog are values that a text can hold. -/
theorem readable_catalog {c : Catalog DemoAction} (h : ∀ e ∈ c.verbs.entries, Kept e.2)
    (depth : Nat) :
    Readable (depth + 4)
      (.object (c.verbs.entries.map fun (id, v) => (id, v.runtimeState))) := by
  refine .object ?_ fun m hm => ?_
  · simpa only [List.map_map, Function.comp_def] using c.verbs.nodup_keys
  · obtain ⟨e, he, rfl⟩ := List.mem_map.1 hm
    exact readable_runtimeState (h e he) depth

end VerbScript.Demo
