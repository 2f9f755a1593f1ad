import VerbScript.Proofs.Catalog.Restoring
import VerbScript.Proofs.Json.Decoder

/-!
# The order of runtime states

The states in a document may stand in any order: a catalog takes them over in each order or in none,
and is the same catalog then (`Catalog.readRuntimeState_reordered`). That a verb takes its state over
does not touch the other verbs, so two states that follow each other can be exchanged
(`Catalog.Accepts.swap`). A document that is refused does not have this property: which verbs have
taken their states over by then depends on the order.
-/

namespace VerbScript.Catalog

variable {α ω : Type} [Action α ω] {c d : Catalog α} {id id' : String}
  {states states' : List (String × Json)} {payload payload' : Json}

/-- The document holds the states, in this order. -/
def HoldsStates (states : List (String × Json)) : Json → Prop :=
  Json.Holds verbsKey (.object states)

theorem runtimeEnvelope_eq_ok_iff :
    runtimeEnvelope payload = .ok states ↔ HoldsStates states payload := by
  simp only [runtimeEnvelope, Json.Decoder.record₁_eq_ok_iff, Json.Decoder.members_eq_ok_iff,
    exists_eq_right, HoldsStates]

/-! ## States in a row -/

theorem set_comm (hne : id ≠ id') (c : Catalog α) (v w : Verb α) :
    (c.set id v).set id' w = (c.set id' w).set id v := by
  refine ext_get? rfl fun key => ?_
  simp only [get?_set]
  by_cases hkey : key = id
  · have hkey' : key ≠ id' := hkey ▸ hne
    simp only [if_pos hkey, if_neg hkey']
  · simp only [if_neg hkey]

/-- States of different verbs can be exchanged. -/
theorem Accepts.swap {state state' : Json} (hne : id ≠ id')
    (h : Accepts c ((id, state) :: (id', state') :: states) d) :
    Accepts c ((id', state') :: (id, state) :: states) d := by
  cases h with
  | @cons _ _ _ _ v w _ hv hread h =>
    cases h with
    | @cons _ _ _ _ v' w' _ hv' hread' h =>
      rw [get?_set_of_ne hne.symm] at hv'
      rw [set_comm hne] at h
      exact .cons hv' hread' (.cons ((get?_set_of_ne hne c w').trans hv) hread h)

/-- States of verbs that are told apart are taken over in any order, with the same result. -/
theorem Accepts.perm (hperm : states.Perm states') (hkeys : (states.map (·.1)).Nodup)
    (h : Accepts c states d) : Accepts c states' d := by
  induction hperm generalizing c with
  | nil => exact h
  | cons s _ ih =>
    cases h with
    | cons hv hread h => exact .cons hv hread (ih (List.nodup_cons.1 hkeys).2 h)
  | swap s s' states =>
    refine h.swap fun heq => ?_
    simp [heq] at hkeys
  | trans hfirst _ ih ih' => exact ih' ((hfirst.map _).nodup_iff.1 hkeys) (ih hkeys h)

theorem Accepts.contains (h : Accepts c states d) : ∀ s ∈ states, c.contains s.1 = true := by
  induction h with
  | nil => exact List.forall_mem_nil _
  | @cons c d id state v w rest hv _ _ ih =>
    refine List.forall_mem_cons.2 ⟨?_, fun s hs => (contains_set c id s.1 w).symm.trans (ih s hs)⟩
    show (c.get? id).isSome = true
    rw [hv]
    rfl

theorem value_readStates_of_accepts (h : Accepts c states d) :
    (c.readStates states).value = (.ok (), d) := by
  induction h with
  | nil => rfl
  | cons hv hread _ ih =>
    rw [readStates, hv]
    simp only [hread, Traced.value_after, ih]

theorem accepts_of_value_readStates (hknown : ∀ s ∈ states, c.contains s.1 = true)
    (h : (c.readStates states).value = (.ok (), d)) : Accepts c states d := by
  induction states generalizing c with
  | nil =>
    cases h
    exact .nil _
  | cons s rest ih =>
    obtain ⟨id, state⟩ := s
    rw [List.forall_mem_cons] at hknown
    obtain ⟨v, hv⟩ := Option.isSome_iff_exists.1 hknown.1
    rw [readStates, show c.get? id = some v from hv] at h
    cases hread : (v.readRuntimeState state).value with
    | mk result w =>
      simp only [hread] at h
      cases result with
      | error => cases h
      | ok =>
        refine .cons hv hread (ih (fun s hs => ?_) h)
        rw [contains_set]
        exact hknown.2 s hs

/-! ## Documents -/

/-- A document is taken over exactly if its states are, one after the other. -/
theorem readRuntimeState_eq_ok_iff (hstates : HoldsStates states payload) :
    (c.readRuntimeState payload).value = (.ok (), d) ↔ Accepts c states d := by
  rw [readRuntimeState, runtimeEnvelope_eq_ok_iff.2 hstates]
  simp only
  split
  · next id state hunknown =>
    have hmem := List.mem_of_find?_eq_some hunknown
    have hcontains := List.find?_some hunknown
    refine iff_of_false (fun h => ?_) fun h => ?_
    · cases h
    · simp [h.contains _ hmem] at hcontains
  · next hknown =>
    have hknown : ∀ s ∈ states, c.contains s.1 = true := by
      simpa using List.find?_eq_none.1 hknown
    exact ⟨accepts_of_value_readStates hknown, value_readStates_of_accepts⟩

/-- A catalog takes over both of two documents that hold the same states in whatever order, each under
another id, or neither of them. If it does, it is the same catalog after either of them, in which
each verb that a state is for has taken over this state, and the other verbs are as they were. -/
theorem readRuntimeState_reordered (c : Catalog α) (hstates : HoldsStates states payload)
    (hstates' : HoldsStates states' payload') (hperm : states.Perm states')
    (hkeys : (states.map (·.1)).Nodup) :
    ((c.readRuntimeState payload).value.1 = .ok () ↔
      (c.readRuntimeState payload').value.1 = .ok ()) ∧
    ∀ d, (c.readRuntimeState payload).value = (.ok (), d) →
      (c.readRuntimeState payload').value = (.ok (), d) ∧
      (∀ s ∈ states, c.TookOver d s) ∧
      ∀ id, id ∉ states.map (·.1) → d.get? id = c.get? id := by
  have hsame (d : Catalog α) : (c.readRuntimeState payload).value = (.ok (), d) ↔
      (c.readRuntimeState payload').value = (.ok (), d) := by
    rw [readRuntimeState_eq_ok_iff hstates, readRuntimeState_eq_ok_iff hstates']
    exact ⟨.perm hperm hkeys, .perm hperm.symm ((hperm.map _).nodup_iff.1 hkeys)⟩
  refine ⟨⟨fun h => ?_, fun h => ?_⟩, fun d hd => ?_⟩
  · exact congrArg Prod.fst ((hsame _).1 (Prod.ext h rfl))
  · exact congrArg Prod.fst ((hsame _).2 (Prod.ext h rfl))
  · have haccepts := (readRuntimeState_eq_ok_iff hstates).1 hd
    exact ⟨(hsame d).1 hd, haccepts.tookOver hkeys, fun _ => haccepts.get?_of_not_mem⟩

/-- The states of a verb with a pause and of an empty one, in either order. -/
theorem readRuntimeState_reordered_pause :
    let c : Catalog Trace.TraceAction :=
      (insert {} { id := "look", steps := [⟨"pause", .pause {}⟩] }).insert { id := "use" }
    let look : String × Json := ("look", .object
      [("ip", .int 0), ("actions", .array [.object [("elapsed", .ofFloat 2.5)]])])
    let use : String × Json := ("use", .object [("ip", .int 0), ("actions", .array [])])
    let payload := Json.object [("verbs", .object [look, use])]
    let payload' := Json.object [("verbs", .object [use, look])]
    ((HoldsStates [look, use] payload ∧ HoldsStates [use, look] payload') ∧
      [look, use].Perm [use, look] ∧ ([look, use].map (·.1)).Nodup) ∧
    ∃ d, (c.readRuntimeState payload).value = (.ok (), d) ∧
      (c.readRuntimeState payload').value = (.ok (), d) ∧
      c.TookOver d look ∧ c.TookOver d use ∧ d.get? "talk" = c.get? "talk" := by
  intro c look use payload payload'
  have hstates : HoldsStates [look, use] payload := .object rfl
  have hstates' : HoldsStates [use, look] payload' := .object rfl
  have hperm : [look, use].Perm [use, look] := .swap use look []
  have hkeys : ([look, use].map (·.1)).Nodup := by decide
  obtain ⟨-, hsame⟩ := readRuntimeState_reordered c hstates hstates' hperm hkeys
  have hread : (c.readRuntimeState payload).value =
      (.ok (), (c.readRuntimeState payload).value.2) := rfl
  obtain ⟨hread', htook, hkept⟩ := hsame _ hread
  exact ⟨⟨⟨hstates, hstates'⟩, hperm, hkeys⟩, _, hread, hread', htook look (by simp),
    htook use (by simp), hkept "talk" (by decide)⟩

end VerbScript.Catalog
