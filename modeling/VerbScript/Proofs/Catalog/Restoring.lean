import VerbScript.Proofs.Catalog.Reached
import VerbScript.Trace.Kinds

/-!
# What a refused restoration leaves behind

Runtime states of a catalog are taken over verb by verb. If the document does not have the right shape
or names a verb that is not there, nothing has been touched. If a verb refuses its state, those named
before it have taken theirs over and keep them, and the other verbs are as they were
(`Catalog.readRuntimeState_refused`); the verb itself has changed only if one of its actions refuses
(`Verb.eq_or_moved_of_refused`). So a document can be refused and still change verbs
(`Catalog.not_unchanged_of_refused`).
-/

namespace VerbScript

variable {α ω : Type} [Action α ω]

/-- Steps that follow the one which refuses its entry are as they were. -/
theorem RuntimeState.restore_refused {index : Nat} {steps steps' : List (Step α)}
    {entries : List Json} {e : Refusal} (h : restore index steps entries = (.error e, steps')) :
    ∃ i, e.index = index + i ∧ i < steps.length ∧ steps'.drop (i + 1) = steps.drop (i + 1) := by
  induction steps generalizing index steps' entries with
  | nil => cases h
  | cons s rest ih =>
    rw [restore] at h
    split at h
    · cases hrest : restore (index + 1) rest entries with
      | mk result rest' =>
        rw [hrest] at h
        cases h
        obtain ⟨i, hindex, hlt, hdrop⟩ := ih hrest
        exact ⟨i + 1, by omega, Nat.succ_lt_succ hlt, hdrop⟩
    · split at h
      · cases h
      · next entry entries =>
        split at h
        · cases h
          exact ⟨0, rfl, Nat.succ_pos _, rfl⟩
        · cases hrest : restore (index + 1) rest entries with
          | mk result rest' =>
            rw [hrest] at h
            cases result with
            | ok n => cases h
            | error e' =>
              cases h
              obtain ⟨i, hindex, hlt, hdrop⟩ := ih hrest
              exact ⟨i + 1, by omega, Nat.succ_lt_succ hlt, hdrop⟩

/-- A verb that refuses a state is as it was, unless an action refuses its progress: then the pointer is
that of the state, and the steps behind that of the action are as they were. -/
theorem Verb.eq_or_moved_of_refused {v w : Verb α} {state : Json} {cause : DocumentError}
    (h : (v.readRuntimeState state).value = (.error cause, w)) :
    w = v ∨ ∃ i kind refusal, cause = .progressRefused i kind refusal ∧ i < v.steps.length ∧
      v.Moved w ∧ w.steps.drop (i + 1) = v.steps.drop (i + 1) := by
  have hmoved := v.moved_readRuntimeState state
  rw [h] at hmoved
  rw [readRuntimeState] at h
  split at h
  · cases h
    exact .inl rfl
  · next ip entries _ =>
    split at h
    · cases h
      exact .inl rfl
    · cases hrestore : RuntimeState.restore 0 v.steps entries with
      | mk result steps =>
        rw [hrestore] at h
        cases result with
        | ok applied => cases h
        | error e =>
          cases h
          obtain ⟨i, hindex, hlt, hdrop⟩ := RuntimeState.restore_refused hrestore
          obtain rfl : e.index = i := by omega
          exact .inr ⟨_, _, _, rfl, hlt, hmoved, hdrop⟩

namespace Catalog

/-- States that verbs take over one after the other, each under the id that goes with it, make the
catalog `d` of the catalog `c`. -/
inductive Accepts : Catalog α → List (String × Json) → Catalog α → Prop where
  | nil (c : Catalog α) : Accepts c [] c
  | cons {c d : Catalog α} {id : String} {state : Json} {v w : Verb α} {rest : List (String × Json)}
      (hv : c.get? id = some v) (hread : (v.readRuntimeState state).value = (.ok (), w))
      (hrest : Accepts (c.set id w) rest d) : Accepts c ((id, state) :: rest) d

/-- The verb that a state is for has taken it over. -/
def TookOver (c d : Catalog α) (s : String × Json) : Prop :=
  ∃ v w, c.get? s.1 = some v ∧ (v.readRuntimeState s.2).value = (.ok (), w) ∧ d.get? s.1 = some w

variable {c d : Catalog α} {states : List (String × Json)}

/-- Verbs that no state is for are as they were. -/
theorem Accepts.get?_of_not_mem (h : Accepts c states d) {key : String}
    (hkey : key ∉ states.map (·.1)) : d.get? key = c.get? key := by
  induction h with
  | nil => rfl
  | cons _ _ _ ih =>
    simp only [List.map_cons, List.mem_cons, not_or] at hkey
    rw [ih hkey.2, get?_set_of_ne hkey.1]

/-- A verb takes over the only state that is for it. -/
theorem Accepts.tookOver (h : Accepts c states d) (hkeys : (states.map (·.1)).Nodup) :
    ∀ s ∈ states, c.TookOver d s := by
  induction h with
  | nil => exact List.forall_mem_nil _
  | @cons c d id state v w rest hv hread hrest ih =>
    rw [List.map_cons, List.nodup_cons] at hkeys
    refine List.forall_mem_cons.2 ⟨⟨v, w, hv, hread, ?_⟩, fun s hs => ?_⟩
    · rw [hrest.get?_of_not_mem hkeys.1, get?_set_self hv]
    · have hne : s.1 ≠ id := fun heq => hkeys.1 (List.mem_map.2 ⟨s, hs, heq⟩)
      obtain ⟨u, u', hu, hrest⟩ := ih hkeys.2 s hs
      exact ⟨u, u', (get?_set_of_ne hne c w).symm.trans hu, hrest⟩

/-- States of verbs that are there are taken over one after the other, up to the first one that is
refused. -/
theorem readStates_refused {e : Error} (hknown : ∀ s ∈ states, c.contains s.1 = true)
    (h : (c.readStates states).value = (.error e, d)) :
    ∃ before id state rest c₁ v w cause, states = before ++ (id, state) :: rest ∧
      Accepts c before c₁ ∧ c₁.get? id = some v ∧
      (v.readRuntimeState state).value = (.error cause, w) ∧
      e = .verb id cause ∧ d = c₁.set id w := by
  induction states generalizing c with
  | nil => cases h
  | cons s rest ih =>
    obtain ⟨id, state⟩ := s
    rw [List.forall_mem_cons] at hknown
    obtain ⟨v, hv⟩ := Option.isSome_iff_exists.1 hknown.1
    rw [readStates, show c.get? id = some v from hv] at h
    cases hread : (v.readRuntimeState state).value with
    | mk result w =>
      simp only [hread] at h
      cases result with
      | error cause =>
        cases h
        exact ⟨[], id, state, rest, c, v, w, cause, rfl, .nil c, hv, hread, rfl, rfl⟩
      | ok =>
        have hrest : ∀ s ∈ rest, (c.set id w).contains s.1 = true := fun s hs => by
          rw [contains_set]
          exact hknown.2 s hs
        obtain ⟨before, id', state', rest', c₁, v', w', cause, rfl, haccepts, hrefused⟩ := ih hrest h
        exact ⟨(id, state) :: before, id', state', rest', c₁, v', w', cause, rfl,
          .cons hv hread haccepts, hrefused⟩

/-- A document that is refused as a whole leaves the catalog as it is. Otherwise the verbs before the one
that refuses have taken their states over, that one is as it was, unless one of its actions refused, and
the others are as they were. So nothing has changed if the first verb refuses its state as a whole. -/
theorem readRuntimeState_refused {payload : Json} {e : Error}
    (h : (c.readRuntimeState payload).value = (.error e, d)) :
    (((∃ misfit, e = .malformed misfit) ∨ ∃ id, e = .unknownVerb id ∧ c.contains id = false) ∧
      d = c) ∨
    ∃ before id state rest c₁ v w cause,
      runtimeEnvelope payload = .ok (before ++ (id, state) :: rest) ∧ e = .verb id cause ∧
      Accepts c before c₁ ∧ c₁.get? id = some v ∧
      (v.readRuntimeState state).value = (.error cause, w) ∧ d = c₁.set id w ∧
      ((before.map (·.1) ++ [id]).Nodup → c.get? id = some v ∧ ∀ s ∈ before, c.TookOver d s) ∧
      (∀ key, key ≠ id → key ∉ before.map (·.1) → d.get? key = c.get? key) ∧
      ((d = c₁ ∧ (before = [] → d = c)) ∨
        ∃ i kind refusal, cause = .progressRefused i kind refusal ∧ i < v.steps.length ∧
          v.Moved w ∧ w.steps.drop (i + 1) = v.steps.drop (i + 1)) := by
  rw [readRuntimeState] at h
  split at h
  · next misfit _ =>
    cases h
    exact .inl ⟨.inl ⟨misfit, rfl⟩, rfl⟩
  · next states henvelope =>
    split at h
    · next id state hunknown =>
      cases h
      have := List.find?_some hunknown
      exact .inl ⟨.inr ⟨id, rfl, by simpa using this⟩, rfl⟩
    · next hknown =>
      have hknown : ∀ s ∈ states, c.contains s.1 = true := by
        simpa using List.find?_eq_none.1 hknown
      obtain ⟨before, id, state, rest, c₁, v, w, cause, rfl, haccepts, hv, hread, rfl, rfl⟩ :=
        readStates_refused hknown h
      refine .inr ⟨before, id, state, rest, c₁, v, w, cause, henvelope, rfl, haccepts, hv, hread,
        rfl, fun hkeys => ?_, fun key hne hkey => ?_, ?_⟩
      · obtain ⟨hbefore, -, hdisjoint⟩ := List.nodup_append.1 hkeys
        have hid : id ∉ before.map (·.1) := fun hmem =>
          hdisjoint id hmem id (List.mem_singleton_self id) rfl
        refine ⟨(haccepts.get?_of_not_mem hid).symm.trans hv, fun s hs => ?_⟩
        obtain ⟨u, u', hu, htook, hu'⟩ := haccepts.tookOver hbefore s hs
        have hne : s.1 ≠ id := fun heq => hid (List.mem_map.2 ⟨s, hs, heq⟩)
        exact ⟨u, u', hu, htook, (get?_set_of_ne hne c₁ w).trans hu'⟩
      · rw [get?_set_of_ne hne, haccepts.get?_of_not_mem hkey]
      · refine (Verb.eq_or_moved_of_refused hread).imp_left ?_
        rintro rfl
        rw [set_self hv]
        refine ⟨rfl, ?_⟩
        rintro rfl
        cases haccepts
        rfl

/-- The pause of the second verb refuses its entry: the first verb has taken its state over. -/
theorem readRuntimeState_refused_pause :
    let c : Catalog Trace.TraceAction :=
      (insert {} { id := "look" }).insert { id := "use", steps := [⟨"pause", .pause {}⟩] }
    let first := ("look", Json.object [("ip", .int 0), ("actions", .array [])])
    let second := ("use", Json.object [("ip", .int 0), ("actions", .array [.null])])
    let payload := Json.object [("verbs", .object [first, second])]
    let refusal := ActionError.mk "missing numeric 'elapsed'"
    ∃ d, (c.readRuntimeState payload).value =
        (.error (.verb "use" (.progressRefused 0 "pause" refusal)), d) ∧
      c.TookOver d first ∧ d.get? "talk" = c.get? "talk" := by
  intro c first second payload refusal
  have hread : (c.readRuntimeState payload).value =
      (.error (.verb "use" (.progressRefused 0 "pause" refusal)), _) := rfl
  refine ⟨_, hread, ?_⟩
  rcases readRuntimeState_refused hread with
    ⟨⟨misfit, hwrong⟩ | ⟨id, hwrong, -⟩, -⟩ |
    ⟨before, id, state, rest, _, _, _, cause, henvelope, he, -, -, -, -, htook, hkept, -⟩
  · cases hwrong
  · cases hwrong
  · obtain ⟨rfl, -⟩ := Error.verb.inj he
    have hstates : [first, second] = before ++ ("use", state) :: rest := Except.ok.inj henvelope
    have hbefore : before = [first] := by
      match before, hstates with
      | [], hstates =>
        have hname : first.1 = "use" := congrArg Prod.fst (List.cons.inj hstates).1
        exact absurd hname (by decide)
      | [s], hstates => rw [(List.cons.inj hstates).1]
      | _ :: _ :: _, hstates => simp at hstates
    rw [hbefore] at htook hkept
    exact ⟨(htook (by decide)).2 first (List.mem_singleton_self first),
      hkept "talk" (by decide) (by decide)⟩

/-- The pointer of the second verb is out of range: the document is refused, and the first verb, which has
not run, has finished. -/
theorem not_unchanged_of_refused :
    let c : Catalog Trace.TraceAction := (insert {} { id := "look" }).insert { id := "use" }
    let payload := Json.object [("verbs", .object
      [("look", .object [("ip", .int 0), ("actions", .array [])]),
        ("use", .object [("ip", .int 5), ("actions", .array [])])])]
    ∃ d, (c.readRuntimeState payload).value = (.error (.verb "use" (.ipOutOfRange 5 0)), d) ∧
      (c.get? "look").map Verb.phase = some .notStarted ∧
      (d.get? "look").map Verb.phase = some .finished ∧ d ≠ c := by
  intro c payload
  have hbefore : (c.get? "look").map Verb.phase = some .notStarted := by decide +kernel
  have hafter : ((c.readRuntimeState payload).value.2.get? "look").map Verb.phase =
    some .finished := by decide +kernel
  refine ⟨_, rfl, hbefore, hafter, fun heq => ?_⟩
  rw [show c.get? "look" = _ from (congrArg (·.get? "look") heq).symm] at hbefore
  cases hbefore.symm.trans hafter

end Catalog

end VerbScript
