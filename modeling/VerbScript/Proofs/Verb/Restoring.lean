import Mathlib.Data.List.Basic
import VerbScript.Proofs.Json.Decoder
import VerbScript.Trace.Kinds
import VerbScript.Verb.RuntimeState

/-!
# Which runtime states are taken over

The entries of a runtime state are for the steps with progress, the first one for the first such
step and so on, as far as there are both (`Verb.offers`). What comes of reading a runtime state is a
relation with four cases (`Verb.Restores`): it has not the right shape, its pointer is out of range,
a step refuses the entry that is for it, or the pointer and all entries are taken over.
`Verb.read_runtime_iff` says that reading is this relation.

The walk over the steps is the same relation between places and entries, for steps that are counted
from any index (`RuntimeState.Restored`): each step is skipped, accepts or refuses, and
`RuntimeState.restored_restore` puts these three together.
-/

namespace VerbScript

variable {α ω : Type} [Action α ω]

namespace Step

/-- Whether the action of a step has progress, which can be captured and restored. -/
def hasProgress (s : Step α) : Bool := (Action.progress? s.action).isSome

/-- Hands an entry to the action of a step; an action without progress does not look at it. -/
def restore (s : Step α) (entry : Json) : Except ActionError Unit × Step α :=
  match Action.progress? s.action with
  | none => (.ok (), s)
  | some p => ((p.restore entry).1, { s with action := (p.restore entry).2 })

theorem kind_restore (s : Step α) (entry : Json) : (s.restore entry).2.kind = s.kind := by
  unfold restore
  split <;> rfl

end Step

namespace RuntimeState

/-- Which entry is for which place, the first step having the index `index`: the first one for the
first step with progress and so on, as far as there are both. -/
def offersFrom (index : Nat) (steps : List (Step α)) (entries : List Json) : List (Nat × Json) :=
  (steps.findIdxs Step.hasProgress index).zip entries

/-- The steps after each has been handed the entry that is for its place, if there is one. -/
def handOutFrom (index : Nat) (offers : List (Nat × Json)) (steps : List (Step α)) :
    List (Step α) :=
  (steps.zipIdx index).map fun (s, i) =>
    match offers.lookup i with
    | none => s
    | some entry => (s.restore entry).2

/-- The step at the place that an entry is for accepts it. -/
def AcceptedFrom (index : Nat) (steps : List (Step α)) (offer : Nat × Json) : Prop :=
  ∃ s, (s, offer.1) ∈ steps.zipIdx index ∧ (s.restore offer.2).1 = .ok ()

/-- What comes of handing out entries to steps. -/
inductive Restored (index : Nat) (steps : List (Step α)) (offers : List (Nat × Json)) :
    Except Refusal Nat × List (Step α) → Prop where
  | all (haccepted : ∀ offer ∈ offers, AcceptedFrom index steps offer) :
      Restored index steps offers (.ok offers.length, handOutFrom index offers steps)
  | refused {before rest : List (Nat × Json)} {i : Nat} {entry : Json} {s : Step α}
      {cause : ActionError} (hoffers : offers = before ++ (i, entry) :: rest)
      (hbefore : ∀ offer ∈ before, AcceptedFrom index steps offer)
      (hs : (s, i) ∈ steps.zipIdx index) (hrefused : (s.restore entry).1 = .error cause) :
      Restored index steps offers
        (.error ⟨i, s.kind, cause⟩, handOutFrom index (before ++ [(i, entry)]) steps)

variable {index : Nat} {s : Step α} {steps rest : List (Step α)} {offers : List (Nat × Json)}

theorem le_of_mem_offersFrom {entries : List Json} {offer : Nat × Json}
    (h : offer ∈ offersFrom index steps entries) : index ≤ offer.1 :=
  List.ge_of_mem_findIdxs _ (List.of_mem_zip h).1

/-! ## Handing out -/

theorem handOutFrom_cons (index : Nat) (offers : List (Nat × Json)) (s : Step α)
    (rest : List (Step α)) :
    handOutFrom index offers (s :: rest) =
      (match offers.lookup index with
        | none => s
        | some entry => (s.restore entry).2) :: handOutFrom (index + 1) offers rest := rfl

theorem handOutFrom_congr {given : List (Nat × Json)} (steps : List (Step α))
    (h : ∀ i ≥ index, given.lookup i = offers.lookup i) :
    handOutFrom index given steps = handOutFrom index offers steps :=
  List.map_congr_left fun p hp => by simp only [h p.2 (List.le_snd_of_mem_zipIdx hp)]

theorem handOutFrom_nil (index : Nat) (steps : List (Step α)) :
    handOutFrom index [] steps = steps := by
  induction steps generalizing index with
  | nil => rfl
  | cons s rest ih => rw [handOutFrom_cons, ih, List.lookup_nil]

/-- An entry goes to the first step if it is for the place of this one. -/
theorem handOutFrom_cons_self (index : Nat) (entry : Json) (offers : List (Nat × Json))
    (s : Step α) (rest : List (Step α)) :
    handOutFrom index ((index, entry) :: offers) (s :: rest) =
      (s.restore entry).2 :: handOutFrom (index + 1) offers rest := by
  have hrest : handOutFrom (index + 1) ((index, entry) :: offers) rest =
      handOutFrom (index + 1) offers rest := handOutFrom_congr rest fun i hi => by
    rw [List.lookup_cons, show (i == index) = false by simp; omega]
  rw [handOutFrom_cons, hrest, List.lookup_cons_self]

/-- Entries for places behind the first step leave this one as it is. -/
theorem handOutFrom_cons_of_lt (h : ∀ offer ∈ offers, index < offer.1) (s : Step α)
    (rest : List (Step α)) :
    handOutFrom index offers (s :: rest) = s :: handOutFrom (index + 1) offers rest := by
  have hnone : offers.lookup index = none :=
    List.lookup_eq_none_iff.2 fun offer hoffer => by simpa using Nat.ne_of_lt (h offer hoffer)
  rw [handOutFrom_cons, hnone]

/-! ## Restoring -/

theorem AcceptedFrom.cons {offer : Nat × Json} (h : AcceptedFrom (index + 1) rest offer)
    (s : Step α) : AcceptedFrom index (s :: rest) offer := by
  obtain ⟨t, ht, hok⟩ := h
  exact ⟨t, List.mem_cons_of_mem _ ht, hok⟩

namespace Restored

variable {x : Except Refusal Nat × List (Step α)}

/-- A step that no entry is for is left alone. -/
theorem skip (h : Restored (index + 1) rest offers x) (hlt : ∀ offer ∈ offers, index < offer.1)
    (s : Step α) : Restored index (s :: rest) offers (x.1, s :: x.2) := by
  cases h with
  | all haccepted =>
    rw [← handOutFrom_cons_of_lt hlt]
    exact .all fun offer hoffer => (haccepted offer hoffer).cons s
  | refused hoffers hbefore hs hrefused =>
    rw [hoffers, List.append_cons] at hlt
    rw [← handOutFrom_cons_of_lt fun offer hoffer => hlt offer (List.mem_append_left _ hoffer)]
    exact .refused hoffers (fun offer hoffer => (hbefore offer hoffer).cons s)
      (List.mem_cons_of_mem _ hs) hrefused

/-- A step accepts the entry that is for it, and the entries behind it are handed out. -/
theorem accept (h : Restored (index + 1) rest offers x) {entry : Json}
    (hs : (s.restore entry).1 = .ok ()) :
    Restored index (s :: rest) ((index, entry) :: offers)
      (x.1.map (· + 1), (s.restore entry).2 :: x.2) := by
  have hhead : AcceptedFrom index (s :: rest) (index, entry) := ⟨s, List.mem_cons_self, hs⟩
  cases h with
  | all haccepted =>
    rw [← handOutFrom_cons_self]
    exact .all (List.forall_mem_cons.2 ⟨hhead, fun offer hoffer => (haccepted offer hoffer).cons s⟩)
  | refused hoffers hbefore hs hrefused =>
    rw [← handOutFrom_cons_self]
    exact .refused (hoffers ▸ (List.cons_append ..).symm)
      (List.forall_mem_cons.2 ⟨hhead, fun offer hoffer => (hbefore offer hoffer).cons s⟩)
      (List.mem_cons_of_mem _ hs) hrefused

/-- A step refuses the entry that is for it, and the entries behind it are not handed out. -/
theorem refuse {entry : Json} {cause : ActionError} (hs : (s.restore entry).1 = .error cause) :
    Restored index (s :: rest) ((index, entry) :: offers)
      (.error ⟨index, s.kind, cause⟩, (s.restore entry).2 :: rest) := by
  have hsteps := handOutFrom_cons_self index entry [] s rest
  rw [handOutFrom_nil] at hsteps
  rw [← hsteps]
  exact .refused (List.nil_append _).symm nofun List.mem_cons_self hs

end Restored

theorem restore_cons_of_eq_none (hp : Action.progress? s.action = none) (entries : List Json) :
    restore index (s :: rest) entries =
      ((restore (index + 1) rest entries).1, s :: (restore (index + 1) rest entries).2) := by
  rw [restore, hp]

theorem restore_cons_cons {p : Progress α} (hp : Action.progress? s.action = some p)
    (entry : Json) (entries : List Json) :
    restore index (s :: rest) (entry :: entries) =
      match (s.restore entry).1 with
      | .error cause => (.error ⟨index, s.kind, cause⟩, (s.restore entry).2 :: rest)
      | .ok () =>
        ((restore (index + 1) rest entries).1.map (· + 1),
          (s.restore entry).2 :: (restore (index + 1) rest entries).2) := by
  have hs : s.restore entry =
      ((p.restore entry).1, { s with action := (p.restore entry).2 }) := by
    rw [Step.restore, hp]
  rw [restore, hp, hs]
  cases hres : p.restore entry with
  | mk result a => cases result <;> simp only [hres]

/-- Restoring is handing out the entries to the steps with progress, one after the other. -/
theorem restored_restore (index : Nat) (steps : List (Step α)) (entries : List Json) :
    Restored index steps (offersFrom index steps entries) (restore index steps entries) := by
  induction steps generalizing index entries with
  | nil => exact .all nofun
  | cons s rest ih =>
    cases hp : Action.progress? s.action with
    | none =>
      have hoffers : offersFrom index (s :: rest) entries =
          offersFrom (index + 1) rest entries := by
        simp [offersFrom, Step.hasProgress, hp]
      rw [hoffers, restore_cons_of_eq_none hp]
      exact (ih (index + 1) entries).skip (fun _ hoffer => le_of_mem_offersFrom hoffer) s
    | some p =>
      cases entries with
      | nil =>
        have hrestore :
            restore index (s :: rest) [] = (.ok 0, handOutFrom index [] (s :: rest)) := by
          rw [restore, hp, handOutFrom_nil]
        rw [offersFrom, List.zip_nil_right, hrestore]
        exact .all nofun
      | cons entry entries =>
        have hoffers : offersFrom index (s :: rest) (entry :: entries) =
            (index, entry) :: offersFrom (index + 1) rest entries := by
          simp [offersFrom, Step.hasProgress, hp]
        rw [hoffers, restore_cons_cons hp]
        cases hs : (s.restore entry).1 with
        | error cause => exact .refuse hs
        | ok => exact (ih (index + 1) entries).accept hs

/-! ## One outcome -/

theorem not_acceptedFrom {i : Nat} {entry : Json} {cause : ActionError}
    (hs : (s, i) ∈ steps.zipIdx index) (hrefused : (s.restore entry).1 = .error cause) :
    ¬ AcceptedFrom index steps (i, entry) := by
  rintro ⟨t, ht, hok⟩
  rw [List.mk_mem_zipIdx_iff_le_and_getElem?_sub] at hs ht
  cases hs.2.symm.trans ht.2
  cases hok.symm.trans hrefused

/-- Handing out entries comes to one thing only. -/
theorem Restored.unique {x y : Except Refusal Nat × List (Step α)}
    (hx : Restored index steps offers x) (hy : Restored index steps offers y) : x = y := by
  cases hx with
  | all haccepted =>
    cases hy with
    | all => rfl
    | refused hoffers _ hs hrefused =>
      refine absurd (haccepted _ ?_) (not_acceptedFrom hs hrefused)
      rw [hoffers]
      exact List.mem_append_right _ List.mem_cons_self
  | refused hoffers hbefore hs hrefused =>
    cases hy with
    | all haccepted =>
      refine absurd (haccepted _ ?_) (not_acceptedFrom hs hrefused)
      rw [hoffers]
      exact List.mem_append_right _ List.mem_cons_self
    | refused hoffers' hbefore' hs' hrefused' =>
      obtain ⟨rfl, hfirst⟩ := eq_of_first (hoffers.symm.trans hoffers') hbefore hbefore'
        (not_acceptedFrom hs hrefused) (not_acceptedFrom hs' hrefused')
      cases hfirst
      rw [List.mk_mem_zipIdx_iff_le_and_getElem?_sub] at hs hs'
      cases hs.2.symm.trans hs'.2
      cases hrefused.symm.trans hrefused'
      rfl

/-- Steps keep their kinds, and a step is left alone or is what its action makes of an entry. -/
theorem forall₂_handOutFrom (index : Nat) (offers : List (Nat × Json)) (steps : List (Step α)) :
    List.Forall₂ (fun s t => t.kind = s.kind ∧ (t = s ∨ ∃ entry, t = (s.restore entry).2)) steps
      (handOutFrom index offers steps) := by
  induction steps generalizing index with
  | nil => exact .nil
  | cons s rest ih =>
    rw [handOutFrom_cons]
    refine .cons ?_ (ih (index + 1))
    cases offers.lookup index with
    | none => exact ⟨rfl, .inl rfl⟩
    | some entry => exact ⟨s.kind_restore entry, .inr ⟨entry, rfl⟩⟩

/-! ## Documents -/

/-- The document has the shape of a runtime state with the given pointer and entries. -/
def Shape (payload : Json) (ip : Int) (entries : List Json) : Prop :=
  Json.HoldsPair ipKey Definition.actionsKey (.int ip) (.array entries) payload ∧
    Number.FitsInt64 ip

theorem envelope_eq_ok_iff {payload : Json} {ip : Int} {entries : List Json} :
    envelope payload = .ok (ip, entries) ↔ Shape payload ip entries := by
  have hentries (w : Json) : Json.Decoder.items Json.Decoder.any w = .ok entries ↔
      w = .array entries := by
    simp [Json.Decoder.items_eq_ok_iff, Json.Decoder.any, List.forall₂_eq_eq_eq]
  rw [envelope, Json.Decoder.record₂_eq_ok_iff (by decide)]
  simp only [Json.Decoder.int64_eq_ok_iff, hentries]
  exact ⟨fun ⟨_, _, h, ⟨rfl, hip⟩, rfl⟩ => ⟨h, hip⟩, fun ⟨h, hip⟩ => ⟨_, _, h, ⟨rfl, hip⟩, rfl⟩⟩

end RuntimeState

namespace Verb

open RuntimeState

/-- The entries of a runtime state, each with the index of the step that it is for: the first one is
for the first step with progress and so on, as far as there are both. -/
def offers (v : Verb α) (entries : List Json) : List (Nat × Json) :=
  (v.steps.findIdxs Step.hasProgress).zip entries

/-- The step with the index that goes with an entry accepts it. -/
def Accepts (v : Verb α) (offer : Nat × Json) : Prop :=
  ∃ s, v.steps[offer.1]? = some s ∧ (s.restore offer.2).1 = .ok ()

/-- The verb with a pointer taken over and each of some entries handed to its step. -/
def handOut (v : Verb α) (ip : Int) (offers : List (Nat × Json)) : Verb α :=
  { v with steps := handOutFrom 0 offers v.steps, ip }

/-- What comes of reading a runtime state into a verb. -/
inductive Restores (v : Verb α) (payload : Json) : Except DocumentError Unit → Verb α → Prop where
  | malformed {misfit : Json.Misfit} (hshape : ∀ ip entries, ¬ Shape payload ip entries)
      (hmisfit : envelope payload = .error misfit) :
      Restores v payload (.error (.malformed .runtime misfit)) v
  | ipOutOfRange {ip : Int} {entries : List Json} (hshape : Shape payload ip entries)
      (hip : ¬ (notStarted ≤ ip ∧ ip ≤ v.steps.length)) :
      Restores v payload (.error (.ipOutOfRange ip v.steps.length)) v
  | refused {ip : Int} {entries : List Json} {before rest : List (Nat × Json)} {i : Nat}
      {entry : Json} {s : Step α} {cause : ActionError} (hshape : Shape payload ip entries)
      (hip : notStarted ≤ ip ∧ ip ≤ v.steps.length)
      (hoffers : v.offers entries = before ++ (i, entry) :: rest)
      (hbefore : ∀ offer ∈ before, v.Accepts offer) (hs : v.steps[i]? = some s)
      (hrefused : (s.restore entry).1 = .error cause) :
      Restores v payload (.error (.progressRefused i s.kind cause))
        (v.handOut ip (before ++ [(i, entry)]))
  | accepted {ip : Int} {entries : List Json} (hshape : Shape payload ip entries)
      (hip : notStarted ≤ ip ∧ ip ≤ v.steps.length)
      (haccepted : ∀ offer ∈ v.offers entries, v.Accepts offer) :
      Restores v payload (.ok ()) (v.handOut ip (v.offers entries))

variable {v : Verb α} {payload : Json}

theorem accepts_iff {offer : Nat × Json} : v.Accepts offer ↔ AcceptedFrom 0 v.steps offer := by
  simp only [Accepts, AcceptedFrom, List.mk_mem_zipIdx_iff_getElem?]

/-- With a pointer in range, it is the steps that decide. -/
theorem readRuntimeState_of_shape {ip : Int} {entries : List Json}
    (hshape : Shape payload ip entries) (hip : notStarted ≤ ip ∧ ip ≤ v.steps.length) :
    (v.readRuntimeState payload).value =
      let x := restore 0 v.steps entries
      ((x.1.mapError fun e => .progressRefused e.index e.kind e.cause).map fun _ => (),
        { v with steps := x.2, ip }) := by
  rw [readRuntimeState, envelope_eq_ok_iff.2 hshape]
  simp only
  rw [if_neg (by omega)]
  cases restore 0 v.steps entries with
  | mk result steps => cases result <;> rfl

/-- A runtime state is read as it is to be. -/
theorem restores_readRuntimeState (v : Verb α) (payload : Json) :
    Restores v payload (v.readRuntimeState payload).value.1
      (v.readRuntimeState payload).value.2 := by
  cases henvelope : envelope payload with
  | error misfit =>
    have hshape (ip : Int) (entries : List Json) : ¬ Shape payload ip entries := fun h => by
      cases henvelope.symm.trans (envelope_eq_ok_iff.2 h)
    simp only [readRuntimeState, henvelope]
    exact .malformed hshape henvelope
  | ok d =>
    obtain ⟨ip, entries⟩ := d
    have hshape := envelope_eq_ok_iff.1 henvelope
    by_cases hip : notStarted ≤ ip ∧ ip ≤ v.steps.length
    · rw [readRuntimeState_of_shape hshape hip]
      have hrestored := restored_restore 0 v.steps entries
      generalize restore 0 v.steps entries = x at hrestored
      cases hrestored with
      | all haccepted =>
        exact .accepted hshape hip fun offer hoffer => accepts_iff.2 (haccepted offer hoffer)
      | refused hoffers hbefore hs hrefused =>
        exact .refused hshape hip hoffers
          (fun offer hoffer => accepts_iff.2 (hbefore offer hoffer))
          (List.mk_mem_zipIdx_iff_getElem?.1 hs) hrefused
    · have hout : ip < notStarted ∨ v.steps.length < ip := by omega
      simp only [readRuntimeState, henvelope, if_pos hout]
      exact .ipOutOfRange hshape hip

theorem Restores.readRuntimeState_eq {x : Except DocumentError Unit} {w : Verb α}
    (h : Restores v payload x w) : (v.readRuntimeState payload).value = (x, w) := by
  cases h with
  | malformed _ hmisfit => simp only [readRuntimeState, hmisfit]
  | @ipOutOfRange ip entries hshape hip =>
    have hout : ip < notStarted ∨ v.steps.length < ip := by omega
    simp only [readRuntimeState, envelope_eq_ok_iff.2 hshape, if_pos hout]
  | @refused ip entries _ _ _ _ _ _ hshape hip hoffers hbefore hs hrefused =>
    have hrestore := (restored_restore 0 v.steps entries).unique
      (.refused hoffers (fun offer hoffer => accepts_iff.1 (hbefore offer hoffer))
        (List.mk_mem_zipIdx_iff_getElem?.2 hs) hrefused)
    rw [readRuntimeState_of_shape hshape hip, hrestore]
    rfl
  | @accepted ip entries hshape hip haccepted =>
    have hrestore := (restored_restore 0 v.steps entries).unique
      (.all fun offer hoffer => accepts_iff.1 (haccepted offer hoffer))
    rw [readRuntimeState_of_shape hshape hip, hrestore]
    rfl

/-- Whatever comes of it, no step is added, removed or made anew. -/
theorem Restores.kept {x : Except DocumentError Unit} {w : Verb α} (h : Restores v payload x w) :
    w.id = v.id ∧ w.policy = v.policy ∧
    List.Forall₂ (fun s t => t.kind = s.kind ∧ (t = s ∨ ∃ entry, t = (s.restore entry).2)) v.steps
      w.steps := by
  have hself : List.Forall₂
      (fun s t : Step α => t.kind = s.kind ∧ (t = s ∨ ∃ entry, t = (s.restore entry).2))
      v.steps v.steps := List.forall₂_same.2 fun _ _ => ⟨rfl, .inl rfl⟩
  cases h with
  | malformed | ipOutOfRange => exact ⟨rfl, rfl, hself⟩
  | refused | accepted => exact ⟨rfl, rfl, forall₂_handOutFrom ..⟩

/-- A verb takes over exactly the runtime states of the right shape whose pointer is in range and
whose entries are accepted by the steps that they are for; what comes of any document is what
`Restores` says. In every case the verb keeps its id, its policy and its steps, of which each is
left alone or is what its action makes of an entry. -/
theorem read_runtime_iff (r : Registry α) (v : Verb α) (payload : Json) :
    let result := (v.read r .runtime payload).value
    (result.1 = .ok () ↔ ∃ ip entries, Shape payload ip entries ∧
      (notStarted ≤ ip ∧ ip ≤ v.steps.length) ∧ ∀ offer ∈ v.offers entries, v.Accepts offer) ∧
    (∀ x w, result = (x, w) ↔ Restores v payload x w) ∧
    result.2.id = v.id ∧ result.2.policy = v.policy ∧
    List.Forall₂ (fun s t => t.kind = s.kind ∧ (t = s ∨ ∃ entry, t = (s.restore entry).2)) v.steps
      result.2.steps := by
  have hrestores := restores_readRuntimeState v payload
  intro result
  have hresult (x : Except DocumentError Unit) (w : Verb α) :
      result = (x, w) ↔ Restores v payload x w := by
    refine ⟨fun h => ?_, fun h => h.readRuntimeState_eq⟩
    rw [show (v.readRuntimeState payload).value = (x, w) from h] at hrestores
    exact hrestores
  have hshape (w : Verb α) (h : Restores v payload (.ok ()) w) :
      ∃ ip entries, Shape payload ip entries ∧ (notStarted ≤ ip ∧ ip ≤ v.steps.length) ∧
        ∀ offer ∈ v.offers entries, v.Accepts offer := by
    cases h with
    | accepted hshape hip haccepted => exact ⟨_, _, hshape, hip, haccepted⟩
  refine ⟨⟨fun hok => hshape result.2 ((hresult _ _).1 (Prod.ext hok rfl)), ?_⟩, hresult,
    hrestores.kept⟩
  rintro ⟨ip, entries, hshape, hip, haccepted⟩
  exact congrArg Prod.fst ((hresult _ _).2 (.accepted hshape hip haccepted))

/-- Of two pauses between steps without progress, each takes over its own entry, and the third entry
is left over. A second entry that is refused is reported with the index and the kind of its step;
the first one has been taken over then. -/
theorem read_runtime_iff_pauses :
    let pauses (first second : Float) : List (Step Trace.TraceAction) :=
      [⟨"note", .note {}⟩, ⟨"pause", .pause { elapsed := first }⟩, ⟨"broken", .broken {}⟩,
        ⟨"pause", .pause { elapsed := second }⟩]
    let v : Verb Trace.TraceAction := { id := "use", steps := pauses 0.0 0.0 }
    let state (second : Json) : Json :=
      .object [("ip", .int 4), ("actions", .array
        [.object [("elapsed", .int 1)], second, .object [("elapsed", .int 3)]])]
    let accepted := (v.read Trace.registry .runtime (state (.object [("elapsed", .int 2)]))).value
    let refused := (v.read Trace.registry .runtime (state .null)).value
    accepted = (.ok (), { v with ip := 4, steps := pauses (Float.ofInt 1) (Float.ofInt 2) }) ∧
      refused = (.error (.progressRefused 3 "pause" ⟨"missing numeric 'elapsed'"⟩),
        { v with ip := 4, steps := pauses (Float.ofInt 1) 0.0 }) := by
  intro pauses v state
  have hshape (second : Json) : Shape (state second) 4
      [.object [("elapsed", .int 1)], second, .object [("elapsed", .int 3)]] :=
    ⟨.object rfl rfl, by decide⟩
  have hip : notStarted ≤ 4 ∧ (4 : Int) ≤ v.steps.length := by decide
  have hfirst : v.Accepts (1, .object [("elapsed", .int 1)]) := ⟨_, rfl, rfl⟩
  have hsecond : v.Accepts (3, .object [("elapsed", .int 2)]) := ⟨_, rfl, rfl⟩
  obtain ⟨-, haccepted, -⟩ := v.read_runtime_iff Trace.registry
    (state (.object [("elapsed", .int 2)]))
  obtain ⟨-, hrefused, -⟩ := v.read_runtime_iff Trace.registry (state .null)
  refine ⟨(haccepted _ _).2 ?_, (hrefused _ _).2 ?_⟩
  · exact .accepted (hshape _) hip
      (List.forall_mem_cons.2 ⟨hfirst, List.forall_mem_singleton.2 hsecond⟩)
  · have hoffers : v.offers [.object [("elapsed", .int 1)], .null, .object [("elapsed", .int 3)]] =
        [(1, .object [("elapsed", .int 1)])] ++ (3, .null) :: [] := rfl
    exact .refused (hshape _) hip hoffers (List.forall_mem_singleton.2 hfirst) rfl rfl

end Verb

end VerbScript
