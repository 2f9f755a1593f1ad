import VerbScript.Demo.World
import VerbScript.Proofs.Json.Decodes

/-!
# The shape of a snapshot

Which values are snapshots (`Snapshot.fits`): an object with one clock, at most one timer and at most one
table of states, whatever its other members are called and hold, or an array of these fields in order, the
last of which may be missing. The reader of snapshots reads what has the shape and refuses everything else
(`Snapshot.decodes_reader`, `Snapshot.isSome_ofTree`).
-/

namespace VerbScript.Demo.Snapshot

open Json (Reader Place valuesOf numberBy optionalBy tableBy recordBy onceBy seenBy seenBy_cons fitsOnce
  fitsOnce_iff fitsAtMostOnce fitsAtMostOnce_iff)
open Json (anywhere nowhere)
open Json.Reader (Decodes tree)

/-! ## Shapes -/

/-- Whether a value is a number. -/
def isNumber (v : Json) : Bool := v.float?.isSome

/-- Whether a value says when a timer fires, or that there is none. -/
def isTime : Json → Bool
  | .null => true
  | v => isNumber v

/-- Whether a value is a table of states. -/
def isStates : Json → Bool
  | .object ms => ms.all fun m => m.2.string?.isSome
  | _ => false

/-- Whether a value has the shape of a snapshot. -/
def fits : Json → Bool
  | .object ms =>
    fitsOnce isNumber (valuesOf clockKey ms) && fitsAtMostOnce isTime (valuesOf resumeKey ms) &&
      fitsAtMostOnce isStates (valuesOf statesKey ms)
  | .array [clock, resumeAt] => isNumber clock && isTime resumeAt
  | .array [clock, resumeAt, states] => isNumber clock && isTime resumeAt && isStates states
  | _ => false

/-! ## Decoding -/

/-- A number as a double. -/
def timeBy : Json → Option Float := numberBy fun n => .ok n.toFloat

/-- The states of actors. -/
def statesBy (v : Json) : Option (Table String) := (tableBy Json.string? v).map Table.ofList

/-- What a member makes of the fields that have been read. -/
def fieldBy (s : Partial) (m : String × Json) : Option Partial :=
  if m.1 = clockKey then (onceBy s.clock (timeBy m.2)).map fun v => { s with clock := v }
  else if m.1 = resumeKey then
    (onceBy s.resumeAt (optionalBy timeBy m.2)).map fun v => { s with resumeAt := v }
  else if m.1 = statesKey then
    (onceBy s.actorStates (statesBy m.2)).map fun v => { s with actorStates := v }
  else some s

/-- The snapshot of the items of an array. -/
def itemsBy : List Json → Option Snapshot
  | [clock, resumeAt] => do
    return ⟨← timeBy clock, ← optionalBy timeBy resumeAt, default⟩
  | [clock, resumeAt, states] => do
    return ⟨← timeBy clock, ← optionalBy timeBy resumeAt, ← statesBy states⟩
  | _ => none

/-- The snapshot that a tree stands for. -/
def ofTree : Json → Option Snapshot :=
  recordBy (fun ms => (ms.foldlM fieldBy {}).bind fun s => s.finish.toOption) itemsBy

/-- A place inside a member that is no field of a snapshot. -/
def Unknown (p : Place) : Prop :=
  ∃ key q, p = .key key :: q ∧ key ∉ [clockKey, resumeKey, statesKey]

variable {depth : Nat}

theorem decodes_float : Decodes nowhere (tree depth) .float timeBy :=
  Reader.decodes_numeric _ _

theorem decodes_time : Decodes nowhere (tree depth) (.optional .float) (optionalBy timeBy) :=
  Reader.decodes_optional decodes_float fun c => by
    rw [Reader.float, Reader.numeric]
    exact Reader.out_skipBlank_spaced _ c

theorem decodes_states : Decodes nowhere (tree (depth + 1)) statesReader statesBy :=
  (Reader.decodes_membersOf Reader.decodes_text).map Table.ofList

/-- The members of a snapshot are read as they are decoded; only what a member holds that is no field may go
beyond a limit. -/
theorem decodes_field (s : Partial) (key : String) :
    Decodes Unknown (.valueOf key (tree (depth + 1))) (field s key) fun v => fieldBy s (key, v) := by
  have hknown {p : Place} : (∃ q, p = .key key :: q ∧ nowhere q) → Unknown p := fun ⟨_, _, h⟩ => h.elim
  unfold field fieldBy
  split
  · exact ((decodes_float.once key s.clock).map _).mono fun _ => hknown
  · split
    · exact ((decodes_time.once key s.resumeAt).map _).mono fun _ => hknown
    · split
      · exact ((decodes_states.once key s.actorStates).map _).mono fun _ => hknown
      · next hclock hresume hstates =>
        have hskip : Decodes anywhere (tree (depth + 1)) (.map (fun _ => s) .skip) fun _ => some s :=
          Decodes.map (D := fun _ => some ()) (Reader.follows_skip _) _
        refine (hskip.valueOf key).mono fun p ⟨q, hp, _⟩ => ⟨key, q, hp, ?_⟩
        simp [hclock, hresume, hstates]

/-- The fields of an array are read as they are decoded. -/
theorem decodes_arrayFields : Reader.DecodesItems nowhere (tree (depth + 1)) 0 arrayFields itemsBy := by
  have hend (s : Snapshot) := Reader.DecodesItems.map
    (Reader.decodesItems_endArray (tree (depth + 1)) 3) fun _ => s
  have hstates (clock : Float) (resumeAt : Option Float) := Reader.decodesItems_nextField (.ok default)
    decodes_states fun states => hend ⟨clock, resumeAt, states⟩
  have htime (clock : Float) := Reader.decodesItems_nextField (.error (tooShort 1)) decodes_time
    (hstates clock)
  refine Reader.DecodesItems.congr (Reader.decodesItems_nextField (.error (tooShort 0)) decodes_float htime)
    (fun c => ?_) fun vs => ?_
  · rw [arrayFields]
    cases Reader.nextField 0 .float (.error (tooShort 0)) c with
    | error f => rfl
    | ok clock =>
      show _ = Except.map _ _
      simp only [bind, Except.bind, pure, Except.pure]
      cases Reader.nextField 1 (.optional .float) (.error (tooShort 1)) clock.next with
      | error f => rfl
      | ok resumeAt =>
        simp only
        cases Reader.nextField 2 statesReader (.ok default) resumeAt.next with
        | error f => rfl
        | ok states =>
          simp only
          cases Reader.endArray states.next <;> rfl
  · rcases vs with _ | ⟨clock, _ | ⟨resumeAt, _ | ⟨states, _ | ⟨v, rest⟩⟩⟩⟩
    · rfl
    · simp [itemsBy, Except.toOption]
    · simp only [itemsBy]
      cases timeBy clock with
      | none => rfl
      | some x => cases optionalBy timeBy resumeAt <;> rfl
    · simp only [itemsBy]
      cases timeBy clock with
      | none => rfl
      | some x =>
        cases optionalBy timeBy resumeAt with
        | none => rfl
        | some y => cases statesBy states <;> rfl
    · simp [itemsBy]

/-- A snapshot is read as it is decoded. -/
theorem decodes_reader : Decodes Unknown (tree (depth + 2)) reader ofTree :=
  Reader.decodes_ofObjectOrArray (Reader.decodes_record decodes_field {})
    (Reader.decodes_arrayRecord decodes_arrayFields).of_nowhere

/-! ## What has the shape -/

theorem isSome_timeBy (v : Json) : (timeBy v).isSome = isNumber v := by
  cases v <;> rfl

theorem isSome_optionalBy (v : Json) : (optionalBy timeBy v).isSome = isTime v := by
  cases v <;> rfl

theorem isSome_statesBy (v : Json) : (statesBy v).isSome = isStates v := by
  rw [statesBy, Option.isSome_map]
  cases v with
  | object ms => exact Json.isSome_tableBy _ ms
  | _ => rfl

/-- The fields of a snapshot are decoded each for itself. -/
theorem foldlM_fieldBy_eq_some {s t : Partial} {ms : List (String × Json)} :
    ms.foldlM fieldBy s = some t ↔ seenBy timeBy s.clock (valuesOf clockKey ms) = some t.clock ∧
      seenBy (optionalBy timeBy) s.resumeAt (valuesOf resumeKey ms) = some t.resumeAt ∧
      seenBy statesBy s.actorStates (valuesOf statesKey ms) = some t.actorStates := by
  induction ms generalizing s with
  | nil =>
    obtain ⟨clock, resumeAt, states⟩ := s
    obtain ⟨clock', resumeAt', states'⟩ := t
    simp [pure, seenBy]
  | cons m rest ih =>
    have hclockResume : clockKey ≠ resumeKey := by decide
    have hclockStates : clockKey ≠ statesKey := by decide
    have hresumeStates : resumeKey ≠ statesKey := by decide
    simp only [List.foldlM_cons, Json.valuesOf_cons, fieldBy]
    by_cases hclock : m.1 = clockKey
    · rw [hclock, if_pos rfl, if_pos rfl, if_neg hclockResume, if_neg hclockStates, seenBy_cons]
      cases onceBy s.clock (timeBy m.2) with
      | none => simp
      | some v => exact ih
    by_cases hresume : m.1 = resumeKey
    · rw [hresume, if_neg hclockResume.symm, if_neg hclockResume.symm, if_pos rfl, if_pos rfl,
        if_neg hresumeStates, seenBy_cons]
      cases onceBy s.resumeAt (optionalBy timeBy m.2) with
      | none => simp
      | some v => exact ih
    by_cases hstates : m.1 = statesKey
    · rw [hstates, if_neg hclockStates.symm, if_neg hclockStates.symm, if_neg hresumeStates.symm,
        if_neg hresumeStates.symm, if_pos rfl, if_pos rfl, seenBy_cons]
      cases onceBy s.actorStates (statesBy m.2) with
      | none => simp
      | some v => exact ih
    · rw [if_neg hclock, if_neg hclock, if_neg hresume, if_neg hresume, if_neg hstates, if_neg hstates]
      exact ih

theorem isSome_ofTree_object (ms : List (String × Json)) :
    (ofTree (.object ms)).isSome = fits (.object ms) := by
  rw [Bool.eq_iff_iff, fits, Bool.and_eq_true, Bool.and_eq_true, fitsOnce_iff isSome_timeBy,
    fitsAtMostOnce_iff isSome_optionalBy, fitsAtMostOnce_iff isSome_statesBy]
  constructor
  · intro h
    obtain ⟨snapshot, hsnapshot⟩ := Option.isSome_iff_exists.1 h
    obtain ⟨s, hs, hfinish⟩ := Option.bind_eq_some_iff.1 hsnapshot
    obtain ⟨hclock, hresume, hstates⟩ := foldlM_fieldBy_eq_some.1 hs
    obtain ⟨clock, resumeAt, states⟩ := s
    cases clock with
    | none => cases hfinish
    | some x => exact ⟨⟨⟨x, hclock⟩, _, hresume⟩, _, hstates⟩
  · rintro ⟨⟨⟨clock, hclock⟩, resumeAt, hresume⟩, states, hstates⟩
    have hs : ms.foldlM fieldBy {} = some ⟨some clock, resumeAt, states⟩ :=
      foldlM_fieldBy_eq_some.2 ⟨hclock, hresume, hstates⟩
    show ((ms.foldlM fieldBy {}).bind _).isSome = true
    rw [hs]
    rfl

theorem isSome_ofTree_array (vs : List Json) : (ofTree (.array vs)).isSome = fits (.array vs) := by
  show (itemsBy vs).isSome = _
  match vs with
  | [] => rfl
  | [clock] => rfl
  | [clock, resumeAt] =>
    rw [fits, ← isSome_timeBy, ← isSome_optionalBy, itemsBy]
    cases timeBy clock with
    | none => rfl
    | some x => cases optionalBy timeBy resumeAt <;> rfl
  | [clock, resumeAt, states] =>
    rw [fits, ← isSome_timeBy, ← isSome_optionalBy, ← isSome_statesBy, itemsBy]
    cases timeBy clock with
    | none => rfl
    | some x =>
      cases optionalBy timeBy resumeAt with
      | none => rfl
      | some y => cases statesBy states <;> rfl
  | _ :: _ :: _ :: _ :: _ => rfl

/-- What has the shape of a snapshot stands for one. -/
theorem isSome_ofTree (v : Json) : (ofTree v).isSome = fits v := by
  cases v with
  | object ms => exact isSome_ofTree_object ms
  | array vs => exact isSome_ofTree_array vs
  | _ => rfl

example : fits (.object [(clockKey, .int 3), ("name", .array [])]) = true := by decide

example : fits (.object [(clockKey, .int 3), (clockKey, .int 3)]) = false := by decide

end VerbScript.Demo.Snapshot
