import VerbScript.Proofs.Json.Decodes
import VerbScript.Save.Format

/-!
# The parts of a save

A save is read off the tree that stands at the beginning of a text, if the host is read off the tree of its
section (`Save.decodes_reader`). A tree is a save exactly if its members hold one version and one host that
is read, and the catalog's document is all its other members, merged (`Save.partsBy_eq_some`).
-/

namespace VerbScript

open Json (mergedMembers valuesOf onceBy seenBy seenBy_cons seenBy_none_eq_some numberBy Place)
open Json (nowhere)
open Json.Reader (Decodes tree)

namespace Save

variable {η : Type} {hostBy : Json → Option η}

/-- An integer that fits a 32-bit word. -/
def wordBy : Json → Option Nat
  | .number (.int n) => if 0 ≤ n ∧ n < Number.wordBound 32 then some n.toNat else none
  | _ => none

theorem wordBy_int {n : Nat} (h : n < Number.wordBound 32) : wordBy (.int n) = some n := by
  show (if 0 ≤ (n : Int) ∧ (n : Int) < Number.wordBound 32 then some (n : Int).toNat else none) = some n
  rw [if_pos ⟨Int.natCast_nonneg n, by omega⟩, Int.toNat_natCast]

theorem eq_int_of_wordBy {v : Json} {n : Nat} (h : wordBy v = some n) : v = .int n := by
  rw [wordBy.eq_def] at h
  split at h
  · split at h
    · next k hk =>
      cases h
      rw [Int.toNat_of_nonneg hk.1]
      rfl
    · cases h
  · cases h

/-- What a member makes of the parts that have been read. -/
def fieldBy (hostBy : Json → Option η) (s : Partial η) (m : String × Json) : Option (Partial η) :=
  if m.1 = versionKey then (onceBy s.version (wordBy m.2)).map fun v => { s with version := v }
  else if m.1 = hostKey then (onceBy s.host (hostBy m.2)).map fun h => { s with host := h }
  else some { s with rest := Json.put m.1 (Json.merged m.2) s.rest }

/-- The parts of the save that a tree stands for. -/
def partsBy (hostBy : Json → Option η) : Json → Option (Parts η) :=
  Json.objectBy fun ms => (ms.foldlM (fieldBy hostBy) {}).bind fun s => s.finish.toOption

/-! ## What has the parts of a save -/

/-- Whether a member belongs to the catalog's document. -/
def isRest (m : String × Json) : Bool := m.1 ≠ versionKey && m.1 ≠ hostKey

/-- The members of the catalog's document are the document's members but two. -/
theorem filter_isRest (doc : List (String × Json)) :
    (mergedMembers [] doc).filter isRest = mergedMembers [] (doc.filter isRest) :=
  Json.filter_mergedMembers (fun key => key ≠ versionKey && key ≠ hostKey) [] doc

/-- The parts of a save are decoded each for itself. -/
theorem foldlM_fieldBy_eq_some {s t : Partial η} {ms : List (String × Json)} :
    ms.foldlM (fieldBy hostBy) s = some t ↔
      seenBy wordBy s.version (valuesOf versionKey ms) = some t.version ∧
      seenBy hostBy s.host (valuesOf hostKey ms) = some t.host ∧
      mergedMembers s.rest (ms.filter isRest) = t.rest := by
  induction ms generalizing s with
  | nil =>
    obtain ⟨version, host, rest⟩ := s
    obtain ⟨version', host', rest'⟩ := t
    simp [pure, seenBy, mergedMembers]
  | cons m ms ih =>
    obtain ⟨key, v⟩ := m
    have hne : versionKey ≠ hostKey := by decide
    simp only [List.foldlM_cons, Json.valuesOf_cons, fieldBy]
    by_cases hversion : key = versionKey
    · rw [hversion, if_pos rfl, if_pos rfl, if_neg hne, seenBy_cons,
        List.filter_cons_of_neg (by simp [isRest])]
      cases onceBy s.version (wordBy v) with
      | none => simp
      | some x => exact ih
    by_cases hhost : key = hostKey
    · rw [hhost, if_neg hne.symm, if_neg hne.symm, if_pos rfl, if_pos rfl, seenBy_cons,
        List.filter_cons_of_neg (by simp [isRest])]
      cases onceBy s.host (hostBy v) with
      | none => simp
      | some x => exact ih
    · rw [if_neg hversion, if_neg hversion, if_neg hhost, if_neg hhost,
        List.filter_cons_of_pos (by simp [isRest, hversion, hhost]), mergedMembers]
      exact ih

/-- An object is a save if it has one version and one host that stands for one. -/
theorem partsBy_eq_some {ms : List (String × Json)} {parts : Parts η} :
    partsBy hostBy (.object ms) = some parts ↔
      (∃ v, valuesOf versionKey ms = [v] ∧ wordBy v = some parts.version) ∧
      (∃ h, valuesOf hostKey ms = [h] ∧ hostBy h = some parts.host) ∧
      .object (mergedMembers [] (ms.filter isRest)) = parts.catalog := by
  show (ms.foldlM (fieldBy hostBy) {}).bind (fun s => s.finish.toOption) = some parts ↔ _
  rw [Option.bind_eq_some_iff]
  constructor
  · rintro ⟨⟨version, host, rest⟩, hs, hfinish⟩
    obtain ⟨hversion, hhost, hrest⟩ := foldlM_fieldBy_eq_some.1 hs
    cases version with
    | none => cases hfinish
    | some n =>
      cases host with
      | none => cases hfinish
      | some x =>
        cases hfinish
        obtain ⟨-, hnone⟩ | ⟨v, _, hv, hword, hn⟩ := seenBy_none_eq_some.1 hversion
        · cases hnone
        obtain ⟨-, hnone⟩ | ⟨h, _, hh, hx, hhost⟩ := seenBy_none_eq_some.1 hhost
        · cases hnone
        cases hn
        cases hhost
        exact ⟨⟨v, hv, hword⟩, ⟨h, hh, hx⟩, congrArg Json.object hrest⟩
  · rintro ⟨⟨v, hv, hword⟩, ⟨h, hh, hx⟩, hrest⟩
    refine ⟨⟨some parts.version, some parts.host, mergedMembers [] (ms.filter isRest)⟩,
      foldlM_fieldBy_eq_some.2 ⟨?_, ?_, rfl⟩, ?_⟩
    · exact seenBy_none_eq_some.2 (.inr ⟨v, _, hv, hword, rfl⟩)
    · exact seenBy_none_eq_some.2 (.inr ⟨h, _, hh, hx, rfl⟩)
    · show some (⟨parts.version, parts.host, _⟩ : Parts η) = some parts
      rw [hrest]

/-! ## Reading -/

/-- A place inside the section of the host, where `P` holds of the place in the section. -/
def InHost (P : Place → Prop) (p : Place) : Prop := ∃ q, p = .key hostKey :: q ∧ P q

theorem decodes_word32 {depth : Nat} : Decodes nowhere (tree depth) .word32 wordBy := by
  refine (Json.Reader.decodes_numeric _ _).congr fun v => ?_
  cases v with
  | number n =>
    cases n with
    | int n =>
      show (if 0 ≤ n ∧ n < Number.wordBound 32 then _ else _) = (if _ then _ else _ : Except _ _).toOption
      split <;> rfl
    | float x => rfl
  | _ => rfl

variable [Host η] {P : Place → Prop} {depth : Nat}

/-- The members of a save are read as they are decoded. -/
theorem decodes_field (hhost : Decodes P (tree depth) (Host.reader depth) hostBy) (s : Partial η)
    (key : String) : Decodes (InHost P) (.valueOf key (tree depth)) (field depth s key)
      fun v => fieldBy hostBy s (key, v) := by
  unfold field fieldBy
  split
  · exact ((decodes_word32.once key s.version).map _).mono fun _ ⟨_, _, h⟩ => h.elim
  · split
    · next hkey => exact hkey ▸ (hhost.once key s.host).map _
    · have hmember : Decodes nowhere (tree depth) (.map (Json.put key · s.rest) (.value depth))
          fun v => some (Json.put key (Json.merged v) s.rest) := by
        rw [Json.Reader.value_eq_tree]
        exact ((Decodes.refl (tree depth)).map Json.merged).map (Json.put key · s.rest)
      exact ((hmember.valueOf key).map _).mono fun _ ⟨_, _, h⟩ => h.elim

/-- A save is read as it is decoded. -/
theorem decodes_reader
    (hhost : Decodes P (tree (Json.Reader.depthLimit - 1))
      (Host.reader (Json.Reader.depthLimit - 1)) hostBy) :
    Decodes (InHost P) (tree Json.Reader.depthLimit) reader (partsBy hostBy) :=
  Json.Reader.decodes_ofObject (Json.Reader.decodes_record (decodes_field hhost) {})

theorem read?_eq (text : String) :
    read? (η := η) text = (Json.Reader.out reader (Json.Cursor.start text)).map (·.1) := by
  rw [read?, Json.Reader.out]
  cases reader (η := η) (Json.Cursor.start text) <;> rfl

/-- The parts of a save are read off a text that holds a tree and nothing else. -/
theorem read?_of_tree?
    (hhost : Decodes P (tree (Json.Reader.depthLimit - 1))
      (Host.reader (Json.Reader.depthLimit - 1)) hostBy)
    {text : String} {v : Json} (htree : Json.tree? text = .ok v) :
    (read? text).toOption = partsBy hostBy v := by
  rw [Json.tree?_eq] at htree
  obtain ⟨p, hp, hv⟩ := exists_of_bind_eq_ok htree
  split at hv
  · cases hv
    rw [read?_eq, toOption_map, (decodes_reader hhost (Json.Cursor.start text)).ok p hp,
      Option.map_map]
    exact Option.map_id'
  · cases hv

end Save

end VerbScript
