import VerbScript.Json.Decoder
import VerbScript.Proofs.Basic

/-!
# Values that are decoded

A decoder of arrays decodes what its items decode to (`items_array`), and a decoder of records the
fields of an object that holds them in order (`record₁_object`, `record₂_object`). What is decoded
has no other shape: a record of two fields comes from an object with exactly one member for each,
wherever these stand and whatever else there is, or from an array of the two
(`record₂_eq_ok_iff`).
-/

namespace VerbScript.Json

/-- The value `v` is under the key, and no other member has the key. -/
def Only (key : String) (v : Json) (ms : List (String × Json)) : Prop :=
  (ms.filter fun m => m.1 == key) = [(key, v)]

/-- The value `v` is that of a record of one field with the given key, be it written as an object or as
an array. -/
inductive Holds (key : String) (v : Json) : Json → Prop where
  | object {ms : List (String × Json)} (h : Only key v ms) : Holds key v (.object ms)
  | array : Holds key v (.array [v])

/-- The values `v` and `w` are those of a record of two fields with the given keys, be it written as
an object or as an array. -/
inductive HoldsPair (key key' : String) (v w : Json) : Json → Prop where
  | object {ms : List (String × Json)} (hv : Only key v ms) (hw : Only key' w ms) :
      HoldsPair key key' v w (.object ms)
  | array : HoldsPair key key' v w (.array [v, w])

namespace Decoder

variable {α β : Type}

theorem within_of_ok {d : Decoder α} {v : Json} {x : α} (h : d v = .ok x) (s : Segment) :
    within s d v = .ok x := by
  simp [within, h, Except.mapError]

theorem itemsFrom_of_forall₂ {d : Decoder α} {vs : List Json} {xs : List α}
    (h : List.Forall₂ (fun v x => d v = .ok x) vs xs) (i : Nat) : itemsFrom d i vs = .ok xs := by
  induction h generalizing i with
  | nil => rfl
  | @cons v x vs xs hv _ ih =>
    rw [itemsFrom, within_of_ok hv, ih]
    rfl

/-- The items of an array are decoded one by one. -/
theorem items_array {d : Decoder α} {vs : List Json} {xs : List α}
    (h : List.Forall₂ (fun v x => d v = .ok x) vs xs) : items d (.array vs) = .ok xs :=
  itemsFrom_of_forall₂ h 0

theorem items_any (vs : List Json) : items any (.array vs) = .ok vs :=
  items_array (List.forall₂_same.2 fun _ _ => rfl)

theorem int64_int {n : Int} (h : VerbScript.Number.FitsInt64 n) : int64 (.int n) = .ok n :=
  if_pos h

theorem Field.read_none {f : Field α} {v : Json} {x : α} (h : f.decoder v = .ok x) :
    f.read none v = .ok (some x) := by
  rw [Field.read, within_of_ok h]
  rfl

/-- A field is read once, from a value that is decoded. -/
theorem Field.exists_of_read {f : Field α} {seen b : Option α} {v : Json}
    (h : f.read seen v = .ok b) : seen = none ∧ ∃ x, f.decoder v = .ok x ∧ b = some x := by
  cases seen with
  | some => cases h
  | none =>
    refine ⟨rfl, ?_⟩
    cases hv : f.decoder v with
    | ok x => exact ⟨x, rfl, Except.ok.inj (h.symm.trans (Field.read_none hv))⟩
    | error e =>
      rw [Field.read, within, hv] at h
      cases h

/-- A record of one field is decoded from an object that holds it. -/
theorem record₁_object {name : String} {f : Field α} {v : Json} {x : α}
    (h : f.decoder v = .ok x) : record₁ name f (.object [(f.key, v)]) = .ok x := by
  rw [record₁, fields₁, if_pos rfl, Field.read_none h]
  rfl

/-- A record of two fields is decoded from an object that holds them in order. -/
theorem record₂_object {name : String} {f : Field α} {g : Field β} {v w : Json} {x : α} {y : β}
    (hkeys : g.key ≠ f.key) (hf : f.decoder v = .ok x) (hg : g.decoder w = .ok y) :
    record₂ name f g (.object [(f.key, v), (g.key, w)]) = .ok (x, y) := by
  rw [record₂, fields₂, if_pos rfl, Field.read_none hf]
  show fields₂ f g (some x) none [(g.key, w)] = _
  rw [fields₂, if_neg hkeys, if_pos rfl, Field.read_none hg]
  rfl

/-! ## What is decoded -/

theorem within_eq_ok_iff {d : Decoder α} {s : Segment} {v : Json} {x : α} :
    within s d v = .ok x ↔ d v = .ok x :=
  ⟨eq_ok_of_mapError, fun h => within_of_ok h s⟩

theorem itemsFrom_eq_ok_iff {d : Decoder α} {i : Nat} {vs : List Json} {xs : List α} :
    itemsFrom d i vs = .ok xs ↔ List.Forall₂ (fun v x => d v = .ok x) vs xs := by
  refine ⟨fun h => ?_, fun h => itemsFrom_of_forall₂ h i⟩
  induction vs generalizing i xs with
  | nil =>
    cases h
    exact .nil
  | cons v vs ih =>
    obtain ⟨x, hx, h⟩ := exists_of_bind_eq_ok h
    obtain ⟨ys, hys, h⟩ := exists_of_bind_eq_ok h
    cases h
    exact .cons (within_eq_ok_iff.1 hx) (ih hys)

theorem items_eq_ok_iff {d : Decoder α} {v : Json} {xs : List α} :
    items d v = .ok xs ↔ ∃ vs, v = .array vs ∧ List.Forall₂ (fun v x => d v = .ok x) vs xs := by
  constructor
  · intro h
    cases v with
    | array vs => exact ⟨vs, rfl, itemsFrom_eq_ok_iff.1 h⟩
    | _ => cases h
  · rintro ⟨vs, rfl, h⟩
    exact items_array h

theorem string_eq_ok_iff {v : Json} {s : String} : string v = .ok s ↔ v = .string s := by
  cases v <;> simp [string, refuse]

theorem members_eq_ok_iff {v : Json} {ms : List (String × Json)} :
    members v = .ok ms ↔ v = .object ms := by
  cases v <;> simp [members, refuse]

theorem int64_eq_ok_iff {v : Json} {n : Int} :
    int64 v = .ok n ↔ v = .int n ∧ VerbScript.Number.FitsInt64 n := by
  constructor
  · intro h
    unfold int64 at h
    split at h
    · split at h
      · next hfits =>
        cases h
        exact ⟨rfl, hfits⟩
      · cases h
    · cases h
  · rintro ⟨rfl, hfits⟩
    exact int64_int hfits

/-- What is read of a field in some members, where `seen` was read before them. -/
def Field.Reads (f : Field α) (ms : List (String × Json)) (x : α) : Option α → Prop
  | none => ∃ v, Only f.key v ms ∧ f.decoder v = .ok x
  | some y => y = x ∧ ms.filter (fun m => m.1 == f.key) = []

namespace Field

variable {f : Field α} {ms : List (String × Json)} {x : α} {a : Option α}

theorem reads_nil : f.Reads [] x a ↔ f.require a = .ok x := by
  cases a <;> simp [Reads, require, Only]

theorem reads_cons_self {v : Json} :
    f.Reads ((f.key, v) :: ms) x a ↔ ∃ b, f.read a v = .ok b ∧ f.Reads ms x b := by
  cases a with
  | none =>
    simp only [Reads, Only]
    constructor
    · rintro ⟨w, hw, hx⟩
      simp at hw
      obtain ⟨rfl, hms⟩ := hw
      exact ⟨some x, read_none hx, rfl, by simpa using hms⟩
    · rintro ⟨b, hread, hb⟩
      obtain ⟨-, y, hy, rfl⟩ := exists_of_read hread
      obtain ⟨rfl, hms⟩ := hb
      exact ⟨v, by simpa using hms, hy⟩
  | some y => simp [Reads, read]

theorem reads_cons_of_ne {m : String × Json} (h : m.1 ≠ f.key) :
    f.Reads (m :: ms) x a ↔ f.Reads ms x a := by
  cases a <;> simp [Reads, Only, h]

end Field

variable {f : Field α} {g : Field β} {x : α} {y : β}

/-- A field is read from the one member with its key. -/
theorem fields₁_eq_ok_iff {a : Option α} {ms : List (String × Json)} :
    fields₁ f a ms = .ok x ↔ f.Reads ms x a := by
  induction ms generalizing a with
  | nil => rw [Field.reads_nil, fields₁]
  | cons m ms ih =>
    obtain ⟨k, v⟩ := m
    rw [fields₁]
    split
    · next hk =>
      subst hk
      rw [bind_eq_ok_iff, Field.reads_cons_self]
      simp only [ih]
    · next hk => rw [Field.reads_cons_of_ne hk, ih]

/-- Each of two fields is read from the one member with its key. -/
theorem fields₂_eq_ok_iff (hkeys : g.key ≠ f.key) {a : Option α} {b : Option β}
    {ms : List (String × Json)} :
    fields₂ f g a b ms = .ok (x, y) ↔ f.Reads ms x a ∧ g.Reads ms y b := by
  induction ms generalizing a b with
  | nil =>
    rw [Field.reads_nil, Field.reads_nil, fields₂]
    cases f.require a <;> cases g.require b <;> simp [bind, Except.bind, pure, Except.pure]
  | cons m ms ih =>
    obtain ⟨k, v⟩ := m
    rw [fields₂]
    split
    · next hk =>
      subst hk
      rw [bind_eq_ok_iff, Field.reads_cons_self, Field.reads_cons_of_ne hkeys.symm]
      simp only [ih]
      tauto
    · next hf =>
      rw [Field.reads_cons_of_ne hf]
      split
      · next hk =>
        subst hk
        rw [bind_eq_ok_iff, Field.reads_cons_self]
        simp only [ih]
        tauto
      · next hg => rw [Field.reads_cons_of_ne hg, ih]

/-- A record of one field is decoded from the documents that hold it, and from no others. -/
theorem record₁_eq_ok_iff {name : String} {payload : Json} :
    record₁ name f payload = .ok x ↔ ∃ v, Holds f.key v payload ∧ f.decoder v = .ok x := by
  constructor
  · intro h
    match payload, h with
    | .object ms, h =>
      obtain ⟨v, hv, hx⟩ := fields₁_eq_ok_iff.1 h
      exact ⟨v, .object hv, hx⟩
    | .array (v :: rest), h =>
      obtain ⟨x', hx, h⟩ := exists_of_bind_eq_ok h
      cases rest with
      | nil =>
        cases h
        exact ⟨v, .array, within_eq_ok_iff.1 hx⟩
      | cons _ _ => cases h
  · rintro ⟨v, hholds, hx⟩
    cases hholds with
    | object hv => exact fields₁_eq_ok_iff.2 ⟨v, hv, hx⟩
    | array =>
      rw [record₁, within_of_ok hx]
      rfl

/-- A record of two fields is decoded from the documents that hold both, and from no others. -/
theorem record₂_eq_ok_iff (hkeys : g.key ≠ f.key) {name : String} {payload : Json} :
    record₂ name f g payload = .ok (x, y) ↔
      ∃ v w, HoldsPair f.key g.key v w payload ∧ f.decoder v = .ok x ∧ g.decoder w = .ok y := by
  constructor
  · intro h
    match payload, h with
    | .object ms, h =>
      obtain ⟨⟨v, hv, hx⟩, w, hw, hy⟩ := (fields₂_eq_ok_iff hkeys).1 h
      exact ⟨v, w, .object hv hw, hx, hy⟩
    | .array [v], h =>
      obtain ⟨_, _, h⟩ := exists_of_bind_eq_ok h
      cases h
    | .array (v :: w :: rest), h =>
      obtain ⟨x', hx, h⟩ := exists_of_bind_eq_ok h
      obtain ⟨y', hy, h⟩ := exists_of_bind_eq_ok h
      cases rest with
      | nil =>
        cases h
        exact ⟨v, w, .array, within_eq_ok_iff.1 hx, within_eq_ok_iff.1 hy⟩
      | cons _ _ => cases h
  · rintro ⟨v, w, hpair, hx, hy⟩
    cases hpair with
    | object hv hw => exact (fields₂_eq_ok_iff hkeys).2 ⟨⟨v, hv, hx⟩, w, hw, hy⟩
    | array =>
      rw [record₂, within_of_ok hx, within_of_ok hy]
      rfl

end Decoder

end VerbScript.Json
