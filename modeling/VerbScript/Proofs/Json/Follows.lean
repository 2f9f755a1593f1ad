import VerbScript.Proofs.Basic
import VerbScript.Proofs.Json.Reads
import VerbScript.Proofs.Json.Tree

/-!
# One reading that follows another

Two ways to read a text are compared by what they read and where they stop (`Reader.out`). A reading follows
a stricter one (`Follows`) if it goes on as the stricter one says where that one succeeds, and fails where
that one fails, unless what is wrong is a limit: a fault of what a well-formed part of a text stands for,
such as a number that no double can hold (`Fault.IsLimit`).
-/

namespace VerbScript.Json

variable {α β γ : Type}

/-- The faults of text that is well formed by its characters, but stands for nothing that a document can
hold. -/
def Fault.IsLimit : Fault → Prop
  | .malformed .numberTooLarge | .malformed .loneSurrogate | .malformed .endOfSurrogates
  | .malformed .tooDeep => True
  | _ => False

/-- What was read, and where the reading goes on. -/
def Scanned.pair {c : Cursor} (s : Scanned α c) : α × Cursor := (s.value, s.next)

/-- What a part holds, and where the reading goes on. -/
def Part.pair {c : Cursor} (p : Part α c) : α × Cursor := (p.value, p.next)

/-- What the reader reads at a cursor, and where it stops. -/
def Reader.out (r : Reader α) (c : Cursor) : Except Failure (α × Cursor) := (r c).map Scanned.pair

/-! ## Following -/

/-- Limits may be passed over at any place. -/
abbrev anywhere : Place → Prop := fun _ => True

/-- There is no place where a limit may be passed over. -/
abbrev nowhere : Place → Prop := fun _ => False

/-- The reading `y` goes on by `go` from what the reading `x` comes to, and fails if `x` fails for anything
but a limit at one of the places `P`. -/
structure Follows (P : Place → Prop) (x : Except Failure α) (y : Option β) (go : α → Option β) : Prop where
  ok : ∀ a, x = .ok a → y = go a
  error : ∀ f, x = .error f → y = none ∨ f.fault.IsLimit ∧ P f.place

namespace Follows

variable {P Q : Place → Prop} {x : Except Failure α} {y : Option β} {go : α → Option β}

theorem of_ok {a : α} (h : y = go a) : Follows P (.ok a) y go where
  ok b hb := by
    cases hb
    exact h
  error _ hf := by cases hf

theorem of_error {f : Failure} (h : y = none ∨ f.fault.IsLimit ∧ P f.place) :
    Follows P (.error f) y go where
  ok _ ha := by cases ha
  error g hg := by
    cases hg
    exact h

/-- Where nothing comes of either. -/
theorem fails {f : Failure} (h : y = none) : Follows P (.error f) y go := .of_error (.inl h)

theorem mono (h : Follows P x y go) (hPQ : ∀ p, P p → Q p) : Follows Q x y go where
  ok := h.ok
  error f hf := (h.error f hf).imp_right fun ⟨hlimit, hp⟩ => ⟨hlimit, hPQ _ hp⟩

/-- What comes of the second reading is used in the same way as what the first one comes to. -/
theorem andThen {δ : Type} (h : Follows P x y go) (k : β → Option δ) :
    Follows P x (y.bind k) fun a => (go a).bind k where
  ok a ha := by rw [h.ok a ha]
  error f hf := (h.error f hf).imp_left fun hnone => by
    rw [hnone]
    rfl

theorem andMap {δ : Type} (h : Follows P x y go) (g : β → δ) :
    Follows P x (y.map g) fun a => (go a).map g where
  ok a ha := by rw [h.ok a ha]
  error f hf := (h.error f hf).imp_left fun hnone => by
    rw [hnone]
    rfl

theorem map {δ : Type} {f : α → δ} {go : δ → Option β} (h : Follows P x y fun a => go (f a)) :
    Follows P (x.map f) y go := by
  cases x with
  | ok a => exact .of_ok (h.ok a rfl)
  | error e => exact .of_error (h.error e rfl)

/-- A reading that is seen from the value around it. -/
theorem within (s : Segment) (h : Follows P x y go) :
    Follows (fun p => ∃ q, p = s :: q ∧ P q) (x.mapError (Failure.within s)) y go := by
  cases x with
  | ok a => exact .of_ok (h.ok a rfl)
  | error e => exact .of_error ((h.error e rfl).imp_right fun ⟨hlimit, hp⟩ => ⟨hlimit, _, rfl, hp⟩)

theorem within_any (s : Segment) (h : Follows anywhere x y go) :
    Follows anywhere (x.mapError (Failure.within s)) y go :=
  (h.within s).mono fun _ _ => trivial

/-- What follows the first reading, and then the second one, follows both. -/
theorem bind {δ ε : Type} {z : α → Option δ} {y : Option δ} {m : δ → Option ε}
    {k : α → Except Failure γ} {go : γ → Option ε} (h : Follows P x y z)
    (hk : ∀ a, x = .ok a → Follows P (k a) ((z a).bind m) go) : Follows P (x >>= k) (y.bind m) go := by
  cases x with
  | ok a =>
    rw [h.ok a rfl]
    exact hk a rfl
  | error e =>
    refine .of_error ((h.error e rfl).imp_left fun hnone => ?_)
    rw [hnone]
    rfl

end Follows

namespace Reader

variable {c : Cursor}

/-! ## What readers read -/

theorem out_map (f : α → β) (r : Reader α) (c : Cursor) :
    out (map f r) c = (out r c).map fun p => (f p.1, p.2) := by
  rw [out, map, out]
  cases r c <;> rfl

theorem out_spaced (r : Reader α) (c : Cursor) : out (spaced r) c = out r c.skipBlank := by
  rw [out, spaced, out]
  cases r c.skipBlank <;> rfl

theorem out_within (s : Segment) (r : Reader α) (c : Cursor) :
    out (within s r) c = (out r c).mapError (Failure.within s) := by
  rw [out, within, out]
  cases r c <;> rfl

theorem out_valueOf (key : String) (r : Reader α) (c : Cursor) :
    out (valueOf key r) c = out colon c >>= fun p => (out r p.2).mapError (Failure.within (.key key)) := by
  rw [out, valueOf, out]
  cases colon c with
  | error e => rfl
  | ok s =>
    show _ = (out r s.next).mapError _
    rw [← out_within, out]
    simp only
    cases within (.key key) r s.next <;> rfl

theorem map_pair_scanned {d : Cursor} (x : Except Failure (Part α c)) (h : c.size < d.size) :
    (x.map fun p => p.scanned h).map Scanned.pair = x.map Part.pair := by
  cases x <;> rfl

section

variable {σ : Type} (p : Position) (ch : Char) (rest : List Char)

theorem out_items (r : Reader α) :
    out (items r) ⟨p, ch :: rest⟩ = (itemsFrom r 0 ⟨p.after ch, rest⟩).map Part.pair :=
  map_pair_scanned _ _

theorem out_pairs (r : Reader α) :
    out (pairs r) ⟨p, ch :: rest⟩ = (pairsFrom r true ⟨p.after ch, rest⟩).map Part.pair :=
  map_pair_scanned _ _

theorem out_members (step : σ → String → Reader σ) (s : σ) :
    out (members step s) ⟨p, ch :: rest⟩ = (membersFrom step true s ⟨p.after ch, rest⟩).map Part.pair :=
  map_pair_scanned _ _

end

/-- What is next behind blanks is no blank. -/
theorem not_isBlank_of_skipBlank {ch : Char} {rest : List Char} (h : c.skipBlank.rest = ch :: rest) :
    Cursor.isBlank ch = false := by
  have hnot := List.head?_dropWhile_not Cursor.isBlank c.rest
  rw [show c.rest.dropWhile Cursor.isBlank = ch :: rest from h] at hnot
  exact hnot

/-- Blanks are skipped at once. -/
theorem skipBlank_skipBlank (c : Cursor) : c.skipBlank.skipBlank = c.skipBlank := by
  cases h : c.skipBlank with
  | mk p rest =>
    cases rest with
    | nil => rfl
    | cons ch rest => exact skipBlank_cons (not_isBlank_of_skipBlank (by rw [h]))

theorem out_skipBlank_spaced (r : Reader α) (c : Cursor) :
    out (spaced r) c.skipBlank = out (spaced r) c := by
  rw [out_spaced, out_spaced, skipBlank_skipBlank]

end Reader

/-- A text holds the tree that stands at its beginning, if there are only blanks behind it. -/
theorem tree?_eq (s : String) :
    tree? s = Reader.out (Reader.tree Reader.depthLimit) (Cursor.start s) >>= fun p =>
      if p.2.skipBlank.rest.isEmpty then .ok p.1
      else .error (p.2.skipBlank.failNext .trailingCharacters) := by
  rw [tree?, Reader.out]
  cases Reader.tree Reader.depthLimit (Cursor.start s) <;> rfl

end VerbScript.Json
