import VerbScript.Json.Record
import VerbScript.Proofs.Json.Skip

/-!
# Readers that decode trees

A reader of a fixed shape decodes trees by `D` (`Reader.Decodes`) if it reads what `D` makes of the tree
that stands at a cursor, stops where the tree ends, and fails where `D` refuses the tree or there is none.
One lemma for each of the parts from which readers of records are put together says by which `D` it decodes.
What a record makes of an object is what its members make of a record one after the other
(`Reader.decodes_record`), so the order in which they stand and keys that come twice are part of it.
-/

namespace VerbScript.Json

variable {α β γ σ : Type}

/-- Whether a value can begin with a character. -/
def opens : Json → Char → Bool
  | .null, ch => ch = 'n'
  | .bool _, ch => ch = 't' || ch = 'f'
  | .number _, ch => Reader.opensNumber ch
  | .string _, ch => ch = '"'
  | .array _, ch => ch = '['
  | .object _, ch => ch = '\x7b'

/-- What a value is worth as a number. -/
def numberBy (accept : Number → Except Mismatch α) : Json → Option α
  | .number n => (accept n).toOption
  | _ => none

/-- What `null` stands for, or any other value. -/
def optionalBy (D : Json → Option α) : Json → Option (Option α)
  | .null => some none
  | v => (D v).map some

theorem optionalBy_of_ne {D : Json → Option α} {v : Json} (h : v ≠ .null) :
    optionalBy D v = (D v).map some := by
  cases v with
  | null => exact absurd rfl h
  | _ => rfl

/-- What the members of an object are worth. -/
def objectBy (D : List (String × Json) → Option α) : Json → Option α
  | .object ms => D ms
  | _ => none

/-- What the members of an object, or the items of an array, are worth. -/
def recordBy (D : List (String × Json) → Option α) (E : List Json → Option α) : Json → Option α
  | .object ms => D ms
  | .array vs => E vs
  | _ => none

/-- What a table is worth, member by member. -/
def tableBy (D : Json → Option α) : Json → Option (List (String × α)) :=
  objectBy fun ms => (ms.foldlM (fun all m => (D m.2).map fun x => (m.1, x) :: all) []).map List.reverse

theorem isSome_tableBy (D : Json → Option α) (ms : List (String × Json)) :
    (tableBy D (.object ms)).isSome = ms.all fun m => (D m.2).isSome := by
  rw [tableBy, objectBy, Option.isSome_map]
  generalize ([] : List (String × α)) = all
  induction ms generalizing all with
  | nil => rfl
  | cons m rest ih =>
    rw [List.foldlM_cons, List.all_cons]
    cases D m.2 with
    | none => rfl
    | some x => exact ih _

/-- A field that may be read once. -/
def onceBy (seen value : Option α) : Option (Option α) := if seen.isSome then none else value.map some

/-- What the values of a key make of a field, one after the other. -/
def seenBy (D : Json → Option α) (seen : Option α) (vs : List Json) : Option (Option α) :=
  vs.foldlM (fun seen v => onceBy seen (D v)) seen

theorem seenBy_cons (D : Json → Option α) (seen : Option α) (v : Json) (vs : List Json) :
    seenBy D seen (v :: vs) = (onceBy seen (D v)).bind fun seen => seenBy D seen vs := rfl

/-- The values of a key make a field that has not been read yet if there is none of them, or one. -/
theorem seenBy_none_eq_some {D : Json → Option α} {vs : List Json} {x : Option α} :
    seenBy D none vs = some x ↔ vs = [] ∧ x = none ∨ ∃ v y, vs = [v] ∧ D v = some y ∧ x = some y := by
  match vs with
  | [] => simp [seenBy, pure, eq_comm]
  | [v] =>
    have hone : seenBy D none [v] = (D v).map some := by
      rw [seenBy_cons]
      cases D v <;> rfl
    rw [hone, Option.map_eq_some_iff]
    constructor
    · rintro ⟨y, hy, rfl⟩
      exact .inr ⟨v, y, rfl, hy, rfl⟩
    · rintro (⟨hnil, -⟩ | ⟨w, y, hw, hy, rfl⟩)
      · cases hnil
      · cases hw
        exact ⟨y, hy, rfl⟩
  | v :: w :: vs =>
    have hmany : seenBy D none (v :: w :: vs) = none := by
      rw [seenBy_cons]
      cases D v <;> rfl
    simp [hmany]

/-- Whether a key has one value, and that one fits. -/
def fitsOnce (p : Json → Bool) : List Json → Bool
  | [v] => p v
  | _ => false

/-- Whether a key has no value, or one that fits. -/
def fitsAtMostOnce (p : Json → Bool) (vs : List Json) : Bool := vs.isEmpty || fitsOnce p vs

section

variable {α : Type} {D : Json → Option α} {p : Json → Bool} {vs : List Json}

theorem fitsOnce_eq_true : fitsOnce p vs = true ↔ ∃ v, vs = [v] ∧ p v = true := by
  match vs with
  | [] => simp [fitsOnce]
  | [v] => simp [fitsOnce]
  | v :: w :: vs => simp [fitsOnce]

/-- A field is read if its key has one value that fits. -/
theorem fitsOnce_iff (hD : ∀ v, (D v).isSome = p v) :
    fitsOnce p vs = true ↔ ∃ x, seenBy D none vs = some (some x) := by
  rw [fitsOnce_eq_true]
  constructor
  · rintro ⟨v, hvs, hv⟩
    obtain ⟨x, hx⟩ := Option.isSome_iff_exists.1 ((hD v).trans hv)
    exact ⟨x, seenBy_none_eq_some.2 (.inr ⟨v, x, hvs, hx, rfl⟩)⟩
  · rintro ⟨x, hx⟩
    obtain ⟨-, hnone⟩ | ⟨v, y, hvs, hy, -⟩ := seenBy_none_eq_some.1 hx
    · cases hnone
    · exact ⟨v, hvs, by rw [← hD, hy]; rfl⟩

/-- A field is read or left out if its key has no value or one that fits. -/
theorem fitsAtMostOnce_iff (hD : ∀ v, (D v).isSome = p v) :
    fitsAtMostOnce p vs = true ↔ ∃ x, seenBy D none vs = some x := by
  rw [fitsAtMostOnce, Bool.or_eq_true, fitsOnce_iff hD, List.isEmpty_iff]
  constructor
  · rintro (hnil | ⟨x, hx⟩)
    · exact ⟨none, seenBy_none_eq_some.2 (.inl ⟨hnil, rfl⟩)⟩
    · exact ⟨some x, hx⟩
  · rintro ⟨x, hx⟩
    obtain ⟨hnil, -⟩ | ⟨v, y, -, -, rfl⟩ := seenBy_none_eq_some.1 hx
    · exact .inl hnil
    · exact .inr ⟨y, hx⟩

end

namespace Reader

variable {P Q : Place → Prop} {c : Cursor} {depth : Nat}

/-! ## The kinds of trees -/

section

variable {array object : Reader Json}

theorem valueWith_number (h : c.skipBlank.rest.head?.any opensNumber) :
    out (valueWith array object) c = (out number c.skipBlank).map fun p => (.number p.1, p.2) := by
  rw [valueWith, out_spaced, ← out_map]
  generalize c.skipBlank = d at h
  obtain ⟨p, rest⟩ := d
  cases rest with
  | nil => cases h
  | cons ch rest =>
    have hne (x : Char) (hx : opensNumber x = false) : ch ≠ x := by
      rintro rfl
      exact Bool.false_ne_true (hx.symm.trans h)
    have hopens : opensNumber ch = true := h
    simp only [out, if_neg (hne 'n' rfl), if_neg (hne 't' rfl), if_neg (hne 'f' rfl), if_pos hopens]

theorem valueWith_string (h : c.skipBlank.rest.head? = some '"') :
    out (valueWith array object) c = (out string c.skipBlank).map fun p => (.string p.1, p.2) := by
  rw [valueWith, out_spaced, ← out_map]
  obtain ⟨rest, hrest⟩ := List.head?_eq_some_iff.1 h
  simp only [out, hrest]
  rfl

theorem valueWith_null (h : c.skipBlank.rest.head? = some 'n') :
    out (valueWith array object) c = out (constant ['u', 'l', 'l'] .null) c.skipBlank := by
  rw [valueWith, out_spaced]
  obtain ⟨rest, hrest⟩ := List.head?_eq_some_iff.1 h
  simp only [out, hrest]
  rfl

theorem valueWith_array (h : c.skipBlank.rest.head? = some '[') :
    out (valueWith array object) c = out array c.skipBlank := by
  rw [valueWith, out_spaced]
  obtain ⟨rest, hrest⟩ := List.head?_eq_some_iff.1 h
  simp only [out, hrest]
  rfl

theorem valueWith_object (h : c.skipBlank.rest.head? = some '\x7b') :
    out (valueWith array object) c = out object c.skipBlank := by
  rw [valueWith, out_spaced]
  obtain ⟨rest, hrest⟩ := List.head?_eq_some_iff.1 h
  simp only [out, hrest]
  rfl

/-- A value is of the kind that its first character says. -/
theorem opens_of_valueWith (harray : ∀ d p, out array d = .ok p → ∃ vs, p.1 = .array vs)
    (hobject : ∀ d p, out object d = .ok p → ∃ ms, p.1 = .object ms) {p : Json × Cursor}
    (h : out (valueWith array object) c = .ok p) : c.skipBlank.rest.head?.any p.1.opens := by
  have hconstant {w : List Char} {v : Json} {d : Cursor} (hv : out (constant w v) d = .ok p) : p.1 = v := by
    obtain ⟨s, hs, rfl⟩ := exists_of_map hv
    rw [constant] at hs
    split at hs
    · cases hs
    · split at hs
      · cases hs
      · cases hs
        rfl
  have hmapped {γ : Type} {f : γ → Json} {r : Reader γ} {d : Cursor} (hv : out (map f r) d = .ok p) :
      ∃ x, p.1 = f x := by
    rw [out_map] at hv
    obtain ⟨q, -, rfl⟩ := exists_of_map hv
    exact ⟨q.1, rfl⟩
  rw [valueWith, out_spaced] at h
  generalize c.skipBlank = d at h
  obtain ⟨position, rest⟩ := d
  cases rest with
  | nil => cases h
  | cons ch rest =>
    simp only [out] at h
    rw [List.head?_cons, Option.any_some]
    split at h
    · next hch => rw [hconstant h, hch]; rfl
    split at h
    · next hch => rw [hconstant h, hch]; rfl
    split at h
    · next hch => rw [hconstant h, hch]; rfl
    split at h
    · next hch =>
      obtain ⟨n, hn⟩ := hmapped h
      rw [hn]
      exact hch
    split at h
    · next hch =>
      obtain ⟨s, hs⟩ := hmapped h
      rw [hs, hch]
      rfl
    split at h
    · next hch =>
      obtain ⟨vs, hvs⟩ := harray _ p h
      rw [hvs, hch]
      rfl
    split at h
    · next hch =>
      obtain ⟨ms, hms⟩ := hobject _ p h
      rw [hms, hch]
      rfl
    · cases h

end

theorem opens_of_tree {p : Json × Cursor} (h : out (tree depth) c = .ok p) :
    c.skipBlank.rest.head?.any p.1.opens := by
  cases depth with
  | zero => exact opens_of_valueWith (by rintro d p ⟨⟩) (by rintro d p ⟨⟩) h
  | succ depth =>
    refine opens_of_valueWith (fun d p hp => ?_) (fun d p hp => ?_) h
    · rw [out_map] at hp
      obtain ⟨q, -, rfl⟩ := exists_of_map hp
      exact ⟨q.1, rfl⟩
    · rw [out_map] at hp
      obtain ⟨q, -, rfl⟩ := exists_of_map hp
      exact ⟨q.1, rfl⟩

theorem tree_number (h : c.skipBlank.rest.head?.any opensNumber) :
    out (tree depth) c = (out number c.skipBlank).map fun p => (.number p.1, p.2) := by
  cases depth with
  | zero => exact valueWith_number h
  | succ => exact valueWith_number h

theorem tree_string (h : c.skipBlank.rest.head? = some '"') :
    out (tree depth) c = (out string c.skipBlank).map fun p => (.string p.1, p.2) := by
  cases depth with
  | zero => exact valueWith_string h
  | succ => exact valueWith_string h

theorem tree_null (h : c.skipBlank.rest.head? = some 'n') :
    out (tree depth) c = out (constant ['u', 'l', 'l'] .null) c.skipBlank := by
  cases depth with
  | zero => exact valueWith_null h
  | succ => exact valueWith_null h

theorem tree_array (h : c.skipBlank.rest.head? = some '[') : out (tree (depth + 1)) c =
    (out (items (tree depth)) c.skipBlank).map fun p => (.array p.1, p.2) := by
  rw [← out_map]
  exact valueWith_array h

theorem tree_object (h : c.skipBlank.rest.head? = some '\x7b') : out (tree (depth + 1)) c =
    (out (pairs (tree depth)) c.skipBlank).map fun p => (.object p.1, p.2) := by
  rw [← out_map]
  exact valueWith_object h

/-! ## Decoding -/

/-- Where the reader `b` reads a value, the reader `r` reads what `D` makes of the value and stops where `b`
stops, or fails if `D` makes nothing of it. Where `b` fails, `r` fails as well, unless a limit at one of the
places `P` is the reason. -/
def Decodes (P : Place → Prop) (b : Reader β) (r : Reader α) (D : β → Option α) : Prop :=
  ∀ c, Follows P (out b c) (out r c).toOption fun p => (D p.1).map (·, p.2)

namespace Decodes

variable {b : Reader β} {r : Reader α} {D : β → Option α}

theorem refl (b : Reader β) : Decodes P b b some := fun c => by
  cases out b c with
  | error f => exact .fails rfl
  | ok p => exact .of_ok rfl

theorem mono (h : Decodes P b r D) (hPQ : ∀ p, P p → Q p) : Decodes Q b r D := fun c => (h c).mono hPQ

theorem of_nowhere (h : Decodes nowhere b r D) : Decodes P b r D := h.mono fun _ => False.elim

theorem map (h : Decodes P b r D) (f : α → γ) : Decodes P b (map f r) fun v => (D v).map f := by
  intro c
  rw [out_map, toOption_map]
  have := (h c).andMap fun q => (f q.1, q.2)
  simp only [Option.map_map] at this ⊢
  exact this

theorem congr {E : β → Option α} (h : Decodes P b r D) (hE : ∀ v, E v = D v) : Decodes P b r E := by
  rwa [funext hE]

theorem of_ok (h : Decodes P b r D) {s : Scanned β c} (hb : b c = .ok s) :
    (out r c).toOption = (D s.value).map (·, s.next) := (h c).ok s.pair (by rw [out, hb]; rfl)

theorem valueOf (h : Decodes P b r D) (key : String) :
    Decodes (fun p => ∃ q, p = .key key :: q ∧ P q) (valueOf key b) (valueOf key r) D := by
  intro c
  rw [out_valueOf, out_valueOf]
  cases out colon c with
  | error e => exact .fails rfl
  | ok p =>
    show Follows _ ((out b p.2).mapError _) ((out r p.2).mapError _).toOption _
    rw [toOption_mapError]
    exact (h p.2).within (.key key)

theorem within (h : Decodes nowhere b r D) (s : Segment) :
    Decodes nowhere (Reader.within s b) (Reader.within s r) D := by
  intro c
  rw [out_within, out_within, toOption_mapError]
  exact ((h c).within s).mono fun _ ⟨_, _, hq⟩ => hq

/-- A field is refused where it has been read before. -/
theorem once (h : Decodes P b r D) (key : String) (seen : Option α) :
    Decodes (fun p => ∃ q, p = .key key :: q ∧ P q) (Reader.valueOf key b) (once key seen r)
      fun v => onceBy seen (D v) := by
  cases seen with
  | none => exact (h.map some).valueOf key
  | some x =>
    exact fun c => ⟨fun _ _ => rfl, fun _ _ => .inl rfl⟩

end Decodes

/-! ## Values of one kind -/

theorem out_refuse (expected : String) (c : Cursor) :
    (out (refuse expected : Reader α) c).toOption = none := by
  have hafter (r : Reader Found) (f : Scanned Found c → Failure) :
      ((r c >>= fun s => (.error (f s) : Except Failure (Scanned α c))).map Scanned.pair).toOption =
        none := by
    cases r c <;> rfl
  rw [out, refuse]
  split
  · rfl
  · simp only [apply_ite (Except.map Scanned.pair), apply_ite Except.toOption, hafter]
    simp [Except.map, Except.toOption]

/-- A value is refused that begins with a character with which none begins that `D` takes. -/
theorem follows_refuse {D : Json → Option α} {expected : String}
    (h : ∀ v, c.skipBlank.rest.head?.any v.opens → D v = none) : Follows P (out (tree depth) c)
      (out (refuse expected : Reader α) c.skipBlank).toOption fun p => (D p.1).map (·, p.2) where
  ok p hp := by
    rw [out_refuse, h p.1 (opens_of_tree hp)]
    rfl
  error _ _ := .inl (out_refuse _ _)

theorem decodes_numeric (expected : String) (accept : Number → Except Mismatch α) :
    Decodes nowhere (tree depth) (numeric expected accept) (numberBy accept) := by
  intro c
  rw [numeric, out_spaced]
  by_cases hc : c.skipBlank.rest.head?.any opensNumber
  · rw [tree_number hc]
    simp only [out, if_pos hc]
    refine .map (.map ?_)
    cases number c.skipBlank with
    | error e => exact .fails rfl
    | ok s =>
      refine .of_ok ?_
      show _ = ((accept s.value).toOption).map _
      simp only
      cases accept s.value <;> rfl
  · simp only [out, if_neg hc]
    refine follows_refuse fun v hv => ?_
    cases v with
    | number n => exact absurd hv hc
    | _ => rfl

/-- A value that begins with one character is of no kind that begins with others. -/
theorem head?_of_opens {v : Json} {ch : Char} (hv : c.skipBlank.rest.head?.any v.opens)
    (h : ∀ x, v.opens x = true → x = ch) : c.skipBlank.rest.head? = some ch := by
  cases hc : c.skipBlank.rest.head? with
  | none =>
    rw [hc] at hv
    cases hv
  | some x =>
    rw [hc] at hv
    rw [h x hv]

theorem decodes_text : Decodes nowhere (tree depth) text string? := by
  intro c
  rw [text, out_spaced]
  by_cases hc : c.skipBlank.rest.head? = some '"'
  · rw [tree_string hc]
    simp only [out, if_pos hc]
    refine .map ?_
    cases (string c.skipBlank).map Scanned.pair with
    | error e => exact .fails rfl
    | ok p => exact .of_ok rfl
  · simp only [out, if_neg hc]
    refine follows_refuse fun v hv => ?_
    cases v with
    | string s => exact absurd (head?_of_opens hv fun x hx => of_decide_eq_true hx) hc
    | _ => rfl

theorem decodes_optional {r : Reader α} {D : Json → Option α} (h : Decodes nowhere (tree depth) r D)
    (hspaced : ∀ c, out r c.skipBlank = out r c) :
    Decodes nowhere (tree depth) (optional r) (optionalBy D) := by
  intro c
  rw [optional, out_spaced]
  by_cases hc : c.skipBlank.rest.head? = some 'n'
  · rw [tree_null hc]
    simp only [out, if_pos hc]
    exact follows_constant _ _ _ _ fun _ => rfl
  · simp only [out, if_neg hc]
    show Follows _ _ (out (map some r) c.skipBlank).toOption _
    rw [out_map, hspaced, toOption_map]
    have hsome := (h c).andMap fun q => (some q.1, q.2)
    refine ⟨fun p hp => ?_, hsome.error⟩
    have hnull : p.1 ≠ .null := by
      intro hp1
      have hopens := opens_of_tree hp
      rw [hp1] at hopens
      exact hc (head?_of_opens hopens fun x hx => of_decide_eq_true hx)
    rw [hsome.ok p hp, optionalBy_of_ne hnull, Option.map_map, Option.map_map]
    rfl

theorem decodes_ofObject {D : List (String × Json) → Option α} {expected : String} {object : Reader α}
    (hobject : Decodes P (pairs (tree depth)) object D) :
    Decodes P (tree (depth + 1)) (ofObject expected object) (objectBy D) := by
  intro c
  rw [ofObject, out_spaced]
  by_cases hc : c.skipBlank.rest.head? = some '\x7b'
  · rw [tree_object hc]
    simp only [out, if_pos hc]
    exact .map (hobject c.skipBlank)
  · simp only [out, if_neg hc]
    refine follows_refuse fun v hv => ?_
    cases v with
    | object ms => exact absurd (head?_of_opens hv fun x hx => of_decide_eq_true hx) hc
    | _ => rfl

theorem decodes_ofObjectOrArray {D : List (String × Json) → Option α} {E : List Json → Option α}
    {expected : String} {object array : Reader α} (hobject : Decodes P (pairs (tree depth)) object D)
    (harray : Decodes P (items (tree depth)) array E) :
    Decodes P (tree (depth + 1)) (ofObjectOrArray expected object array) (recordBy D E) := by
  intro c
  rw [ofObjectOrArray, out_spaced]
  by_cases hobj : c.skipBlank.rest.head? = some '\x7b'
  · rw [tree_object hobj]
    simp only [out, if_pos hobj]
    exact .map (hobject c.skipBlank)
  by_cases harr : c.skipBlank.rest.head? = some '['
  · rw [tree_array harr]
    simp only [out, if_neg hobj, if_pos harr]
    exact .map (harray c.skipBlank)
  · simp only [out, if_neg hobj, if_neg harr]
    refine follows_refuse fun v hv => ?_
    cases v with
    | object ms => exact absurd (head?_of_opens hv fun x hx => of_decide_eq_true hx) hobj
    | array vs => exact absurd (head?_of_opens hv fun x hx => of_decide_eq_true hx) harr
    | _ => rfl

/-! ## Members -/

/-- The value of the next key is read, and then the members after it. -/
theorem pairsFrom_of_key {value : Reader β} {first : Bool} {key : Scanned String c}
    (hkey : (nextKey first c).mapError (Failure.within .unknown) = .ok (some key)) :
    (pairsFrom value first c).map Part.pair = out (valueOf key.value value) key.next >>= fun p =>
      ((pairsFrom value false p.2).map Part.pair).map fun q => ((key.value, p.1) :: q.1, q.2) := by
  rw [pairsFrom, hkey, out]
  simp only
  cases valueOf key.value value key.next with
  | error f => rfl
  | ok t =>
    show _ = ((pairsFrom value false t.next).map Part.pair).map _
    simp only
    cases pairsFrom value false t.next <;> rfl

theorem membersFrom_of_key {step : σ → String → Reader σ} {first : Bool} {s : σ} {key : Scanned String c}
    (hkey : (nextKey first c).mapError (Failure.within .unknown) = .ok (some key)) :
    ((membersFrom step first s c).map Part.pair).toOption = (out (step s key.value) key.next).toOption.bind
      fun p => ((membersFrom step false p.1 p.2).map Part.pair).toOption := by
  rw [membersFrom, hkey, out]
  simp only
  cases step s key.value key.next with
  | error f => rfl
  | ok t =>
    show _ = ((membersFrom step false t.value t.next).map Part.pair).toOption
    simp only
    cases membersFrom step false t.value t.next <;> rfl

/-- Members are decoded one after the other. -/
theorem follows_membersFrom {value : Reader β} {step : σ → String → Reader σ}
    {stepBy : σ → String × β → Option σ}
    (hstep : ∀ s key, Decodes P (valueOf key value) (step s key) fun v => stepBy s (key, v)) (first : Bool)
    (s : σ) (c : Cursor) : Follows P ((pairsFrom value first c).map Part.pair)
      ((membersFrom step first s c).map Part.pair).toOption
        fun p => (p.1.foldlM stepBy s).map (·, p.2) := by
  -- Along the recursion of `pairsFrom` and for every state: a step that refuses its value ends the
  -- reading, whether or not the members after it can be read.
  fun_induction pairsFrom value first c generalizing s with
  | case1 first c f hkey =>
    rw [membersFrom, hkey]
    exact .fails rfl
  | case2 first c hkey =>
    rw [membersFrom, hkey]
    exact .of_ok rfl
  | case3 first c key hkey f hr =>
    rw [membersFrom_of_key hkey]
    exact .of_error (((hstep s key.value key.next).andThen _).error f (by rw [out, hr]; rfl))
  | case4 first c key hkey t hr _ f hrest ih =>
    have hvalue : (out (step s key.value) key.next).toOption =
        (stepBy s (key.value, t.value)).map (·, t.next) := (hstep s key.value).of_ok hr
    rw [membersFrom_of_key hkey, hvalue]
    cases stepBy s (key.value, t.value) with
    | none => exact .fails rfl
    | some s' => exact .of_error ((ih s').error f (by rw [hrest]; rfl))
  | case5 first c key hkey t hr _ p hrest ih =>
    have hvalue : (out (step s key.value) key.next).toOption =
        (stepBy s (key.value, t.value)).map (·, t.next) := (hstep s key.value).of_ok hr
    rw [membersFrom_of_key hkey, hvalue]
    refine .of_ok ?_
    show _ = (((key.value, t.value) :: p.value).foldlM stepBy s).map (·, p.next)
    rw [List.foldlM_cons]
    cases stepBy s (key.value, t.value) with
    | none => rfl
    | some s' => exact (ih s').ok p.pair (by rw [hrest]; rfl)

theorem decodes_members {value : Reader β} {step : σ → String → Reader σ}
    {stepBy : σ → String × β → Option σ}
    (hstep : ∀ s key, Decodes P (valueOf key value) (step s key) fun v => stepBy s (key, v)) (s : σ) :
    Decodes P (pairs value) (members step s) fun ms => ms.foldlM stepBy s := by
  intro c
  obtain ⟨p, rest⟩ := c
  cases rest with
  | nil => exact .fails rfl
  | cons ch rest =>
    rw [out_pairs, out_members]
    exact follows_membersFrom hstep true s _

/-- A record is what its members make of it, if nothing is missing then. -/
theorem decodes_record {value : Reader β} {step : σ → String → Reader σ}
    {stepBy : σ → String × β → Option σ} {finish : σ → Except Mismatch α}
    (hstep : ∀ s key, Decodes P (valueOf key value) (step s key) fun v => stepBy s (key, v)) (s : σ) :
    Decodes P (pairs value) (record step s finish)
      fun ms => (ms.foldlM stepBy s).bind fun t => (finish t).toOption := by
  intro c
  have h := (decodes_members hstep s c).andThen fun p => (finish p.1).toOption.map (·, p.2)
  have hrecord : (out (record step s finish) c).toOption = (out (members step s) c).toOption.bind
      fun p => (finish p.1).toOption.map (·, p.2) := by
    rw [out, record, out]
    cases members step s c with
    | error f => rfl
    | ok t =>
      show _ = (finish t.value).toOption.map (·, t.next)
      simp only
      cases finish t.value <;> rfl
  rw [hrecord]
  refine ⟨fun p hp => ?_, h.error⟩
  rw [h.ok p hp]
  show ((p.1.foldlM stepBy s).map (·, p.2)).bind _ = ((p.1.foldlM stepBy s).bind _).map _
  cases p.1.foldlM stepBy s <;> rfl

/-- The members of a table are decoded one by one. -/
theorem decodes_membersOf {r : Reader α} {D : Json → Option α} (h : Decodes nowhere (tree depth) r D) :
    Decodes nowhere (tree (depth + 1)) (membersOf r) (tableBy D) :=
  decodes_ofObject ((decodes_members (fun all key =>
    ((h.map fun x => (key, x) :: all).valueOf key).mono fun _ ⟨_, _, hq⟩ => hq) []).map List.reverse)

/-! ## Items -/

/-- The fields of a record from the one with the index `i` on, as an array's items are decoded. -/
def DecodesItems (P : Place → Prop) (value : Reader β) (i : Nat)
    (fields : (c : Cursor) → Except Failure (Part α c)) (E : List β → Option α) : Prop :=
  ∀ c, Follows P ((itemsFrom value i c).map Part.pair) ((fields c).map Part.pair).toOption
    fun p => (E p.1).map (·, p.2)

theorem DecodesItems.map {value : Reader β} {i : Nat} {fields : (c : Cursor) → Except Failure (Part α c)}
    {E : List β → Option α} (h : DecodesItems P value i fields E) (f : α → γ) :
    DecodesItems P value i (fun c => (fields c).map (Part.map f)) fun vs => (E vs).map f := by
  intro c
  have hpair : (((fields c).map (Part.map f)).map Part.pair).toOption =
      ((fields c).map Part.pair).toOption.map fun p => (f p.1, p.2) := by
    cases fields c <;> rfl
  have := (h c).andMap fun p => (f p.1, p.2)
  simp only [Option.map_map] at this ⊢
  rw [hpair]
  exact this

/-- Nothing is left of an array exactly where its closing bracket is next. -/
theorem nextItem_eq_none_iff {i : Nat} : nextItem i c = .ok none ↔ c.skipBlank.rest.head? = some ']' := by
  simp only [nextItem]
  split
  · next hc => simp [hc]
  · next ch rest hc =>
    rw [hc, List.head?_cons, Option.some_inj]
    by_cases hclose : ch = ']'
    · simp [hclose]
    by_cases hi : i = 0
    · simp [hclose, hi]
    by_cases hcomma : ch = ','
    · rw [if_neg hclose, if_neg hi, if_pos hcomma]
      split
      · simp [hclose]
      · split <;> simp [hclose]
    · simp [hclose, hi, hcomma]

theorem itemsFrom_of_close (value : Reader β) (h : c.skipBlank.rest.head? = some ']') (i : Nat) :
    itemsFrom value i c = .ok ⟨[], pastClose c, size_pastClose_le c⟩ := by
  rw [itemsFrom, nextItem_eq_none_iff.2 h]

/-- The next item is read, and then the items after it. -/
theorem itemsFrom_of_next {value : Reader β} {i : Nat} {a : Ahead c} (hnext : nextItem i c = .ok (some a)) :
    (itemsFrom value i c).map Part.pair = out (within (.index i) value) a.cursor >>= fun p =>
      ((itemsFrom value (i + 1) p.2).map Part.pair).map fun q => (p.1 :: q.1, q.2) := by
  rw [itemsFrom, hnext, out]
  simp only
  cases within (.index i) value a.cursor with
  | error f => rfl
  | ok s =>
    show _ = ((itemsFrom value (i + 1) s.next).map Part.pair).map _
    simp only
    cases itemsFrom value (i + 1) s.next <;> rfl

/-- Where an array goes on, it has an item. -/
theorem ne_nil_of_itemsFrom {value : Reader β} {i : Nat} {p : Part (List β) c}
    (h : itemsFrom value i c = .ok p) (hc : c.skipBlank.rest.head? ≠ some ']') : p.value ≠ [] := by
  rw [itemsFrom] at h
  split at h
  · cases h
  · next hnext => exact absurd (nextItem_eq_none_iff.1 hnext) hc
  · split at h
    · cases h
    · simp only at h
      split at h
      · cases h
      · cases h
        exact List.cons_ne_nil _ _

theorem decodesItems_endArray (value : Reader β) (i : Nat) :
    DecodesItems nowhere value i endArray fun vs => if vs.isEmpty then some () else none := by
  intro c
  by_cases hc : c.skipBlank.rest.head? = some ']'
  · obtain ⟨rest, hrest⟩ := List.head?_eq_some_iff.1 hc
    rw [itemsFrom_of_close value hc, endArray]
    simp only [hrest, if_true]
    exact .of_ok rfl
  · have hend : ((endArray c).map Part.pair).toOption = none := by
      rw [endArray]
      split
      · rfl
      · next ch rest hrest =>
        rw [hrest, List.head?_cons, Option.some_inj] at hc
        rw [if_neg hc]
        split <;> rfl
    rw [hend]
    cases hitems : itemsFrom value i c with
    | error f => exact .fails rfl
    | ok p =>
      refine .of_ok ?_
      have hne := ne_nil_of_itemsFrom hitems hc
      simp [Part.pair, List.isEmpty_iff, hne]

theorem decodesItems_nextField {value : Reader β} {r : Reader α} {D : β → Option α} {i : Nat}
    (missing : Except Mismatch α) {k : α → (c : Cursor) → Except Failure (Part γ c)}
    {E : α → List β → Option γ} (hr : Decodes nowhere value r D)
    (hk : ∀ x, DecodesItems nowhere value (i + 1) (k x) (E x)) :
    DecodesItems nowhere value i
      (fun c => nextField i r missing c >>= fun x => (k x.value x.next).map fun p => p.widen x.notLonger)
      (fun vs =>
        match vs with
        | [] => missing.toOption.bind (E · [])
        | v :: vs => (D v).bind (E · vs)) := by
  intro c
  cases hnext : nextItem i c with
  | error f =>
    rw [itemsFrom, hnext]
    simp only [nextField, hnext]
    exact .fails rfl
  | ok a? =>
    cases a? with
    | none =>
      -- A field that is missing leaves the closing bracket to the fields after it.
      have hitems (j : Nat) := itemsFrom_of_close value (nextItem_eq_none_iff.1 hnext) j
      rw [hitems]
      simp only [nextField, hnext]
      refine .of_ok ?_
      cases missing with
      | error m => rfl
      | ok x =>
        have hrest : ((k x c).map Part.pair).toOption = (E x []).map (·, pastClose c) :=
          (hk x c).ok ([], pastClose c) (by rw [hitems]; rfl)
        have hwiden : (((k x c).map fun p => p.widen (Nat.le_refl c.size)).map Part.pair).toOption =
            ((k x c).map Part.pair).toOption := by
          cases k x c <;> rfl
        exact hwiden.trans hrest
    | some a =>
      have hfields : ((nextField i r missing c >>= fun x =>
          (k x.value x.next).map fun p => p.widen x.notLonger).map Part.pair).toOption =
            (out (within (.index i) r) a.cursor).toOption.bind
              fun p => ((k p.1 p.2).map Part.pair).toOption := by
        rw [out]
        simp only [nextField, hnext]
        cases within (.index i) r a.cursor with
        | error f => rfl
        | ok s =>
          show (((k s.value s.next).map _).map Part.pair).toOption =
            ((k s.value s.next).map Part.pair).toOption
          cases k s.value s.next <;> rfl
      rw [itemsFrom_of_next hnext, hfields]
      refine .bind (hr.within (.index i) a.cursor) fun p _ => .map ?_
      show Follows nowhere _ (((D p.1).map (·, p.2)).bind _)
        fun q : List β × Cursor => ((D p.1).bind (E · q.1)).map (·, q.2)
      cases D p.1 with
      | none => exact ⟨fun _ _ => rfl, fun _ _ => .inl rfl⟩
      | some x => exact hk x p.2

/-- What reads and decodes alike. -/
theorem DecodesItems.congr {value : Reader β} {i : Nat}
    {fields fields' : (c : Cursor) → Except Failure (Part α c)} {E E' : List β → Option α}
    (h : DecodesItems P value i fields E) (hfields : ∀ c, fields' c = fields c) (hE : ∀ vs, E' vs = E vs) :
    DecodesItems P value i fields' E' := by
  rwa [funext hfields, funext hE]

theorem decodes_arrayRecord {value : Reader β} {fields : (c : Cursor) → Except Failure (Part α c)}
    {E : List β → Option α} (h : DecodesItems P value 0 fields E) :
    Decodes P (items value) (arrayRecord fields) E := by
  intro c
  obtain ⟨p, rest⟩ := c
  cases rest with
  | nil => exact .fails rfl
  | cons ch rest =>
    have hfields : out (arrayRecord fields) ⟨p, ch :: rest⟩ = (fields ⟨p.after ch, rest⟩).map Part.pair :=
      map_pair_scanned _ _
    rw [out_items, hfields]
    exact h _

end Reader

end VerbScript.Json
