import Mathlib.Data.List.TakeWhile
import VerbScript.Proofs.Basic
import VerbScript.Proofs.Json.Reads
import VerbScript.Proofs.Number.Digits

/-!
# Numbers in a document

A number does not say where it ends, so its reader has to be shown to stop at the same place
whatever follows: `number_append` says that what is read off a text as a number is read off it
wherever the text stands (`reads_of_numeral?`). So it is enough to look at the text alone: an integer
that fits a word is read off its own (`numeral?_integerText`), and a double may be (`ReadsBack`).
-/

namespace VerbScript.Json

namespace Reader

open VerbScript.Number (wordBound integerText)

/-! ## What follows a number -/

section
variable {rest : List Char}

theorem head?_append_any {q : Char → Bool} (hq : ∀ ch, q ch = true → continuesNumber ch = true)
    (cs : List Char) (hrest : Ends rest) : (cs ++ rest).head?.any q = cs.head?.any q := by
  cases cs with
  | cons ch cs => rfl
  | nil =>
    cases rest with
    | nil => rfl
    | cons ch rest =>
      have hch := ends_cons.1 hrest
      have : q ch = false := by
        cases hqc : q ch with
        | false => rfl
        | true => rw [hq ch hqc] at hch; cases hch
      simp [this]

theorem any_isDigit_append (cs : List Char) (hrest : Ends rest) :
    (cs ++ rest).head?.any Char.isDigit = cs.head?.any Char.isDigit :=
  head?_append_any (fun ch h => by simp [continuesNumber, h]) cs hrest

theorem any_opensExponent_append (cs : List Char) (hrest : Ends rest) :
    (cs ++ rest).head?.any opensExponent = cs.head?.any opensExponent :=
  head?_append_any (fun ch h => by simp [continuesNumber, h]) cs hrest

theorem head?_append_eq_point (cs : List Char) (hrest : Ends rest) :
    (cs ++ rest).head? = some '.' ↔ cs.head? = some '.' := by
  have := head?_append_any (q := fun ch => ch = '.')
    (fun ch h => by simp [continuesNumber, of_decide_eq_true h]) cs hrest
  simpa [Option.any_eq_true] using congrArg (· = true) this

theorem takeWhile_isDigit_append (cs : List Char) (hrest : Ends rest) :
    (cs ++ rest).takeWhile Char.isDigit = cs.takeWhile Char.isDigit := by
  induction cs with
  | nil =>
    cases rest with
    | nil => rfl
    | cons ch rest => simp [hrest.not_isDigit]
  | cons ch cs ih =>
    by_cases h : ch.isDigit = true
    · simp [h, ih]
    · simp [h]

theorem dropWhile_isDigit_append (cs : List Char) (hrest : Ends rest) :
    (cs ++ rest).dropWhile Char.isDigit = cs.dropWhile Char.isDigit ++ rest := by
  induction cs with
  | nil =>
    cases rest with
    | nil => rfl
    | cons ch rest => simp [hrest.not_isDigit]
  | cons ch cs ih =>
    by_cases h : ch.isDigit = true
    · simp [h, ih]
    · simp [h]

end

/-- What `f` reads off a text it also reads where the text goes on, and it stops at the same
place. -/
def Stable (f : (c : Cursor) → Except Failure (Part Number c)) : Prop :=
  ∀ (p q : Position) (cs rest : List Char) (s : Part Number ⟨p, cs⟩), Ends rest →
    f ⟨p, cs⟩ = .ok s →
    ∃ t, f ⟨q, cs ++ rest⟩ = .ok t ∧ t.value = s.value ∧ t.next.rest = s.next.rest ++ rest

/-- A reading behind a part that is skipped. -/
theorem exists_map_widen {f : (c : Cursor) → Except Failure (Part Number c)} {c d e : Cursor}
    {t : Part Number e} (hd : d = e) (ht : f e = .ok t) (h : d.size ≤ c.size) :
    ∃ u, (f d).map (fun p => p.widen h) = .ok u ∧ u.value = t.value ∧ u.next = t.next := by
  subst hd
  exact ⟨t.widen h, by simp [ht, Except.map], rfl, rfl⟩

theorem skipWhile_isDigit_append (p q : Position) (cs : List Char) {rest : List Char}
    (hrest : Ends rest) :
    ∃ r, Cursor.skipWhile Char.isDigit ⟨q, cs ++ rest⟩ =
      ⟨r, (Cursor.skipWhile Char.isDigit ⟨p, cs⟩).rest ++ rest⟩ := by
  refine ⟨q.afterAll (cs.takeWhile Char.isDigit), ?_⟩
  simp only [Cursor.skipWhile, takeWhile_isDigit_append cs hrest,
    dropWhile_isDigit_append cs hrest]

/-- Skipping digits before a stable reading is stable. -/
theorem Stable.skipWhile {f : (c : Cursor) → Except Failure (Part Number c)} (hf : Stable f)
    {p q : Position} {cs rest : List Char} (hrest : Ends rest) {s : Part Number ⟨p, cs⟩}
    (h : (f (Cursor.skipWhile Char.isDigit ⟨p, cs⟩)).map
      (fun t => t.widen (Cursor.size_skipWhile_le Char.isDigit ⟨p, cs⟩)) = .ok s) :
    ∃ t, (f (Cursor.skipWhile Char.isDigit ⟨q, cs ++ rest⟩)).map
      (fun t => t.widen (Cursor.size_skipWhile_le Char.isDigit ⟨q, cs ++ rest⟩)) = .ok t ∧
      t.value = s.value ∧ t.next.rest = s.next.rest ++ rest := by
  obtain ⟨t, ht, rfl⟩ := exists_of_map h
  obtain ⟨r, hr⟩ := skipWhile_isDigit_append p q cs hrest
  obtain ⟨u, hu, hvalue, hnext⟩ := hf _ r _ _ _ hrest ht
  obtain ⟨w, hw, hwvalue, hwnext⟩ := exists_map_widen hr hu (Cursor.size_skipWhile_le _ _)
  exact ⟨w, hw, hwvalue.trans hvalue, by rw [hwnext, hnext]; rfl⟩

/-- Passing a character before a stable reading is stable. -/
theorem Stable.next {f : (c : Cursor) → Except Failure (Part Number c)} (hf : Stable f)
    {p q : Position} {ch : Char} {cs rest : List Char} (hrest : Ends rest)
    {s : Part Number ⟨p, ch :: cs⟩}
    (h : (f (Cursor.next ⟨p, ch :: cs⟩)).map
      (fun t => t.widen (Cursor.size_next_le ⟨p, ch :: cs⟩)) = .ok s) :
    ∃ t, (f (Cursor.next ⟨q, ch :: (cs ++ rest)⟩)).map
      (fun t => t.widen (Cursor.size_next_le ⟨q, ch :: (cs ++ rest)⟩)) = .ok t ∧
      t.value = s.value ∧ t.next.rest = s.next.rest ++ rest := by
  obtain ⟨t, ht, rfl⟩ := exists_of_map h
  obtain ⟨u, hu, hvalue, hnext⟩ := hf (p.after ch) (q.after ch) cs rest t hrest ht
  obtain ⟨w, hw, hwvalue, hwnext⟩ :=
    exists_map_widen (d := Cursor.next ⟨q, ch :: (cs ++ rest)⟩) rfl hu (Cursor.size_next_le _)
  exact ⟨w, hw, hwvalue.trans hvalue, by rw [hwnext, hnext]; rfl⟩

theorem stable_finite (n : Number) : Stable (finite n) := by
  intro p q cs rest s _ h
  cases n with
  | int n =>
    cases h
    exact ⟨_, rfl, rfl, rfl⟩
  | float x =>
    simp only [finite] at h ⊢
    split at h
    · next hx =>
      cases h
      exact ⟨_, if_pos hx, rfl, rfl⟩
    · cases h

theorem stable_exponentDigits (negative down : Bool) (whole fraction : List Char) :
    Stable (exponentDigits negative down whole fraction) := by
  intro p q cs rest s hrest h
  simp only [exponentDigits, takeWhile_isDigit_append cs hrest] at h ⊢
  split at h
  · cases h
  · next hdigits =>
    rw [if_neg hdigits]
    split at h
    · cases h
    · exact (stable_finite _).skipWhile hrest h

theorem stable_exponentSign (negative : Bool) (whole fraction : List Char) :
    Stable (exponentSign negative whole fraction) := by
  intro p q cs rest s hrest h
  cases cs with
  | nil => simp [exponentSign, exponentDigits] at h
  | cons ch cs =>
    simp only [exponentSign, List.cons_append] at h ⊢
    split at h
    · next heq =>
      cases heq
      exact (stable_exponentDigits _ _ _ _).next hrest h
    · next heq =>
      cases heq
      exact (stable_exponentDigits _ _ _ _).next hrest h
    · next hminus hplus =>
      split
      · next heq => cases heq; exact absurd rfl (hminus _)
      · next heq => cases heq; exact absurd rfl (hplus _)
      · exact stable_exponentDigits _ _ _ _ _ _ _ _ _ hrest h

theorem stable_afterFraction (negative : Bool) (whole fraction : List Char) :
    Stable (afterFraction negative whole fraction) := by
  intro p q cs rest s hrest h
  simp only [afterFraction, any_opensExponent_append cs hrest] at h ⊢
  split at h
  · next hopens =>
    rw [if_pos hopens]
    cases cs with
    | nil => cases hopens
    | cons ch cs => exact (stable_exponentSign _ _ _).next hrest h
  · next hopens =>
    rw [if_neg hopens]
    exact stable_finite _ _ _ _ _ _ hrest h

theorem stable_fractionDigits (negative : Bool) (whole : List Char) :
    Stable (fractionDigits negative whole) := by
  intro p q cs rest s hrest h
  simp only [fractionDigits, takeWhile_isDigit_append cs hrest] at h ⊢
  split at h
  · cases h
  · next hdigits =>
    rw [if_neg hdigits]
    exact (stable_afterFraction _ _ _).skipWhile hrest h

theorem stable_afterWhole (negative : Bool) (whole : List Char) :
    Stable (afterWhole negative whole) := by
  intro p q cs rest s hrest h
  simp only [afterWhole, any_opensExponent_append cs hrest, head?_append_eq_point cs hrest] at h ⊢
  split at h
  · next hpoint =>
    rw [if_pos hpoint]
    cases cs with
    | nil => cases hpoint
    | cons ch cs => exact (stable_fractionDigits _ _).next hrest h
  · next hpoint =>
    rw [if_neg hpoint]
    split at h
    · next hopens =>
      rw [if_pos hopens]
      cases cs with
      | nil => cases hopens
      | cons ch cs => exact (stable_exponentSign _ _ _).next hrest h
    · next hopens =>
      rw [if_neg hopens]
      exact stable_finite _ _ _ _ _ _ hrest h

theorem unsignedNumber_cons (negative : Bool) (p : Position) (ch : Char) (cs : List Char) :
    unsignedNumber negative ⟨p, ch :: cs⟩ =
      if ch = '0' then
        if cs.head?.any Char.isDigit then .error (Cursor.failNext ⟨p.after ch, cs⟩ .invalidNumber)
        else (afterWhole negative ['0'] ⟨p.after ch, cs⟩).map
          fun t => t.scanned (Nat.lt_succ_self _)
      else if ch.isDigit then
        (afterWhole negative (ch :: cs.takeWhile Char.isDigit)
          (Cursor.skipWhile Char.isDigit ⟨p.after ch, cs⟩)).map
          fun t => (t.widen (Cursor.size_skipWhile_le _ _)).scanned (Nat.lt_succ_self _)
      else .error (Cursor.failNext ⟨p, ch :: cs⟩ .invalidNumber) :=
  rfl

theorem number_cons (p : Position) (ch : Char) (cs : List Char) :
    number ⟨p, ch :: cs⟩ =
      if ch = '-' then
        (unsignedNumber true ⟨p.after ch, cs⟩).map fun s => s.widen (Nat.le_succ _)
      else unsignedNumber false ⟨p, ch :: cs⟩ := by
  by_cases h : ch = '-'
  · subst h; rfl
  · rw [if_neg h, number, if_neg (by simpa using h)]

/-- A number is read off a text as it is where the text ends behind it. -/
theorem unsignedNumber_append {negative : Bool} {p q : Position} {cs rest : List Char}
    {s : Scanned Number ⟨p, cs⟩} (hrest : Ends rest)
    (h : unsignedNumber negative ⟨p, cs⟩ = .ok s) :
    ∃ t, unsignedNumber negative ⟨q, cs ++ rest⟩ = .ok t ∧ t.value = s.value ∧
      t.next.rest = s.next.rest ++ rest := by
  cases cs with
  | nil => simp [unsignedNumber] at h
  | cons ch cs =>
    rw [List.cons_append, unsignedNumber_cons, any_isDigit_append cs hrest,
      takeWhile_isDigit_append cs hrest]
    rw [unsignedNumber_cons] at h
    by_cases hzero : ch = '0'
    · rw [if_pos hzero] at h ⊢
      by_cases hdigit : cs.head?.any Char.isDigit = true
      · rw [if_pos hdigit] at h
        cases h
      · rw [if_neg hdigit] at h ⊢
        obtain ⟨t, ht, rfl⟩ := exists_of_map h
        obtain ⟨u, hu, hvalue, hnext⟩ :=
          stable_afterWhole _ _ _ (q.after ch) _ _ _ hrest ht
        exact ⟨u.scanned (by simp [Cursor.size]), by simp [hu, Except.map], hvalue, hnext⟩
    · rw [if_neg hzero] at h ⊢
      by_cases hdigit : ch.isDigit = true
      · rw [if_pos hdigit] at h ⊢
        obtain ⟨t, ht, rfl⟩ := exists_of_map h
        obtain ⟨u, hu, hvalue, hnext⟩ :=
          (stable_afterWhole negative (ch :: cs.takeWhile Char.isDigit)).skipWhile
            (q := q.after ch) (s := t.widen (Cursor.size_skipWhile_le _ _)) hrest
            (by simp [ht, Except.map])
        obtain ⟨w, hw, rfl⟩ := exists_of_map hu
        exact ⟨(w.widen (Cursor.size_skipWhile_le _ _)).scanned (by simp [Cursor.size]),
          by simp [hw, Except.map], hvalue, hnext⟩
      · rw [if_neg hdigit] at h
        cases h

/-- What is read off a text as a number is read off it wherever it stands. -/
theorem number_append {p q : Position} {cs rest : List Char} {s : Scanned Number ⟨p, cs⟩}
    (hrest : Ends rest) (h : number ⟨p, cs⟩ = .ok s) :
    ∃ t, number ⟨q, cs ++ rest⟩ = .ok t ∧ t.value = s.value ∧ t.next.rest = s.next.rest ++ rest := by
  cases cs with
  | nil => simp [number, unsignedNumber] at h
  | cons ch cs =>
    rw [List.cons_append, number_cons]
    rw [number_cons] at h
    by_cases hminus : ch = '-'
    · rw [if_pos hminus] at h ⊢
      obtain ⟨t, ht, rfl⟩ := exists_of_map h
      obtain ⟨u, hu, hvalue, hnext⟩ := unsignedNumber_append (q := q.after ch) hrest ht
      exact ⟨u.widen (by simp [Cursor.size]), by simp [hu, Except.map], hvalue, hnext⟩
    · rw [if_neg hminus] at h ⊢
      exact unsignedNumber_append hrest h

/-! ## Printed numbers -/

/-- The number that a text holds, with nothing after it. -/
def numeral? (cs : List Char) : Option Number :=
  match number ⟨⟨1, 0⟩, cs⟩ with
  | .ok s => if s.next.rest.isEmpty then some s.value else none
  | .error _ => none

/-- A text that holds a number is read as that number wherever it stands. -/
theorem reads_of_numeral? {cs : List Char} {n : Number} (h : numeral? cs = some n) :
    Reads number cs n := by
  intro p rest hrest
  rw [numeral?] at h
  split at h
  · next s hs =>
    split at h
    · next hempty =>
      cases h
      obtain ⟨t, ht, hvalue, hnext⟩ := number_append (q := p) hrest hs
      exact ⟨t, ht, hvalue, by rw [hnext, List.isEmpty_iff.1 hempty, List.nil_append]⟩
    · cases h
  · cases h

/-- A text that holds a number begins as a number. -/
theorem opensNumber_of_numeral? {cs : List Char} {n : Number} (h : numeral? cs = some n) :
    ∃ ch tail, cs = ch :: tail ∧ opensNumber ch = true := by
  cases cs with
  | nil => simp [numeral?, number, unsignedNumber] at h
  | cons ch cs =>
    refine ⟨ch, cs, rfl, ?_⟩
    by_cases hminus : ch = '-'
    · simp [opensNumber, hminus]
    · by_cases hdigit : ch.isDigit = true
      · simp [opensNumber, hdigit]
      · have hzero : ch ≠ '0' := by rintro rfl; exact hdigit rfl
        simp [numeral?, number_cons, unsignedNumber_cons, hminus, hdigit, hzero] at h

/-- The digits of a number that is an integer of a document are read as it. -/
theorem unsignedNumber_toDigits {negative : Bool} {n : Nat} {k : Int} (p : Position)
    (h : wholeNumber negative (Nat.toDigits 10 n) = .int k) :
    ∃ s, unsignedNumber negative ⟨p, Nat.toDigits 10 n⟩ = .ok s ∧ s.value = .int k ∧
      s.next.rest = [] := by
  rcases Nat.eq_zero_or_pos n with rfl | hpos
  · have hzero : Nat.toDigits 10 0 = ['0'] := rfl
    rw [hzero] at h ⊢
    rw [unsignedNumber_cons, if_pos rfl, if_neg (by simp)]
    simp only [afterWhole, List.head?_nil, Option.any_none, finite, h]
    exact ⟨_, rfl, rfl, rfl⟩
  · obtain ⟨c, cs, hcs, hc⟩ := Number.toDigits_eq_cons hpos
    have hdigit : ∀ d ∈ c :: cs, d.isDigit = true := fun d hd =>
      Number.isDigit_of_mem_toDigits (hcs ▸ hd)
    have htail : ∀ d ∈ cs, d.isDigit = true := fun d hd => hdigit d (List.mem_cons_of_mem c hd)
    have htake : cs.takeWhile Char.isDigit = cs := List.takeWhile_eq_self_iff.2 htail
    have hdrop : cs.dropWhile Char.isDigit = [] := List.dropWhile_eq_nil_iff.2 htail
    rw [hcs] at h ⊢
    rw [unsignedNumber_cons, if_neg hc, if_pos (hdigit c (List.mem_cons_self ..)), htake]
    simp only [Cursor.skipWhile, htake, hdrop, afterWhole, List.head?_nil, Option.any_none, finite,
      h]
    exact ⟨_, rfl, rfl, hdrop⟩

/-- An integer of a document holds itself: one that fits a signed word if it is negative, else an
unsigned one. -/
theorem numeral?_integerText {n : Int} (hlow : -(wordBound 63 : Int) ≤ n)
    (hhigh : n < wordBound 64) : numeral? (integerText n).toList = some (.int n) := by
  cases n with
  | ofNat m =>
    have hwhole : wholeNumber false (Nat.toDigits 10 m) = .int m := by
      have : m < wordBound 64 := Int.ofNat_lt.1 hhigh
      simp [wholeNumber, Number.foldDigits_toDigits, this]
    obtain ⟨s, hs, hvalue, hnext⟩ := unsignedNumber_toDigits ⟨1, 0⟩ hwhole
    have hhead : (Nat.toDigits 10 m).head? ≠ some '-' := by
      intro h
      exact absurd (Number.isDigit_of_mem_toDigits (List.mem_of_head? h)) (by decide)
    rw [integerText, String.toList_ofList, numeral?, number, if_neg hhead, hs]
    simp [hvalue, hnext]
  | negSucc m =>
    have hwhole : wholeNumber true (Nat.toDigits 10 (m + 1)) = .int (Int.negSucc m) := by
      have : m + 1 ≤ wordBound 63 := by omega
      rw [wholeNumber, if_pos rfl, Number.foldDigits_toDigits, if_pos ⟨by omega, this⟩]
      rfl
    obtain ⟨s, hs, hvalue, hnext⟩ := unsignedNumber_toDigits (Position.after ⟨1, 0⟩ '-') hwhole
    rw [integerText, String.toList_ofList, numeral?, number_cons, if_pos rfl, hs]
    simp [Except.map, Scanned.widen, hvalue, hnext]

theorem opens_of_opensNumber {ch : Char} {tail : List Char} (h : opensNumber ch = true) :
    Opens (ch :: tail) := by
  refine ⟨ch, tail, rfl, ?_, ?_, ?_⟩
  · cases hb : Cursor.isBlank ch with
    | false => rfl
    | true =>
      simp only [Cursor.isBlank, Bool.or_eq_true, decide_eq_true_eq] at hb
      rcases hb with ((rfl | rfl) | rfl) | rfl
      all_goals cases h
  · rintro rfl
    cases h
  · rintro rfl
    cases h

end Reader

deriving instance DecidableEq for Json.Number

/-- A finite double whose text in a document is read as the double. -/
def ReadsBack (x : Float) : Prop :=
  x.isFinite = true ∧ Reader.numeral? (Number.text (.float x)).toList = some (.float x)

instance (x : Float) : Decidable (ReadsBack x) := inferInstanceAs (Decidable (_ ∧ _))

end VerbScript.Json
