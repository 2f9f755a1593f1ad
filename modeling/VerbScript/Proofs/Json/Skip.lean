import VerbScript.Proofs.Json.Follows

/-!
# What is skipped

A value that nobody asks for is skipped with less care than a value is read: the brackets that are open are
kept in a list, and nobody asks what a number or a string stands for. Where a tree is read, skipping stops
where the tree ends, and where none is read, skipping fails too, unless a limit is the reason
(`Reader.follows_skip`).
-/

namespace VerbScript.Json.Reader

variable {α : Type} {c : Cursor} {P : Place → Prop}

/-- Where a part that was skipped ends. -/
def behind? (x : Except Failure (Ahead c)) : Option Cursor := x.toOption.map (·.cursor)

/-- A part that is skipped ends where it ends when it is read. -/
abbrev Skips (x : Except Failure (Part α c)) (y : Option Cursor) : Prop :=
  Follows anywhere x y fun p => some p.next

theorem Skips.widen {d : Cursor} {x : Except Failure (Part α d)} {y : Option Cursor} (h : Skips x y)
    (hle : d.size ≤ c.size) : Skips (x.map fun p => p.widen hle) y :=
  Follows.map (f := fun p : Part α d => p.widen hle) h

/-! ## Numbers -/

theorem isLimit_numberTooLarge : Fault.IsLimit (.malformed .numberTooLarge) := trivial

/-- A run of digits is empty where none is next. -/
theorem takeWhile_isDigit_isEmpty (cs : List Char) :
    (cs.takeWhile Char.isDigit).isEmpty = !cs.head?.any Char.isDigit := by
  cases cs with
  | nil => rfl
  | cons ch cs =>
    rw [List.takeWhile_cons, List.head?_cons, Option.any_some]
    cases ch.isDigit <;> rfl

theorem skips_finite (n : Number) (c : Cursor) : Skips (finite n c) (some c) := by
  cases n with
  | int n => exact .of_ok rfl
  | float x =>
    rw [finite]
    split
    · exact .of_ok rfl
    · exact .of_error (.inr ⟨isLimit_numberTooLarge, trivial⟩)

theorem skips_exponentDigits (negative down : Bool) (whole fraction : List Char) (c : Cursor) :
    Skips (exponentDigits negative down whole fraction c)
      (if c.rest.head?.any Char.isDigit then some (c.skipWhile Char.isDigit) else none) := by
  simp only [exponentDigits, takeWhile_isDigit_isEmpty]
  cases c.rest.head?.any Char.isDigit with
  | false => exact .fails rfl
  | true =>
    simp only [Bool.not_true, Bool.false_eq_true, if_false, if_true]
    split
    · exact .of_error (.inr ⟨isLimit_numberTooLarge, trivial⟩)
    · exact (skips_finite _ _).widen _

/-- An exponent whose letter is next. -/
theorem skips_exponentSign (negative : Bool) (whole fraction : List Char) (c : Cursor) :
    Skips (exponentSign negative whole fraction c.next) (behind? (skipExponent c)) := by
  have hskip : behind? (skipExponent c) =
      let e := if c.next.rest.head? = some '+' ∨ c.next.rest.head? = some '-' then c.next.next else c.next
      if e.rest.head?.any Char.isDigit then some (e.skipWhile Char.isDigit) else none := by
    simp only [skipExponent]
    split
    · split <;> rfl
    · split <;> rfl
  rw [hskip, exponentSign.eq_def]
  split
  · next h =>
    simp only [h, List.head?_cons, or_true, if_true]
    exact (skips_exponentDigits _ _ _ _ _).widen _
  · next h =>
    simp only [h, List.head?_cons, true_or, if_true]
    exact (skips_exponentDigits _ _ _ _ _).widen _
  · next hminus hplus =>
    have hsigned : ¬ (c.next.rest.head? = some '+' ∨ c.next.rest.head? = some '-') := by
      rintro (h | h)
      · obtain ⟨rest, hrest⟩ := List.head?_eq_some_iff.1 h
        exact hplus rest hrest
      · obtain ⟨rest, hrest⟩ := List.head?_eq_some_iff.1 h
        exact hminus rest hrest
    simp only [hsigned, if_false]
    exact skips_exponentDigits _ _ _ _ _

theorem skips_afterFraction (negative : Bool) (whole fraction : List Char) (c : Cursor) :
    Skips (afterFraction negative whole fraction c) (behind? (skipAfterFraction c)) := by
  rw [afterFraction, skipAfterFraction]
  split
  · exact (skips_exponentSign _ _ _ c).widen _
  · exact skips_finite _ c

theorem skips_afterWhole (negative : Bool) (whole : List Char) (c : Cursor) :
    Skips (afterWhole negative whole c) (behind? (skipAfterWhole c)) := by
  rw [afterWhole, skipAfterWhole]
  split
  · refine Skips.widen ?_ _
    simp only [fractionDigits, takeWhile_isDigit_isEmpty]
    cases c.next.rest.head?.any Char.isDigit with
    | false => exact .fails rfl
    | true =>
      simp only [Bool.not_true, Bool.false_eq_true, if_false, if_true]
      have hbehind {d : Cursor} (x : Except Failure (Ahead d)) (hle : d.size ≤ c.size) :
          behind? (x.map fun a => (⟨a.cursor, Nat.le_trans a.notLonger hle⟩ : Ahead c)) = behind? x := by
        cases x <;> rfl
      rw [hbehind _ (Nat.le_trans (c.next.size_skipWhile_le _) c.size_next_le)]
      exact (skips_afterFraction _ _ _ _).widen _
  · rw [skipAfterFraction]
    split
    · exact (skips_exponentSign _ _ _ c).widen _
    · exact skips_finite _ c

/-- Where a number ends whose sign has been skipped. -/
def behindDigits? (c : Cursor) : Option Cursor :=
  match c.rest with
  | [] => none
  | ch :: _ =>
    let d := if ch = '0' then c.next else c.next.skipWhile Char.isDigit
    if !ch.isDigit then none
    else if ch = '0' ∧ d.rest.head?.any Char.isDigit then none
    else behind? (skipAfterWhole d)

theorem out_skipNumber (c : Cursor) : (out skipNumber c).toOption =
    (behindDigits? (if c.rest.head? = some '-' then c.next else c)).map ((), ·) := by
  have hwhole (p : Prop) [Decidable p] (f : Failure) {e : Cursor} (g : Ahead e → Scanned Unit c)
      (hg : ∀ a, (g a).pair = ((), a.cursor)) :
      ((if p then .error f else (skipAfterWhole e).map g).map Scanned.pair).toOption =
        (if p then none else behind? (skipAfterWhole e)).map ((), ·) := by
    split
    · rfl
    · cases skipAfterWhole e with
      | error => rfl
      | ok a => exact congrArg some (hg a)
  simp only [out, skipNumber]
  split
  · next hc =>
    rw [behindDigits?, hc]
    rfl
  · next ch rest hc =>
    simp only [behindDigits?, hc]
    cases ch.isDigit with
    | false => rfl
    | true => exact hwhole _ _ _ fun _ => rfl

theorem follows_unsignedNumber (negative : Bool) (c : Cursor) :
    Follows anywhere (out (unsignedNumber negative) c) (behindDigits? c) fun p => some p.2 := by
  obtain ⟨p, rest⟩ := c
  cases rest with
  | nil => exact .fails rfl
  | cons ch rest =>
    have hscanned {d : Cursor} {x : Except Failure (Part Number d)} {y : Option Cursor}
        (g : Part Number d → Scanned Number ⟨p, ch :: rest⟩) (hg : ∀ n, (g n).pair = n.pair)
        (h : Skips x y) : Follows anywhere ((x.map g).map Scanned.pair) y fun p => some p.2 := by
      refine Follows.map (Follows.map (f := g) ?_)
      simp only [hg]
      exact h
    simp only [out, unsignedNumber, behindDigits?]
    split
    · next hzero =>
      subst hzero
      simp only [true_and]
      split
      · exact .fails rfl
      · exact hscanned _ (fun _ => rfl) (skips_afterWhole _ _ _)
    · next hnonzero =>
      rw [if_neg hnonzero]
      simp only [hnonzero, false_and, if_false]
      split
      · next hdigit =>
        simp only [hdigit, Bool.not_true, Bool.false_eq_true, if_false]
        exact hscanned _ (fun _ => rfl) (skips_afterWhole _ _ _)
      · next hdigit =>
        simp only [hdigit, Bool.not_false, if_true]
        exact .fails rfl

/-- A number ends where it ends when it is read. -/
theorem follows_skipNumber (c : Cursor) : Follows anywhere (out number c) (out skipNumber c).toOption
    fun p => some ((), p.2) := by
  have hunsigned (negative : Bool) (d : Cursor) : Follows anywhere (out (unsignedNumber negative) d)
      ((behindDigits? d).map ((), ·)) fun p => some ((), p.2) :=
    (follows_unsignedNumber negative d).andMap ((), ·)
  rw [out_skipNumber, out, number]
  split
  · have hwiden (x : Except Failure (Scanned Number c.next)) :
        (x.map fun s => s.widen c.size_next_le).map Scanned.pair = x.map Scanned.pair := by
      cases x <;> rfl
    rw [hwiden]
    exact hunsigned true c.next
  · exact hunsigned false c

/-! ## Strings -/

section

variable {p : Position} {a b e ch : Char} {cs rest : List Char}

theorem skipString_hexEscape {h₁ h₂ h₃ h₄ : Char} {n : Nat} (h : hexUnit? h₁ h₂ h₃ h₄ = some n) :
    skipString p ('\\' :: 'u' :: h₁ :: h₂ :: h₃ :: h₄ :: rest) =
      skipString (((p.after '\\').after 'u').afterAll [h₁, h₂, h₃, h₄]) rest := by
  rw [skipString.eq_def]
  simp only [h]
  rfl

theorem skipString_badHex {h₁ h₂ h₃ h₄ : Char} (h : hexUnit? h₁ h₂ h₃ h₄ = none) :
    (skipString p ('\\' :: 'u' :: h₁ :: h₂ :: h₃ :: h₄ :: rest)).toOption = none := by
  rw [skipString.eq_def]
  simp only [h]
  rfl

theorem skipString_shortHex (h : ∀ h₁ h₂ h₃ h₄ rest, cs = h₁ :: h₂ :: h₃ :: h₄ :: rest → False) :
    (skipString p ('\\' :: 'u' :: cs)).toOption = none := by
  rw [skipString.eq_def]
  simp only [(by decide : ¬ '\\' = '"'), if_false, if_true]
  rfl

theorem skipString_letterEscape (hu : e ≠ 'u') (h : letterEscape? e = some ch) :
    skipString p ('\\' :: e :: rest) = skipString ((p.after '\\').after e) rest := by
  rw [skipString.eq_def]
  simp only [hu, if_false, h]
  rfl

end

/-- A string ends where it ends when it is read. -/
theorem follows_skipString (p : Position) (cs : List Char) :
    Follows anywhere (stringBody p cs) (skipString p cs).toOption fun r => some r.2 := by
  have hpush {ch : Char} {x : Except Failure (List Char × Cursor)} {y : Option Cursor}
      (h : Follows anywhere x y fun r => some r.2) :
      Follows anywhere (push ch x) y fun r => some r.2 :=
    Follows.map (f := fun r : List Char × Cursor => (ch :: r.1, r.2)) h
  fun_induction stringBody p cs
  -- a surrogate that stands alone is a limit
  all_goals try exact .of_error (.inr ⟨trivial, trivial⟩)
  case case1 => exact .fails rfl
  case case2 =>
    refine .of_ok ?_
    rw [skipString.eq_def]
    rfl
  case case3 => exact .fails rfl
  case case4 hunit _ _ => exact .fails (skipString_badHex hunit)
  case case6 hunit _ _ _ _ _ =>
    refine .fails ?_
    rw [skipString_hexEscape hunit]
    rfl
  case case8 hunit _ _ b hb _ _ _ _ =>
    refine .fails ?_
    rw [skipString_hexEscape hunit, Decidable.not_not.1 hb]
    rfl
  case case10 hhigh _ _ b hb u hu _ _ _ _ rest hlow _ _ _ _ =>
    refine .fails ?_
    rw [skipString_hexEscape hhigh, Decidable.not_not.1 hb, Decidable.not_not.1 hu, skipString_badHex hlow]
  case case11 hhigh _ _ b hb u hu _ _ _ _ rest _ hlow _ _ _ _ _ _ ih =>
    obtain rfl := Decidable.not_not.1 hb
    obtain rfl := Decidable.not_not.1 hu
    rw [skipString_hexEscape hhigh, skipString_hexEscape hlow]
    exact hpush ih
  case case13 hunit _ _ b hb u hu short hshort _ _ _ _ =>
    refine .fails ?_
    rw [skipString_hexEscape hunit, Decidable.not_not.1 hb, Decidable.not_not.1 hu,
      skipString_shortHex hshort]
  case case14 hunit _ _ _ _ _ ih =>
    rw [skipString_hexEscape hunit]
    exact hpush ih
  case case15 short hshort _ _ => exact .fails (skipString_shortHex hshort)
  case case16 e _ hu _ hletter _ _ ih =>
    rw [skipString_letterEscape hu hletter]
    exact hpush ih
  case case17 e _ hu hletter _ _ =>
    refine .fails ?_
    rw [skipString.eq_def]
    simp [hu, hletter, Except.toOption]
  case case18 hquote hbackslash hcontrol =>
    refine .fails ?_
    rw [skipString.eq_def]
    simp [hquote, hbackslash, hcontrol, Except.toOption]
  case case19 hquote hbackslash hcontrol ih =>
    rw [skipString.eq_def]
    simp only [hquote, hbackslash, hcontrol, if_false]
    exact hpush ih

theorem follows_skipQuoted (c : Cursor) :
    Follows anywhere (out string c) (out skipQuoted c).toOption fun p => some ((), p.2) := by
  obtain ⟨p, rest⟩ := c
  cases rest with
  | nil => exact .fails rfl
  | cons ch rest =>
    have h := follows_skipString (p.after ch) rest
    simp only [out, string, skipQuoted]
    split
    · next f hbody =>
      refine .of_error ((h.error f hbody).imp_left fun hnone => ?_)
      split
      · rfl
      · next hskip => rw [hskip] at hnone; cases hnone
    · next r hbody =>
      have hskip := h.ok r hbody
      refine .of_ok ?_
      split
      · next hfault => rw [hfault] at hskip; cases hskip
      · next d hd =>
        rw [hd] at hskip
        cases hskip
        rfl

/-! ## Open brackets -/

/-- Where skipping stops that begins with a value inside of open brackets. -/
def skips? (opened : List Bracket) (c : Cursor) : Option Cursor :=
  (skipWithin opened c).toOption.map (·.next)

/-- Where skipping stops that goes on inside of a bracket. -/
def enters? (b : Bracket) (opened : List Bracket) (c : Cursor) : Option Cursor :=
  match b with
  | .square => skips? (.square :: opened) c
  | .curly => (behind? (skipKey c)).bind (skips? (.curly :: opened))

/-- Where skipping stops that goes on behind a value inside of open brackets, or behind the innermost one if
it was just opened. -/
def goesOn? (fresh : Bool) (opened : List Bracket) (c : Cursor) : Option Cursor :=
  (skipClosing fresh opened c).toOption.bind fun p =>
    match p.value with
    | [] => some p.next
    | b :: rest => enters? b rest p.next

theorem skips?_eq (opened : List Bracket) (c : Cursor) : skips? opened c =
    (out skipToken c.skipBlank).toOption.bind fun p => goesOn? p.1.isSome (p.1.toList ++ opened) p.2 := by
  rw [skips?, skipWithin, ← out_spaced, out]
  cases spaced skipToken c with
  | error e => rfl
  | ok s =>
    show _ = goesOn? s.value.isSome (s.value.toList ++ opened) s.next
    simp only [goesOn?]
    cases skipClosing s.value.isSome (s.value.toList ++ opened) s.next with
    | error e => rfl
    | ok p =>
      obtain ⟨value, next, notLonger⟩ := p
      cases value with
      | nil => rfl
      | cons b rest =>
        cases b with
        | square =>
          show _ = (skipWithin (.square :: rest) next).toOption.map _
          simp only
          cases skipWithin (.square :: rest) next <;> rfl
        | curly =>
          show _ = (behind? (skipKey next)).bind fun d => (skipWithin (.curly :: rest) d).toOption.map _
          simp only
          cases skipKey next with
          | error e => rfl
          | ok a =>
            simp only [behind?, Except.toOption, Option.map_some, Option.bind_some]
            cases skipWithin (.curly :: rest) a.cursor <;> rfl

section

variable {opened : List Bracket} {b : Bracket} {ch : Char} {rest : List Char} {fresh : Bool}

/-- Blanks before a value do not count. -/
theorem skips?_skipBlank (opened : List Bracket) (c : Cursor) :
    skips? opened c.skipBlank = skips? opened c := by
  rw [skips?_eq, skips?_eq, skipBlank_skipBlank]

theorem goesOn?_end (hc : c.skipBlank.rest = []) : goesOn? fresh (b :: opened) c = none := by
  simp only [goesOn?, skipClosing]
  split
  · rfl
  · next h => rw [hc] at h; cases h

theorem goesOn?_close (hc : c.skipBlank.rest = b.closing :: rest) :
    goesOn? fresh (b :: opened) c = goesOn? false opened (pastClose c) := by
  simp only [goesOn?, skipClosing]
  split
  · next h => rw [hc] at h; cases h
  · next h =>
    cases hc.symm.trans h
    rw [if_pos rfl, pastClose]
    cases skipClosing false opened c.skipBlank.next <;> rfl

theorem goesOn?_comma (hc : c.skipBlank.rest = ',' :: rest) :
    goesOn? false (b :: opened) c = enters? b opened c.skipBlank.next := by
  simp only [goesOn?, skipClosing]
  split
  · next h => rw [hc] at h; cases h
  · next h =>
    cases hc.symm.trans h
    rw [if_neg (by cases b <;> decide), if_pos ⟨rfl, rfl⟩]
    rfl

theorem goesOn?_fresh (hc : c.skipBlank.rest = ch :: rest) (hch : ch ≠ b.closing) :
    goesOn? true (b :: opened) c = enters? b opened c.skipBlank := by
  simp only [goesOn?, skipClosing]
  split
  · next h => rw [hc] at h; cases h
  · next h =>
    cases hc.symm.trans h
    rw [if_neg hch, if_neg (by simp), if_pos trivial]
    rfl

theorem goesOn?_other (hc : c.skipBlank.rest = ch :: rest) (hch : ch ≠ b.closing) (hcomma : ch ≠ ',') :
    goesOn? false (b :: opened) c = none := by
  simp only [goesOn?, skipClosing]
  split
  · rfl
  · next h =>
    cases hc.symm.trans h
    rw [if_neg hch, if_neg (by simp [hcomma]), if_neg (by simp)]
    rfl

/-- No value begins where the text ends, or with a bracket that closes. -/
theorem skips?_eq_none (h : ∀ ch rest, c.skipBlank.rest = ch :: rest → ch = ']' ∨ ch = '\x7d') :
    skips? opened c = none := by
  rw [skips?_eq, out]
  generalize c.skipBlank = d at h
  obtain ⟨p, rest⟩ := d
  cases rest with
  | nil => rfl
  | cons ch rest =>
    rcases h ch rest rfl with rfl | rfl
    · rfl
    · rfl

end

/-! ## Items -/

/-- Between the items of an array. -/
theorem follows_nextItem (i : Nat) (opened : List Bracket) (c : Cursor) :
    Follows anywhere (nextItem i c) (goesOn? (decide (i = 0)) (.square :: opened) c) fun a? =>
      match a? with
      | none => goesOn? false opened (pastClose c)
      | some a => skips? (.square :: opened) a.cursor := by
  simp only [nextItem]
  split
  · next hc => exact .fails (goesOn?_end hc)
  · next ch rest hc =>
    by_cases hclose : ch = ']'
    · subst hclose
      exact .of_ok (goesOn?_close (b := .square) hc)
    by_cases hi : i = 0
    · simp only [hclose, hi, if_false, if_true, decide_true]
      exact .of_ok (goesOn?_fresh hc hclose)
    by_cases hcomma : ch = ','
    · subst hcomma
      simp only [hclose, hi, if_false, if_true, decide_false]
      rw [goesOn?_comma hc, enters?]
      split
      · next h => exact .fails (skips?_eq_none fun ch rest h' => by rw [h] at h'; cases h')
      · next ch rest h =>
        split
        · next hsquare =>
          refine .fails (skips?_eq_none fun ch' rest' h' => ?_)
          cases h.symm.trans h'
          exact .inl hsquare
        · exact .of_ok (skips?_skipBlank _ _).symm
    · simp only [hclose, hi, hcomma, if_false, decide_false]
      exact .fails (goesOn?_other hc hclose hcomma)

/-- Values of which skipping stops where they end, inside of whatever brackets. -/
def Skipped (r : Reader α) : Prop := ∀ (opened : List Bracket) (c : Cursor),
  Follows anywhere (out r c) (skips? opened c) fun p => goesOn? false opened p.2

theorem follows_itemsFrom {item : Reader α} (hitem : Skipped item) (opened : List Bracket) (i : Nat)
    (c : Cursor) : Follows anywhere ((itemsFrom item i c).map Part.pair)
      (goesOn? (decide (i = 0)) (.square :: opened) c) fun p => goesOn? false opened p.2 := by
  have hwithin (i : Nat) (c : Cursor) := (hitem (.square :: opened) c).within_any (.index i)
  simp only [← out_within] at hwithin
  -- Along the recursion of `itemsFrom`; an item is skipped inside the array's own bracket.
  fun_induction itemsFrom item i c with
  | case1 i c f hnext => exact .of_error ((follows_nextItem i opened c).error f hnext)
  | case2 i c hnext => exact .of_ok ((follows_nextItem i opened c).ok _ hnext)
  | case3 i c a hnext f hr =>
    rw [(follows_nextItem i opened c).ok _ hnext]
    exact .of_error ((hwithin i a.cursor).error f (by rw [out, hr]; rfl))
  | case4 i c a hnext s hr _ f hrest ih =>
    rw [(follows_nextItem i opened c).ok _ hnext]
    have h := (hwithin i a.cursor).ok s.pair (by rw [out, hr]; rfl)
    simp only [h]
    exact .of_error (ih.error f (by rw [hrest]; rfl))
  | case5 i c a hnext s hr _ p hrest ih =>
    rw [(follows_nextItem i opened c).ok _ hnext]
    have h := (hwithin i a.cursor).ok s.pair (by rw [out, hr]; rfl)
    simp only [h]
    exact .of_ok (ih.ok p.pair (by rw [hrest]; rfl))

/-! ## Members -/

theorem behind?_skipKey (c : Cursor) : behind? (skipKey c) =
    if c.skipBlank.rest.head? = some '"' then
      (out skipQuoted c.skipBlank).toOption.bind fun p => (out colon p.2).toOption.map (·.2)
    else none := by
  simp only [skipKey]
  split
  · next hc => rw [hc]; rfl
  · next ch rest hc =>
    rw [hc, List.head?_cons]
    by_cases hquote : ch = '"'
    · subst hquote
      simp only [if_true, out]
      cases skipQuoted c.skipBlank with
      | error e => rfl
      | ok s =>
        show _ = ((colon s.next).map Scanned.pair).toOption.map _
        simp only
        cases colon s.next <;> rfl
    · simp [hquote, behind?, Except.toOption]

/-- Where skipping stops that goes on with the colon behind a key. -/
def value? (opened : List Bracket) (c : Cursor) : Option Cursor :=
  (out colon c).toOption.bind fun p => skips? (.curly :: opened) p.2

/-- Where skipping stops that goes on with the quote before a key. -/
def key? (opened : List Bracket) (c : Cursor) : Option Cursor :=
  (out skipQuoted c).toOption.bind fun p => value? opened p.2

theorem enters?_of_quote {rest : List Char} (opened : List Bracket) (hc : c.skipBlank.rest = '"' :: rest) :
    enters? .curly opened c = key? opened c.skipBlank := by
  rw [enters?, behind?_skipKey, if_pos (by rw [hc]; rfl), key?]
  simp only [value?]
  cases (out skipQuoted c.skipBlank).toOption with
  | none => rfl
  | some p =>
    simp only [Option.bind_some]
    cases (out colon p.2).toOption <;> rfl

theorem enters?_of_no_quote (opened : List Bracket) (hc : c.skipBlank.rest.head? ≠ some '"') :
    enters? .curly opened c = none := by
  rw [enters?, behind?_skipKey, if_neg hc]
  rfl

/-- Between the members of an object. -/
theorem follows_nextMember (first : Bool) (opened : List Bracket) (c : Cursor) :
    Follows anywhere (nextMember first c) (goesOn? first (.curly :: opened) c) fun a? =>
      match a? with
      | none => goesOn? false opened (pastClose c)
      | some a => key? opened a.cursor := by
  simp only [nextMember]
  split
  · next hc => exact .fails (goesOn?_end hc)
  · next ch rest hc =>
    by_cases hclose : ch = '\x7d'
    · subst hclose
      exact .of_ok (goesOn?_close (b := .curly) hc)
    cases first with
    | true =>
      simp only [hclose, if_false, if_true]
      rw [goesOn?_fresh (b := .curly) hc hclose]
      split
      · next hquote =>
        rw [enters?_of_quote opened (by rw [skipBlank_skipBlank, hc, hquote]), skipBlank_skipBlank]
        exact .of_ok rfl
      · next hquote =>
        exact .fails (enters?_of_no_quote opened (by rw [skipBlank_skipBlank, hc]; simpa using hquote))
    | false =>
      by_cases hcomma : ch = ','
      · subst hcomma
        simp only [hclose, if_false, if_true, Bool.false_eq_true]
        rw [goesOn?_comma hc]
        split
        · next h => exact .fails (enters?_of_no_quote opened (by rw [h]; simp))
        · next ch rest h =>
          split
          · next hquote => exact .of_ok (enters?_of_quote opened (hquote ▸ h))
          · next hquote =>
            have hnone := enters?_of_no_quote (c := c.skipBlank.next) opened (by rw [h]; simpa using hquote)
            split
            · exact .fails hnone
            · exact .fails hnone
      · simp only [hclose, hcomma, if_false, Bool.false_eq_true]
        exact .fails (goesOn?_other hc hclose hcomma)

theorem follows_nextKey (first : Bool) (opened : List Bracket) (c : Cursor) :
    Follows anywhere ((nextKey first c).mapError (Failure.within .unknown))
      (goesOn? first (.curly :: opened) c) fun key? =>
        match key? with
        | none => goesOn? false opened (pastClose c)
        | some key => value? opened key.next := by
  refine Follows.within_any .unknown ?_
  have h := follows_nextMember first opened c
  rw [nextKey]
  split
  · next f hnext => exact .of_error (h.error f hnext)
  · next hnext => exact .of_ok (h.ok _ hnext)
  · next a hnext =>
    rw [h.ok _ hnext]
    have hstring := follows_skipQuoted a.cursor
    simp only [after, key?]
    cases hs : string a.cursor with
    | error f =>
      refine .of_error ((hstring.error f (by rw [out, hs]; rfl)).imp_left fun hnone => ?_)
      rw [hnone]
      rfl
    | ok s =>
      refine .of_ok ?_
      rw [hstring.ok s.pair (by rw [out, hs]; rfl)]
      rfl

theorem follows_valueOf {value : Reader α} (hvalue : Skipped value) (key : String) (opened : List Bracket)
    (c : Cursor) : Follows anywhere (out (valueOf key value) c) (value? opened c)
      fun p => goesOn? false (.curly :: opened) p.2 := by
  rw [out_valueOf, value?]
  cases out colon c with
  | error f => exact .fails rfl
  | ok p => exact (hvalue (.curly :: opened) p.2).within_any (.key key)

theorem follows_pairsFrom {value : Reader α} (hvalue : Skipped value) (opened : List Bracket) (first : Bool)
    (c : Cursor) : Follows anywhere ((pairsFrom value first c).map Part.pair)
      (goesOn? first (.curly :: opened) c) fun p => goesOn? false opened p.2 := by
  fun_induction pairsFrom value first c with
  | case1 first c f hkey => exact .of_error ((follows_nextKey first opened c).error f hkey)
  | case2 first c hkey => exact .of_ok ((follows_nextKey first opened c).ok _ hkey)
  | case3 first c key hkey f hr =>
    rw [(follows_nextKey first opened c).ok _ hkey]
    exact .of_error ((follows_valueOf hvalue key.value opened key.next).error f (by rw [out, hr]; rfl))
  | case4 first c key hkey s hr _ f hrest ih =>
    rw [(follows_nextKey first opened c).ok _ hkey]
    have h := (follows_valueOf hvalue key.value opened key.next).ok s.pair (by rw [out, hr]; rfl)
    simp only [h]
    exact .of_error (ih.error f (by rw [hrest]; rfl))
  | case5 first c key hkey s hr _ p hrest ih =>
    rw [(follows_nextKey first opened c).ok _ hkey]
    have h := (follows_valueOf hvalue key.value opened key.next).ok s.pair (by rw [out, hr]; rfl)
    simp only [h]
    exact .of_ok (ih.ok p.pair (by rw [hrest]; rfl))

/-! ## Values -/

/-- A word ends where it ends, whatever it stands for. -/
theorem follows_constant {β : Type} (w : List Char) (v : α) (x : β) (c : Cursor)
    {go : α × Cursor → Option (β × Cursor)} (h : ∀ d, some (x, d) = go (v, d)) :
    Follows P (out (constant w v) c) (out (constant w x) c).toOption go := by
  obtain ⟨p, rest⟩ := c
  cases rest with
  | nil => exact .fails rfl
  | cons ch rest =>
    simp only [out, constant]
    split
    · exact .fails rfl
    · exact .of_ok (h _)

/-- A value of which skipping stops where it ends, if this holds of its arrays and objects. -/
theorem skipped_valueWith {array object : Reader Json}
    (harray : ∀ (opened : List Bracket) (p : Position) (rest : List Char), Follows anywhere
      (out array ⟨p, '[' :: rest⟩) (goesOn? true (.square :: opened) ⟨p.after '[', rest⟩)
        fun q => goesOn? false opened q.2)
    (hobject : ∀ (opened : List Bracket) (p : Position) (rest : List Char), Follows anywhere
      (out object ⟨p, '\x7b' :: rest⟩) (goesOn? true (.curly :: opened) ⟨p.after '\x7b', rest⟩)
        fun q => goesOn? false opened q.2) :
    Skipped (valueWith array object) := by
  intro opened c
  rw [valueWith, out_spaced, skips?_eq]
  have hleaf {γ : Type} {x : Except Failure (γ × Cursor)} {y : Option (Option Bracket × Cursor)}
      (h : Follows anywhere x y fun p => some (none, p.2)) : Follows anywhere x
        (y.bind fun p => goesOn? p.1.isSome (p.1.toList ++ opened) p.2) fun p => goesOn? false opened p.2 :=
    h.andThen fun p => goesOn? p.1.isSome (p.1.toList ++ opened) p.2
  have hmapped {γ : Type} {f : γ → Json} {r : Reader γ} {skip : Reader Unit} {d : Cursor}
      (h : Follows anywhere (out r d) (out skip d).toOption fun p => some ((), p.2)) :
      Follows anywhere (out (map f r) d) (out (map (fun _ => none) skip) d).toOption
        fun p => some ((none : Option Bracket), p.2) := by
    rw [out_map, out_map, toOption_map]
    refine .map ?_
    exact h.andMap fun q => (none, q.2)
  obtain ⟨p, rest⟩ := c.skipBlank
  cases rest with
  | nil => exact .fails rfl
  | cons ch rest =>
    -- Reading and skipping ask for the same characters in the same order.
    simp only [out, skipToken]
    split
    · exact hleaf (follows_constant _ _ _ _ fun _ => rfl)
    split
    · exact hleaf (follows_constant _ _ _ _ fun _ => rfl)
    split
    · exact hleaf (follows_constant _ _ _ _ fun _ => rfl)
    split
    · exact hleaf (hmapped (follows_skipNumber _))
    split
    · exact hleaf (hmapped (follows_skipQuoted _))
    split
    · next h =>
      subst h
      exact harray opened p rest
    split
    · next h =>
      subst h
      exact hobject opened p rest
    · exact .fails rfl

/-- Skipping stops where a tree ends. -/
theorem skipped_tree (depth : Nat) : Skipped (tree depth) := by
  induction depth with
  | zero =>
    exact skipped_valueWith (fun _ _ _ => .of_error (.inr ⟨trivial, trivial⟩))
      fun _ _ _ => .of_error (.inr ⟨trivial, trivial⟩)
  | succ depth ih =>
    refine skipped_valueWith (fun opened p rest => ?_) fun opened p rest => ?_
    · rw [out_map, out_items]
      refine .map ?_
      exact follows_itemsFrom ih opened 0 ⟨p.after '[', rest⟩
    · rw [out_map, out_pairs]
      refine .map ?_
      exact follows_pairsFrom ih opened true ⟨p.after '\x7b', rest⟩

/-- Reading past a value stops where the value ends, and fails where there is none, unless a limit is the
reason for which there is none. -/
theorem follows_skip (depth : Nat) (c : Cursor) : Follows anywhere (out (tree depth) c)
    (out skip c).toOption fun p => some ((), p.2) := by
  have h := skipped_tree depth [] c
  have hskip : (out skip c).toOption = (skips? [] c).map ((), ·) := by
    rw [out, skip, skips?]
    cases skipWithin [] c <;> rfl
  rw [hskip]
  exact h.andMap ((), ·)

end VerbScript.Json.Reader
