import VerbScript.Proofs.Json.Follows
import VerbScript.Proofs.Json.Numeral
import VerbScript.Proofs.Number.FloatText

/-!
# How far the text of a number is read

What is read off the text of a number may be another number, as doubles are read with two roundings, or
none, where the one that is read is too large. But if it is read at all, all of it is
(`number_floatText`), and an integer is not read as another one (`number_integerText`). `ReadsOrFails` says
that much of a reader and of a text.
-/

namespace VerbScript.Json.Reader

open VerbScript.Number (wordBound integerText foldDigits FloatStyle)

variable {α β : Type} {P : α → Prop} {Q : Place → Prop} {rest : List Char}

/-! ## Reading or failing -/

/-- What a reading comes to that reads something of which `P` holds and stops before `rest`, or fails at a
place of which `Q` holds. -/
inductive Yields (P : α → Prop) (Q : Place → Prop) (rest : List Char) :
    Except Failure (α × Cursor) → Prop where
  | read {x : α} {d : Cursor} (hx : P x) (hd : d.rest = rest) : Yields P Q rest (.ok (x, d))
  | failed {f : Failure} (hf : Q f.place) : Yields P Q rest (.error f)

/-- Wherever the characters `cs` stand, `r` reads them as something of which `P` holds and stops behind them,
or it fails at a place of which `Q` holds. -/
def ReadsOrFails (r : Reader α) (cs : List Char) (P : α → Prop) (Q : Place → Prop) : Prop :=
  ∀ (p : Position) (rest : List Char), Ends rest → Yields P Q rest (out r ⟨p, cs ++ rest⟩)

theorem Yields.mono {R : α → Prop} {S : Place → Prop} {x : Except Failure (α × Cursor)}
    (h : Yields P Q rest x) (hP : ∀ a, P a → R a) (hQ : ∀ p, Q p → S p) : Yields R S rest x := by
  cases h with
  | read hx hd => exact .read (hP _ hx) hd
  | failed hf => exact .failed (hQ _ hf)

theorem Yields.map {R : β → Prop} {f : α → β} {x : Except Failure (α × Cursor)}
    (h : Yields P Q rest x) (hf : ∀ a, P a → R (f a)) :
    Yields R Q rest (x.map fun p => (f p.1, p.2)) := by
  cases h with
  | read hx hd => exact .read (hf _ hx) hd
  | failed hf => exact .failed hf

/-- A reading that is seen from the value around it. -/
theorem Yields.within {S : Place → Prop} {s : Segment} {x : Except Failure (α × Cursor)}
    (h : Yields P Q rest x) (hQ : ∀ p, Q p → S (s :: p)) :
    Yields P S rest (x.mapError (Failure.within s)) := by
  cases h with
  | read hx hd => exact .read hx hd
  | failed hf => exact .failed (hQ _ hf)

/-- A reading that goes on where another one stopped. -/
theorem Yields.bind {R : β → Prop} {behind : List Char} {x : Except Failure (α × Cursor)}
    {k : α × Cursor → Except Failure (β × Cursor)} (h : Yields P Q behind x)
    (hk : ∀ a d, P a → d.rest = behind → Yields R Q rest (k (a, d))) : Yields R Q rest (x >>= k) := by
  cases h with
  | read hx hd => exact hk _ _ hx hd
  | failed hf => exact .failed hf

/-! ## Numbers -/

/-- The letter, the sign and the digits of an exponent, or nothing. The digits may be missing. -/
inductive IsExponent : List Char → Prop where
  | none : IsExponent []
  | letter {e sign : Char} {digits : List Char} (he : opensExponent e = true)
      (hsign : sign = '+' ∨ sign = '-') (hdigits : ∀ d ∈ digits, d.isDigit = true) :
      IsExponent (e :: sign :: digits)

/-- What stands behind the whole digits of a number. The digits of the fraction may be missing. -/
inductive IsTail : List Char → Prop where
  | exponent {cs : List Char} (h : IsExponent cs) : IsTail cs
  | fraction {digits cs : List Char} (hdigits : ∀ d ∈ digits, d.isDigit = true) (h : IsExponent cs) :
      IsTail ('.' :: (digits ++ cs))

section

variable {c d : Cursor} (p : Position) (negative : Bool) (whole fraction : List Char)

theorem map_pair_widen (x : Except Failure (Part α c)) (h : c.size ≤ d.size) :
    (x.map fun t => t.widen h).map Part.pair = x.map Part.pair := by
  cases x <;> rfl

theorem takeWhile_digits {digits behind : List Char} (hdigits : ∀ d ∈ digits, d.isDigit = true)
    (hbehind : behind.head?.any Char.isDigit = false) :
    (digits ++ behind).takeWhile Char.isDigit = digits := by
  rw [List.takeWhile_append_of_pos hdigits]
  cases behind with
  | nil => exact List.append_nil _
  | cons ch behind =>
    have hch : ¬ ch.isDigit = true := by simpa using hbehind
    rw [List.takeWhile_cons_of_neg hch, List.append_nil]

theorem map_pair_widened (x : Except Failure (Scanned α c)) (h : c.size ≤ d.size) :
    (x.map fun t => t.widen h).map Scanned.pair = x.map Scanned.pair := by
  cases x <;> rfl

/-- Digits are passed up to where something else stands. -/
theorem skipWhile_digits {digits behind : List Char} (hdigits : ∀ d ∈ digits, d.isDigit = true)
    (hbehind : behind.head?.any Char.isDigit = false) :
    Cursor.skipWhile Char.isDigit ⟨p, digits ++ behind⟩ = ⟨p.afterAll digits, behind⟩ := by
  have hsplit := List.takeWhile_append_dropWhile (p := Char.isDigit) (l := digits ++ behind)
  rw [takeWhile_digits hdigits hbehind] at hsplit
  rw [Cursor.skipWhile, takeWhile_digits hdigits hbehind, List.append_cancel_left hsplit]

theorem Ends.any_isDigit (hrest : Ends rest) : rest.head?.any Char.isDigit = false :=
  any_isDigit_append [] hrest

theorem Ends.any_opensExponent (hrest : Ends rest) : rest.head?.any opensExponent = false :=
  any_opensExponent_append [] hrest

/-- An exponent goes on no digits before it. -/
theorem IsExponent.any_isDigit {cs : List Char} (hcs : IsExponent cs) (hrest : Ends rest) :
    (cs ++ rest).head?.any Char.isDigit = false := by
  cases hcs with
  | none => exact hrest.any_isDigit
  | @letter e sign digits he =>
    simp only [opensExponent, Bool.or_eq_true, decide_eq_true_eq] at he
    obtain rfl | rfl := he
    · rfl
    · rfl

theorem IsTail.any_isDigit {cs : List Char} (hcs : IsTail cs) (hrest : Ends rest) :
    (cs ++ rest).head?.any Char.isDigit = false := by
  cases hcs with
  | exponent h => exact h.any_isDigit hrest
  | fraction => rfl

theorem yields_finite {R : Number → Prop} {n : Number} (hn : R n) (c : Cursor) :
    Yields R (· = []) c.rest ((finite n c).map Part.pair) := by
  cases n with
  | int n => exact .read hn rfl
  | float x =>
    rw [finite]
    split
    · exact .read hn rfl
    · exact .failed rfl

theorem yields_exponentDigits (down : Bool) {digits : List Char}
    (hdigits : ∀ d ∈ digits, d.isDigit = true) (hrest : Ends rest) :
    Yields (fun _ => True) (· = []) rest
      ((exponentDigits negative down whole fraction ⟨p, digits ++ rest⟩).map Part.pair) := by
  simp only [exponentDigits]
  split
  · refine .failed ?_
    split
    · rfl
    · rfl
  · split
    · exact .failed rfl
    · rw [map_pair_widen, skipWhile_digits p hdigits hrest.any_isDigit]
      exact yields_finite trivial ⟨_, rest⟩

theorem yields_exponentSign {sign : Char} {digits : List Char} (hsign : sign = '+' ∨ sign = '-')
    (hdigits : ∀ d ∈ digits, d.isDigit = true) (hrest : Ends rest) :
    Yields (fun _ => True) (· = []) rest
      ((exponentSign negative whole fraction ⟨p, sign :: (digits ++ rest)⟩).map Part.pair) := by
  obtain rfl | rfl := hsign
  all_goals
    simp only [exponentSign, map_pair_widen]
    exact yields_exponentDigits _ negative whole fraction _ hdigits hrest

theorem yields_afterFraction {cs : List Char} (hcs : IsExponent cs) (hrest : Ends rest) :
    Yields (fun _ => True) (· = []) rest
      ((afterFraction negative whole fraction ⟨p, cs ++ rest⟩).map Part.pair) := by
  cases hcs with
  | none =>
    have hends : ¬ ([] ++ rest).head?.any opensExponent = true := by
      simp [hrest.any_opensExponent]
    rw [afterFraction, if_neg hends]
    exact yields_finite trivial ⟨p, rest⟩
  | @letter e sign digits he hsign hdigits =>
    have hopens : (e :: sign :: digits ++ rest).head?.any opensExponent = true := he
    rw [afterFraction, if_pos hopens, map_pair_widen]
    exact yields_exponentSign _ negative whole fraction hsign hdigits hrest

theorem yields_fractionDigits {digits cs : List Char} (hdigits : ∀ d ∈ digits, d.isDigit = true)
    (hcs : IsExponent cs) (hrest : Ends rest) :
    Yields (fun _ => True) (· = []) rest
      ((fractionDigits negative whole ⟨p, digits ++ (cs ++ rest)⟩).map Part.pair) := by
  simp only [fractionDigits]
  split
  · refine .failed ?_
    split
    · rfl
    · rfl
  · rw [map_pair_widen, skipWhile_digits p hdigits (hcs.any_isDigit hrest)]
    exact yields_afterFraction _ negative whole _ hcs hrest

theorem yields_afterWhole {cs : List Char} (hcs : IsTail cs) (hrest : Ends rest) :
    Yields (fun x => cs = [] → x = wholeNumber negative whole) (· = []) rest
      ((afterWhole negative whole ⟨p, cs ++ rest⟩).map Part.pair) := by
  cases hcs with
  | exponent h =>
    cases h with
    | none =>
      have hpoint : ¬ ([] ++ rest).head? = some '.' := by
        rw [head?_append_eq_point [] hrest]
        exact (Option.some_ne_none _).symm
      have hends : ¬ ([] ++ rest).head?.any opensExponent = true := by
        simp [hrest.any_opensExponent]
      rw [afterWhole, if_neg hpoint, if_neg hends]
      exact yields_finite (fun _ => rfl) ⟨p, rest⟩
    | @letter e sign digits he hsign hdigits =>
      have hpoint : ¬ (e :: sign :: digits ++ rest).head? = some '.' := by
        rintro hpoint
        cases hpoint
        cases he
      have hopens : (e :: sign :: digits ++ rest).head?.any opensExponent = true := he
      rw [afterWhole, if_neg hpoint, if_pos hopens, map_pair_widen]
      exact (yields_exponentSign _ negative whole [] hsign hdigits hrest).mono
        (fun _ _ h => absurd h (List.cons_ne_nil _ _)) fun _ h => h
  | @fraction digits cs hdigits h =>
    have hpoint : ('.' :: (digits ++ cs) ++ rest).head? = some '.' := rfl
    rw [afterWhole, if_pos hpoint, map_pair_widen]
    have hfraction := yields_fractionDigits (p.after '.') negative whole hdigits h hrest
    rw [← List.append_assoc] at hfraction
    exact hfraction.mono (fun _ _ h => absurd h (List.cons_ne_nil _ _)) fun _ h => h

/-- The digits of a number and what stands behind them, where there is either. -/
theorem yields_unsignedNumber {digits cs : List Char} (hdigits : ∀ d ∈ digits, d.isDigit = true)
    (hcs : IsTail cs) (hne : digits ++ cs ≠ []) (hrest : Ends rest) :
    Yields (fun x => cs = [] → x = wholeNumber negative digits) (· = []) rest
      (out (unsignedNumber negative) ⟨p, digits ++ (cs ++ rest)⟩) := by
  have hbehind := hcs.any_isDigit hrest
  cases digits with
  | nil =>
    cases cs with
    | nil => exact absurd rfl hne
    | cons ch cs =>
      -- No digit stands at the beginning.
      have hch : ch.isDigit = false := hbehind
      have hzero : ch ≠ '0' := by
        rintro rfl
        cases hch
      rw [List.nil_append, List.cons_append, out, unsignedNumber_cons, if_neg hzero, if_neg (by simp [hch])]
      exact .failed rfl
  | cons ch digits =>
    obtain ⟨hch, hdigits⟩ := List.forall_mem_cons.1 hdigits
    rw [List.cons_append, out, unsignedNumber_cons]
    by_cases hzero : ch = '0'
    · rw [if_pos hzero]
      cases digits with
      | nil =>
        have hone : ¬ (cs ++ rest).head?.any Char.isDigit = true := by
          rw [hbehind]
          exact Bool.false_ne_true
        rw [List.nil_append, if_neg hone, hzero]
        exact (map_pair_scanned _ _).symm ▸ yields_afterWhole _ negative ['0'] hcs hrest
      | cons d digits =>
        have hd : (d :: digits ++ (cs ++ rest)).head?.any Char.isDigit = true :=
          hdigits d List.mem_cons_self
        rw [if_pos hd]
        exact .failed rfl
    · rw [if_neg hzero, if_pos hch, takeWhile_digits hdigits hbehind]
      have hwhole := yields_afterWhole ((p.after ch).afterAll digits) negative (ch :: digits) hcs hrest
      rw [← skipWhile_digits (p.after ch) hdigits hbehind] at hwhole
      have hlt : (Cursor.skipWhile Char.isDigit ⟨p.after ch, digits ++ (cs ++ rest)⟩).size <
          Cursor.size ⟨p, ch :: (digits ++ (cs ++ rest))⟩ :=
        Nat.lt_succ_of_le (Cursor.size_skipWhile_le _ _)
      exact (map_pair_scanned _ hlt).symm ▸ hwhole

/-- What stands behind the digits of a number begins with no sign. -/
theorem IsTail.head?_ne {cs : List Char} (hcs : IsTail cs) (hne : cs ≠ []) (rest : List Char) :
    (cs ++ rest).head? ≠ some '-' := by
  cases hcs with
  | exponent h =>
    cases h with
    | none => exact absurd rfl hne
    | @letter e sign digits he =>
      intro hminus
      cases hminus
      cases he
  | fraction => nofun

/-- Digits and what stands behind them are read as a number, or nothing is. -/
theorem number_of_digits {digits cs : List Char} (hdigits : ∀ d ∈ digits, d.isDigit = true)
    (hcs : IsTail cs) (hne : digits ++ cs ≠ []) :
    ReadsOrFails number (digits ++ cs) (fun x => cs = [] → x = wholeNumber false digits) (· = []) := by
  intro p rest hrest
  have hminus : ¬ (digits ++ (cs ++ rest)).head? = some '-' := by
    cases digits with
    | nil => exact hcs.head?_ne hne rest
    | cons ch digits =>
      intro hminus
      cases hminus
      cases hdigits '-' List.mem_cons_self
  rw [List.append_assoc, out, number, if_neg hminus]
  exact yields_unsignedNumber p false hdigits hcs hne hrest

/-- So they are behind a minus. -/
theorem number_of_minus {digits cs : List Char} (hdigits : ∀ d ∈ digits, d.isDigit = true)
    (hcs : IsTail cs) (hne : digits ++ cs ≠ []) :
    ReadsOrFails number ('-' :: (digits ++ cs)) (fun x => cs = [] → x = wholeNumber true digits)
      (· = []) := by
  intro p rest hrest
  have hunsigned := yields_unsignedNumber (p.after '-') true hdigits hcs hne hrest
  have hle : Cursor.size ⟨p.after '-', digits ++ (cs ++ rest)⟩ ≤
      Cursor.size ⟨p, '-' :: (digits ++ (cs ++ rest))⟩ := Nat.le_succ _
  rw [List.cons_append, List.append_assoc, out, number_cons, if_pos rfl]
  exact (map_pair_widened _ hle).symm ▸ hunsigned

end

/-! ## Printed numbers -/

theorem toDigits_append_ne_nil (n : Nat) (cs : List Char) : Nat.toDigits 10 n ++ cs ≠ [] :=
  List.append_ne_nil_of_left_ne_nil Nat.toDigits_ne_nil _

/-- An integer is read as itself or as a double, or not at all. -/
theorem number_integerText (n : Int) :
    ReadsOrFails number (integerText n).toList (fun x => ∀ k, x = .int k → k = n) (· = []) := by
  have hdigits (m : Nat) : ∀ d ∈ Nat.toDigits 10 m, d.isDigit = true := fun _ =>
    Number.isDigit_of_mem_toDigits
  have htail : IsTail [] := .exponent .none
  cases n with
  | ofNat m =>
    have hread := number_of_digits (hdigits m) htail (toDigits_append_ne_nil m [])
    rw [List.append_nil] at hread
    rw [integerText, String.toList_ofList]
    refine fun p rest hrest => (hread p rest hrest).mono (fun x hx k hk => ?_) fun _ h => h
    rw [hx rfl, wholeNumber, if_neg Bool.false_ne_true, Number.foldDigits_toDigits] at hk
    split at hk
    · cases hk
      rfl
    · cases hk
  | negSucc m =>
    have hread := number_of_minus (hdigits (m + 1)) htail (toDigits_append_ne_nil (m + 1) [])
    rw [List.append_nil] at hread
    rw [integerText, String.toList_ofList]
    refine fun p rest hrest => (hread p rest hrest).mono (fun x hx k hk => ?_) fun _ h => h
    rw [hx rfl, wholeNumber, if_pos rfl, Number.foldDigits_toDigits] at hk
    split at hk
    · cases hk
      rfl
    · cases hk

theorem integerText_ne_nil (n : Int) : (integerText n).toList ≠ [] := by
  cases n with
  | ofNat m =>
    rw [integerText, String.toList_ofList]
    exact Nat.toDigits_ne_nil
  | negSucc m =>
    rw [integerText, String.toList_ofList]
    exact List.cons_ne_nil _ _

/-- Digits with a point or an exponent behind them. -/
def IsMagnitude (text : List Char) : Prop :=
  ∃ digits cs, text = digits ++ cs ∧ (∀ d ∈ digits, d.isDigit = true) ∧ IsTail cs ∧ cs ≠ []

theorem isMagnitude_positionalText {digits : List Char} (hdigits : ∀ d ∈ digits, d.isDigit = true)
    (lead : Int) : IsMagnitude (FloatStyle.positionalText .document digits lead) := by
  have hzeros (n : Nat) : ∀ d ∈ List.replicate n '0', d.isDigit = true := fun d hd => by
    rw [List.eq_of_mem_replicate hd]
    rfl
  -- Whatever the digits are, there is a point, with digits behind it.
  have hpoint {whole fraction : List Char} (hwhole : ∀ d ∈ whole, d.isDigit = true)
      (hfraction : ∀ d ∈ fraction, d.isDigit = true) : IsMagnitude (whole ++ '.' :: fraction) :=
    ⟨whole, _, rfl, hwhole, List.append_nil fraction ▸ .fraction hfraction .none, nofun⟩
  rw [FloatStyle.positionalText]
  split
  · have hzero : ∀ d ∈ ['0'], d.isDigit = true := List.forall_mem_singleton.2 rfl
    exact hpoint hzero (List.forall_mem_append.2 ⟨hzeros _, hdigits⟩)
  · have hwhole : ∀ d ∈ digits.take (lead.toNat + 1) ++
        List.replicate (lead.toNat + 1 - digits.length) '0', d.isDigit = true :=
      List.forall_mem_append.2 ⟨fun d hd => hdigits d (List.mem_of_mem_take hd), hzeros _⟩
    simp only
    split
    · exact hpoint hwhole (by simp)
    · exact hpoint hwhole fun d hd => hdigits d (List.mem_of_mem_drop hd)

theorem isMagnitude_exponentText {digits : List Char} (hdigits : ∀ d ∈ digits, d.isDigit = true)
    (lead : Int) : IsMagnitude (FloatStyle.exponentText .document digits lead) := by
  have hexponent : IsExponent (('e' :: if lead < 0 then ['-'] else ['+']) ++
      Nat.toDigits 10 lead.natAbs) := by
    have hlead : ∀ d ∈ Nat.toDigits 10 lead.natAbs, d.isDigit = true := fun _ =>
      Number.isDigit_of_mem_toDigits
    split
    · exact .letter rfl (.inr rfl) hlead
    · exact .letter rfl (.inl rfl) hlead
  cases digits with
  | nil => exact ⟨[], _, rfl, hdigits, .exponent hexponent, nofun⟩
  | cons d digits =>
    obtain ⟨hd, hdigits⟩ := List.forall_mem_cons.1 hdigits
    have hone : ∀ c ∈ [d], c.isDigit = true := List.forall_mem_singleton.2 hd
    cases digits with
    | nil => exact ⟨[d], _, rfl, hone, .exponent hexponent, nofun⟩
    | cons d' digits =>
      have htext := List.append_assoc (d :: '.' :: d' :: digits)
        ('e' :: if lead < 0 then ['-'] else ['+']) (Nat.toDigits 10 lead.natAbs)
      exact ⟨[d], _, htext, hone, .fraction hdigits hexponent, nofun⟩

theorem isMagnitude_magnitudeText (x : Float) : IsMagnitude (FloatStyle.magnitudeText .document x) := by
  rw [FloatStyle.magnitudeText]
  split
  · exact isMagnitude_positionalText (by simp) 0
  · have hdigits (n : Nat) : ∀ d ∈ FloatStyle.dropTrailingZeros (Nat.toDigits 10 n), d.isDigit = true :=
      fun _ hd => Number.isDigit_of_mem_toDigits (FloatStyle.mem_of_mem_dropTrailingZeros hd)
    simp only
    split
    · exact isMagnitude_positionalText (hdigits _) _
    · exact isMagnitude_exponentText (hdigits _) _

/-- The text of a finite double is that of its magnitude, behind a minus or not. -/
theorem floatText_of_isFinite {x : Float} (hx : x.isFinite = true) :
    (FloatStyle.document.text x).toList =
      if FloatStyle.isNegative x then '-' :: FloatStyle.magnitudeText .document x.abs
      else FloatStyle.magnitudeText .document x.abs := by
  rw [FloatStyle.text, Number.isNaN_eq_false_of_isFinite hx, if_neg Bool.false_ne_true, hx,
    if_neg (by decide), String.toList_ofList]

theorem floatText_ne_nil {x : Float} (hx : x.isFinite = true) :
    (FloatStyle.document.text x).toList ≠ [] := by
  obtain ⟨digits, cs, htext, -, -, hne⟩ := isMagnitude_magnitudeText x.abs
  rw [floatText_of_isFinite hx, htext]
  split
  · exact List.cons_ne_nil _ _
  · exact List.append_ne_nil_of_right_ne_nil _ hne

/-- A finite double is read as some number, or not at all. -/
theorem number_floatText {x : Float} (hx : x.isFinite = true) :
    ReadsOrFails number (FloatStyle.document.text x).toList (fun _ => True) (· = []) := by
  obtain ⟨digits, cs, htext, hdigits, hcs, hne⟩ := isMagnitude_magnitudeText x.abs
  have hwhole : digits ++ cs ≠ [] := List.append_ne_nil_of_right_ne_nil _ hne
  rw [floatText_of_isFinite hx, htext]
  intro p rest hrest
  split
  · exact (number_of_minus hdigits hcs hwhole p rest hrest).mono (fun _ _ => trivial) fun _ h => h
  · exact (number_of_digits hdigits hcs hwhole p rest hrest).mono (fun _ _ => trivial) fun _ h => h

end VerbScript.Json.Reader
