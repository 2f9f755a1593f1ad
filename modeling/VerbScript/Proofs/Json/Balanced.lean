import VerbScript.Proofs.Basic
import VerbScript.Proofs.Json.Brackets
import VerbScript.Proofs.Json.Numeral

/-!
# What readers read is balanced

A reader that reads a value reads text that closes the brackets that it opens (`Reader.Balanced`), whatever
the value and whatever follows it. The lemmas of this module follow the readers from words, numbers
and strings to records: each reader that is put together from balanced ones is balanced.
-/

namespace VerbScript.Json

open Scan (Leads Encloses IsPlain isPlain_of_all isPlain_of_isBlank isPlain_of_isDigit)
open Scan.Mode

/-- What has been read from the cursor `c` to the cursor `d` opens `n` more brackets than it closes. -/
def Cursor.Passes (n : Int) (c d : Cursor) : Prop :=
  ∃ cs, c.rest = cs ++ d.rest ∧ Leads outside n outside cs

namespace Cursor.Passes

variable {n n' : Int} {c d e : Cursor} {ch : Char} {rest : List Char}

theorem refl (c : Cursor) : Passes 0 c c := ⟨[], rfl, .nil outside⟩

theorem trans (h : Passes n c d) (h' : Passes n' d e) : Passes (n + n') c e := by
  obtain ⟨cs, hcs, hlead⟩ := h
  obtain ⟨ds, hds, hlead'⟩ := h'
  exact ⟨cs ++ ds, by rw [hcs, hds, List.append_assoc], hlead.append hlead'⟩

/-- Text that closes what it opens does not count. -/
theorem before (h : Passes 0 c d) (h' : Passes n d e) : Passes n c e := by
  have := h.trans h'
  rwa [Int.zero_add] at this

theorem next (hc : c.rest = ch :: rest) (h : Leads outside n outside [ch]) : Passes n c c.next :=
  ⟨[ch], by simp [Cursor.next, hc], h⟩

theorem next_of_head? (hc : c.rest.head? = some ch) (h : Leads outside n outside [ch]) :
    Passes n c c.next := by
  obtain ⟨rest, hrest⟩ := List.head?_eq_some_iff.1 hc
  exact next hrest h

theorem skipWhile {p : Char → Bool} (hp : ∀ ch, p ch = true → IsPlain ch) (c : Cursor) :
    Passes 0 c (c.skipWhile p) :=
  ⟨c.rest.takeWhile p, List.takeWhile_append_dropWhile.symm,
    (Encloses.of_isPlain fun ch hch => hp ch (List.mem_takeWhile_imp hch)).leads⟩

theorem skipDigits (c : Cursor) : Passes 0 c (c.skipWhile Char.isDigit) :=
  skipWhile (fun _ => isPlain_of_isDigit) c

theorem skipBlank (c : Cursor) : Passes 0 c c.skipBlank := skipWhile (fun _ => isPlain_of_isBlank) c

end Cursor.Passes

namespace Reader

open Cursor (Passes)

variable {α β σ : Type} {c d : Cursor}

/-! ## Numbers -/

theorem passes_finite {n : Number} {p : Part Number c} (h : finite n c = .ok p) :
    Passes 0 c p.next := by
  cases n with
  | int n =>
    cases h
    exact .refl c
  | float x =>
    rw [finite] at h
    split at h
    · cases h
      exact .refl c
    · cases h

theorem isPlain_of_opensExponent {ch : Char} (h : opensExponent ch = true) : IsPlain ch := by
  simp only [opensExponent, Bool.or_eq_true, decide_eq_true_eq] at h
  rcases h with rfl | rfl
  all_goals decide

/-- A character that is next and opens an exponent. -/
theorem passes_next_of_any {q : Char → Bool} (hq : ∀ ch, q ch = true → IsPlain ch)
    (h : c.rest.head?.any q = true) : Passes 0 c c.next := by
  obtain ⟨ch, hch, hopens⟩ := (Option.any_eq_true _ _).1 h
  exact .next_of_head? hch (.plain (hq ch hopens))

theorem passes_exponentDigits {negative down : Bool} {whole fraction : List Char}
    {p : Part Number c} (h : exponentDigits negative down whole fraction c = .ok p) :
    Passes 0 c p.next := by
  simp only [exponentDigits] at h
  split at h
  · cases h
  · split at h
    · cases h
    · obtain ⟨q, hq, rfl⟩ := exists_of_map h
      exact (Passes.skipDigits c).before (passes_finite hq)

theorem passes_exponentSign {negative : Bool} {whole fraction : List Char} {p : Part Number c}
    (h : exponentSign negative whole fraction c = .ok p) : Passes 0 c p.next := by
  rw [exponentSign] at h
  split at h
  · next hc =>
    obtain ⟨q, hq, rfl⟩ := exists_of_map h
    exact (Passes.next hc (.plain (by decide))).before (passes_exponentDigits hq)
  · next hc =>
    obtain ⟨q, hq, rfl⟩ := exists_of_map h
    exact (Passes.next hc (.plain (by decide))).before (passes_exponentDigits hq)
  · exact passes_exponentDigits h

theorem passes_afterFraction {negative : Bool} {whole fraction : List Char} {p : Part Number c}
    (h : afterFraction negative whole fraction c = .ok p) : Passes 0 c p.next := by
  rw [afterFraction] at h
  split at h
  · next hopens =>
    obtain ⟨q, hq, rfl⟩ := exists_of_map h
    exact (passes_next_of_any (fun _ => isPlain_of_opensExponent) hopens).before
      (passes_exponentSign hq)
  · exact passes_finite h

theorem passes_fractionDigits {negative : Bool} {whole : List Char} {p : Part Number c}
    (h : fractionDigits negative whole c = .ok p) : Passes 0 c p.next := by
  simp only [fractionDigits] at h
  split at h
  · cases h
  · obtain ⟨q, hq, rfl⟩ := exists_of_map h
    exact (Passes.skipDigits c).before (passes_afterFraction hq)

theorem passes_afterWhole {negative : Bool} {whole : List Char} {p : Part Number c}
    (h : afterWhole negative whole c = .ok p) : Passes 0 c p.next := by
  rw [afterWhole] at h
  split at h
  · next hpoint =>
    obtain ⟨q, hq, rfl⟩ := exists_of_map h
    exact (Passes.next_of_head? hpoint (.plain (by decide))).before (passes_fractionDigits hq)
  · split at h
    · next hopens =>
      obtain ⟨q, hq, rfl⟩ := exists_of_map h
      exact (passes_next_of_any (fun _ => isPlain_of_opensExponent) hopens).before
        (passes_exponentSign hq)
    · exact passes_finite h

/-! ## Readers -/

/-- What the reader reads closes the brackets that it opens. -/
def Balanced (r : Reader α) : Prop := ∀ c s, r c = .ok s → Passes 0 c s.next

/-- What the reader reads closes the brackets that it opens, if it begins with a given character. -/
def BalancedAt (ch : Char) (r : Reader α) : Prop :=
  ∀ c s, c.rest.head? = some ch → r c = .ok s → Passes 0 c s.next

theorem balanced_unsignedNumber (negative : Bool) : Balanced (unsignedNumber negative) := by
  intro c s h
  rw [unsignedNumber] at h
  split at h
  · cases h
  · next ch _ hc =>
    split at h
    · next hzero =>
      subst hzero
      split at h
      · cases h
      · obtain ⟨q, hq, rfl⟩ := exists_of_map h
        exact (Passes.next hc (.plain (by decide))).before (passes_afterWhole hq)
    · split at h
      · next hdigit =>
        obtain ⟨q, hq, rfl⟩ := exists_of_map h
        exact (Passes.next hc (.plain (isPlain_of_isDigit hdigit))).before
          ((Passes.skipDigits c.next).before (passes_afterWhole hq))
      · cases h

theorem balanced_number : Balanced number := by
  intro c s h
  rw [number] at h
  split at h
  · next hminus =>
    obtain ⟨t, ht, rfl⟩ := exists_of_map h
    exact (Passes.next_of_head? hminus (.plain (by decide))).before
      (balanced_unsignedNumber true _ t ht)
  · exact balanced_unsignedNumber false c s h

/-! ## Combinations of readers -/

theorem Balanced.map {r : Reader α} (h : Balanced r) (f : α → β) : Balanced (map f r) := by
  intro c s hs
  obtain ⟨t, ht, rfl⟩ := exists_of_map hs
  exact h c t ht

theorem BalancedAt.map {r : Reader α} {ch : Char} (h : BalancedAt ch r) (f : α → β) :
    BalancedAt ch (Reader.map f r) := by
  intro c s hc hs
  obtain ⟨t, ht, rfl⟩ := exists_of_map hs
  exact h c t hc ht

theorem Balanced.within {r : Reader α} (h : Balanced r) (seg : Segment) :
    Balanced (within seg r) :=
  fun c s hs => h c s (eq_ok_of_mapError hs)

theorem Balanced.spaced {r : Reader α} (h : Balanced r) : Balanced (spaced r) := by
  intro c s hs
  obtain ⟨t, ht, rfl⟩ := exists_of_map hs
  exact (Passes.skipBlank c).before (h _ t ht)

/-! ## Words and strings -/

theorem passes_word {es : List Char} (hes : ∀ e ∈ es, IsPlain e) (h : word es c = .ok d) :
    Passes 0 c d := by
  induction es generalizing c with
  | nil =>
    cases h
    exact .refl _
  | cons e es ih =>
    rw [List.forall_mem_cons] at hes
    rw [word] at h
    split at h
    · cases h
    · next hc =>
      split at h
      · next heq =>
        exact (Passes.next hc (.plain (heq ▸ hes.1))).before (ih hes.2 h)
      · cases h

theorem balancedAt_constant {ch : Char} {w : List Char} (hw : ∀ e ∈ ch :: w, IsPlain e) (v : α) :
    BalancedAt ch (constant w v) := by
  intro c s hc h
  rw [List.forall_mem_cons] at hw
  simp only [constant] at h
  split at h
  · cases h
  · split at h
    · cases h
    · next hword =>
      cases h
      exact (Passes.next_of_head? hc (.plain hw.1)).before (passes_word hw.2 hword)

theorem value_constant {w : List Char} {v : α} {s : Scanned α c} (h : constant w v c = .ok s) :
    s.value = v := by
  simp only [constant] at h
  split at h
  · cases h
  · split at h
    · cases h
    · cases h
      rfl

/-- The characters up to the cursor `d` end the string that they begin in. -/
def Closes (cs : List Char) (d : Cursor) : Prop :=
  ∃ ds, cs = ds ++ d.rest ∧ Leads inside 0 outside ds

theorem Closes.behind {cs ds : List Char} (h : Closes cs d) (hds : Encloses inside inside ds) :
    Closes (ds ++ cs) d := by
  obtain ⟨es, rfl, hes⟩ := h
  exact ⟨ds ++ es, (List.append_assoc ..).symm, by simpa using hds.leads.append hes⟩

/-- A string is read up to the quote that closes it. -/
theorem closes_stringBody {p : Position} {cs : List Char} {r : List Char × Cursor}
    (h : stringBody p cs = .ok r) : Closes cs r.2 := by
  fun_induction stringBody p cs generalizing r
  all_goals try (cases h; done)
  case case2 =>
    cases h
    exact ⟨['"'], rfl, .closeQuote⟩
  case case11 hhigh _ _ b hb u hu _ _ _ _ rest _ hlow _ _ _ _ _ _ ih =>
    obtain ⟨_, hrest, -⟩ := exists_of_push h
    rw [Decidable.not_not.1 hb, Decidable.not_not.1 hu]
    exact ((ih hrest).behind (.hexEscape hlow)).behind (.hexEscape hhigh)
  case case14 hunit _ _ _ _ _ ih =>
    obtain ⟨_, hrest, -⟩ := exists_of_push h
    exact (ih hrest).behind (.hexEscape hunit)
  case case16 e _ _ _ _ _ _ ih =>
    obtain ⟨_, hrest, -⟩ := exists_of_push h
    exact (ih hrest).behind (.letterEscape e)
  case case19 hquote hbackslash _ ih =>
    obtain ⟨_, hrest, -⟩ := exists_of_push h
    exact (ih hrest).behind (.of_leads (.verbatim hquote hbackslash))

/-- A string that is skipped ends at the quote that closes it. -/
theorem closes_skipString {p : Position} {cs : List Char} {r : Cursor}
    (h : skipString p cs = .ok r) : Closes cs r := by
  fun_induction skipString p cs generalizing r
  all_goals try (cases h; done)
  case case2 =>
    cases h
    exact ⟨['"'], rfl, .closeQuote⟩
  case case5 hunit _ _ ih => exact (ih h).behind (.hexEscape hunit)
  case case7 e _ _ _ _ _ _ ih => exact (ih h).behind (.letterEscape e)
  case case10 hquote hbackslash _ ih =>
    exact (ih h).behind (.of_leads (.verbatim hquote hbackslash))

/-- What ends a string begins behind its opening quote. -/
theorem Closes.passes {rest : List Char} (hc : c.rest = '"' :: rest) (h : Closes rest d) :
    Passes 0 c d := by
  obtain ⟨ds, rfl, hds⟩ := h
  exact ⟨'"' :: ds, hc, Leads.cons .openQuote hds⟩

theorem balancedAt_string : BalancedAt '"' string := by
  intro c s hc h
  obtain ⟨tail, hrest⟩ := List.head?_eq_some_iff.1 hc
  simp only [string] at h
  split at h
  · cases h
  · next ch rest hcons =>
    cases hrest.symm.trans hcons
    split at h
    · cases h
    · next hbody =>
      cases h
      exact (closes_stringBody hbody).passes hrest

theorem balancedAt_skipQuoted : BalancedAt '"' skipQuoted := by
  intro c s hc h
  obtain ⟨tail, hrest⟩ := List.head?_eq_some_iff.1 hc
  simp only [skipQuoted] at h
  split at h
  · cases h
  · next ch rest hcons =>
    cases hrest.symm.trans hcons
    split at h
    · cases h
    · next hbody =>
      cases h
      exact (closes_skipString hbody).passes hrest

/-! ## Items and members -/

/-- A closing bracket that is next behind blanks. -/
theorem passes_pastClose {ch : Char} {rest : List Char} (hc : c.skipBlank.rest = ch :: rest)
    (hch : ch = ']' ∨ ch = '\x7d') : Passes (-1) c (pastClose c) :=
  (Passes.skipBlank c).before (.next hc (.closing hch))

/-- A comma that is next behind blanks, and the blanks behind it. -/
theorem passes_comma {rest : List Char} (hc : c.skipBlank.rest = ',' :: rest) :
    Passes 0 c c.skipBlank.next.skipBlank :=
  (Passes.skipBlank c).before ((Passes.next hc (.plain (by decide))).before (.skipBlank _))

/-- The next item of an array, or the bracket that closes it. -/
theorem passes_nextItem {i : Nat} {a? : Option (Ahead c)} (h : nextItem i c = .ok a?) :
    match a? with
    | none => Passes (-1) c (pastClose c)
    | some a => Passes 0 c a.cursor := by
  simp only [nextItem] at h
  split at h
  · cases h
  · next hc =>
    split at h
    · next hclose =>
      cases h
      exact passes_pastClose hc (.inl hclose)
    · split at h
      · cases h
        exact .skipBlank c
      · split at h
        · next hcomma =>
          subst hcomma
          split at h
          · cases h
          · split at h
            · cases h
            · cases h
              exact passes_comma hc
        · cases h

theorem passes_itemsFrom {item : Reader α} (hitem : Balanced item) (i : Nat) (c : Cursor)
    {p : Part (List α) c} (h : itemsFrom item i c = .ok p) : Passes (-1) c p.next := by
  fun_induction itemsFrom item i c
  all_goals try (cases h; done)
  case case2 hclose =>
    cases h
    exact passes_nextItem hclose
  case case5 hnext s hs _ _ hrest ih =>
    cases h
    exact (passes_nextItem hnext).before (((hitem.within _) _ s hs).before (ih hrest))

theorem balancedAt_items {item : Reader α} (hitem : Balanced item) :
    BalancedAt '[' (items item) := by
  intro c s hc h
  simp only [items] at h
  split at h
  · cases h
  · obtain ⟨p, hp, rfl⟩ := exists_of_map h
    exact (Passes.next_of_head? hc (.bracket (.inl rfl))).trans (passes_itemsFrom hitem 0 _ hp)

/-- The next key of an object, or the brace that closes it. -/
theorem passes_nextMember {first : Bool} {a? : Option (Ahead c)} (h : nextMember first c = .ok a?) :
    match a? with
    | none => Passes (-1) c (pastClose c)
    | some a => Passes 0 c a.cursor ∧ a.cursor.rest.head? = some '"' := by
  simp only [nextMember] at h
  split at h
  · cases h
  · next hc =>
    split at h
    · next hclose =>
      cases h
      exact passes_pastClose hc (.inr hclose)
    · split at h
      · split at h
        · next hquote =>
          cases h
          exact ⟨.skipBlank c, by rw [hc, hquote]; rfl⟩
        · cases h
      · split at h
        · next hcomma =>
          subst hcomma
          split at h
          · cases h
          · next hquoted =>
            split at h
            · next hquote =>
              cases h
              exact ⟨passes_comma hc, by rw [hquoted, hquote]; rfl⟩
            · split at h
              · cases h
              · cases h
        · cases h

theorem passes_nextKey {first : Bool} {key? : Option (Scanned String c)}
    (h : nextKey first c = .ok key?) :
    match key? with
    | none => Passes (-1) c (pastClose c)
    | some key => Passes 0 c key.next := by
  rw [nextKey] at h
  split at h
  · cases h
  · next hnext =>
    cases h
    exact passes_nextMember hnext
  · next a hnext =>
    obtain ⟨hpasses, hquote⟩ := passes_nextMember hnext
    obtain ⟨key, hkey, rfl⟩ := exists_of_map h
    obtain ⟨s, hs, rfl⟩ := exists_of_map hkey
    exact hpasses.before (balancedAt_string _ s hquote hs)

theorem balanced_colon : Balanced colon := by
  intro c s h
  simp only [colon] at h
  split at h
  · cases h
  · next hc =>
    split at h
    · next hcolon =>
      cases h
      exact (Passes.skipBlank c).before (.next hc (.plain (by rw [hcolon]; decide)))
    · cases h

theorem Balanced.valueOf {r : Reader α} (h : Balanced r) (key : String) :
    Balanced (valueOf key r) := by
  intro c s hs
  rw [Reader.valueOf] at hs
  split at hs
  · cases hs
  · next t ht =>
    obtain ⟨u, hu, rfl⟩ := exists_of_map hs
    exact (balanced_colon c t ht).before (h.within _ _ u hu)

theorem passes_membersFrom {step : σ → String → Reader σ} (hstep : ∀ s key, Balanced (step s key))
    (first : Bool) (s : σ) (c : Cursor) {p : Part σ c} (h : membersFrom step first s c = .ok p) :
    Passes (-1) c p.next := by
  fun_induction membersFrom step first s c
  all_goals try (cases h; done)
  case case2 hclose =>
    cases h
    exact passes_nextKey (eq_ok_of_mapError hclose)
  case case5 hkey t ht _ _ hrest ih =>
    cases h
    exact (passes_nextKey (eq_ok_of_mapError hkey)).before ((hstep _ _ _ t ht).before (ih hrest))

theorem balancedAt_members {step : σ → String → Reader σ} (hstep : ∀ s key, Balanced (step s key))
    (s : σ) : BalancedAt '\x7b' (members step s) := by
  intro c t hc h
  simp only [members] at h
  split at h
  · cases h
  · obtain ⟨p, hp, rfl⟩ := exists_of_map h
    exact (Passes.next_of_head? hc (.bracket (.inr rfl))).trans (passes_membersFrom hstep true s _ hp)

/-! ## Values -/

theorem balanced_valueWith {array object : Reader Json} (harray : BalancedAt '[' array)
    (hobject : BalancedAt '\x7b' object) : Balanced (valueWith array object) := by
  refine Balanced.spaced fun c s h => ?_
  split at h
  · cases h
  · next ch _ hc =>
    have hhead : c.rest.head? = some ch := by rw [hc]; rfl
    split at h
    · next hn => exact balancedAt_constant (isPlain_of_all (by decide)) _ c s (hn ▸ hhead) h
    split at h
    · next ht => exact balancedAt_constant (isPlain_of_all (by decide)) _ c s (ht ▸ hhead) h
    split at h
    · next hf => exact balancedAt_constant (isPlain_of_all (by decide)) _ c s (hf ▸ hhead) h
    split at h
    · exact balanced_number.map _ c s h
    split at h
    · next hquote => exact balancedAt_string.map _ c s (hquote ▸ hhead) h
    split at h
    · next hsquare => exact harray c s (hsquare ▸ hhead) h
    split at h
    · next hcurly => exact hobject c s (hcurly ▸ hhead) h
    · cases h

theorem Balanced.addMember {value : Reader Json} (h : Balanced value) (ms : List (String × Json))
    (key : String) : Balanced (addMember value ms key) :=
  (h.map _).valueOf key

/-- A value is read as balanced text, however deep it may be nested. -/
theorem balanced_value (depth : Nat) : Balanced (value depth) := by
  induction depth with
  | zero =>
    have hdeep : ∀ ch, BalancedAt ch (tooDeep : Reader Json) := fun ch c s _ h => by cases h
    exact balanced_valueWith (hdeep _) (hdeep _)
  | succ depth ih =>
    exact balanced_valueWith ((balancedAt_items ih).map _)
      ((balancedAt_members (fun ms key => ih.addMember ms key) []).map _)

/-! ## Skipping -/

theorem passes_skipExponent {a : Ahead c} (hopens : c.rest.head?.any opensExponent = true)
    (h : skipExponent c = .ok a) : Passes 0 c a.cursor := by
  have hletter := passes_next_of_any (fun _ => isPlain_of_opensExponent) hopens
  by_cases hsigned : c.next.rest.head? = some '+' ∨ c.next.rest.head? = some '-'
  · have hsign : Passes 0 c.next c.next.next := by
      rcases hsigned with hplus | hminus
      · exact .next_of_head? hplus (.plain (by decide))
      · exact .next_of_head? hminus (.plain (by decide))
    simp only [skipExponent, hsigned, if_true] at h
    split at h
    · cases h
      exact hletter.before (hsign.before (.skipDigits _))
    · cases h
  · simp only [skipExponent, hsigned, if_false] at h
    split at h
    · cases h
      exact hletter.before (.skipDigits _)
    · cases h

theorem passes_skipAfterFraction {a : Ahead c} (h : skipAfterFraction c = .ok a) :
    Passes 0 c a.cursor := by
  rw [skipAfterFraction] at h
  split at h
  · next hopens => exact passes_skipExponent hopens h
  · cases h
    exact .refl c

theorem passes_skipAfterWhole {a : Ahead c} (h : skipAfterWhole c = .ok a) :
    Passes 0 c a.cursor := by
  simp only [skipAfterWhole] at h
  split at h
  · next hpoint =>
    split at h
    · obtain ⟨b, hb, rfl⟩ := exists_of_map h
      exact (Passes.next_of_head? hpoint (.plain (by decide))).before
        ((Passes.skipDigits _).before (passes_skipAfterFraction hb))
    · cases h
  · exact passes_skipAfterFraction h

theorem balanced_skipNumber : Balanced skipNumber := by
  intro c s h
  have hsign : Passes 0 c (if c.rest.head? = some '-' then c.next else c) := by
    split
    · next hminus => exact .next_of_head? hminus (.plain (by decide))
    · exact .refl c
  simp only [skipNumber] at h
  split at h
  · cases h
  · next ch _ hc =>
    obtain ⟨hdigit, h⟩ := eq_ok_of_ite h
    obtain ⟨-, h⟩ := eq_ok_of_ite h
    obtain ⟨a, ha, rfl⟩ := exists_of_map h
    have hfirst := hsign.before (.next hc (.plain (isPlain_of_isDigit (by simpa using hdigit))))
    refine (hfirst.before ?_).before (passes_skipAfterWhole ha)
    by_cases hzero : ch = '0'
    · rw [if_pos hzero]
      exact .refl _
    · rw [if_neg hzero]
      exact .skipDigits _

theorem passes_skipKey {a : Ahead c} (h : skipKey c = .ok a) : Passes 0 c a.cursor := by
  simp only [skipKey] at h
  split at h
  · cases h
  · next hc =>
    split at h
    · next hquote =>
      split at h
      · cases h
      · next s hs =>
        split at h
        · cases h
        · next t ht =>
          cases h
          exact (Passes.skipBlank c).before ((balancedAt_skipQuoted _ s (by rw [hc, hquote]; rfl)
            hs).before (balanced_colon _ t ht))
    · cases h

/-- A token that is a bracket opens it, and every other token is balanced. -/
theorem passes_skipToken {s : Scanned (Option Bracket) c} (h : skipToken c = .ok s) :
    Passes s.value.toList.length c s.next := by
  have hword {ch : Char} {w : List Char} (hc : c.rest.head? = some ch)
      (hw : ∀ e ∈ ch :: w, IsPlain e) (h : constant w none c = .ok s) :
      Passes s.value.toList.length c s.next := by
    rw [value_constant h]
    exact balancedAt_constant hw none c s hc h
  simp only [skipToken] at h
  split at h
  · cases h
  · next ch _ hc =>
    have hhead : c.rest.head? = some ch := by rw [hc]; rfl
    split at h
    · next hn => exact hword (hn ▸ hhead) (isPlain_of_all (by decide)) h
    split at h
    · next ht => exact hword (ht ▸ hhead) (isPlain_of_all (by decide)) h
    split at h
    · next hf => exact hword (hf ▸ hhead) (isPlain_of_all (by decide)) h
    split at h
    · obtain ⟨t, ht, rfl⟩ := exists_of_map h
      exact balanced_skipNumber c t ht
    split at h
    · next hquote =>
      obtain ⟨t, ht, rfl⟩ := exists_of_map h
      exact balancedAt_skipQuoted c t (hquote ▸ hhead) ht
    split at h
    · next hsquare =>
      cases h
      exact .next hc (.bracket (.inl hsquare))
    split at h
    · next hcurly =>
      cases h
      exact .next hc (.bracket (.inr hcurly))
    · cases h

/-- Of the open brackets those are closed that are not handed back. -/
theorem passes_skipClosing {fresh : Bool} {opened : List Bracket} {p : Part (List Bracket) c}
    (h : skipClosing fresh opened c = .ok p) :
    Passes (p.value.length - opened.length) c p.next := by
  induction opened generalizing fresh c with
  | nil =>
    cases h
    exact .refl c
  | cons b opened ih =>
    simp only [skipClosing] at h
    split at h
    · cases h
    · next ch _ hc =>
      split at h
      · next hclose =>
        obtain ⟨q, hq, rfl⟩ := exists_of_map h
        have hbracket : ch = ']' ∨ ch = '\x7d' := by
          cases b with
          | square => exact .inl hclose
          | curly => exact .inr hclose
        have hn : -1 + ((q.value.length : Int) - opened.length) =
            q.value.length - (b :: opened).length := by
          rw [List.length_cons]
          omega
        exact hn ▸ (passes_pastClose hc hbracket).trans (ih hq)
      have hn : (0 : Int) = (b :: opened).length - (b :: opened).length := (Int.sub_self _).symm
      split at h
      · next hcomma =>
        cases h
        exact hn ▸ (Passes.skipBlank c).before (.next hc (.plain (hcomma.1 ▸ by decide)))
      · split at h
        · cases h
          exact hn ▸ .skipBlank c
        · cases h

/-- A token and the brackets that close behind it. -/
theorem passes_token {opened : List Bracket} {s : Scanned (Option Bracket) c}
    (hs : spaced skipToken c = .ok s) {p : Part (List Bracket) s.next}
    (hp : skipClosing s.value.isSome (s.value.toList ++ opened) s.next = .ok p) :
    Passes (p.value.length - opened.length) c p.next := by
  obtain ⟨t, ht, rfl⟩ := exists_of_map hs
  have hpasses := (Passes.skipBlank c).before ((passes_skipToken ht).trans (passes_skipClosing hp))
  have hn : (t.value.toList.length : Int) + (p.value.length -
      (t.value.toList ++ opened).length) = p.value.length - opened.length := by
    rw [List.length_append]
    omega
  exact hn ▸ hpasses

/-- Skipping a value closes the brackets that are open around it. -/
theorem passes_skipWithin (opened : List Bracket) (c : Cursor) {s : Scanned Unit c}
    (h : skipWithin opened c = .ok s) : Passes (-opened.length) c s.next := by
  fun_induction skipWithin opened c
  all_goals try (cases h; done)
  case case3 opened c _ hs p hp _ hvalue =>
    cases h
    have hn : (p.value.length : Int) - opened.length = -opened.length := by
      rw [hvalue, List.length_nil]
      omega
    exact hn ▸ passes_token hs hp
  case case5 opened c _ hs p hp _ rest hvalue t ht ih =>
    cases h
    have hn : (p.value.length : Int) - opened.length + -(Bracket.square :: rest).length =
        -opened.length := by
      rw [hvalue]
      omega
    exact hn ▸ (passes_token hs hp).trans (ih ht)
  case case8 opened c _ hs p hp _ rest hvalue a hkey _ t ht ih =>
    cases h
    have hn : (p.value.length : Int) - opened.length + -(Bracket.curly :: rest).length =
        -opened.length := by
      rw [hvalue]
      omega
    exact hn ▸ (passes_token hs hp).trans ((passes_skipKey hkey).before (ih ht))

theorem balanced_skip : Balanced skip := fun c _ h => passes_skipWithin [] c h

/-! ## Records -/

/-- A value that is refused is not read. -/
theorem balanced_refuse (expected : String) : Balanced (refuse expected : Reader α) := by
  intro c s h
  have hrefused {γ : Type} {x : Except Failure γ} {f : γ → Failure}
      (h : (x >>= fun y => (.error (f y) : Except Failure (Scanned α c))) = .ok s) : False := by
    obtain ⟨_, -, h⟩ := exists_of_bind_eq_ok h
    cases h
  simp only [refuse] at h
  split at h
  · cases h
  · split at h
    · exact (hrefused h).elim
    split at h
    · exact (hrefused h).elim
    split at h
    · exact (hrefused h).elim
    split at h
    · exact (hrefused h).elim
    split at h
    · exact (hrefused h).elim
    split at h
    · cases h
    split at h
    · cases h
    · cases h

theorem balanced_numeric (expected : String) (accept : Number → Except Mismatch α) :
    Balanced (numeric expected accept) := by
  refine Balanced.spaced fun c s h => ?_
  split at h
  · split at h
    · cases h
    · next t ht =>
      split at h
      · cases h
        exact balanced_number c t ht
      · cases h
  · exact balanced_refuse expected c s h

theorem balanced_text : Balanced text := by
  refine Balanced.spaced fun c s h => ?_
  split at h
  · next hquote => exact balancedAt_string c s hquote h
  · exact balanced_refuse _ c s h

theorem Balanced.optional {r : Reader α} (hr : Balanced r) : Balanced (optional r) := by
  refine Balanced.spaced fun c s h => ?_
  split at h
  · next hn => exact balancedAt_constant (isPlain_of_all (by decide)) _ c s hn h
  · exact hr.map _ c s h

theorem balanced_ofObject (expected : String) {object : Reader α} (h : BalancedAt '\x7b' object) :
    Balanced (ofObject expected object) := by
  refine Balanced.spaced fun c s hs => ?_
  split at hs
  · next hcurly => exact h c s hcurly hs
  · exact balanced_refuse expected c s hs

theorem balanced_ofObjectOrArray (expected : String) {object array : Reader α}
    (hobject : BalancedAt '\x7b' object) (harray : BalancedAt '[' array) :
    Balanced (ofObjectOrArray expected object array) := by
  refine Balanced.spaced fun c s h => ?_
  split at h
  · next hcurly => exact hobject c s hcurly h
  · split at h
    · next hsquare => exact harray c s hsquare h
    · exact balanced_refuse expected c s h

theorem Balanced.membersOf {r : Reader α} (h : Balanced r) : Balanced (membersOf r) := by
  have hmembers := (balancedAt_members (fun (ms : List (String × α)) key =>
    (h.map fun v => (key, v) :: ms).valueOf key) []).map List.reverse
  exact balanced_ofObject _ hmembers

theorem Balanced.once {r : Reader α} (h : Balanced r) (name : String) (seen : Option α) :
    Balanced (once name seen r) := by
  intro c s hs
  rw [Reader.once] at hs
  exact (h.map some).valueOf name c s (eq_ok_of_ite hs).2

theorem balancedAt_record {step : σ → String → Reader σ} (hstep : ∀ s key, Balanced (step s key))
    (s : σ) (finish : σ → Except Mismatch α) : BalancedAt '\x7b' (record step s finish) := by
  intro c t hc h
  rw [record] at h
  split at h
  · cases h
  · next u hu =>
    split at h
    · cases h
      exact balancedAt_members hstep s c u hc hu
    · cases h

/-- A field of a record that is written as an array, or the place of one that is missing. -/
theorem passes_nextField {i : Nat} {r : Reader α} (hr : Balanced r) {missing : Except Mismatch α}
    {p : Part α c} (h : nextField i r missing c = .ok p) : Passes 0 c p.next := by
  rw [nextField.eq_def] at h
  split at h
  · cases h
  · split at h
    · cases h
      exact .refl c
    · cases h
  · next a ha =>
    obtain ⟨s, hs, rfl⟩ := exists_of_map h
    exact (passes_nextItem ha).before (hr.within _ _ s hs)

theorem passes_endArray {p : Part Unit c} (h : endArray c = .ok p) : Passes (-1) c p.next := by
  simp only [endArray] at h
  split at h
  · cases h
  · next hc =>
    split at h
    · next hclose =>
      cases h
      exact passes_pastClose hc (.inl hclose)
    · split at h
      · cases h
      · cases h

theorem balancedAt_arrayRecord {fields : (c : Cursor) → Except Failure (Part α c)}
    (hfields : ∀ c p, fields c = .ok p → Passes (-1) c p.next) :
    BalancedAt '[' (arrayRecord fields) := by
  intro c s hc h
  simp only [arrayRecord] at h
  split at h
  · cases h
  · obtain ⟨p, hp, rfl⟩ := exists_of_map h
    exact (Passes.next_of_head? hc (.bracket (.inl rfl))).trans (hfields _ p hp)

end Reader

end VerbScript.Json
