import VerbScript.Json.Record
import VerbScript.Json.Printer

/-!
# Readers and the texts they read

`Reader.Reads r cs x` says that the reader `r` reads the characters `cs` as the value `x` wherever
in a document they stand, and stops behind them. What follows may be anything that does not go on
a number (`Ends`): a number is the one part of a document that does not say itself where it ends.
The lemmas of this module lift `Reads` through the ways in which readers are put together, and
`reads_quote` says that a string is read as it was quoted.
-/

namespace VerbScript.Json.Reader

variable {α β : Type}

/-- Whether a character can go on a number that stands before it. -/
def continuesNumber (ch : Char) : Bool := ch.isDigit || ch = '.' || opensExponent ch

/-- A text that goes on no number before it. -/
def Ends (rest : List Char) : Prop := ∀ ch ∈ rest.head?, continuesNumber ch = false

/-- `r` reads `cs` as `x` wherever it stands, and stops behind it. -/
def Reads (r : Reader α) (cs : List Char) (x : α) : Prop :=
  ∀ (p : Position) (rest : List Char), Ends rest →
    ∃ s, r ⟨p, cs ++ rest⟩ = .ok s ∧ s.value = x ∧ s.next.rest = rest

/-- A text that begins with a character that is neither blank nor a closing bracket. -/
def Opens (cs : List Char) : Prop :=
  ∃ ch tail, cs = ch :: tail ∧ Cursor.isBlank ch = false ∧ ch ≠ ']' ∧ ch ≠ '\x7d'

@[simp] theorem ends_nil : Ends [] := by simp [Ends]

theorem ends_cons {ch : Char} {rest : List Char} :
    Ends (ch :: rest) ↔ continuesNumber ch = false := by
  simp [Ends]

theorem Ends.not_isDigit {ch : Char} {rest : List Char} (h : Ends (ch :: rest)) :
    ch.isDigit = false := by
  have := ends_cons.1 h
  simp only [continuesNumber, Bool.or_eq_false_iff] at this
  exact this.1.1

theorem Opens.append {cs : List Char} (h : Opens cs) (rest : List Char) : Opens (cs ++ rest) := by
  obtain ⟨ch, tail, rfl, hb⟩ := h
  exact ⟨ch, tail ++ rest, rfl, hb⟩

/-! ## Blanks -/

theorem skipBlank_cons {p : Position} {ch : Char} {cs : List Char}
    (h : Cursor.isBlank ch = false) : Cursor.skipBlank ⟨p, ch :: cs⟩ = ⟨p, ch :: cs⟩ := by
  simp [Cursor.skipBlank, Cursor.skipWhile, h, Position.afterAll]

/-- Blanks are skipped up to where something else begins. -/
theorem skipBlank_append {p : Position} {blanks cs : List Char}
    (hb : ∀ ch ∈ blanks, Cursor.isBlank ch = true) (hc : Opens cs) :
    ∃ q, Cursor.skipBlank ⟨p, blanks ++ cs⟩ = ⟨q, cs⟩ := by
  obtain ⟨ch, tail, rfl, hch, -⟩ := hc
  refine ⟨p.afterAll blanks, ?_⟩
  have hn : ¬ Cursor.isBlank ch = true := by simp [hch]
  simp only [Cursor.skipBlank, Cursor.skipWhile, List.takeWhile_append_of_pos hb,
    List.dropWhile_append_of_pos hb, List.takeWhile_cons_of_neg hn, List.dropWhile_cons_of_neg hn,
    List.append_nil]

theorem isBlank_of_mem_lineBreak {level : Nat} {ch : Char} (h : ch ∈ lineBreak level) :
    Cursor.isBlank ch = true := by
  simp only [lineBreak, List.mem_cons, List.mem_replicate] at h
  rcases h with rfl | ⟨-, rfl⟩ <;> rfl

/-! ## Combinations of readers -/

theorem Reads.map {r : Reader α} {cs : List Char} {x : α} (h : Reads r cs x) (f : α → β) :
    Reads (map f r) cs (f x) := by
  intro p rest hrest
  obtain ⟨s, hs, rfl, hnext⟩ := h p rest hrest
  exact ⟨s.map f, by simp [Reader.map, hs, Except.map], rfl, hnext⟩

theorem Reads.within {r : Reader α} {cs : List Char} {x : α} (h : Reads r cs x) (seg : Segment) :
    Reads (within seg r) cs x := by
  intro p rest hrest
  obtain ⟨s, hs, hx, hnext⟩ := h p rest hrest
  exact ⟨s, by rw [Reader.within, hs]; rfl, hx, hnext⟩

theorem exists_of_spaced {r : Reader α} {c d : Cursor} {s : Scanned α d} (hd : c.skipBlank = d)
    (hs : r d = .ok s) :
    ∃ t, Reader.spaced r c = .ok t ∧ t.value = s.value ∧ t.next = s.next := by
  subst hd
  exact ⟨s.widen c.size_skipBlank_le, by simp [Reader.spaced, hs, Except.map], rfl, rfl⟩

/-- What a reader reads it also reads behind blanks, if it skips them. -/
theorem Reads.spaced {r : Reader α} {cs : List Char} {x : α} (h : Reads r cs x) (hc : Opens cs)
    {blanks : List Char} (hb : ∀ ch ∈ blanks, Cursor.isBlank ch = true) :
    Reads (spaced r) (blanks ++ cs) x := by
  intro p rest hrest
  obtain ⟨q, hq⟩ := skipBlank_append (p := p) hb (hc.append rest)
  obtain ⟨s, hs, rfl, hnext⟩ := h q rest hrest
  rw [List.append_assoc]
  obtain ⟨t, ht, hvalue, hrest⟩ := exists_of_spaced hq hs
  exact ⟨t, ht, hvalue, hrest ▸ hnext⟩

/-- The value of a member is read behind its colon. -/
theorem Reads.valueOf {r : Reader α} {cs : List Char} {x : α} (h : Reads r cs x) (key : String) :
    Reads (valueOf key r) (':' :: cs) x := by
  intro p rest hrest
  obtain ⟨s, hs, rfl, hnext⟩ := h.within (.key key) (p.after ':') rest hrest
  have hblank : Cursor.skipBlank ⟨p, ':' :: (cs ++ rest)⟩ = ⟨p, ':' :: (cs ++ rest)⟩ :=
    skipBlank_cons rfl
  have hcolon : ∃ t, colon ⟨p, ':' :: (cs ++ rest)⟩ = .ok t ∧ t.next = ⟨p.after ':', cs ++ rest⟩ := by
    simp only [colon]
    split
    · next h => rw [hblank] at h; cases h
    · next ch tail h =>
      rw [hblank] at h
      cases h
      exact ⟨_, rfl, by simp only [hblank, Cursor.next]⟩
  obtain ⟨t, ht, hd⟩ := hcolon
  rw [List.cons_append]
  simp only [Reader.valueOf, ht]
  obtain ⟨value, next, shorter⟩ := t
  subst hd
  exact ⟨s.widen (Nat.le_of_lt shorter), by simp [hs, Except.map], rfl, hnext⟩

/-! ## Strings -/

/-- A character is escaped by a letter or by its number, or it stands for itself. -/
theorem escape_cases (c : Char) :
    (∃ e, escape c = ['\\', e] ∧ e ≠ 'u' ∧ letterEscape? e = some c) ∨
    (c.toNat < 0x20 ∧
      escape c = ['\\', 'u', '0', '0', hexDigit (c.toNat / 16), hexDigit c.toNat]) ∨
    (escape c = [c] ∧ c ≠ '"' ∧ c ≠ '\\' ∧ ¬ c.toNat < 0x20) := by
  by_cases hletter : c ∈ ['"', '\\', '\n', '\r', '\t', '\x08', '\x0c']
  · refine .inl ?_
    simp only [List.mem_cons, List.not_mem_nil, or_false] at hletter
    rcases hletter with rfl | rfl | rfl | rfl | rfl | rfl | rfl
    all_goals exact ⟨_, rfl, by decide, rfl⟩
  · simp only [List.mem_cons, List.not_mem_nil, or_false, not_or] at hletter
    obtain ⟨hq, hb, hn, hr, ht, hbs, hf⟩ := hletter
    refine .inr ?_
    simp only [escape, hq, hb, hn, hr, ht, hbs, hf, if_false]
    by_cases hlt : c.toNat < 0x20
    · exact .inl ⟨hlt, if_pos hlt⟩
    · exact .inr ⟨if_neg hlt, hq, hb, hlt⟩

/-- The digits of a control's number stand for the control. -/
theorem hexUnit?_hexDigit {n : Nat} (h : n < 0x20) :
    hexUnit? '0' '0' (hexDigit (n / 16)) (hexDigit n) = some n := by
  have all : ∀ n < 0x20, hexUnit? '0' '0' (hexDigit (n / 16)) (hexDigit n) = some n := by decide
  exact all n h

/-- What stands for a character is read as the character, and the reading goes on behind it. -/
theorem stringBody_escape (p : Position) (c : Char) (rest : List Char) :
    ∃ q, stringBody p (escape c ++ rest) = push c (stringBody q rest) := by
  rcases escape_cases c with ⟨e, he, hu, hletter⟩ | ⟨hlt, he⟩ | ⟨he, hq, hb, hlt⟩
  · refine ⟨(p.after '\\').after e, ?_⟩
    rw [he, List.cons_append, List.cons_append, List.nil_append, stringBody.eq_def]
    simp [hu, hletter]
  · have hunit := hexUnit?_hexDigit hlt
    refine ⟨(((p.after '\\').after 'u').afterAll
      ['0', '0', hexDigit (c.toNat / 16), hexDigit c.toNat]), ?_⟩
    rw [he]
    simp only [List.cons_append, List.nil_append]
    rw [stringBody.eq_def]
    simp only [hunit]
    rw [if_neg (by decide), if_pos trivial, if_pos trivial, if_neg (by omega), if_neg (by omega),
      Char.ofNat_toNat]
  · refine ⟨p.after c, ?_⟩
    rw [he, List.cons_append, List.nil_append, stringBody.eq_def]
    simp only [if_neg hq, if_neg hb, if_neg hlt]

theorem stringBody_flatMap_escape (p : Position) (cs rest : List Char) :
    ∃ q, stringBody p (cs.flatMap escape ++ '"' :: rest) = .ok (cs, ⟨q, rest⟩) := by
  induction cs generalizing p with
  | nil => exact ⟨p.after '"', by rw [List.flatMap_nil, List.nil_append, stringBody.eq_def]; simp⟩
  | cons c cs ih =>
    rw [List.flatMap_cons, List.append_assoc]
    obtain ⟨q, hq⟩ := stringBody_escape p c (cs.flatMap escape ++ '"' :: rest)
    obtain ⟨q', hq'⟩ := ih q
    exact ⟨q', by rw [hq, hq']; rfl⟩

/-- A string is read as it was quoted. -/
theorem reads_quote (s : String) : Reads string (quote s) s := by
  intro p rest _
  obtain ⟨q, hq⟩ := stringBody_flatMap_escape (p.after '"') s.toList rest
  have htext : quote s ++ rest = '"' :: (s.toList.flatMap escape ++ '"' :: rest) := by
    simp [quote]
  rw [htext]
  simp only [string]
  split
  · next e he => rw [hq] at he; cases he
  · next r hr =>
    rw [hq] at hr
    cases hr
    exact ⟨_, rfl, String.ofList_toList, rfl⟩

theorem opens_quote (s : String) : Opens (quote s) :=
  ⟨'"', _, rfl, rfl, by decide, by decide⟩

end VerbScript.Json.Reader
