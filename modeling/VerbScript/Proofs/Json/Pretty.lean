import Mathlib.Data.List.Forall2
import VerbScript.Proofs.Json.Numeral

/-!
# Documents are read as they are printed

The indented text of a value is read as the value (`Readable.reads_pretty`), for the values that a
text can hold as they are (`Readable`): nested no deeper than the reader allows, with numbers that
read back and no key twice in an object. The loops of the readers over items and members follow
the text item by item (`itemsFrom_tail`, `Gathers.membersFrom_tail`), whatever reads what stands
inside, so that the readers of records use the same lemmas.
-/

namespace VerbScript.Json

/-! ## How values begin -/

theorem prettyChars_null (level : Nat) : prettyChars level .null = ['n', 'u', 'l', 'l'] := rfl

theorem prettyChars_bool (level : Nat) (b : Bool) :
    prettyChars level (.bool b) = if b then ['t', 'r', 'u', 'e'] else ['f', 'a', 'l', 's', 'e'] := by
  cases b with
  | false => rfl
  | true => rfl

theorem prettyChars_array (level : Nat) (vs : List Json) :
    ∃ tail, prettyChars level (.array vs) = '[' :: tail := by
  cases vs with
  | nil => exact ⟨_, rfl⟩
  | cons v vs => exact ⟨_, rfl⟩

theorem prettyChars_object (level : Nat) (ms : List (String × Json)) :
    ∃ tail, prettyChars level (.object ms) = '\x7b' :: tail := by
  cases ms with
  | nil => exact ⟨_, rfl⟩
  | cons m ms => exact ⟨_, rfl⟩

/-- The text of a value opens a value if it does where the value is a number. -/
theorem opens_prettyChars {v : Json} (hnumber : ∀ n, v = .number n → Reader.Opens n.text.toList)
    (level : Nat) : Reader.Opens (prettyChars level v) := by
  cases v with
  | null => exact ⟨'n', _, prettyChars_null level, rfl, by decide, by decide⟩
  | bool b =>
    rw [prettyChars_bool]
    cases b with
    | false => exact ⟨_, _, rfl, rfl, by decide, by decide⟩
    | true => exact ⟨_, _, rfl, rfl, by decide, by decide⟩
  | number n => exact hnumber n rfl
  | string s => exact Reader.opens_quote s
  | array =>
    obtain ⟨tail, htail⟩ := prettyChars_array level _
    exact ⟨'[', tail, htail, rfl, by decide, by decide⟩
  | object =>
    obtain ⟨tail, htail⟩ := prettyChars_object level _
    exact ⟨'\x7b', tail, htail, rfl, by decide, by decide⟩

/-- A new key is put at the end. -/
theorem put_of_not_mem {key : String} {ms : List (String × Json)} (h : key ∉ ms.map (·.1))
    (v : Json) : put key v ms = ms ++ [(key, v)] := by
  induction ms with
  | nil => rfl
  | cons m ms ih =>
    simp only [List.map_cons, List.mem_cons, not_or] at h
    rw [put, if_neg (Ne.symm h.1), ih h.2, List.cons_append]

namespace Reader

variable {α σ : Type}

/-- `r` reads `cs` as `x`, with or without blanks before it. -/
def ReadsSpaced (r : Reader α) (cs : List Char) (x : α) : Prop :=
  ∀ blanks, (∀ ch ∈ blanks, Cursor.isBlank ch = true) → Reads r (blanks ++ cs) x

theorem ReadsSpaced.map {r : Reader α} {cs : List Char} {x : α} (h : ReadsSpaced r cs x)
    (f : α → σ) : ReadsSpaced (map f r) cs (f x) :=
  fun blanks hb => (h blanks hb).map f

theorem ReadsSpaced.reads {r : Reader α} {cs : List Char} {x : α} (h : ReadsSpaced r cs x) :
    Reads r cs x :=
  h [] (by simp)

/-- The value of a member stands behind its colon and a blank. -/
theorem ReadsSpaced.valueOf {r : Reader α} {cs : List Char} {x : α} (h : ReadsSpaced r cs x)
    (key : String) : Reads (valueOf key r) (':' :: ' ' :: cs) x :=
  Reads.valueOf (h [' '] (by simp [Cursor.isBlank])) key

theorem Reads.at {r : Reader α} {cs : List Char} {x : α} (h : Reads r cs x) {c : Cursor}
    {rest : List Char} (hc : c.rest = cs ++ rest) (hrest : Ends rest) :
    ∃ s, r c = .ok s ∧ s.value = x ∧ s.next.rest = rest := by
  obtain ⟨p, _⟩ := c
  subst hc
  exact h p rest hrest

theorem skipBlank_of_rest {c : Cursor} {blanks cs : List Char} {ch : Char}
    (hb : ∀ ch ∈ blanks, Cursor.isBlank ch = true) (hch : Cursor.isBlank ch = false)
    (hc : c.rest = blanks ++ ch :: cs) : c.skipBlank.rest = ch :: cs := by
  have hn : ¬ Cursor.isBlank ch = true := by simp [hch]
  simp only [Cursor.skipBlank, Cursor.skipWhile, hc, List.dropWhile_append_of_pos hb,
    List.dropWhile_cons_of_neg hn]

theorem next_rest {c : Cursor} {ch : Char} {cs : List Char} (hc : c.rest = ch :: cs) :
    c.next.rest = cs := by
  simp [Cursor.next, hc]

/-! ## Words -/

theorem word_append {es : List Char} {c : Cursor} {rest : List Char} (hc : c.rest = es ++ rest) :
    ∃ d, word es c = .ok d ∧ d.rest = rest := by
  induction es generalizing c with
  | nil => exact ⟨c, rfl, hc⟩
  | cons e es ih =>
    obtain ⟨d, hd, hrest⟩ := ih (next_rest hc)
    exact ⟨d, by simp [word, hc, hd], hrest⟩

/-- A word is read as what it stands for. -/
theorem reads_constant (ch : Char) (w : List Char) (v : α) :
    Reads (constant w v) (ch :: w) v := by
  intro p rest _
  obtain ⟨d, hd, hrest⟩ : ∃ d, word w (Cursor.next ⟨p, ch :: w ++ rest⟩) = .ok d ∧ d.rest = rest :=
    word_append rfl
  simp only [constant]
  split
  · next h => cases h
  split
  · next e he => rw [hd] at he; cases he
  · next d' hd' =>
    rw [hd] at hd'
    cases hd'
    exact ⟨_, rfl, rfl, hrest⟩

/-! ## Items -/

theorem nextItem_close (i : Nat) {c : Cursor} {blanks rest : List Char}
    (hb : ∀ ch ∈ blanks, Cursor.isBlank ch = true) (hc : c.rest = blanks ++ ']' :: rest) :
    nextItem i c = .ok none := by
  simp [nextItem, skipBlank_of_rest hb rfl hc]

theorem nextItem_first {c : Cursor} {blanks cs : List Char}
    (hb : ∀ ch ∈ blanks, Cursor.isBlank ch = true) (hcs : Opens cs) (hc : c.rest = blanks ++ cs) :
    ∃ a, nextItem 0 c = .ok (some a) ∧ a.cursor.rest = cs := by
  obtain ⟨ch, tail, rfl, hch, hclose, -⟩ := hcs
  have hskip := skipBlank_of_rest hb hch hc
  refine ⟨⟨c.skipBlank, c.size_skipBlank_le⟩, ?_, hskip⟩
  simp [nextItem, hskip, hclose]

theorem nextItem_comma {i : Nat} (hi : i ≠ 0) {c : Cursor} {blanks cs : List Char}
    (hb : ∀ ch ∈ blanks, Cursor.isBlank ch = true) (hcs : Opens cs)
    (hc : c.rest = ',' :: (blanks ++ cs)) :
    ∃ a, nextItem i c = .ok (some a) ∧ a.cursor.rest = cs := by
  obtain ⟨ch, tail, rfl, hch, hclose, -⟩ := hcs
  have hcomma : c.skipBlank.rest = ',' :: (blanks ++ ch :: tail) :=
    skipBlank_of_rest (List.forall_mem_nil _) rfl hc
  have hskip := skipBlank_of_rest hb hch (next_rest hcomma)
  refine ⟨⟨c.skipBlank.next.skipBlank, ?_⟩, ?_, hskip⟩
  · exact Nat.le_trans (Cursor.size_skipBlank_le _)
      (Nat.le_trans (Cursor.size_next_le _) (Cursor.size_skipBlank_le _))
  · simp [nextItem, hcomma, hi, hskip, hclose]

theorem itemsFrom_none {item : Reader α} {i : Nat} {c : Cursor} (h : nextItem i c = .ok none) :
    itemsFrom item i c = .ok ⟨[], pastClose c, size_pastClose_le c⟩ := by
  rw [itemsFrom, h]

theorem itemsFrom_some {item : Reader α} {i : Nat} {c : Cursor} {a : Ahead c}
    {s : Scanned α a.cursor} {t : Part (List α) s.next} (ha : nextItem i c = .ok (some a))
    (hs : within (.index i) item a.cursor = .ok s) (ht : itemsFrom item (i + 1) s.next = .ok t) :
    ∃ u, itemsFrom item i c = .ok u ∧ u.value = s.value :: t.value ∧ u.next = t.next := by
  rw [itemsFrom, ha]
  simp only [hs, ht]
  exact ⟨_, rfl, rfl, rfl⟩

theorem ends_itemsTail (level : Nat) (vs : List Json) (rest : List Char) :
    Ends (prettyItemsTail level vs ++ rest) := by
  cases vs with
  | nil => exact ends_cons.2 rfl
  | cons v vs => exact ends_cons.2 rfl

/-- Items of which `item` reads each as a value are read up to the closing bracket. -/
theorem itemsFrom_tail {item : Reader α} {level : Nat} {vs : List Json} {xs : List α}
    (h : List.Forall₂ (fun v x => Opens (prettyChars (level + 1) v) ∧
      Reads item (prettyChars (level + 1) v) x) vs xs)
    {i : Nat} (hi : i ≠ 0) {c : Cursor} {rest : List Char}
    (hc : c.rest = prettyItemsTail level vs ++ rest) :
    ∃ s, itemsFrom item i c = .ok s ∧ s.value = xs ∧ s.next.rest = rest := by
  induction h generalizing i c with
  | nil =>
    have hb : ∀ ch ∈ lineBreak level, Cursor.isBlank ch = true := fun _ => isBlank_of_mem_lineBreak
    rw [prettyItemsTail, List.append_assoc] at hc
    refine ⟨_, itemsFrom_none (nextItem_close i hb hc), rfl, ?_⟩
    exact next_rest (skipBlank_of_rest hb rfl hc)
  | @cons v x vs xs hv htail ih =>
    rw [prettyItemsTail] at hc
    simp only [List.cons_append, List.append_assoc] at hc
    obtain ⟨a, ha, harest⟩ :=
      nextItem_comma hi (fun _ => isBlank_of_mem_lineBreak) (hv.1.append _) hc
    obtain ⟨s, hs, rfl, hsrest⟩ := (hv.2.within (.index i)).at harest (ends_itemsTail level vs rest)
    obtain ⟨t, ht, rfl, htrest⟩ := ih (Nat.succ_ne_zero i) hsrest
    obtain ⟨u, hu, hvalue, hnext⟩ := itemsFrom_some ha hs ht
    exact ⟨u, hu, hvalue, by rw [hnext, htrest]⟩

/-- The items of an array are read from behind its opening bracket. -/
theorem itemsFrom_first {item : Reader α} {level : Nat} {vs : List Json} {xs : List α}
    (h : List.Forall₂ (fun v x => Opens (prettyChars (level + 1) v) ∧
      Reads item (prettyChars (level + 1) v) x) vs xs) {c : Cursor} {rest : List Char}
    (hc : '[' :: c.rest = prettyChars level (.array vs) ++ rest) :
    ∃ s, itemsFrom item 0 c = .ok s ∧ s.value = xs ∧ s.next.rest = rest := by
  cases h with
  | nil =>
    have hc : c.rest = [] ++ ']' :: rest := List.tail_eq_of_cons_eq hc
    refine ⟨_, itemsFrom_none (nextItem_close 0 (List.forall_mem_nil _) hc), rfl, ?_⟩
    exact next_rest (skipBlank_of_rest (List.forall_mem_nil _) rfl hc)
  | @cons v x vs xs hv htail =>
    rw [prettyChars] at hc
    simp only [List.cons_append, List.append_assoc, List.cons.injEq, true_and] at hc
    obtain ⟨a, ha, harest⟩ :=
      nextItem_first (fun _ => isBlank_of_mem_lineBreak) (hv.1.append _) hc
    obtain ⟨s, hs, rfl, hsrest⟩ := (hv.2.within (.index 0)).at harest (ends_itemsTail level vs rest)
    obtain ⟨t, ht, rfl, htrest⟩ := itemsFrom_tail htail (Nat.succ_ne_zero 0) hsrest
    obtain ⟨u, hu, hvalue, hnext⟩ := itemsFrom_some ha hs ht
    exact ⟨u, hu, hvalue, by rw [hnext, htrest]⟩

/-- An array of whose items `item` reads each as a value is read. -/
theorem reads_items {item : Reader α} {level : Nat} {vs : List Json} {xs : List α}
    (h : List.Forall₂ (fun v x => Opens (prettyChars (level + 1) v) ∧
      Reads item (prettyChars (level + 1) v) x) vs xs) :
    Reads (items item) (prettyChars level (.array vs)) xs := by
  intro p rest _
  obtain ⟨cs, hcs⟩ := prettyChars_array level vs
  have hc : '[' :: (Cursor.next ⟨p, '[' :: (cs ++ rest)⟩).rest =
      prettyChars level (.array vs) ++ rest := by
    rw [hcs]
    rfl
  obtain ⟨s, hs, hvalue, hnext⟩ := itemsFrom_first h hc
  rw [hcs, List.cons_append]
  exact ⟨_, by simp only [items, hs]; rfl, hvalue, hnext⟩

/-! ## Members -/

theorem nextMember_close (first : Bool) {c : Cursor} {blanks rest : List Char}
    (hb : ∀ ch ∈ blanks, Cursor.isBlank ch = true) (hc : c.rest = blanks ++ '\x7d' :: rest) :
    nextMember first c = .ok none := by
  simp [nextMember, skipBlank_of_rest hb rfl hc]

theorem nextMember_first {c : Cursor} {blanks cs : List Char}
    (hb : ∀ ch ∈ blanks, Cursor.isBlank ch = true) (hc : c.rest = blanks ++ '"' :: cs) :
    ∃ a, nextMember true c = .ok (some a) ∧ a.cursor.rest = '"' :: cs := by
  have hskip := skipBlank_of_rest hb rfl hc
  refine ⟨⟨c.skipBlank, c.size_skipBlank_le⟩, ?_, hskip⟩
  simp [nextMember, hskip]

theorem nextMember_comma {c : Cursor} {blanks cs : List Char}
    (hb : ∀ ch ∈ blanks, Cursor.isBlank ch = true) (hc : c.rest = ',' :: (blanks ++ '"' :: cs)) :
    ∃ a, nextMember false c = .ok (some a) ∧ a.cursor.rest = '"' :: cs := by
  have hcomma : c.skipBlank.rest = ',' :: (blanks ++ '"' :: cs) :=
    skipBlank_of_rest (List.forall_mem_nil _) rfl hc
  have hskip := skipBlank_of_rest hb rfl (next_rest hcomma)
  refine ⟨⟨c.skipBlank.next.skipBlank, ?_⟩, ?_, hskip⟩
  · exact Nat.le_trans (Cursor.size_skipBlank_le _)
      (Nat.le_trans (Cursor.size_next_le _) (Cursor.size_skipBlank_le _))
  · simp [nextMember, hcomma, hskip]

theorem nextKey_some {first : Bool} {c : Cursor} {a : Ahead c} {k : String} {rest : List Char}
    (ha : nextMember first c = .ok (some a)) (hk : a.cursor.rest = quote k ++ rest)
    (hrest : Ends rest) :
    ∃ s, nextKey first c = .ok (some s) ∧ s.value = k ∧ s.next.rest = rest := by
  obtain ⟨s, hs, hvalue, hnext⟩ := (reads_quote k).at hk hrest
  exact ⟨s.widen a.notLonger, by simp [nextKey, ha, after, hs, Except.map], hvalue, hnext⟩

theorem membersFrom_none {step : σ → String → Reader σ} {first : Bool} {s : σ} {c : Cursor}
    (h : nextMember first c = .ok none) :
    membersFrom step first s c = .ok ⟨s, pastClose c, size_pastClose_le c⟩ := by
  rw [membersFrom, nextKey, h]
  rfl

theorem membersFrom_some {step : σ → String → Reader σ} {first : Bool} {s : σ} {c : Cursor}
    {key : Scanned String c} {t : Scanned σ key.next} {u : Part σ t.next}
    (hkey : nextKey first c = .ok (some key)) (ht : step s key.value key.next = .ok t)
    (hu : membersFrom step false t.value t.next = .ok u) :
    ∃ w, membersFrom step first s c = .ok w ∧ w.value = u.value ∧ w.next = u.next := by
  have hkey : (nextKey first c).mapError (Failure.within .unknown) = .ok (some key) := by
    rw [hkey]
    rfl
  rw [membersFrom]
  simp only [hkey, ht, hu]
  exact ⟨_, rfl, rfl, rfl⟩

/-- Reading the members `ms` of an object at `level` one after the other takes `s` to the last
argument. -/
inductive Gathers (step : σ → String → Reader σ) (level : Nat) :
    σ → List (String × Json) → σ → Prop where
  | nil (s : σ) : Gathers step level s [] s
  | cons {s t u : σ} {k : String} {v : Json} {ms : List (String × Json)}
      (hstep : Reads (step s k) (':' :: ' ' :: prettyChars (level + 1) v) t)
      (htail : Gathers step level t ms u) : Gathers step level s ((k, v) :: ms) u

theorem ends_membersTail (level : Nat) (ms : List (String × Json)) (rest : List Char) :
    Ends (prettyMembersTail level ms ++ rest) := by
  cases ms with
  | nil => exact ends_cons.2 rfl
  | cons m ms => exact ends_cons.2 rfl

/-- Members behind others are read up to the closing brace. -/
theorem Gathers.membersFrom_tail {step : σ → String → Reader σ} {level : Nat} {s u : σ}
    {ms : List (String × Json)} (h : Gathers step level s ms u) {c : Cursor} {rest : List Char}
    (hc : c.rest = prettyMembersTail level ms ++ rest) :
    ∃ w, membersFrom step false s c = .ok w ∧ w.value = u ∧ w.next.rest = rest := by
  induction h generalizing c with
  | nil s =>
    have hb : ∀ ch ∈ lineBreak level, Cursor.isBlank ch = true := fun _ => isBlank_of_mem_lineBreak
    rw [prettyMembersTail, List.append_assoc] at hc
    refine ⟨_, membersFrom_none (nextMember_close false hb hc), rfl, ?_⟩
    exact next_rest (skipBlank_of_rest hb rfl hc)
  | @cons s t u k v ms hstep htail ih =>
    rw [prettyMembersTail] at hc
    simp only [List.cons_append, List.append_assoc] at hc
    obtain ⟨a, ha, harest⟩ := nextMember_comma (fun _ => isBlank_of_mem_lineBreak) hc
    obtain ⟨key, hkey, rfl, hkrest⟩ := nextKey_some ha harest (ends_cons.2 rfl)
    obtain ⟨x, hx, rfl, hxrest⟩ := hstep.at hkrest (ends_membersTail level ms rest)
    obtain ⟨y, hy, rfl, hyrest⟩ := ih hxrest
    obtain ⟨w, hw, hvalue, hnext⟩ := membersFrom_some hkey hx hy
    exact ⟨w, hw, hvalue, by rw [hnext, hyrest]⟩

/-- The members of an object are read from behind its opening brace. -/
theorem Gathers.membersFrom_first {step : σ → String → Reader σ} {level : Nat} {s u : σ}
    {ms : List (String × Json)} (h : Gathers step level s ms u) {c : Cursor} {rest : List Char}
    (hc : '\x7b' :: c.rest = prettyChars level (.object ms) ++ rest) :
    ∃ w, membersFrom step true s c = .ok w ∧ w.value = u ∧ w.next.rest = rest := by
  cases h with
  | nil =>
    have hc : c.rest = [] ++ '\x7d' :: rest := List.tail_eq_of_cons_eq hc
    refine ⟨_, membersFrom_none (nextMember_close true (List.forall_mem_nil _) hc), rfl, ?_⟩
    exact next_rest (skipBlank_of_rest (List.forall_mem_nil _) rfl hc)
  | @cons _ t _ k v ms hstep htail =>
    rw [prettyChars] at hc
    simp only [List.cons_append, List.append_assoc, List.cons.injEq, true_and] at hc
    obtain ⟨a, ha, harest⟩ := nextMember_first (fun _ => isBlank_of_mem_lineBreak) hc
    obtain ⟨key, hkey, rfl, hkrest⟩ := nextKey_some ha harest (ends_cons.2 rfl)
    obtain ⟨x, hx, rfl, hxrest⟩ := hstep.at hkrest (ends_membersTail level ms rest)
    obtain ⟨y, hy, rfl, hyrest⟩ := htail.membersFrom_tail hxrest
    obtain ⟨w, hw, hvalue, hnext⟩ := membersFrom_some hkey hx hy
    exact ⟨w, hw, hvalue, by rw [hnext, hyrest]⟩

/-- An object whose members are read one after the other is read. -/
theorem Gathers.reads {step : σ → String → Reader σ} {level : Nat} {s u : σ}
    {ms : List (String × Json)} (h : Gathers step level s ms u) :
    Reads (members step s) (prettyChars level (.object ms)) u := by
  intro p rest _
  obtain ⟨cs, hcs⟩ := prettyChars_object level ms
  have hc : '\x7b' :: (Cursor.next ⟨p, '\x7b' :: (cs ++ rest)⟩).rest =
      prettyChars level (.object ms) ++ rest := by
    rw [hcs]
    rfl
  obtain ⟨w, hw, hvalue, hnext⟩ := h.membersFrom_first hc
  rw [hcs, List.cons_append]
  exact ⟨_, by simp only [members, hw]; rfl, hvalue, hnext⟩

/-! ## Values -/

section
variable {array object : Reader Json}

/-- The reader of a value that begins with the given character. -/
def valueAt (array object : Reader Json) (ch : Char) : Reader Json :=
  if ch = 'n' then constant ['u', 'l', 'l'] .null
  else if ch = 't' then constant ['r', 'u', 'e'] (.bool true)
  else if ch = 'f' then constant ['a', 'l', 's', 'e'] (.bool false)
  else if opensNumber ch then map .number number
  else if ch = '"' then map .string string
  else if ch = '[' then array
  else if ch = '\x7b' then object
  else fun c => .error (c.failNext .valueExpected)

/-- A value is read by its first character. -/
theorem reads_valueWith {ch : Char} {tail : List Char} {v : Json}
    (h : Reads (valueAt array object ch) (ch :: tail) v) (hopens : Opens (ch :: tail)) :
    ReadsSpaced (valueWith array object) (ch :: tail) v := by
  refine fun _ hb => Reads.spaced ?_ hopens hb
  intro p rest hrest
  obtain ⟨s, hs, hvalue⟩ := h p rest hrest
  refine ⟨s, ?_, hvalue⟩
  rw [← hs]
  simp only [valueAt, List.cons_append]
  repeat' split
  all_goals rfl

theorem valueAt_of_opensNumber {ch : Char} (h : opensNumber ch = true) :
    valueAt array object ch = map .number number := by
  have hn : ch ≠ 'n' := by rintro rfl; cases h
  have ht : ch ≠ 't' := by rintro rfl; cases h
  have hf : ch ≠ 'f' := by rintro rfl; cases h
  rw [valueAt, if_neg hn, if_neg ht, if_neg hf, if_pos h]

theorem reads_null (level : Nat) :
    ReadsSpaced (valueWith array object) (prettyChars level .null) .null :=
  prettyChars_null level ▸
    reads_valueWith (reads_constant 'n' _ _) ⟨_, _, rfl, rfl, by decide, by decide⟩

theorem reads_bool (level : Nat) (b : Bool) :
    ReadsSpaced (valueWith array object) (prettyChars level (.bool b)) (.bool b) := by
  rw [prettyChars_bool]
  cases b with
  | false => exact reads_valueWith (reads_constant 'f' _ _) ⟨_, _, rfl, rfl, by decide, by decide⟩
  | true => exact reads_valueWith (reads_constant 't' _ _) ⟨_, _, rfl, rfl, by decide, by decide⟩

theorem reads_numeral {cs : List Char} {n : Number} (h : numeral? cs = some n) :
    ReadsSpaced (valueWith array object) cs (.number n) := by
  obtain ⟨ch, tail, rfl, hch⟩ := opensNumber_of_numeral? h
  refine reads_valueWith ?_ (opens_of_opensNumber hch)
  rw [valueAt_of_opensNumber hch]
  exact (reads_of_numeral? h).map Json.number

theorem reads_string (level : Nat) (s : String) :
    ReadsSpaced (valueWith array object) (prettyChars level (.string s)) (.string s) :=
  reads_valueWith (show Reads (map Json.string string) (quote s) _ from (reads_quote s).map _)
    (opens_quote s)

theorem reads_array {level : Nat} {vs : List Json} {v : Json}
    (h : Reads array (prettyChars level (.array vs)) v) :
    ReadsSpaced (valueWith array object) (prettyChars level (.array vs)) v := by
  obtain ⟨tail, htail⟩ := prettyChars_array level vs
  rw [htail] at h ⊢
  exact reads_valueWith h ⟨_, _, rfl, rfl, by decide, by decide⟩

theorem reads_object {level : Nat} {ms : List (String × Json)} {v : Json}
    (h : Reads object (prettyChars level (.object ms)) v) :
    ReadsSpaced (valueWith array object) (prettyChars level (.object ms)) v := by
  obtain ⟨tail, htail⟩ := prettyChars_object level ms
  rw [htail] at h ⊢
  exact reads_valueWith h ⟨_, _, rfl, rfl, by decide, by decide⟩

end

theorem map_id (r : Reader α) : map id r = r := by
  funext c
  rw [map]
  cases r c with
  | error e => rfl
  | ok s => rfl

/-- A member with a new key is added behind those before it. -/
theorem reads_addMember {value : Reader Json} {level : Nat} {acc : List (String × Json)} {key : String}
    {v : Json} (hkey : key ∉ acc.map (·.1))
    (hv : ReadsSpaced value (prettyChars (level + 1) v) v) :
    Reads (addMember value acc key) (':' :: ' ' :: prettyChars (level + 1) v)
      (acc ++ [(key, v)]) := by
  rw [← put_of_not_mem hkey v]
  exact (hv.map _).valueOf key

/-- Members with new keys are added one behind the other, if `step` adds each to the ones that
`wrap` puts into the state. -/
theorem gathers_of_addMember {value : Reader Json} {step : σ → String → Reader σ}
    (wrap : List (String × Json) → σ) {level : Nat} {acc ms : List (String × Json)}
    (hstep : ∀ acc, ∀ m ∈ ms, step (wrap acc) m.1 = map wrap (addMember value acc m.1))
    (hkeys : ((acc ++ ms).map (·.1)).Nodup)
    (hms : ∀ m ∈ ms, ReadsSpaced value (prettyChars (level + 1) m.2) m.2) :
    Gathers step level (wrap acc) ms (wrap (acc ++ ms)) := by
  induction ms generalizing acc with
  | nil => exact (List.append_nil acc).symm ▸ Gathers.nil (wrap acc)
  | cons m ms ih =>
    rw [List.forall_mem_cons] at hms
    have hkey : m.1 ∉ acc.map (·.1) := by
      simp only [List.map_append, List.map_cons, List.nodup_append, List.mem_cons] at hkeys
      exact fun h => hkeys.2.2 m.1 h m.1 (.inl rfl) rfl
    have hread := (reads_addMember hkey hms.1).map wrap
    rw [← hstep acc m (List.mem_cons_self ..)] at hread
    rw [← List.singleton_append, ← List.append_assoc] at hkeys ⊢
    exact .cons hread (ih (fun acc m hm => hstep acc m (List.mem_cons_of_mem _ hm)) hkeys hms.2)

/-- A value without parts is read at every depth. -/
theorem exists_valueWith (depth : Nat) : ∃ array object, value depth = valueWith array object := by
  cases depth with
  | zero => exact ⟨_, _, rfl⟩
  | succ depth => exact ⟨_, _, rfl⟩

end Reader

/-- A value that a text can hold as it is, in which arrays and objects are nested at most as deep
as the first argument says. -/
inductive Readable : Nat → Json → Prop where
  | null (depth : Nat) : Readable depth .null
  | bool (depth : Nat) (b : Bool) : Readable depth (.bool b)
  | number (depth : Nat) {n : Number} (hn : Reader.numeral? n.text.toList = some n) :
      Readable depth (.number n)
  | string (depth : Nat) (s : String) : Readable depth (.string s)
  | array {depth : Nat} {vs : List Json} (hvs : ∀ v ∈ vs, Readable depth v) :
      Readable (depth + 1) (.array vs)
  | object {depth : Nat} {ms : List (String × Json)} (hkeys : (ms.map (·.1)).Nodup)
      (hms : ∀ m ∈ ms, Readable depth m.2) : Readable (depth + 1) (.object ms)

namespace Readable

/-- An integer that fits a word. -/
theorem int (depth : Nat) {n : Int} (hlow : -(VerbScript.Number.wordBound 63 : Int) ≤ n)
    (hhigh : n < VerbScript.Number.wordBound 64) : Readable depth (.int n) :=
  .number depth (Reader.numeral?_integerText hlow hhigh)

/-- A double that reads back. -/
theorem ofFloat (depth : Nat) {x : Float} (hx : ReadsBack x) : Readable depth (.ofFloat x) := by
  rw [Json.ofFloat, if_pos hx.1]
  exact .number depth hx.2

theorem opens {depth : Nat} {v : Json} (h : Readable depth v) (level : Nat) :
    Reader.Opens (prettyChars level v) := by
  refine opens_prettyChars (fun n hn => ?_) level
  cases h with
  | number _ hread =>
    cases hn
    obtain ⟨ch, tail, hcs, hch⟩ := Reader.opensNumber_of_numeral? hread
    exact hcs ▸ Reader.opens_of_opensNumber hch
  | _ => cases hn

/-- A value is read as it is printed, at every level of indentation. -/
theorem reads_pretty {depth : Nat} {v : Json} (h : Readable depth v) (level : Nat) :
    Reader.ReadsSpaced (Reader.value depth) (prettyChars level v) v := by
  induction h generalizing level with
  | null depth =>
    obtain ⟨_, _, hvalue⟩ := Reader.exists_valueWith depth
    exact hvalue ▸ Reader.reads_null level
  | bool depth b =>
    obtain ⟨_, _, hvalue⟩ := Reader.exists_valueWith depth
    exact hvalue ▸ Reader.reads_bool level b
  | number depth hn =>
    obtain ⟨_, _, hvalue⟩ := Reader.exists_valueWith depth
    exact hvalue ▸ Reader.reads_numeral hn
  | string depth s =>
    obtain ⟨_, _, hvalue⟩ := Reader.exists_valueWith depth
    exact hvalue ▸ Reader.reads_string level s
  | @array depth vs hvs ih =>
    have hitems : List.Forall₂ (fun v x => Reader.Opens (prettyChars (level + 1) v) ∧
        Reader.Reads (Reader.value depth) (prettyChars (level + 1) v) x) vs vs :=
      List.forall₂_same.2 fun v hv => ⟨(hvs v hv).opens _, (ih v hv _).reads⟩
    exact Reader.reads_array ((Reader.reads_items hitems).map Json.array)
  | @object depth ms hkeys hms ih =>
    have hgathers : Reader.Gathers (Reader.addMember (Reader.value depth)) level [] ms ([] ++ ms) :=
      Reader.gathers_of_addMember id (fun _ _ _ => (Reader.map_id _).symm) hkeys
        fun m hm => ih m hm _
    exact Reader.reads_object (hgathers.reads.map Json.object)

/-- A document is read as it is printed. -/
theorem parse_pretty {v : Json} (h : Readable Reader.depthLimit v) : parse v.pretty = .ok v := by
  have hstart : (Cursor.start v.pretty).rest = prettyChars 0 v ++ [] := by
    simp [Cursor.start, pretty]
  obtain ⟨s, hs, hvalue, hrest⟩ := (h.reads_pretty 0).reads.at hstart Reader.ends_nil
  simp [parse, hs, hvalue, Cursor.skipBlank, Cursor.skipWhile, hrest]

end Readable

end VerbScript.Json
