import VerbScript.Proofs.Json.Pretty

/-!
# Records are read as they are printed

The readers of values of a fixed shape read what is printed for a value of that shape: numbers
(`reads_numeric`, `reads_float`), texts, optional values, objects of equal members
(`reads_membersOf`) and records written as objects (`Gathers.reads_record`).
-/

namespace VerbScript.Json.Reader

variable {α β σ : Type}

/-- A reader that comes down to another one on a text reads it as that one does. -/
theorem Reads.of_eq {r r' : Reader α} {cs : List Char} {x : α} (h : Reads r cs x)
    (heq : ∀ p rest, r' ⟨p, cs ++ rest⟩ = r ⟨p, cs ++ rest⟩) : Reads r' cs x := by
  intro p rest hrest
  rw [heq]
  exact h p rest hrest

/-- A number that is accepted is read as what it is accepted as. -/
theorem reads_numeric {expected : String} {accept : Number → Except Mismatch α} {cs : List Char}
    {n : Number} {x : α} (hn : numeral? cs = some n) (hx : accept n = .ok x) :
    ReadsSpaced (numeric expected accept) cs x := by
  obtain ⟨ch, tail, rfl, hch⟩ := opensNumber_of_numeral? hn
  refine fun _ hb => Reads.spaced ?_ (opens_of_opensNumber hch) hb
  intro p rest hrest
  obtain ⟨s, hs, rfl, hnext⟩ := reads_of_numeral? hn p rest hrest
  have hhead : (ch :: tail ++ rest).head?.any opensNumber = true := by simpa using hch
  exact ⟨⟨x, s.next, s.shorter⟩, by simp only [hhead, if_true, hs, hx], rfl, hnext⟩

/-- A double that reads back is read as it is printed. -/
theorem reads_float {x : Float} (h : ReadsBack x) (level : Nat) :
    ReadsSpaced float (prettyChars level (.ofFloat x)) x := by
  rw [ofFloat, if_pos h.1]
  exact reads_numeric h.2 rfl

/-- An integer that fits an unsigned 32-bit word is read as it is printed. -/
theorem reads_word32 {n : Nat} (h : n < VerbScript.Number.wordBound 32) (level : Nat) :
    ReadsSpaced word32 (prettyChars level (.int n)) n := by
  have hlow : -(VerbScript.Number.wordBound 63 : Int) ≤ n := by
    have : 0 ≤ (n : Int) := Int.natCast_nonneg n
    omega
  have hhigh : (n : Int) < VerbScript.Number.wordBound 64 := by
    have : VerbScript.Number.wordBound 32 ≤ VerbScript.Number.wordBound 64 := by decide
    omega
  exact reads_numeric (numeral?_integerText hlow hhigh) (if_pos ⟨Int.natCast_nonneg n, by omega⟩)

/-- A text is read as it is printed. -/
theorem reads_text (s : String) (level : Nat) :
    ReadsSpaced text (prettyChars level (.string s)) s :=
  fun _ hb => ((reads_quote s).of_eq fun _ _ => if_pos rfl).spaced (opens_quote s) hb

/-- The word `null` is read as no value. -/
theorem reads_optional_none (r : Reader α) (level : Nat) :
    ReadsSpaced (optional r) (prettyChars level .null) none := by
  rw [prettyChars_null]
  exact fun _ hb => ((reads_constant 'n' _ none).of_eq fun _ _ => if_pos rfl).spaced
    ⟨_, _, rfl, rfl, by decide, by decide⟩ hb

/-- What does not begin as `null` is read as a value. -/
theorem reads_optional_some {r : Reader α} {ch : Char} {tail : List Char} {x : α} (hch : ch ≠ 'n')
    (hopens : Opens (ch :: tail)) (h : Reads r (ch :: tail) x) :
    ReadsSpaced (optional r) (ch :: tail) (some x) := by
  have hhead (rest : List Char) : ¬ (ch :: tail ++ rest).head? = some 'n' := by simpa using hch
  exact fun _ hb => ((h.map some).of_eq fun _ rest => if_neg (hhead rest)).spaced hopens hb

/-- A double that may be missing is read as it is printed. -/
theorem reads_optional_float {x? : Option Float} (h : ∀ x ∈ x?, ReadsBack x) (level : Nat) :
    ReadsSpaced (optional float) (prettyChars level ((x?.map ofFloat).getD .null)) x? := by
  cases x? with
  | none => exact reads_optional_none float level
  | some x =>
    have hx : ReadsBack x := h x rfl
    have hread : Reads float (prettyChars level (.ofFloat x)) x := (reads_float hx level).reads
    obtain ⟨ch, tail, hcs, hch⟩ := opensNumber_of_numeral? hx.2
    have htext : prettyChars level (.ofFloat x) = ch :: tail := by
      rw [ofFloat, if_pos hx.1, prettyChars, hcs]
    rw [htext] at hread
    simp only [Option.map_some, Option.getD_some, htext]
    exact reads_optional_some (by rintro rfl; cases hch) (opens_of_opensNumber hch) hread

/-- An object is read by the reader of objects. -/
theorem reads_ofObject {expected : String} {object : Reader α} {level : Nat}
    {ms : List (String × Json)} {x : α} (h : Reads object (prettyChars level (.object ms)) x) :
    ReadsSpaced (ofObject expected object) (prettyChars level (.object ms)) x := by
  obtain ⟨tail, htail⟩ := prettyChars_object level ms
  rw [htail] at h ⊢
  exact fun _ hb => (h.of_eq fun _ _ => if_pos rfl).spaced
    ⟨_, _, rfl, rfl, by decide, by decide⟩ hb

/-- An object is read by the reader of objects where an array could stand too. -/
theorem reads_ofObjectOrArray {expected : String} {object array : Reader α} {level : Nat}
    {ms : List (String × Json)} {x : α} (h : Reads object (prettyChars level (.object ms)) x) :
    ReadsSpaced (ofObjectOrArray expected object array) (prettyChars level (.object ms)) x := by
  obtain ⟨tail, htail⟩ := prettyChars_object level ms
  rw [htail] at h ⊢
  exact fun _ hb => (h.of_eq fun _ _ => if_pos rfl).spaced
    ⟨_, _, rfl, rfl, by decide, by decide⟩ hb

/-- The value of a field that has not been read before is read behind its colon. -/
theorem reads_once {r : Reader α} {cs : List Char} {x : α} (h : ReadsSpaced r cs x)
    (name : String) : Reads (once name none r) (':' :: ' ' :: cs) (some x) :=
  (h.map some).valueOf name

/-- A record is read off an object if its members are read one after the other and nothing that it
needs is missing then. -/
theorem Gathers.reads_record {step : σ → String → Reader σ} {level : Nat} {s t : σ}
    {ms : List (String × Json)} {finish : σ → Except Mismatch α} {x : α}
    (h : Gathers step level s ms t) (hx : finish t = .ok x) :
    Reads (record step s finish) (prettyChars level (.object ms)) x := by
  intro p rest hrest
  obtain ⟨u, hu, rfl, hnext⟩ := h.reads p rest hrest
  simp only [record, hu, hx]
  exact ⟨_, rfl, rfl, hnext⟩

theorem gathers_membersOf {r : Reader α} {level : Nat} {ms : List (String × Json)}
    {es : List (String × α)} (h : List.Forall₂ (fun m e => m.1 = e.1 ∧
      ReadsSpaced r (prettyChars (level + 1) m.2) e.2) ms es) (acc : List (String × α)) :
    Gathers (fun ms key => valueOf key (map (fun v => (key, v) :: ms) r)) level acc ms
      (es.reverse ++ acc) := by
  induction h generalizing acc with
  | nil => exact .nil acc
  | @cons m e ms es hm htail ih =>
    rw [List.reverse_cons, List.append_assoc]
    refine .cons ?_ (ih _)
    obtain ⟨key, v⟩ := m
    obtain ⟨_, x⟩ := e
    obtain ⟨rfl, hread⟩ := hm
    exact (hread.map _).valueOf key

/-- An object is read as its members if the value of each is read. -/
theorem reads_membersOf {r : Reader α} {level : Nat} {ms : List (String × Json)}
    {es : List (String × α)} (h : List.Forall₂ (fun m e => m.1 = e.1 ∧
      ReadsSpaced r (prettyChars (level + 1) m.2) e.2) ms es) :
    ReadsSpaced (membersOf r) (prettyChars level (.object ms)) es := by
  have := (gathers_membersOf h []).reads.map List.reverse
  rw [List.append_nil, List.reverse_reverse] at this
  exact reads_ofObject this

end VerbScript.Json.Reader
