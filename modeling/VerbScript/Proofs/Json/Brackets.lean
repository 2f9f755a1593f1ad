import VerbScript.Proofs.Json.Reads
import VerbScript.Proofs.Number.FloatText

/-!
# Open brackets

A `Scan` goes through the characters of a text and counts how many more brackets have been opened than
closed, those inside of strings apart. The text of a value opens as many as it closes and never closes
more (`Scan.encloses_pretty`), so a text that begins as an object is printed but stops short of its end
leaves a bracket or a string open (`Scan.open_of_isPrefix`).
-/

namespace VerbScript.Json

open VerbScript.Number (isNumeral)

/-- Where a scan stands. -/
inductive Scan.Mode where
  | outside
  | inside
  /-- Inside of a string, behind a backslash. -/
  | escaped
  deriving Repr, DecidableEq

/-- How many more brackets have been opened than closed, and whether a string has been. -/
structure Scan where
  depth : Int
  mode : Scan.Mode
  deriving Repr, DecidableEq

namespace Scan

open Mode

/-- The scan behind a character. -/
def step (s : Scan) (ch : Char) : Scan :=
  match s.mode with
  | outside =>
    if ch = '"' then ⟨s.depth, inside⟩
    else if ch = '[' ∨ ch = '\x7b' then ⟨s.depth + 1, outside⟩
    else if ch = ']' ∨ ch = '\x7d' then ⟨s.depth - 1, outside⟩
    else s
  | inside =>
    if ch = '"' then ⟨s.depth, outside⟩
    else if ch = '\\' then ⟨s.depth, escaped⟩
    else s
  | escaped => ⟨s.depth, inside⟩

/-- The scan behind characters. -/
def through (s : Scan) (cs : List Char) : Scan := cs.foldl step s

/-- Characters lead from one mode to another and open `n` more brackets than they close. -/
def Leads (m : Mode) (n : Int) (m' : Mode) (cs : List Char) : Prop :=
  ∀ k, through ⟨k, m⟩ cs = ⟨k + n, m'⟩

/-- A character that is neither a quote nor a bracket. -/
def IsPlain (ch : Char) : Prop := ch ∉ ['"', '[', ']', '\x7b', '\x7d']

instance (ch : Char) : Decidable (IsPlain ch) := inferInstanceAs (Decidable (¬ _))

variable {m m' m'' : Mode} {n n' : Int} {cs ds : List Char} {ch : Char}

theorem through_append (s : Scan) (cs ds : List Char) :
    s.through (cs ++ ds) = (s.through cs).through ds := List.foldl_append

namespace Leads

theorem nil (m : Mode) : Leads m 0 m [] := fun k => by rw [Int.add_zero]; rfl

theorem depth_eq (h : Leads m n m' cs) (k : Int) : (through ⟨k, m⟩ cs).depth = k + n := by rw [h]

theorem append (h : Leads m n m' cs) (h' : Leads m' n' m'' ds) : Leads m (n + n') m'' (cs ++ ds) :=
  fun k => by rw [through_append, h, h', Int.add_assoc]

theorem cons (h : Leads m n m' [ch]) (h' : Leads m' n' m'' cs) : Leads m (n + n') m'' (ch :: cs) :=
  h.append h'

theorem plain (h : IsPlain ch) : Leads outside 0 outside [ch] := by
  intro k
  simp only [IsPlain, List.mem_cons, List.not_mem_nil, or_false, not_or] at h
  show step ⟨k, outside⟩ ch = _
  simp [step, h]

theorem bracket (h : ch = '[' ∨ ch = '\x7b') : Leads outside 1 outside [ch] := by
  rcases h with rfl | rfl
  all_goals exact fun k => rfl

theorem closing (h : ch = ']' ∨ ch = '\x7d') : Leads outside (-1) outside [ch] := by
  rcases h with rfl | rfl
  all_goals exact fun k => rfl

theorem openQuote : Leads outside 0 inside ['"'] := fun k => by rw [Int.add_zero]; rfl

theorem closeQuote : Leads inside 0 outside ['"'] := fun k => by rw [Int.add_zero]; rfl

theorem backslash : Leads inside 0 escaped ['\\'] := fun k => by rw [Int.add_zero]; rfl

theorem escape (ch : Char) : Leads escaped 0 inside [ch] := fun k => by rw [Int.add_zero]; rfl

theorem verbatim (hquote : ch ≠ '"') (hbackslash : ch ≠ '\\') : Leads inside 0 inside [ch] := by
  intro k
  show step ⟨k, inside⟩ ch = _
  simp [step, hquote, hbackslash]

end Leads

/-- The characters of a word that is given are checked one by one. -/
theorem isPlain_of_all (h : cs.all (decide <| IsPlain ·) = true) : ∀ ch ∈ cs, IsPlain ch :=
  fun ch hch => of_decide_eq_true (List.all_eq_true.1 h ch hch)

theorem isPlain_of_isBlank (h : Cursor.isBlank ch = true) : IsPlain ch := by
  simp only [Cursor.isBlank, Bool.or_eq_true, decide_eq_true_eq] at h
  rcases h with ((rfl | rfl) | rfl) | rfl
  all_goals decide

theorem isPlain_of_isDigit (h : ch.isDigit = true) : IsPlain ch := by
  intro hmem
  simp only [List.mem_cons, List.not_mem_nil, or_false] at hmem
  rcases hmem with rfl | rfl | rfl | rfl | rfl
  all_goals cases h

theorem isPlain_of_isNumeral (h : isNumeral ch = true) : IsPlain ch := by
  simp only [isNumeral, Bool.or_eq_true, decide_eq_true_eq] at h
  rcases h with (((hdigit | rfl) | rfl) | rfl) | rfl
  · exact isPlain_of_isDigit hdigit
  all_goals decide

/-- A hexadecimal digit neither ends nor escapes anything. -/
theorem verbatim_of_hexValue? {v : Nat} (h : Reader.hexValue? ch = some v) :
    Leads inside 0 inside [ch] := by
  refine .verbatim ?_ ?_
  all_goals
    rintro rfl
    cases h

/-! ## Texts that close what they open -/

/-- Characters lead from one mode to another, close as many brackets as they open and never more. -/
structure Encloses (m m' : Mode) (cs : List Char) : Prop where
  leads : Leads m 0 m' cs
  le_depth : ∀ ds, ds <+: cs → ∀ k, k ≤ (through ⟨k, m⟩ ds).depth

namespace Encloses

theorem nil (m : Mode) : Encloses m m [] :=
  ⟨.nil m, fun ds hds k => by rw [List.prefix_nil.1 hds]; exact Int.le_refl k⟩

theorem append (h : Encloses m m' cs) (h' : Encloses m' m'' ds) : Encloses m m'' (cs ++ ds) := by
  refine ⟨by simpa using h.leads.append h'.leads, fun es hes k => ?_⟩
  rcases List.prefix_or_prefix_of_prefix hes (List.prefix_append cs ds) with hes | ⟨fs, rfl⟩
  · exact h.le_depth es hes k
  · rw [List.prefix_append_right_inj] at hes
    rw [through_append, h.leads, Int.add_zero]
    exact h'.le_depth fs hes k

theorem of_leads (h : Leads m 0 m' [ch]) : Encloses m m' [ch] := by
  refine ⟨h, fun ds hds k => ?_⟩
  rcases List.prefix_cons_iff.1 hds with rfl | ⟨es, rfl, hes⟩
  · exact Int.le_refl k
  · have hdepth := h.depth_eq k
    rw [List.prefix_nil.1 hes]
    omega

theorem cons (h : Leads m 0 m' [ch]) (h' : Encloses m' m'' cs) : Encloses m m'' (ch :: cs) :=
  (of_leads h).append h'

theorem of_isPlain (h : ∀ ch ∈ cs, IsPlain ch) : Encloses outside outside cs := by
  induction cs with
  | nil => exact .nil outside
  | cons ch cs ih =>
    rw [List.forall_mem_cons] at h
    exact cons (.plain h.1) (ih h.2)

/-- Short of the closing bracket, the opening one is open. -/
theorem lt_depth {bra ket : Char} (hbra : bra = '[' ∨ bra = '\x7b') (h : Encloses outside outside cs)
    (hds : ds <+: bra :: cs ++ [ket]) (hne : ds ≠ bra :: cs ++ [ket]) (hnil : ds ≠ []) (k : Int) :
    k < (through ⟨k, outside⟩ ds).depth := by
  rcases List.prefix_concat_iff.1 hds with heq | hds
  · exact absurd heq hne
  · rcases List.prefix_cons_iff.1 hds with heq | ⟨es, rfl, hes⟩
    · exact absurd heq hnil
    · have hle := h.le_depth es hes (k + 1)
      rw [← List.singleton_append, through_append, Leads.bracket hbra]
      omega

/-- An escape by a letter. -/
theorem letterEscape (e : Char) : Encloses inside inside ['\\', e] :=
  cons .backslash (of_leads (.escape e))

/-- An escape by four hexadecimal digits. -/
theorem hexEscape {a b c d : Char} {v : Nat} (h : Reader.hexUnit? a b c d = some v) :
    Encloses inside inside ['\\', 'u', a, b, c, d] := by
  simp only [Reader.hexUnit?, Option.bind_eq_bind, Option.bind_eq_some_iff] at h
  obtain ⟨_, ha, _, hb, _, hc, _, hd, -⟩ := h
  exact (letterEscape 'u').append (cons (verbatim_of_hexValue? ha) (cons (verbatim_of_hexValue? hb)
    (cons (verbatim_of_hexValue? hc) (of_leads (verbatim_of_hexValue? hd)))))

/-- What stands between brackets closes what it opens, and so does the whole. -/
theorem brackets {bra ket : Char} (hbra : bra = '[' ∨ bra = '\x7b')
    (hket : ket = ']' ∨ ket = '\x7d') (h : Encloses outside outside cs) :
    Encloses outside outside (bra :: cs ++ [ket]) := by
  have hleads : Leads outside 0 outside (bra :: cs ++ [ket]) :=
    ((Leads.bracket hbra).cons h.leads).append (.closing hket)
  refine ⟨hleads, fun ds hds k => ?_⟩
  by_cases hne : ds = bra :: cs ++ [ket]
  · have hdepth := hleads.depth_eq k
    rw [hne]
    omega
  · by_cases hnil : ds = []
    · rw [hnil]
      exact Int.le_refl k
    · exact Int.le_of_lt (h.lt_depth hbra hds hne hnil k)

end Encloses

/-! ## Printed texts -/

theorem encloses_escape (c : Char) : Encloses inside inside (Json.escape c) := by
  rcases Reader.escape_cases c with ⟨e, he, -⟩ | ⟨hlt, he⟩ | ⟨he, hquote, hbackslash, -⟩
  · rw [he]
    exact .letterEscape e
  · rw [he]
    exact .hexEscape (Reader.hexUnit?_hexDigit hlt)
  · rw [he]
    exact .of_leads (.verbatim hquote hbackslash)

theorem encloses_quote (s : String) : Encloses outside outside (quote s) := by
  have hbody (cs : List Char) : Encloses inside inside (cs.flatMap Json.escape) := by
    induction cs with
    | nil => exact .nil inside
    | cons c cs ih => exact (encloses_escape c).append ih
  exact (Encloses.cons .openQuote (hbody s.toList)).append (.of_leads .closeQuote)

theorem encloses_lineBreak (level : Nat) : Encloses outside outside (lineBreak level) :=
  .of_isPlain fun _ h => isPlain_of_isBlank (Reader.isBlank_of_mem_lineBreak h)

/-- Every number has a text without brackets and quotes, also a double that has no form in a document. -/
theorem encloses_number (n : Json.Number) : Encloses outside outside n.text.toList := by
  refine .of_isPlain fun ch hch => ?_
  cases n with
  | int n => exact isPlain_of_isNumeral (Number.isNumeral_of_mem_integerText hch)
  | float x =>
    by_cases hx : x.isFinite = true
    · exact isPlain_of_isNumeral (Number.FloatStyle.isNumeral_of_mem_text hx hch)
    · have hnull : Number.FloatStyle.document.text x = "null" := by
        rw [Number.FloatStyle.text]
        split
        · rfl
        · rw [if_pos (by simpa using hx)]
          rfl
      rw [Number.text, hnull] at hch
      exact isPlain_of_all (by decide) ch hch

mutual

/-- The text of a value closes what it opens. -/
theorem encloses_pretty (level : Nat) : (v : Json) →
    Encloses outside outside (prettyChars level v)
  | .null => show Encloses outside outside ['n', 'u', 'l', 'l'] from
    .of_isPlain (isPlain_of_all (by decide))
  | .bool true => show Encloses outside outside ['t', 'r', 'u', 'e'] from
    .of_isPlain (isPlain_of_all (by decide))
  | .bool false => show Encloses outside outside ['f', 'a', 'l', 's', 'e'] from
    .of_isPlain (isPlain_of_all (by decide))
  | .number n => encloses_number n
  | .string s => encloses_quote s
  | .array [] => .brackets (.inl rfl) (.inl rfl) (.nil outside)
  | .array (v :: rest) => by
    obtain ⟨body, htail, hbody⟩ := encloses_itemsTail level rest
    have hinner := (encloses_lineBreak (level + 1)).append
      ((encloses_pretty (level + 1) v).append hbody)
    have htext : prettyChars level (.array (v :: rest)) =
        '[' :: (lineBreak (level + 1) ++ (prettyChars (level + 1) v ++ body)) ++ [']'] := by
      simp [prettyChars, htail]
    exact htext ▸ hinner.brackets (.inl rfl) (.inl rfl)
  | .object ms => by
    obtain ⟨body, htext, hbody⟩ := encloses_object level ms
    exact htext ▸ hbody.brackets (.inr rfl) (.inr rfl)

/-- The text of an object stands between braces, and what is inside closes what it opens. -/
theorem encloses_object (level : Nat) : (ms : List (String × Json)) →
    ∃ body, prettyChars level (.object ms) = '\x7b' :: body ++ ['\x7d'] ∧
      Encloses outside outside body
  | [] => ⟨[], rfl, .nil outside⟩
  | (k, v) :: rest => by
    obtain ⟨body, htail, hbody⟩ := encloses_membersTail level rest
    refine ⟨lineBreak (level + 1) ++ (quote k ++ (':' :: ' ' ::
      (prettyChars (level + 1) v ++ body))), by simp [prettyChars, htail], ?_⟩
    exact (encloses_lineBreak (level + 1)).append ((encloses_quote k).append
      (.cons (.plain (by decide)) (.cons (.plain (by decide))
        ((encloses_pretty (level + 1) v).append hbody))))

/-- What follows the first item closes what it opens, up to the bracket of the array. -/
theorem encloses_itemsTail (level : Nat) : (vs : List Json) →
    ∃ body, prettyItemsTail level vs = body ++ [']'] ∧ Encloses outside outside body
  | [] => ⟨lineBreak level, rfl, encloses_lineBreak level⟩
  | v :: rest => by
    obtain ⟨body, htail, hbody⟩ := encloses_itemsTail level rest
    refine ⟨',' :: (lineBreak (level + 1) ++ (prettyChars (level + 1) v ++ body)),
      by simp [prettyItemsTail, htail], ?_⟩
    exact .cons (.plain (by decide)) ((encloses_lineBreak (level + 1)).append
      ((encloses_pretty (level + 1) v).append hbody))

/-- What follows the first member closes what it opens, up to the brace of the object. -/
theorem encloses_membersTail (level : Nat) : (ms : List (String × Json)) →
    ∃ body, prettyMembersTail level ms = body ++ ['\x7d'] ∧ Encloses outside outside body
  | [] => ⟨lineBreak level, rfl, encloses_lineBreak level⟩
  | (k, v) :: rest => by
    obtain ⟨body, htail, hbody⟩ := encloses_membersTail level rest
    refine ⟨',' :: (lineBreak (level + 1) ++ (quote k ++ (':' :: ' ' ::
      (prettyChars (level + 1) v ++ body)))), by simp [prettyMembersTail, htail], ?_⟩
    exact .cons (.plain (by decide)) ((encloses_lineBreak (level + 1)).append
      ((encloses_quote k).append (.cons (.plain (by decide)) (.cons (.plain (by decide))
        ((encloses_pretty (level + 1) v).append hbody)))))

end

/-- A text that begins as an object is printed, but stops short of its end, leaves a bracket open. -/
theorem open_of_isPrefix {ms : List (String × Json)} {level : Nat}
    (hcs : cs <+: prettyChars level (.object ms)) (hne : cs ≠ prettyChars level (.object ms))
    (hnil : cs ≠ []) : 0 < (through ⟨0, outside⟩ cs).depth := by
  obtain ⟨body, htext, hbody⟩ := encloses_object level ms
  rw [htext] at hcs hne
  exact hbody.lt_depth (.inr rfl) hcs hne hnil 0

end Scan

end VerbScript.Json
