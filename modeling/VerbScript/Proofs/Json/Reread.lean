import VerbScript.Proofs.Json.Decodes
import VerbScript.Proofs.Json.Extent
import VerbScript.Proofs.Json.Pretty

/-!
# Reading what was printed, whatever its numbers are read as

A printed tree is read as itself where all its numbers read back (`Readable.reads_pretty`). Where they may
not, it is read as a tree that differs from it in its numbers only, or one of them is not read, and the
reading fails at its place (`Printable.rereads_tree`). An integer is not read as another one.
-/

namespace VerbScript.Json

mutual

/-- What a printed value may be read as. -/
inductive Reread : Json → Json → Prop where
  | null : Reread .null .null
  | bool (b : Bool) : Reread (.bool b) (.bool b)
  | number {n m : Number} (h : ∀ i k, n = .int i → m = .int k → k = i) : Reread (.number n) (.number m)
  | string (s : String) : Reread (.string s) (.string s)
  | array {vs ws : List Json} (h : List.Forall₂ Reread vs ws) : Reread (.array vs) (.array ws)
  | object {ms ns : List (String × Json)} (h : List.Forall₂ RereadMember ms ns) :
      Reread (.object ms) (.object ns)

/-- What a member of a printed object may be read as. -/
inductive RereadMember : String × Json → String × Json → Prop where
  | mk (key : String) {v w : Json} (h : Reread v w) : RereadMember (key, v) (key, w)

end

/-- A value of which every number has a text, with no key twice in an object, in which arrays and objects are
nested at most as deep as the first argument says. -/
inductive Printable : Nat → Json → Prop where
  | null (depth : Nat) : Printable depth .null
  | bool (depth : Nat) (b : Bool) : Printable depth (.bool b)
  | number (depth : Nat) {n : Number} (hn : ∀ x, n = .float x → x.isFinite = true) :
      Printable depth (.number n)
  | string (depth : Nat) (s : String) : Printable depth (.string s)
  | array {depth : Nat} {vs : List Json} (hvs : ∀ v ∈ vs, Printable depth v) :
      Printable (depth + 1) (.array vs)
  | object {depth : Nat} {ms : List (String × Json)} (hkeys : (ms.map (·.1)).Nodup)
      (hms : ∀ m ∈ ms, Printable depth m.2) : Printable (depth + 1) (.object ms)

namespace Printable

theorem int (depth : Nat) (n : Int) : Printable depth (.int n) := .number depth nofun

theorem ofFloat (depth : Nat) (x : Float) : Printable depth (.ofFloat x) := by
  rw [Json.ofFloat]
  split
  · next hx => exact .number depth fun _ hy => Number.float.inj hy ▸ hx
  · exact .null depth

end Printable

/-- The places of the numbers of a value. -/
inductive NumberAt : Json → Place → Prop where
  | number (n : Number) : NumberAt (.number n) []
  | item {vs : List Json} {v : Json} {p : Place} (i : Nat) (hv : v ∈ vs) (hp : NumberAt v p) :
      NumberAt (.array vs) (.index i :: p)
  | member {ms : List (String × Json)} {m : String × Json} {p : Place} (hm : m ∈ ms)
      (hp : NumberAt m.2 p) : NumberAt (.object ms) (.key m.1 :: p)

/-- A number of an object is in one of its members. -/
theorem NumberAt.exists_member {ms : List (String × Json)} {key : String} {p : Place}
    (h : NumberAt (.object ms) (.key key :: p)) : ∃ v, (key, v) ∈ ms ∧ NumberAt v p := by
  generalize hplace : (.key key :: p : Place) = place at h
  cases h with
  | member hm hp =>
    cases hplace
    exact ⟨_, hm, hp⟩

namespace Reader

variable {α β : Type} {P : α → Prop} {Q : Place → Prop} {c : Cursor} {rest : List Char} {depth level : Nat}

/-! ## Values without parts -/

theorem Reads.yields {r : Reader α} {cs : List Char} {x : α} (h : Reads r cs x) (hx : P x)
    (hc : c.rest = cs ++ rest) (hrest : Ends rest) : Yields P Q rest (out r c) := by
  obtain ⟨s, hs, rfl, hnext⟩ := h.at hc hrest
  rw [out, hs]
  exact .read hx hnext

theorem ReadsSpaced.yields {r : Reader α} {cs : List Char} {x : α} (h : ReadsSpaced r cs x) (hx : P x)
    (hc : c.skipBlank.rest = cs ++ rest) (hrest : Ends rest) : Yields P Q rest (out r c) := by
  have hblanks : ∀ ch ∈ c.rest.takeWhile Cursor.isBlank, Cursor.isBlank ch = true := fun _ =>
    List.mem_takeWhile_imp
  have hsplit : c.rest = (c.rest.takeWhile Cursor.isBlank ++ cs) ++ rest := by
    rw [List.append_assoc, ← hc]
    exact List.takeWhile_append_dropWhile.symm
  exact (h _ hblanks).yields hx hsplit hrest

theorem exists_tree (depth : Nat) : ∃ array object, tree depth = valueWith array object := by
  cases depth with
  | zero => exact ⟨_, _, rfl⟩
  | succ depth => exact ⟨_, _, rfl⟩

theorem ne_of_isNumeral {ch x : Char} (h : Number.isNumeral ch = true)
    (hx : Number.isNumeral x = false) : ch ≠ x := by
  rintro rfl
  exact Bool.false_ne_true (hx.symm.trans h)

theorem opens_of_isNumeral {ch : Char} (h : Number.isNumeral ch = true) (tail : List Char) :
    Opens (ch :: tail) := by
  refine ⟨ch, tail, rfl, ?_, ne_of_isNumeral h rfl, ne_of_isNumeral h rfl⟩
  cases hb : Cursor.isBlank ch with
  | false => rfl
  | true =>
    simp only [Cursor.isBlank, Bool.or_eq_true, decide_eq_true_eq] at hb
    rcases hb with ((rfl | rfl) | rfl) | rfl
    all_goals cases h

/-- What is written like a number is read as one, or nothing is read. -/
theorem yields_tree_of_isNumeral {R : Number → Prop} {text : List Char} (hne : text ≠ [])
    (htext : ∀ ch ∈ text, Number.isNumeral ch = true) (hread : ReadsOrFails number text R (· = []))
    (hc : c.skipBlank.rest = text ++ rest) (hrest : Ends rest) :
    Yields (fun v => ∃ n, v = .number n ∧ R n) (· = []) rest (out (tree depth) c) := by
  obtain ⟨ch, tail, rfl⟩ := List.exists_cons_of_ne_nil hne
  have hch := htext ch List.mem_cons_self
  by_cases hopens : opensNumber ch = true
  · have hhead : c.skipBlank.rest.head?.any opensNumber = true := by
      rw [hc]
      exact hopens
    rw [tree_number hhead]
    have hnumber := hread c.skipBlank.position rest hrest
    rw [← hc] at hnumber
    exact hnumber.map fun n hn => ⟨n, rfl, hn⟩
  · -- No value begins like that.
    have hne (x : Char) (hx : Number.isNumeral x = false) : ch ≠ x := ne_of_isNumeral hch hx
    obtain ⟨array, object, hvalue⟩ := exists_tree depth
    have hfails : out (tree depth) c = .error (c.skipBlank.failNext .valueExpected) := by
      rw [hvalue, valueWith, out_spaced, out, hc]
      simp only [List.cons_append, if_neg (hne 'n' rfl), if_neg (hne 't' rfl), if_neg (hne 'f' rfl),
        if_neg hopens, if_neg (hne '"' rfl), if_neg (hne '[' rfl), if_neg (hne '\x7b' rfl)]
      rfl
    rw [hfails]
    exact .failed rfl

/-- A number that has a text is read as a number, and an integer not as another one. -/
theorem yields_tree_number {n : Number} (hn : ∀ x, n = .float x → x.isFinite = true)
    (hc : c.skipBlank.rest = n.text.toList ++ rest) (hrest : Ends rest) :
    Yields (Reread (.number n)) (NumberAt (.number n)) rest (out (tree depth) c) := by
  have hnumber {R : Number → Prop} (hread : ReadsOrFails number n.text.toList R (· = []))
      (hne : n.text.toList ≠ []) (htext : ∀ ch ∈ n.text.toList, Number.isNumeral ch = true)
      (hR : ∀ m, R m → ∀ i k, n = .int i → m = .int k → k = i) :
      Yields (Reread (.number n)) (NumberAt (.number n)) rest (out (tree depth) c) := by
    refine (yields_tree_of_isNumeral hne htext hread hc hrest).mono ?_ ?_
    · rintro _ ⟨m, rfl, hm⟩
      exact .number (hR m hm)
    · rintro _ rfl
      exact .number n
  cases n with
  | int i =>
    refine hnumber (number_integerText i) (integerText_ne_nil i)
      (fun _ => Number.isNumeral_of_mem_integerText) fun m hm j k hj hk => ?_
    cases hj
    exact hm k hk
  | float x =>
    have hx := hn x rfl
    exact hnumber (number_floatText hx) (floatText_ne_nil hx)
      (fun _ => Number.FloatStyle.isNumeral_of_mem_text hx) fun _ _ _ _ => nofun

theorem opens_numberText {n : Number} (hn : ∀ x, n = .float x → x.isFinite = true) :
    Opens n.text.toList := by
  have hopens {text : List Char} (hne : text ≠ []) (htext : ∀ ch ∈ text, Number.isNumeral ch = true) :
      Opens text := by
    obtain ⟨ch, tail, rfl⟩ := List.exists_cons_of_ne_nil hne
    exact opens_of_isNumeral (htext ch List.mem_cons_self) tail
  cases n with
  | int i => exact hopens (integerText_ne_nil i) fun _ => Number.isNumeral_of_mem_integerText
  | float x =>
    have hx := hn x rfl
    exact hopens (floatText_ne_nil hx) fun _ => Number.FloatStyle.isNumeral_of_mem_text hx

/-! ## Items and members -/

/-- Wherever the printed value stands, behind blanks or not, `r` reads something of which `P` holds, or it
fails at a place of which `Q` holds. -/
def Rereads (r : Reader α) (level : Nat) (v : Json) (P : α → Prop) (Q : Place → Prop) : Prop :=
  ∀ (c : Cursor) (rest : List Char), c.skipBlank.rest = prettyChars level v ++ rest → Ends rest →
    Yields P Q rest (out r c)

/-- A place in one of the items. -/
def InItem (Q : Json → Place → Prop) (vs : List Json) (p : Place) : Prop :=
  ∃ i q, ∃ v ∈ vs, p = .index i :: q ∧ Q v q

/-- A place in one of the members. -/
def InMember (Q : Json → Place → Prop) (ms : List (String × Json)) (p : Place) : Prop :=
  ∃ q, ∃ m ∈ ms, p = .key m.1 :: q ∧ Q m.2 q

theorem InItem.cons {Q : Json → Place → Prop} {vs : List Json} {p : Place} (h : InItem Q vs p) (v : Json) :
    InItem Q (v :: vs) p := by
  obtain ⟨i, q, w, hw, hp⟩ := h
  exact ⟨i, q, w, List.mem_cons_of_mem v hw, hp⟩

theorem InMember.cons {Q : Json → Place → Prop} {ms : List (String × Json)} {p : Place}
    (h : InMember Q ms p) (m : String × Json) : InMember Q (m :: ms) p := by
  obtain ⟨q, n, hn, hp⟩ := h
  exact ⟨q, n, List.mem_cons_of_mem m hn, hp⟩

theorem out_colon {cs : List Char} (hc : c.rest = ':' :: cs) : ∃ d, out colon c = .ok ((), d) ∧ d.rest = cs := by
  have hskip : c.skipBlank.rest = ':' :: cs := skipBlank_of_rest (List.forall_mem_nil _) rfl hc
  refine ⟨c.skipBlank.next, ?_, next_rest hskip⟩
  rw [out, colon]
  split
  · next hnil => simp [hskip] at hnil
  · next ch tail hcons =>
    rw [hskip] at hcons
    cases hcons
    rfl

section

variable {r : Reader α} {R : Json → α → Prop} {S : Json → Place → Prop} {vs : List Json}
  {ms : List (String × Json)}

/-- An item is read, and then the items after it. -/
theorem yields_itemsFrom_cons {v : Json} {i : Nat} {a : Ahead c} (hnext : nextItem i c = .ok (some a))
    (hopens : Opens (prettyChars (level + 1) v)) (hv : Rereads r (level + 1) v (R v) (S v))
    (ha : a.cursor.rest = prettyChars (level + 1) v ++ (prettyItemsTail level vs ++ rest))
    (htail : ∀ d : Cursor, d.rest = prettyItemsTail level vs ++ rest →
      Yields (List.Forall₂ R vs) (InItem S vs) rest ((itemsFrom r (i + 1) d).map Part.pair)) :
    Yields (List.Forall₂ R (v :: vs)) (InItem S (v :: vs)) rest ((itemsFrom r i c).map Part.pair) := by
  have hskip : a.cursor.skipBlank.rest = prettyChars (level + 1) v ++ (prettyItemsTail level vs ++ rest) := by
    obtain ⟨ch, tail, hcs, hch, -⟩ := hopens
    rw [hcs] at ha ⊢
    exact skipBlank_of_rest (List.forall_mem_nil _) hch ha
  rw [itemsFrom_of_next hnext, out_within]
  have hitem := hv a.cursor _ hskip (ends_itemsTail level vs rest)
  refine (hitem.within (S := InItem S (v :: vs)) (s := .index i) fun q hq =>
    ⟨i, q, v, List.mem_cons_self, rfl, hq⟩).bind fun x d hx hd => ?_
  exact ((htail d hd).map fun xs hxs => List.Forall₂.cons hx hxs).mono (fun _ h => h)
    fun _ h => h.cons v

/-- The items after the first are read up to the closing bracket. -/
theorem yields_itemsTail (hopens : ∀ v ∈ vs, Opens (prettyChars (level + 1) v))
    (h : ∀ v ∈ vs, Rereads r (level + 1) v (R v) (S v)) {i : Nat} (hi : i ≠ 0)
    (hc : c.rest = prettyItemsTail level vs ++ rest) :
    Yields (List.Forall₂ R vs) (InItem S vs) rest ((itemsFrom r i c).map Part.pair) := by
  induction vs generalizing i c with
  | nil =>
    have hb : ∀ ch ∈ lineBreak level, Cursor.isBlank ch = true := fun _ => isBlank_of_mem_lineBreak
    rw [prettyItemsTail, List.append_assoc] at hc
    rw [itemsFrom_none (nextItem_close i hb hc)]
    exact .read .nil (next_rest (skipBlank_of_rest hb rfl hc))
  | cons v vs ih =>
    obtain ⟨hv, hvs⟩ := List.forall_mem_cons.1 h
    obtain ⟨hopen, hopens⟩ := List.forall_mem_cons.1 hopens
    rw [prettyItemsTail] at hc
    simp only [List.cons_append, List.append_assoc] at hc
    obtain ⟨a, ha, harest⟩ := nextItem_comma hi (fun _ => isBlank_of_mem_lineBreak) (hopen.append _) hc
    exact yields_itemsFrom_cons ha hopen hv harest fun d hd => ih hopens hvs (Nat.succ_ne_zero i) hd

/-- The items of a printed array are read from behind its opening bracket. -/
theorem yields_items (hopens : ∀ v ∈ vs, Opens (prettyChars (level + 1) v))
    (h : ∀ v ∈ vs, Rereads r (level + 1) v (R v) (S v))
    (hc : c.rest = prettyChars level (.array vs) ++ rest) :
    Yields (List.Forall₂ R vs) (InItem S vs) rest (out (items r) c) := by
  obtain ⟨p, cs⟩ := c
  cases vs with
  | nil =>
    obtain rfl : cs = '[' :: ']' :: rest := hc
    have hclose : Cursor.rest ⟨p.after '[', ']' :: rest⟩ = [] ++ ']' :: rest := rfl
    rw [out_items, itemsFrom_none (nextItem_close 0 (List.forall_mem_nil _) hclose)]
    exact .read .nil (next_rest (skipBlank_of_rest (List.forall_mem_nil _) rfl hclose))
  | cons v vs =>
    obtain ⟨hv, hvs⟩ := List.forall_mem_cons.1 h
    obtain ⟨hopen, hopens⟩ := List.forall_mem_cons.1 hopens
    rw [prettyChars] at hc
    simp only [List.cons_append, List.append_assoc] at hc
    obtain rfl := hc
    have hfirst : Cursor.rest ⟨p.after '[', lineBreak (level + 1) ++ (prettyChars (level + 1) v ++
        (prettyItemsTail level vs ++ rest))⟩ = _ := rfl
    obtain ⟨a, ha, harest⟩ := nextItem_first (fun _ => isBlank_of_mem_lineBreak) (hopen.append _) hfirst
    rw [out_items]
    exact yields_itemsFrom_cons ha hopen hv harest fun d hd =>
      yields_itemsTail hopens hvs (Nat.succ_ne_zero 0) hd

theorem pairsFrom_none {first : Bool} (h : nextMember first c = .ok none) :
    pairsFrom r first c = .ok ⟨[], pastClose c, size_pastClose_le c⟩ := by
  rw [pairsFrom, nextKey, h]
  rfl

/-- What is read off the members of an object, key by key. -/
def RereadPairs (R : Json → α → Prop) : List (String × Json) → List (String × α) → Prop :=
  List.Forall₂ fun m x => m.1 = x.1 ∧ R m.2 x.2

/-- A member is read, and then the members after it. -/
theorem yields_pairsFrom_cons {m : String × Json} {first : Bool} {a : Ahead c}
    (hnext : nextMember first c = .ok (some a)) (hopens : Opens (prettyChars (level + 1) m.2))
    (hm : Rereads r (level + 1) m.2 (R m.2) (S m.2))
    (ha : a.cursor.rest =
      quote m.1 ++ ':' :: ' ' :: (prettyChars (level + 1) m.2 ++ (prettyMembersTail level ms ++ rest)))
    (htail : ∀ d : Cursor, d.rest = prettyMembersTail level ms ++ rest →
      Yields (RereadPairs R ms) (InMember S ms) rest ((pairsFrom r false d).map Part.pair)) :
    Yields (RereadPairs R (m :: ms)) (InMember S (m :: ms)) rest ((pairsFrom r first c).map Part.pair) := by
  obtain ⟨key, hkey, hvalue, hkrest⟩ := nextKey_some hnext ha (ends_cons.2 rfl)
  obtain ⟨d, hcolon, hd⟩ := out_colon hkrest
  have hskip : d.skipBlank.rest = prettyChars (level + 1) m.2 ++ (prettyMembersTail level ms ++ rest) := by
    obtain ⟨ch, tail, hcs, hch, -⟩ := hopens
    rw [hcs] at hd ⊢
    have hb : ∀ ch ∈ [' '], Cursor.isBlank ch = true := List.forall_mem_singleton.2 rfl
    exact skipBlank_of_rest hb hch hd
  have hkey : (nextKey first c).mapError (Failure.within .unknown) = .ok (some key) := by
    rw [hkey]
    rfl
  rw [pairsFrom_of_key hkey, out_valueOf, hcolon, hvalue]
  have hmember := hm d _ hskip (ends_membersTail level ms rest)
  refine (hmember.within (S := InMember S (m :: ms)) (s := .key m.1) fun q hq =>
    ⟨q, m, List.mem_cons_self, rfl, hq⟩).bind fun x e hx he => ?_
  exact ((htail e he).map fun xs hxs => List.Forall₂.cons ⟨rfl, hx⟩ hxs).mono (fun _ h => h)
    fun _ h => h.cons m

/-- The members after the first are read up to the closing brace. -/
theorem yields_membersTail (hopens : ∀ m ∈ ms, Opens (prettyChars (level + 1) m.2))
    (h : ∀ m ∈ ms, Rereads r (level + 1) m.2 (R m.2) (S m.2))
    (hc : c.rest = prettyMembersTail level ms ++ rest) :
    Yields (RereadPairs R ms) (InMember S ms) rest ((pairsFrom r false c).map Part.pair) := by
  induction ms generalizing c with
  | nil =>
    have hb : ∀ ch ∈ lineBreak level, Cursor.isBlank ch = true := fun _ => isBlank_of_mem_lineBreak
    rw [prettyMembersTail, List.append_assoc] at hc
    rw [pairsFrom_none (nextMember_close false hb hc)]
    exact .read .nil (next_rest (skipBlank_of_rest hb rfl hc))
  | cons m ms ih =>
    obtain ⟨hm, hms⟩ := List.forall_mem_cons.1 h
    obtain ⟨hopen, hopens⟩ := List.forall_mem_cons.1 hopens
    rw [prettyMembersTail] at hc
    simp only [List.cons_append, List.append_assoc] at hc
    obtain ⟨a, ha, harest⟩ := nextMember_comma (fun _ => isBlank_of_mem_lineBreak) hc
    exact yields_pairsFrom_cons ha hopen hm harest fun d hd => ih hopens hms hd

/-- The members of a printed object are read from behind its opening brace. -/
theorem yields_pairs (hopens : ∀ m ∈ ms, Opens (prettyChars (level + 1) m.2))
    (h : ∀ m ∈ ms, Rereads r (level + 1) m.2 (R m.2) (S m.2))
    (hc : c.rest = prettyChars level (.object ms) ++ rest) :
    Yields (RereadPairs R ms) (InMember S ms) rest (out (pairs r) c) := by
  obtain ⟨p, cs⟩ := c
  cases ms with
  | nil =>
    obtain rfl : cs = '\x7b' :: '\x7d' :: rest := hc
    have hclose : Cursor.rest ⟨p.after '\x7b', '\x7d' :: rest⟩ = [] ++ '\x7d' :: rest := rfl
    rw [out_pairs, pairsFrom_none (nextMember_close true (List.forall_mem_nil _) hclose)]
    exact .read .nil (next_rest (skipBlank_of_rest (List.forall_mem_nil _) rfl hclose))
  | cons m ms =>
    obtain ⟨hm, hms⟩ := List.forall_mem_cons.1 h
    obtain ⟨hopen, hopens⟩ := List.forall_mem_cons.1 hopens
    rw [prettyChars] at hc
    simp only [List.cons_append, List.append_assoc] at hc
    obtain rfl := hc
    have hfirst : Cursor.rest ⟨p.after '\x7b', lineBreak (level + 1) ++ (quote m.1 ++ ':' :: ' ' ::
        (prettyChars (level + 1) m.2 ++ (prettyMembersTail level ms ++ rest)))⟩ = _ := rfl
    obtain ⟨a, ha, harest⟩ := nextMember_first (fun _ => isBlank_of_mem_lineBreak) hfirst
    rw [out_pairs]
    exact yields_pairsFrom_cons ha hopen hm harest fun d hd => yields_membersTail hopens hms hd

end

end Reader

/-! ## Trees -/

theorem map_fst_of_reread {ms ns : List (String × Json)} (h : List.Forall₂ RereadMember ms ns) :
    ns.map (·.1) = ms.map (·.1) := by
  induction h with
  | nil => rfl
  | cons hm _ ih =>
    cases hm
    rw [List.map_cons, List.map_cons, ih]

/-- Nothing is merged where no key comes twice. -/
theorem mergedMembers_of_nodup {before ms : List (String × Json)}
    (hkeys : ((before ++ ms).map (·.1)).Nodup) :
    mergedMembers before ms = before ++ ms.map fun m => (m.1, merged m.2) := by
  induction ms generalizing before with
  | nil => exact (List.append_nil before).symm
  | cons m ms ih =>
    have hkey : m.1 ∉ before.map (·.1) := fun h => by
      simp only [List.map_append, List.map_cons, List.nodup_append, List.mem_cons] at hkeys
      exact hkeys.2.2 m.1 h m.1 (.inl rfl) rfl
    have hnext : (((before ++ [(m.1, merged m.2)]) ++ ms).map (·.1)).Nodup := by
      simpa using hkeys
    rw [mergedMembers, put_of_not_mem hkey, ih hnext, List.append_assoc]
    rfl

namespace Printable

open Reader (Yields Rereads Ends out tree)

variable {depth : Nat} {v : Json}

theorem opens (h : Printable depth v) (level : Nat) : Reader.Opens (prettyChars level v) := by
  refine opens_prettyChars (fun n hn => ?_) level
  cases h with
  | number _ htext =>
    cases hn
    exact Reader.opens_numberText htext
  | _ => cases hn

/-- A printed tree is read as a tree that differs from it in its numbers only, or the reading fails at the
place of one of them. -/
theorem rereads_tree (h : Printable depth v) (level : Nat) :
    Rereads (tree depth) level v (Reread v) (NumberAt v) := by
  induction h generalizing level with
  | null depth =>
    intro c rest hc hrest
    obtain ⟨_, _, htree⟩ := Reader.exists_tree depth
    exact htree ▸ (Reader.reads_null level).yields .null hc hrest
  | bool depth b =>
    intro c rest hc hrest
    obtain ⟨_, _, htree⟩ := Reader.exists_tree depth
    exact htree ▸ (Reader.reads_bool level b).yields (.bool b) hc hrest
  | number depth htext => exact fun c rest hc hrest => Reader.yields_tree_number htext hc hrest
  | string depth s =>
    intro c rest hc hrest
    obtain ⟨_, _, htree⟩ := Reader.exists_tree depth
    exact htree ▸ (Reader.reads_string level s).yields (.string s) hc hrest
  | @array depth vs hvs ih =>
    intro c rest hc hrest
    have hopen : c.skipBlank.rest.head? = some '[' := by
      obtain ⟨tail, htail⟩ := prettyChars_array level vs
      rw [hc, htail]
      rfl
    rw [Reader.tree_array hopen]
    have hitems := Reader.yields_items (fun v hv => (hvs v hv).opens (level + 1))
      (fun v hv => ih v hv (level + 1)) hc
    refine (hitems.map fun ws hws => Reread.array hws).mono (fun _ h => h) ?_
    rintro _ ⟨i, q, w, hw, rfl, hq⟩
    exact .item i hw hq
  | @object depth ms _ hms ih =>
    intro c rest hc hrest
    have hopen : c.skipBlank.rest.head? = some '\x7b' := by
      obtain ⟨tail, htail⟩ := prettyChars_object level ms
      rw [hc, htail]
      rfl
    rw [Reader.tree_object hopen]
    have hpairs := Reader.yields_pairs (fun m hm => (hms m hm).opens (level + 1))
      (fun m hm => ih m hm (level + 1)) hc
    refine (hpairs.map fun ns hns => Reread.object (hns.imp ?_)).mono (fun _ h => h) ?_
    · rintro ⟨key, w⟩ ⟨_, w'⟩ ⟨rfl, hw⟩
      exact .mk key hw
    · rintro _ ⟨q, m, hm, rfl, hq⟩
      exact .member hm hq

/-- Where a value may be read as a tree, it may also be read as the document that the tree is merged to. -/
theorem reread_merged (h : Printable depth v) {w : Json} (hw : Reread v w) : Reread v (merged w) := by
  induction h generalizing w with
  | null =>
    cases hw
    exact .null
  | bool _ b =>
    cases hw
    exact .bool b
  | number =>
    cases hw with
    | number h => exact .number h
  | string _ s =>
    cases hw
    exact .string s
  | array _ ih =>
    cases hw with
    | array hall =>
      rw [merged, mergedItems_eq]
      refine .array (List.forall₂_map_right_iff.2 ?_)
      refine ((List.forall₂_and_left _ _).2 ⟨ih, hall⟩).imp ?_
      rintro v w ⟨hv, hw⟩
      exact hv hw
  | object hkeys _ ih =>
    cases hw with
    | @object _ ns hall =>
      have hkeys : (([] ++ ns : List (String × Json)).map (·.1)).Nodup := map_fst_of_reread hall ▸ hkeys
      rw [merged, mergedMembers_of_nodup hkeys, List.nil_append]
      refine .object (List.forall₂_map_right_iff.2 ?_)
      refine ((List.forall₂_and_left _ _).2 ⟨ih, hall⟩).imp ?_
      rintro _ _ ⟨hm, hread⟩
      cases hread with
      | mk key hread => exact .mk key (hm hread)

end Printable

end VerbScript.Json
