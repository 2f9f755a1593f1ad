import VerbScript.Json.Reader

/-!
# Documents with all their members

Of the members of an object that share a key, `Reader.value` keeps the last one only. `Reader.tree` keeps
every member in its place, and `Json.merged` does afterwards what `Reader.value` does at once: a value is
read exactly as a tree is, and with the failures of a tree (`Reader.value_eq_tree`, `parse_eq_tree?`).
-/

namespace VerbScript.Json

/-! ## Merging -/

mutual

/-- The document in which only the last of the members that share a key is left, at the place of the first.
-/
def merged : Json → Json
  | .array vs => .array (mergedItems vs)
  | .object ms => .object (mergedMembers [] ms)
  | v => v

/-- The items of an array, merged. -/
def mergedItems : List Json → List Json
  | [] => []
  | v :: rest => merged v :: mergedItems rest

/-- Members, merged into those that come before them. -/
def mergedMembers : List (String × Json) → List (String × Json) → List (String × Json)
  | before, [] => before
  | before, (key, v) :: rest => mergedMembers (put key (merged v) before) rest

end

theorem mergedItems_eq (vs : List Json) : mergedItems vs = vs.map merged := by
  induction vs with
  | nil => rfl
  | cons v rest ih => rw [mergedItems, ih, List.map_cons]

theorem mergedMembers_eq (before ms : List (String × Json)) :
    mergedMembers before ms = ms.foldl (fun all m => put m.1 (merged m.2) all) before := by
  induction ms generalizing before with
  | nil => rfl
  | cons m rest ih => exact ih _

theorem eq_int_of_merged {v : Json} {n : Int} (h : merged v = .int n) : v = .int n := by
  cases v with
  | number m => exact h
  | _ => cases h

/-- The values that stand under a key, in document order. -/
def valuesOf (key : String) (ms : List (String × Json)) : List Json :=
  (ms.filter fun m => m.1 = key).map (·.2)

@[simp] theorem valuesOf_nil (key : String) : valuesOf key [] = [] := rfl

theorem valuesOf_cons (key : String) (m : String × Json) (rest : List (String × Json)) :
    valuesOf key (m :: rest) = if m.1 = key then m.2 :: valuesOf key rest else valuesOf key rest := by
  by_cases h : m.1 = key
  · simp [valuesOf, h]
  · simp [valuesOf, h]

/-- Under a key stands the last of its values. -/
theorem lookup_mergedMembers (key : String) (before ms : List (String × Json)) :
    lookup key (mergedMembers before ms) =
      ((valuesOf key ms).getLast?.map merged).or (lookup key before) := by
  induction ms generalizing before with
  | nil => rfl
  | cons m rest ih =>
    obtain ⟨k, v⟩ := m
    rw [mergedMembers, ih, valuesOf_cons]
    by_cases hk : k = key
    · subst hk
      rw [if_pos rfl, lookup_put, List.getLast?_cons]
      cases (valuesOf k rest).getLast? with
      | none => rfl
      | some w => rfl
    · rw [if_neg hk, lookup_put_of_ne (Ne.symm hk)]

theorem filter_put (q : String → Bool) (key : String) (v : Json) (ms : List (String × Json)) :
    (put key v ms).filter (fun m => q m.1) =
      if q key then put key v (ms.filter fun m => q m.1) else ms.filter fun m => q m.1 := by
  induction ms with
  | nil => cases hq : q key <;> simp [put, hq]
  | cons m rest ih =>
    by_cases hkey : m.1 = key
    · subst hkey
      cases hq : q m.1 <;> simp [put, hq]
    · cases hm : q m.1
      · simp [put, hkey, hm, ih]
      · cases hq : q key <;> simp [put, hkey, hm, hq, ih]

/-- Merging the members with some of the keys leaves those with other keys out. -/
theorem filter_mergedMembers (q : String → Bool) (before ms : List (String × Json)) :
    (mergedMembers before ms).filter (fun m => q m.1) =
      mergedMembers (before.filter fun m => q m.1) (ms.filter fun m => q m.1) := by
  induction ms generalizing before with
  | nil => rfl
  | cons m rest ih =>
    obtain ⟨key, v⟩ := m
    rw [mergedMembers, ih, filter_put, List.filter_cons]
    cases hq : q key
    · rfl
    · rfl

/-! ## Reading trees -/

namespace Reader

variable {α β σ : Type}

/-- The members of an object up to its closing brace and past it, each in its place. -/
def pairsFrom (value : Reader β) (first : Bool) (c : Cursor) :
    Except Failure (Part (List (String × β)) c) :=
  match (nextKey first c).mapError (Failure.within .unknown) with
  | .error e => .error e
  | .ok none => .ok ⟨[], pastClose c, size_pastClose_le c⟩
  | .ok (some key) =>
    match valueOf key.value value key.next with
    | .error e => .error e
    | .ok t =>
      have shorter : t.next.size < c.size := Nat.lt_trans t.shorter key.shorter
      match pairsFrom value false t.next with
      | .error e => .error e
      | .ok p =>
        .ok ⟨(key.value, t.value) :: p.value, p.next, Nat.le_trans p.notLonger (Nat.le_of_lt shorter)⟩
termination_by c.size

/-- The members of an object, its opening brace being next. -/
def pairs (value : Reader β) : Reader (List (String × β)) := fun c =>
  match h : c.rest with
  | [] => .error (c.failHere .endInValue)
  | _ :: _ => (pairsFrom value true c.next).map fun p => p.scanned (c.size_next_lt h)

/-- A value with all the members of its objects, arrays and objects nested at most `depth` deep. -/
def tree : Nat → Reader Json
  | 0 => valueWith tooDeep tooDeep
  | depth + 1 => valueWith (map .array (items (tree depth))) (map .object (pairs (tree depth)))

/-! ## Values are merged trees -/

theorem map_map (f : α → β) (g : β → σ) (r : Reader α) : map g (map f r) = map (g ∘ f) r := by
  funext c
  rw [map, map, map]
  cases r c <;> rfl

theorem within_map (s : Segment) (f : α → β) (r : Reader α) : within s (map f r) = map f (within s r) := by
  funext c
  rw [within, map, map, within]
  cases r c <;> rfl

theorem spaced_map (f : α → β) (r : Reader α) : spaced (map f r) = map f (spaced r) := by
  funext c
  rw [spaced, map, map, spaced]
  cases r c.skipBlank <;> rfl

theorem valueOf_map (key : String) (f : α → β) (r : Reader α) :
    valueOf key (map f r) = map f (valueOf key r) := by
  funext c
  rw [valueOf, map, valueOf, within_map]
  cases colon c with
  | error e => rfl
  | ok s =>
    simp only [map]
    cases within (.key key) r s.next <;> rfl

theorem itemsFrom_map (f : α → β) (r : Reader α) (i : Nat) (c : Cursor) :
    itemsFrom (map f r) i c = (itemsFrom r i c).map (Part.map (List.map f)) := by
  fun_induction itemsFrom r i c with
  | case1 i c e hnext => rw [itemsFrom, hnext]; rfl
  | case2 i c hnext => rw [itemsFrom, hnext]; rfl
  | case3 i c a hnext e hitem =>
    rw [itemsFrom, hnext, within_map]
    simp only [map, hitem, Except.map]
  | case4 i c a hnext s hitem _ e hrest ih =>
    rw [itemsFrom, hnext, within_map]
    simp only [map, hitem, Except.map, Scanned.map, ih]
    rw [hrest]
  | case5 i c a hnext s hitem _ p hrest ih =>
    rw [itemsFrom, hnext, within_map]
    simp only [map, hitem, Except.map, Scanned.map, ih]
    rw [hrest]
    rfl

/-- Items are read alike, whatever is made of them. -/
theorem items_map (f : α → β) (r : Reader α) : items (map f r) = map (List.map f) (items r) := by
  funext c
  rw [map, items, items]
  split
  · rfl
  · rw [itemsFrom_map]
    cases itemsFrom r 0 c.next <;> rfl

theorem membersFrom_of_pairs (g : σ → String → α → σ) (r : Reader α) (first : Bool) (c : Cursor) (s : σ) :
    membersFrom (fun s key => valueOf key (map (g s key) r)) first s c =
      (pairsFrom r first c).map (Part.map fun ms => ms.foldl (fun s m => g s m.1 m.2) s) := by
  fun_induction pairsFrom r first c generalizing s with
  | case1 first c e hkey => rw [membersFrom, hkey]; rfl
  | case2 first c hkey => rw [membersFrom, hkey]; rfl
  | case3 first c key hkey e hvalue =>
    rw [membersFrom, hkey]
    simp only [valueOf_map, map, hvalue, Except.map]
  | case4 first c key hkey t hvalue _ e hrest ih =>
    rw [membersFrom, hkey]
    simp only [valueOf_map, map, hvalue, Except.map, Scanned.map] at ih ⊢
    rw [ih, hrest]
  | case5 first c key hkey t hvalue _ p hrest ih =>
    rw [membersFrom, hkey]
    simp only [valueOf_map, map, hvalue, Except.map, Scanned.map] at ih ⊢
    rw [ih, hrest]
    rfl

/-- Members are read alike, whatever is gathered of them. -/
theorem members_of_pairs (g : σ → String → α → σ) (r : Reader α) (s : σ) :
    members (fun s key => valueOf key (map (g s key) r)) s =
      map (fun ms => ms.foldl (fun s m => g s m.1 m.2) s) (pairs r) := by
  funext c
  obtain ⟨position, rest⟩ := c
  cases rest with
  | nil => rfl
  | cons ch rest =>
    show (membersFrom _ true s _).map _ = ((pairsFrom r true _).map _).map _
    rw [membersFrom_of_pairs]
    cases pairsFrom r true _ <;> rfl

/-- What is done to values that hold others can be done afterwards. -/
theorem valueWith_map {f : Json → Json} (array object : Reader Json) (hnull : f .null = .null)
    (hbool : ∀ b, f (.bool b) = .bool b) (hnumber : ∀ n, f (.number n) = .number n)
    (hstring : ∀ s, f (.string s) = .string s) :
    valueWith (map f array) (map f object) = map f (valueWith array object) := by
  have hconstant (w : List Char) {v : Json} (hv : f v = v) (c : Cursor) :
      (constant w v c).map (Scanned.map f) = constant w v c := by
    rw [constant]
    split
    · rfl
    · split
      · rfl
      · rw [Except.map, Scanned.map, hv]
  have hleaf {γ : Type} {g : γ → Json} (hg : ∀ x, f (g x) = g x) (r : Reader γ) (c : Cursor) :
      (map g r c).map (Scanned.map f) = map g r c := by
    show map f (map g r) c = _
    rw [map_map, show f ∘ g = g from funext hg]
  rw [valueWith, valueWith, ← spaced_map]
  congr 1
  funext c
  obtain ⟨position, rest⟩ := c
  cases rest with
  | nil => rfl
  | cons ch rest =>
    simp only [map.eq_def f fun _ => _, apply_ite (Except.map (Scanned.map f)), hconstant _ hnull,
      hconstant _ (hbool _), hleaf hnumber, hleaf hstring]
    rfl

/-- A value is read as a tree is, and merged. -/
theorem value_eq_tree (depth : Nat) : value depth = map merged (tree depth) := by
  have hwith (array object : Reader Json) :
      valueWith (map merged array) (map merged object) = map merged (valueWith array object) :=
    valueWith_map array object rfl (fun _ => rfl) (fun _ => rfl) fun _ => rfl
  induction depth with
  | zero =>
    have hdeep : map merged tooDeep = tooDeep := rfl
    rw [value, tree, ← hwith, hdeep]
  | succ depth ih =>
    have harray : map Json.array (items (value depth)) =
        map merged (map Json.array (items (tree depth))) := by
      rw [ih, items_map, map_map, map_map]
      congr 1
      funext vs
      exact congrArg Json.array (mergedItems_eq vs).symm
    have hobject : map Json.object (members (addMember (value depth)) []) =
        map merged (map Json.object (pairs (tree depth))) := by
      have hadd : addMember (value depth) = fun ms key =>
          valueOf key (map (fun v => put key (merged v) ms) (tree depth)) := by
        funext ms key
        rw [addMember, ih, map_map]
        rfl
      rw [hadd, members_of_pairs, map_map, map_map]
      congr 1
      funext ms
      exact congrArg Json.object (mergedMembers_eq [] ms).symm
    rw [value, tree, ← hwith, harray, hobject]

end Reader

/-- The document that a text holds with all its members, and nothing but blanks after it. -/
def tree? (s : String) : Except Failure Json :=
  match Reader.tree Reader.depthLimit (Cursor.start s) with
  | .error e => .error e
  | .ok v =>
    let c := v.next.skipBlank
    if c.rest.isEmpty then .ok v.value else .error (c.failNext .trailingCharacters)

/-- A text holds the merged document. -/
theorem parse_eq_tree? (s : String) : parse s = (tree? s).map merged := by
  rw [parse, tree?, Reader.value_eq_tree, Reader.map]
  cases Reader.tree Reader.depthLimit (Cursor.start s) with
  | error e => rfl
  | ok v =>
    simp only [Except.map, Scanned.map]
    split
    · rfl
    · rfl

end VerbScript.Json
