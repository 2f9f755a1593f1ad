/-!
# Tables keyed by text

A `Table` holds values under texts, at most one under each, in ascending order of the keys. Its
operations are described by what `get?` finds afterwards: `get?_insert`, `get?_erase` and
`get?_modify`.
-/

namespace VerbScript

/-- Values under texts, the keys in strictly ascending order. -/
structure Table (β : Type) where
  entries : List (String × β)
  sorted : (entries.map (·.1)).Pairwise (· < ·) := by simp

namespace Table

variable {β γ : Type}

instance : Inhabited (Table β) := ⟨⟨[], by simp⟩⟩

/-- The table without values. -/
def empty : Table β := default

/-- The keys in ascending order. -/
def keys (t : Table β) : List String := t.entries.map (·.1)

/-- The value under a key, in a list of entries. -/
def lookup (key : String) (entries : List (String × β)) : Option β :=
  (entries.find? fun e => e.1 == key).map (·.2)

/-- The value under a key. -/
def get? (t : Table β) (key : String) : Option β := lookup key t.entries

/-- Whether there is a value under a key. -/
def contains (t : Table β) (key : String) : Bool := (t.get? key).isSome

/-- The count of values. -/
def size (t : Table β) : Nat := t.entries.length

/-- `entries` with a value under `key`: in place of the one there, or at its place in the order. -/
def insertEntry (key : String) (v : β) : List (String × β) → List (String × β)
  | [] => [(key, v)]
  | e :: rest =>
    if key = e.1 then (key, v) :: rest
    else if key < e.1 then (key, v) :: e :: rest
    else e :: insertEntry key v rest

theorem mem_keys_insertEntry {key k : String} {v : β} {entries : List (String × β)} :
    k ∈ (insertEntry key v entries).map (·.1) ↔ k = key ∨ k ∈ entries.map (·.1) := by
  induction entries with
  | nil => simp [insertEntry]
  | cons e rest ih =>
    rw [insertEntry]
    split
    · next h => simp [h]
    · split
      · simp
      · simp only [List.map_cons, List.mem_cons, ih]
        grind

theorem sorted_insertEntry {key : String} {v : β} {entries : List (String × β)}
    (h : (entries.map (·.1)).Pairwise (· < ·)) :
    ((insertEntry key v entries).map (·.1)).Pairwise (· < ·) := by
  induction entries with
  | nil => simp [insertEntry]
  | cons e rest ih =>
    rw [List.map_cons, List.pairwise_cons] at h
    rw [insertEntry]
    split
    · next he => simpa [he] using h
    · next hne =>
      split
      · next hlt =>
        simp only [List.map_cons, List.pairwise_cons, List.mem_cons]
        refine ⟨fun k hk => ?_, h.1, h.2⟩
        rcases hk with rfl | hk
        · exact hlt
        · exact String.lt_trans hlt (h.1 k hk)
      · next hlt =>
        simp only [List.map_cons, List.pairwise_cons]
        refine ⟨fun k hk => ?_, ih h.2⟩
        rcases mem_keys_insertEntry.1 hk with rfl | hk
        · rcases Classical.em (e.1 < k) with hl | hl
          · exact hl
          · exact absurd (String.le_antisymm (String.not_lt.1 hl) (String.not_lt.1 hlt)) hne
        · exact h.1 k hk

/-- The table with a value under `key`. -/
def insert (t : Table β) (key : String) (v : β) : Table β :=
  ⟨insertEntry key v t.entries, sorted_insertEntry t.sorted⟩

/-- The table without a value under `key`. -/
def erase (t : Table β) (key : String) : Table β :=
  ⟨t.entries.filter fun e => e.1 != key,
    List.Pairwise.sublist (List.filter_sublist.map _) t.sorted⟩

/-- The table with its values changed in place. -/
def mapValues (f : String → β → γ) (t : Table β) : Table γ :=
  ⟨t.entries.map fun e => (e.1, f e.1 e.2), by
    simpa only [List.map_map, Function.comp_def] using t.sorted⟩

/-- The table with the value under `key`, if there is one, changed in place. -/
def modify (t : Table β) (key : String) (f : β → β) : Table β :=
  t.mapValues fun k v => if k = key then f v else v

/-- The table of some entries, the last value of a key counting. -/
def ofList (entries : List (String × β)) : Table β :=
  entries.foldl (fun t e => t.insert e.1 e.2) empty

theorem lookup_cons (key : String) (e : String × β) (rest : List (String × β)) :
    lookup key (e :: rest) = if e.1 = key then some e.2 else lookup key rest := by
  by_cases h : e.1 = key <;> simp [lookup, h]

@[simp] theorem get?_empty (key : String) : (empty : Table β).get? key = none := rfl

theorem lookup_eq_none {key : String} {entries : List (String × β)}
    (h : key ∉ entries.map (·.1)) : lookup key entries = none := by
  induction entries with
  | nil => rfl
  | cons e rest ih =>
    simp only [List.map_cons, List.mem_cons, not_or] at h
    rw [lookup_cons, if_neg (fun he => h.1 he.symm), ih h.2]

/-- After an insertion its key has the new value and every other key what it had. -/
theorem get?_insert (t : Table β) (key k : String) (v : β) :
    (t.insert key v).get? k = if k = key then some v else t.get? k := by
  show lookup k (insertEntry key v t.entries) = if k = key then some v else lookup k t.entries
  induction t.entries with
  | nil => grind [insertEntry, lookup_cons, lookup]
  | cons e rest ih => grind [insertEntry, lookup_cons]

@[simp] theorem get?_insert_self (t : Table β) (key : String) (v : β) :
    (t.insert key v).get? key = some v := by simp [get?_insert]

theorem get?_insert_of_ne (t : Table β) {key k : String} (h : k ≠ key) (v : β) :
    (t.insert key v).get? k = t.get? k := by simp [get?_insert, h]

/-- After a removal its key has no value and every other key what it had. -/
theorem get?_erase (t : Table β) (key k : String) :
    (t.erase key).get? k = if k = key then none else t.get? k := by
  show lookup k (t.entries.filter fun e => e.1 != key) =
    if k = key then none else lookup k t.entries
  induction t.entries with
  | nil => simp [lookup]
  | cons e rest ih => grind [lookup_cons]

/-- After a change in place its key has the changed value, if it had one, and every other key what
it had. -/
theorem get?_modify (t : Table β) (key k : String) (f : β → β) :
    (t.modify key f).get? k = if k = key then (t.get? k).map f else t.get? k := by
  show lookup k (t.entries.map fun e => (e.1, if e.1 = key then f e.2 else e.2)) =
    if k = key then (lookup k t.entries).map f else lookup k t.entries
  induction t.entries with
  | nil => simp [lookup]
  | cons e rest ih => grind [lookup_cons]

end Table

end VerbScript
