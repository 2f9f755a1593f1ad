import VerbScript.Table

/-!
# Tables and their entries

A table is determined by what is found in it (`Table.ext_get?`), and it is put together from its
own entries (`Table.ofList_entries`).
-/

namespace VerbScript.Table

variable {β γ : Type}

theorem ext_entries {t u : Table β} (h : t.entries = u.entries) : t = u := by
  obtain ⟨es, hes⟩ := t
  obtain ⟨fs, hfs⟩ := u
  cases h
  rfl

theorem lookup_of_forall_lt {key : String} {entries : List (String × β)}
    (h : ∀ k ∈ entries.map (·.1), key < k) : lookup key entries = none :=
  lookup_eq_none fun hkey => String.lt_irrefl key (h key hkey)

/-- Sorted entries in which the same is found are the same. -/
theorem eq_of_lookup {es fs : List (String × β)} (hes : (es.map (·.1)).Pairwise (· < ·))
    (hfs : (fs.map (·.1)).Pairwise (· < ·)) (h : ∀ k, lookup k es = lookup k fs) : es = fs := by
  induction es generalizing fs with
  | nil =>
    cases fs with
    | nil => rfl
    | cons f fs => simpa [lookup] using h f.1
  | cons e es ih =>
    cases fs with
    | nil => simpa [lookup] using h e.1
    | cons f fs =>
      rw [List.map_cons, List.pairwise_cons] at hes hfs
      have hkey : e.1 = f.1 := by
        rcases Classical.em (e.1 < f.1) with hlt | hle
        · have hnone : lookup e.1 (f :: fs) = none := by
            rw [lookup_cons, if_neg (String.ne_of_lt hlt).symm]
            exact lookup_of_forall_lt fun k hk => String.lt_trans hlt (hfs.1 k hk)
          simp [← h, lookup_cons] at hnone
        · refine String.le_antisymm ?_ (String.not_lt.1 hle)
          refine String.not_lt.1 fun hlt => ?_
          have hnone : lookup f.1 (e :: es) = none := by
            rw [lookup_cons, if_neg (String.ne_of_lt hlt).symm]
            exact lookup_of_forall_lt fun k hk => String.lt_trans hlt (hes.1 k hk)
          simp [h, lookup_cons] at hnone
      have hvalue : e.2 = f.2 := by simpa [lookup_cons, hkey] using h f.1
      have htail (k : String) : lookup k es = lookup k fs := by
        rcases Classical.em (k = f.1) with rfl | hk
        · rw [lookup_of_forall_lt (hkey ▸ hes.1), lookup_of_forall_lt hfs.1]
        · simpa [lookup_cons, hkey, Ne.symm hk] using h k
      rw [Prod.ext hkey hvalue, ih hes.2 hfs.2 htail]

/-- Tables in which the same is found are the same. -/
theorem ext_get? {t u : Table β} (h : ∀ key, t.get? key = u.get? key) : t = u :=
  ext_entries (eq_of_lookup t.sorted u.sorted h)

theorem insertEntry_of_forall_lt {key : String} (v : β) {entries : List (String × β)}
    (h : ∀ k ∈ entries.map (·.1), k < key) : insertEntry key v entries = entries ++ [(key, v)] := by
  induction entries with
  | nil => rfl
  | cons e es ih =>
    simp only [List.map_cons, List.forall_mem_cons] at h
    rw [insertEntry, if_neg (String.ne_of_lt h.1).symm, if_neg (String.lt_asymm h.1), ih h.2]
    rfl

/-- Inserting entries behind those of a table puts them at its end. -/
theorem foldl_insert_entries (t : Table β) (es : List (String × β))
    (h : ((t.entries ++ es).map (·.1)).Pairwise (· < ·)) :
    (es.foldl (fun t e => t.insert e.1 e.2) t).entries = t.entries ++ es := by
  induction es generalizing t with
  | nil => exact (List.append_nil _).symm
  | cons e es ih =>
    have hlt : ∀ k ∈ t.entries.map (·.1), k < e.1 := by
      rw [List.map_append, List.pairwise_append] at h
      exact fun k hk => h.2.2 k hk e.1 (List.mem_cons_self ..)
    have hinsert : (t.insert e.1 e.2).entries = t.entries ++ [e] := insertEntry_of_forall_lt e.2 hlt
    rw [List.foldl_cons, ih, hinsert, List.append_assoc, List.singleton_append]
    rwa [hinsert, List.append_assoc, List.singleton_append]

/-- A table is put together from its entries. -/
theorem ofList_entries (t : Table β) : ofList t.entries = t :=
  ext_entries (foldl_insert_entries empty t.entries t.sorted)

/-- What is found in a table whose values were changed in place. -/
theorem get?_mapValues (f : String → β → γ) (t : Table β) (key : String) :
    (t.mapValues f).get? key = (t.get? key).map (f key) := by
  show lookup key (t.entries.map fun e => (e.1, f e.1 e.2)) = (lookup key t.entries).map (f key)
  induction t.entries with
  | nil => rfl
  | cons e es ih =>
    rw [List.map_cons, lookup_cons, lookup_cons, ih]
    by_cases h : e.1 = key
    · subst h
      rw [if_pos rfl, if_pos rfl]
      rfl
    · rw [if_neg h, if_neg h]

theorem nodup_keys (t : Table β) : (t.entries.map (·.1)).Nodup :=
  t.sorted.imp fun h => String.ne_of_lt h

/-- An entry is found under its key. -/
theorem get?_of_mem {t : Table β} {key : String} {v : β} (h : (key, v) ∈ t.entries) :
    t.get? key = some v := by
  have hsorted := t.sorted
  show lookup key t.entries = some v
  revert h hsorted
  induction t.entries with
  | nil => exact fun h => absurd h List.not_mem_nil
  | cons e es ih =>
    intro h hsorted
    rw [List.map_cons, List.pairwise_cons] at hsorted
    rw [lookup_cons]
    rcases List.mem_cons.1 h with rfl | h
    · exact if_pos rfl
    · have hlt := hsorted.1 key (List.mem_map_of_mem h)
      rw [if_neg (String.ne_of_lt hlt), ih h hsorted.2]

theorem mem_of_get? {t : Table β} {key : String} {v : β} (h : t.get? key = some v) :
    (key, v) ∈ t.entries := by
  obtain ⟨e, he, rfl⟩ := Option.map_eq_some_iff.1 h
  have hkey : e.1 = key := by simpa using List.find?_some he
  exact hkey ▸ List.mem_of_find?_eq_some he

end VerbScript.Table
