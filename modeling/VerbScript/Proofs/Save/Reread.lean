import VerbScript.Proofs.Json.Reread
import VerbScript.Proofs.Save.Parts

/-!
# Saves whose numbers may not read back

If the text of a save is read at all, the parts that are read off it differ from those it was written from in
their numbers only (`Save.reread_of_read?`). A limit cannot have been passed over on the way, as no number
stands where the host would do so.
-/

namespace VerbScript.Save

open Json (Reread RereadMember Printable NumberAt Place valuesOf merged)
open Json.Reader (Decodes Yields tree depthLimit)

variable {η : Type} [Host η] {P : Place → Prop} {hostBy : Json → Option η} {h : Json}
  {ms : List (String × Json)}

theorem valuesOf_host {v w : Json} (hhostKey : hostKey ∉ ms.map (·.1)) :
    valuesOf hostKey ((versionKey, v) :: (hostKey, w) :: ms) = [w] := by
  have hms : valuesOf hostKey ms = [] := by
    rw [valuesOf, List.filter_eq_nil_iff.2, List.map_nil]
    rintro m hm hkey
    exact hhostKey (of_decide_eq_true hkey ▸ List.mem_map_of_mem hm)
  have hne : versionKey ≠ hostKey := by decide
  rw [Json.valuesOf_cons, if_neg hne, Json.valuesOf_cons, if_pos rfl, hms]

theorem filter_isRest_members {v w : Json} (hversionKey : versionKey ∉ ms.map (·.1))
    (hhostKey : hostKey ∉ ms.map (·.1)) :
    ((versionKey, v) :: (hostKey, w) :: ms).filter isRest = ms := by
  have hms : ms.filter isRest = ms := by
    refine List.filter_eq_self.2 fun m hm => ?_
    have hmem : m.1 ∈ ms.map (·.1) := List.mem_map_of_mem hm
    rw [isRest, Bool.and_eq_true, decide_eq_true_eq, decide_eq_true_eq]
    exact ⟨fun hkey => hversionKey (hkey ▸ hmem), fun hkey => hhostKey (hkey ▸ hmem)⟩
  rw [List.filter_cons_of_neg (by simp [isRest]), List.filter_cons_of_neg (by simp [isRest]), hms]

/-- The tree that is read off the text of a save, if the save is. -/
theorem exists_tree_of_read? (hhost : Decodes P (tree (depthLimit - 1)) (Host.reader (depthLimit - 1)) hostBy)
    (hprintable : Printable depthLimit (document (.object ms) h)) (hplace : ∀ p, NumberAt h p → ¬ P p)
    (hhostKey : hostKey ∉ ms.map (·.1)) {parts : Parts η}
    (hread : read? (document (.object ms) h).pretty = .ok parts) :
    ∃ v, Reread (document (.object ms) h) v ∧ partsBy hostBy v = some parts := by
  rw [read?_eq] at hread
  obtain ⟨⟨_, stop⟩, hout, rfl⟩ := exists_of_map hread
  have hfollows := decodes_reader hhost (Json.Cursor.start (document (.object ms) h).pretty)
  have hstart : (Json.Cursor.start (document (.object ms) h).pretty).skipBlank.rest =
      Json.prettyChars 0 (document (.object ms) h) ++ [] := by
    obtain ⟨ch, tail, hcs, hch, -⟩ := hprintable.opens 0
    rw [hcs]
    refine Json.Reader.skipBlank_of_rest (List.forall_mem_nil _) hch ?_
    simp [Json.Cursor.start, Json.pretty, hcs]
  have htree := hprintable.rereads_tree 0 _ [] hstart Json.Reader.ends_nil
  rw [hout] at hfollows
  generalize Json.Reader.out (tree depthLimit) (Json.Cursor.start _) = base at hfollows htree
  cases htree with
  | @read v stop' hv _ =>
    obtain ⟨parts, hparts, hstop⟩ := Option.map_eq_some_iff.1 (hfollows.ok _ rfl).symm
    cases hstop
    exact ⟨v, hv, hparts⟩
  | @failed f hf =>
    -- The host would pass over a number where there is none.
    obtain hnone | ⟨-, q, hq, hP⟩ := hfollows.error f rfl
    · cases hnone
    rw [hq] at hf
    obtain ⟨v, hv, hp⟩ := hf.exists_member
    obtain hv | hv := List.mem_cons.1 hv
    · have hne : hostKey ≠ versionKey := by decide
      exact absurd (congrArg Prod.fst hv) hne
    obtain hv | hv := List.mem_cons.1 hv
    · cases hv
      exact absurd hP (hplace q hp)
    · exact absurd (List.mem_map_of_mem hv) hhostKey

/-- If the text of a save is read, the host is what its section may be read as, and so is the document of the
catalog. -/
theorem reread_of_read?
    (hhost : Decodes P (tree (depthLimit - 1)) (Host.reader (depthLimit - 1)) hostBy)
    (hprintable : Printable depthLimit (document (.object ms) h)) (hplace : ∀ p, NumberAt h p → ¬ P p)
    (hversionKey : versionKey ∉ ms.map (·.1)) (hhostKey : hostKey ∉ ms.map (·.1)) {parts : Parts η}
    (hread : read? (document (.object ms) h).pretty = .ok parts) :
    (∃ h', Reread h h' ∧ hostBy h' = some parts.host) ∧ Reread (.object ms) parts.catalog := by
  obtain ⟨v, hv, hparts⟩ := exists_tree_of_read? hhost hprintable hplace hhostKey hread
  have hcatalog : Printable depthLimit (.object ms) := by
    cases hprintable with
    | object hkeys hms =>
      rw [List.map_cons, List.map_cons, List.nodup_cons, List.nodup_cons] at hkeys
      exact .object hkeys.2.2 fun m hm => hms m (List.mem_cons_of_mem _ (List.mem_cons_of_mem _ hm))
  cases hv with
  | object hall =>
    -- The members keep their keys, so the parts are read off those that they were written to.
    obtain ⟨_, _, ⟨_, _⟩, hmembers, rfl⟩ := List.forall₂_cons_left_iff.1 hall
    obtain ⟨_, ns, ⟨_, hh⟩, hms, rfl⟩ := List.forall₂_cons_left_iff.1 hmembers
    have hkeys : ns.map (·.1) = ms.map (·.1) := Json.map_fst_of_reread hms
    obtain ⟨-, ⟨h', hvalues, hhostBy⟩, hrest⟩ := partsBy_eq_some.1 hparts
    rw [valuesOf_host (hkeys ▸ hhostKey)] at hvalues
    cases hvalues
    rw [filter_isRest_members (hkeys ▸ hversionKey) (hkeys ▸ hhostKey)] at hrest
    exact ⟨⟨_, hh, hhostBy⟩, hrest ▸ hcatalog.reread_merged (.object hms)⟩

end VerbScript.Save
