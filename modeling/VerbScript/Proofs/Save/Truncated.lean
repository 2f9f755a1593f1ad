import VerbScript.Proofs.Json.Balanced
import VerbScript.Proofs.Save.File
import VerbScript.Storage.Tree

/-!
# Truncated saves

A save is read as text that closes every bracket it opens (`balanced_reader`), and a part of its text that
ends before the end does not (`Scan.open_of_isPrefix`). So no part of a save is taken for a smaller one
(`exists_failure_of_isPrefix`). A file that holds the first bytes of a save is refused, and the catalog is
left as it is: as no text if the cut splits a character, and else as no document
(`run_load_of_cut`).
-/

namespace VerbScript.Save

open Json (prettyChars Scan)
open Json.Reader (Balanced)

variable {α ω η : Type} [Host η]

/-! ## Readers -/

/-- The reader of a host reads balanced text, however deep it may be nested. -/
def HostBalanced (η : Type) [Host η] : Prop :=
  ∀ depth, Balanced (Host.reader depth : Json.Reader η)

theorem balanced_field (hhost : HostBalanced η) (depth : Nat) (s : Partial η) (key : String) :
    Balanced (field depth s key) := by
  rw [field]
  split
  · exact ((Json.Reader.balanced_numeric _ _).once key s.version).map _
  split
  · exact ((hhost depth).once key s.host).map _
  · exact ((Json.Reader.balanced_value depth).addMember s.rest key).map _

theorem balanced_reader (hhost : HostBalanced η) : Balanced (reader : Json.Reader (Parts η)) :=
  Json.Reader.balanced_ofObject _
    (Json.Reader.balancedAt_record (balanced_field hhost _) {} Partial.finish)

/-- What a save begins with, short of its end, is not read as a save. -/
theorem exists_failure_of_isPrefix (hhost : HostBalanced η) {catalog host : Json} {cs : List Char}
    (hcs : cs <+: prettyChars 0 (document catalog host))
    (hne : cs ≠ prettyChars 0 (document catalog host)) :
    ∃ failure, read? (η := η) (String.ofList cs) = .error failure := by
  cases hread : reader (η := η) (Json.Cursor.start (String.ofList cs)) with
  | error failure => exact ⟨failure, by rw [read?, hread]; rfl⟩
  | ok s =>
    obtain ⟨ds, hds, hlead⟩ := balanced_reader hhost _ s hread
    have hstart : cs = ds ++ s.next.rest := by simpa [Json.Cursor.start] using hds
    -- what was read is not empty, and ends before the text does
    have hnil : ds ≠ [] := by
      rintro rfl
      have := s.shorter
      simp [Json.Cursor.size, hds] at this
    have hpart : ds <+: cs := ⟨s.next.rest, hstart.symm⟩
    have hshort : ds ≠ prettyChars 0 (document catalog host) := fun heq =>
      hne (List.IsPrefix.eq_of_length_le hcs (heq ▸ hpart.length_le))
    have hopen := Scan.open_of_isPrefix (hpart.trans hcs) hshort hnil
    rw [hlead 0] at hopen
    cases hopen

/-! ## Cuts -/

/-- A cut between characters leaves the characters before it. -/
theorem exists_of_cut {text : String} {k : Nat} (hk : k < text.utf8ByteSize)
    (hvalid : (⟨k⟩ : String.Pos.Raw).IsValid text) :
    ∃ cs, cs <+: text.toList ∧ cs ≠ text.toList ∧
      String.fromUTF8? (text.toUTF8.extract 0 k) = some (String.ofList cs) := by
  obtain ⟨cs, ds, hcs, rfl⟩ := hvalid.exists
  have hbytes : (String.ofList (cs ++ ds)).toUTF8.extract 0 k = cs.utf8Encode := hcs.symm
  refine ⟨cs, by simp, fun heq => ?_, ?_⟩
  · rw [String.toList_ofList] at heq
    have hsize := congrArg ByteArray.size hbytes
    rw [← heq] at hk hsize
    simp [String.utf8ByteSize] at hk hsize
    omega
  · rw [hbytes]
    exact dif_pos ByteArray.isValidUTF8_utf8Encode

/-- A cut within a character leaves no text. -/
theorem eq_none_of_cut {text : String} {k : Nat} (hk : k < text.utf8ByteSize)
    (hvalid : ¬ (⟨k⟩ : String.Pos.Raw).IsValid text) :
    String.fromUTF8? (text.toUTF8.extract 0 k) = none := by
  refine dif_neg fun h => hvalid (String.Pos.Raw.isValid_iff_isValidUTF8_extract_zero.2 ⟨?_, h⟩)
  exact String.Pos.Raw.le_iff.2 (Nat.le_of_lt hk)

/-! ## Files -/

variable [Action α ω]

/-- A file that holds the first bytes of a save, short of its end, is refused, and the catalog is left as it
is. The file is no text exactly if the cut splits a character. -/
theorem run_load_of_cut (hhost : HostBalanced η) {catalog host : Json} {k : Nat}
    (hk : k < (document catalog host).pretty.utf8ByteSize) {t : Tree} {path : String}
    {l : Tree.Location}
    (hlook : t.look path = .ok (l, .file ((document catalog host).pretty.toUTF8.extract 0 k)))
    (d : Catalog α) :
    let loaded := (t.run (load (η := η) path d)).1
    if (⟨k⟩ : String.Pos.Raw).IsValid (document catalog host).pretty then
      ∃ failure, loaded = (.error (.parse path failure), d)
    else loaded = (.error (.read path .notText), d) := by
  intro loaded
  split
  · next hvalid =>
    obtain ⟨cs, hcs, hne, hchars⟩ := exists_of_cut hk hvalid
    have htext : (document catalog host).pretty.toList = prettyChars 0 (document catalog host) :=
      String.toList_ofList
    rw [htext] at hcs hne
    obtain ⟨failure, hfailure⟩ := exists_failure_of_isPrefix hhost hcs hne
    have hread : (Tree.answer t (.read path)).1 = .ok (String.ofList cs) := by
      simp only [Tree.answer, Tree.read, hlook, bind, Except.bind, hchars]
      rfl
    refine ⟨failure, ?_⟩
    show (Program.run Tree.answer t _).1 = _
    rw [run_load Tree.answer t path d hread, restore, hfailure]
  · next hvalid =>
    have hread : (Tree.answer t (.read path)).1 = .error .notText := by
      simp only [Tree.answer, Tree.read, hlook, bind, Except.bind, eq_none_of_cut hk hvalid]
    exact run_load_of_fault Tree.answer t path d hread

end VerbScript.Save
