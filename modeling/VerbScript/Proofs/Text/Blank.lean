import Mathlib.Data.List.TakeWhile
import VerbScript.Text.Blank

/-!
# Blanks around a text

`Padded body cs` says that `cs` is `body` with nothing but blanks around it. Blanks around a text
are taken off without a trace (`Padded.trimBlank_eq`), and what is left when they are taken off is
padded to the text (`padded_trimBlank`). So a text is padded from one that begins and ends with no
blank in one way only, which `trimBlank` finds (`exists_padded_iff`).
-/

namespace VerbScript.Text

/-- The text `cs` is `body` with nothing but blanks around it. -/
def Padded (body cs : List Char) : Prop :=
  ∃ before after, (∀ c ∈ before, isBlank c = true) ∧ (∀ c ∈ after, isBlank c = true) ∧
    cs = before ++ body ++ after

theorem trimBlank_append_left {before : List Char} (h : ∀ c ∈ before, isBlank c = true)
    (cs : List Char) : trimBlank (before ++ cs) = trimBlank cs := by
  rw [trimBlank, List.dropWhile_append_of_pos h, trimBlank]

theorem trimBlank_append_right (cs : List Char) {after : List Char}
    (h : ∀ c ∈ after, isBlank c = true) : trimBlank (cs ++ after) = trimBlank cs := by
  rw [trimBlank, trimBlank, List.dropWhile_append]
  split
  · next hempty =>
    have hafter : after.dropWhile isBlank = [] := List.dropWhile_eq_nil_iff.2 h
    rw [hafter, List.isEmpty_iff.1 hempty]
  · have hreverse : ∀ c ∈ after.reverse, isBlank c = true := fun c hc => h c (List.mem_reverse.1 hc)
    rw [List.reverse_append, List.dropWhile_append_of_pos hreverse]

/-- Blanks around a text make no difference once blanks are taken off. -/
theorem Padded.trimBlank_eq {body cs : List Char} (h : Padded body cs) :
    trimBlank cs = trimBlank body := by
  obtain ⟨before, after, hbefore, hafter, rfl⟩ := h
  rw [trimBlank_append_right _ hafter, trimBlank_append_left hbefore]

/-- Only blanks are taken off. -/
theorem padded_trimBlank (cs : List Char) : Padded (trimBlank cs) cs := by
  let rest := cs.dropWhile isBlank
  refine ⟨cs.takeWhile isBlank, (rest.reverse.takeWhile isBlank).reverse, ?_, ?_, ?_⟩
  · exact fun c hc => List.mem_takeWhile_imp hc
  · exact fun c hc => List.mem_takeWhile_imp (List.mem_reverse.1 hc)
  · have hrest : trimBlank cs ++ (rest.reverse.takeWhile isBlank).reverse = rest := by
      rw [trimBlank, ← List.reverse_append, List.takeWhile_append_dropWhile, List.reverse_reverse]
    rw [List.append_assoc, hrest, List.takeWhile_append_dropWhile]

/-- A text of a form that has no blanks at its ends stands in `cs`, padded, if it is what is left
when the blanks are taken off. -/
theorem exists_padded_iff {form : List Char → Prop}
    (hform : ∀ body, form body → trimBlank body = body) {cs : List Char} :
    (∃ body, Padded body cs ∧ form body) ↔ form (trimBlank cs) := by
  constructor
  · rintro ⟨body, hpadded, hbody⟩
    rwa [hpadded.trimBlank_eq, hform body hbody]
  · exact fun h => ⟨trimBlank cs, padded_trimBlank cs, h⟩

end VerbScript.Text
