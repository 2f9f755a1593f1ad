import Mathlib.Data.List.TakeWhile
import VerbScript.Storage.Replace

/-!
# Where paths lead

A path leads from the root or from the current directory along its names (`Path.place`); slashes
and single dots between the names are idle, so that paths that differ in these alone are one. What
`Path.fileName?` finds from behind is the last of the names, unless it leads upwards
(`Path.getLast?_names`), and a name seen from a directory is put behind the directory's names
(`Path.names_join`). So the path beside a path never leads where the path leads, whatever its shape
(`place_stagingPath_ne`).
-/

namespace VerbScript

namespace Path

/-- A name that leads nowhere: between two slashes, or a single dot. -/
def isIdle (name : List Char) : Bool := decide (name = [] ∨ name = ['.'])

/-- The names of a path that lead somewhere, from the start on. -/
def names (cs : List Char) : List (List Char) := (cs.splitOn '/').filter fun n => !isIdle n

/-- Where a path leads: from the root or not, and along which names. Two dots are a name like others:
where they lead is up to the directories. -/
structure Place where
  rooted : Bool
  names : List (List Char)
  deriving DecidableEq

/-- The place that a path leads to. -/
def place (path : String) : Place := ⟨path.toList.head? = some '/', names path.toList⟩

/-! ## Names -/

@[simp] theorem names_nil : names [] = [] := rfl

theorem names_append (xs ys : List Char) : names (xs ++ '/' :: ys) = names xs ++ names ys := by
  rw [names, List.splitOn_append_cons_self, List.filter_append]
  rfl

/-- A slash at the start leads along no name. -/
theorem names_cons (cs : List Char) : names ('/' :: cs) = names cs := names_append [] cs

/-- A slash at the end leads along no name. -/
theorem names_concat (cs : List Char) : names (cs ++ ['/']) = names cs := by
  rw [names_append, names_nil, List.append_nil]

/-- Between two slashes stands at most one name. -/
theorem names_of_not_mem {cs : List Char} (h : '/' ∉ cs) :
    names cs = if isIdle cs then [] else [cs] := by
  rw [names, List.splitOn_eq_singleton h]
  cases hidle : isIdle cs <;> simp [hidle]

/-- What a dot stands before or behind, if it is a name alone. -/
theorem eq_nil_or_cons_slash {r : List Char} (h : r.isEmpty ∨ r.head? = some '/') :
    r = [] ∨ ∃ t, r = '/' :: t := by
  cases r with
  | nil => exact .inl rfl
  | cons c t =>
    rcases h with h | h
    · cases h
    · cases h
      exact .inr ⟨t, rfl⟩

/-- The names of a path follow its start. -/
theorem names_drop_leadLength (cs : List Char) : names (cs.drop (leadLength cs)) = names cs := by
  cases cs with
  | nil => rfl
  | cons c r =>
    rw [leadLength]
    split
    · next hslash =>
      rw [hslash, names_cons]
      rfl
    · split
      · next hdot =>
        obtain ⟨rfl, hend⟩ := hdot
        rcases eq_nil_or_cons_slash hend with rfl | ⟨t, rfl⟩
        · rfl
        · show names ('/' :: t) = names (['.'] ++ '/' :: t)
          rw [names_append, names_cons]
          rfl
      · rfl

/-- A dot that is a name alone at the end of a path leads along no name. -/
theorem names_reverse_cons_dot {r : List Char} (h : r.isEmpty ∨ r.head? = some '/') :
    names ('.' :: r).reverse = names r.reverse := by
  rcases eq_nil_or_cons_slash h with rfl | ⟨t, rfl⟩
  · rfl
  · have hdot : ('.' :: '/' :: t).reverse = t.reverse ++ '/' :: ['.'] := by simp
    rw [hdot, names_append, List.reverse_cons, names_concat]
    exact List.append_nil _

/-- A text is a name up to its first slash, if it has one. -/
theorem eq_takeWhile_or_append (cs : List Char) :
    '/' ∉ cs.takeWhile (· ≠ '/') ∧
      (cs = cs.takeWhile (· ≠ '/') ∨ ∃ t, cs = cs.takeWhile (· ≠ '/') ++ '/' :: t) := by
  induction cs with
  | nil => simp
  | cons c r ih =>
    obtain ⟨hslash, hrest⟩ := ih
    by_cases hc : c = '/'
    · subst hc
      exact ⟨by simp, .inr ⟨r, by simp⟩⟩
    · rw [List.takeWhile_cons_of_pos (by simpa using hc)]
      refine ⟨fun hmem => (List.mem_cons.1 hmem).elim (Ne.symm hc) hslash,
        hrest.imp (congrArg (c :: ·)) ?_⟩
      rintro ⟨t, ht⟩
      exact ⟨t, congrArg (c :: ·) ht⟩

/-- A path that is not idle at its end, read backwards, begins with its last name. -/
theorem getLast?_names_reverse_of_not_isIdle {cs : List Char}
    (h : isIdle (cs.takeWhile (· ≠ '/')).reverse = false) :
    (names cs.reverse).getLast? = some (cs.takeWhile (· ≠ '/')).reverse := by
  obtain ⟨hslash, hrest⟩ := eq_takeWhile_or_append cs
  generalize cs.takeWhile (· ≠ '/') = name at *
  have hname : names name.reverse = [name.reverse] := by
    rw [names_of_not_mem (by simpa using hslash), h]
    rfl
  rcases hrest with rfl | ⟨t, rfl⟩
  · rw [hname, List.getLast?_singleton]
  · rw [List.reverse_append, List.reverse_cons, List.append_assoc, List.singleton_append,
      names_append, hname, List.getLast?_append, List.getLast?_singleton, Option.some_or]

/-- Without the idle characters at its end a path, read backwards, begins with its last name. -/
theorem getLast?_names_reverse (cs : List Char) :
    (names cs.reverse).getLast?.getD [] = ((dropIdle cs).takeWhile (· ≠ '/')).reverse := by
  induction cs with
  | nil => rfl
  | cons c r ih =>
    rw [dropIdle]
    split
    · next hslash => rw [hslash, List.reverse_cons, names_concat, ih]
    · split
      · next hdot =>
        obtain ⟨rfl, hend⟩ := hdot
        rw [names_reverse_cons_dot hend, ih]
      · next hslash hdot =>
        have hidle : isIdle ((c :: r).takeWhile (· ≠ '/')).reverse = false := by
          rw [List.takeWhile_cons_of_pos (by simpa using hslash), isIdle, decide_eq_false_iff_not]
          rintro (hname | hname)
          · simp at hname
          · obtain ⟨rfl, hrest⟩ := List.cons.inj (List.reverse_eq_iff.1 hname)
            cases r with
            | nil => exact hdot ⟨rfl, .inl rfl⟩
            | cons d t => exact hdot ⟨rfl, .inr (by simpa using hrest)⟩
        rw [getLast?_names_reverse_of_not_isIdle hidle, Option.getD_some]

/-- The last name of a path. -/
theorem getLast?_names (cs : List Char) :
    (names cs).getLast?.getD [] = ((namesBackwards cs).takeWhile (· ≠ '/')).reverse := by
  rw [namesBackwards, ← getLast?_names_reverse, List.reverse_reverse, names_drop_leadLength]

/-- The name of a file is the last name of its path. -/
theorem getLast?_names_of_fileName? {path name : String} (h : fileName? path = some name) :
    (names path.toList).getLast?.getD [] = name.toList := by
  rw [getLast?_names]
  simp only [fileName?] at h
  split at h
  · cases h
  · cases h
    rw [String.toList_ofList]

/-- The name of a file is a single name. -/
theorem slash_not_mem_of_fileName? {path name : String} (h : fileName? path = some name) :
    '/' ∉ name.toList := by
  simp only [fileName?] at h
  split at h
  · cases h
  · cases h
    rw [String.toList_ofList, List.mem_reverse]
    exact (eq_takeWhile_or_append _).1

/-- A path without the name of a file leads along no name, or upwards. -/
theorem getLast?_names_of_fileName?_eq_none {path : String} (h : fileName? path = none) :
    (names path.toList).getLast?.getD [] = [] ∨ (names path.toList).getLast?.getD [] = ['.', '.'] := by
  rw [getLast?_names]
  simp only [fileName?] at h
  split at h
  · next hname =>
    rcases hname with hname | hname
    · exact .inl (by rw [List.isEmpty_iff.1 hname]; rfl)
    · exact .inr (by rw [hname]; rfl)
  · cases h

/-- A name seen from a directory is put behind the names of the directory. -/
theorem names_join (base : String) {name : String} (hslash : '/' ∉ name.toList)
    (hidle : isIdle name.toList = false) :
    names (join base name).toList = names base.toList ++ [name.toList] := by
  have hname : names name.toList = [name.toList] := by
    rw [names_of_not_mem hslash, hidle]
    rfl
  have hhead : name.toList.head? ≠ some '/' := fun h => hslash (List.mem_of_head? h)
  rw [join, if_neg hhead]
  split
  · next hbase =>
    rw [String.toList_append]
    rcases hbase with hbase | hbase
    · rw [String.isEmpty_iff.1 hbase]
      exact hname
    · obtain ⟨cs, hcs⟩ := List.getLast?_eq_some_iff.1 hbase
      rw [hcs, List.append_assoc, List.singleton_append, names_append, names_concat, hname]
  · rw [String.toList_append, String.toList_append, List.append_assoc]
    show names (base.toList ++ '/' :: name.toList) = _
    rw [names_append, hname]

end Path

/-! ## The path beside a path -/

/-- The name that a new content is written under first. -/
def stagingName (path : String) : String := (Path.fileName? path).getD "runtime.save" ++ ".partial"

theorem slash_not_mem_stagingName (path : String) : '/' ∉ (stagingName path).toList := by
  have hstem : '/' ∉ ((Path.fileName? path).getD "runtime.save").toList := by
    cases hname : Path.fileName? path with
    | some name => exact Path.slash_not_mem_of_fileName? hname
    | none => decide
  rw [stagingName, String.toList_append, List.mem_append]
  rintro (hmem | hmem)
  · exact hstem hmem
  · revert hmem
    decide

theorem isIdle_stagingName (path : String) : Path.isIdle (stagingName path).toList = false := by
  rw [Path.isIdle, decide_eq_false_iff_not, stagingName, String.toList_append]
  rintro (hname | hname)
  all_goals simpa using congrArg List.length hname

/-- The path beside a path ends in its own name. -/
theorem getLast?_names_stagingPath (path : String) :
    (Path.names (stagingPath path).toList).getLast? = some (stagingName path).toList := by
  have hslash := slash_not_mem_stagingName path
  have hidle := isIdle_stagingName path
  rw [stagingPath]
  split
  · next directory _ =>
    show (Path.names (Path.join directory (stagingName path)).toList).getLast? = _
    rw [Path.names_join directory hslash hidle, List.getLast?_concat]
  · show (Path.names (stagingName path).toList).getLast? = _
    rw [Path.names_of_not_mem hslash, hidle]
    rfl

/-- The path beside a path leads elsewhere, whatever the shape of the path. -/
theorem place_stagingPath_ne (path : String) : Path.place (stagingPath path) ≠ Path.place path := by
  intro h
  have hnames : Path.names (stagingPath path).toList = Path.names path.toList :=
    congrArg Path.Place.names h
  have hlast : (Path.names path.toList).getLast?.getD [] = (stagingName path).toList := by
    rw [← hnames, getLast?_names_stagingPath, Option.getD_some]
  rw [stagingName] at hlast
  cases hname : Path.fileName? path with
  | some name =>
    rw [Path.getLast?_names_of_fileName? hname, hname, Option.getD_some, String.toList_append] at hlast
    simpa using congrArg List.length hlast
  | none =>
    rw [hname] at hlast
    rcases Path.getLast?_names_of_fileName?_eq_none hname with hidle | hup
    · rw [hidle] at hlast
      revert hlast
      decide
    · rw [hup] at hlast
      revert hlast
      decide

end VerbScript
