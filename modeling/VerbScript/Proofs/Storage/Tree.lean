import VerbScript.Proofs.Storage.Program
import VerbScript.Storage.Tree

/-!
# Files in memory are kept

A path that is a single name leads to an entry of the current directory (`Tree.locate_of_isName`).
A file that such a path leads to is read as what it was last replaced by (`Tree.keeps_of_isName`).
-/

namespace VerbScript.Tree

open Log (Event)

/-- A path that is a single name, short enough to be that of a file. -/
def IsName (name : String) : Prop :=
  name.toList ≠ [] ∧ '/' ∉ name.toList ∧ '\x00' ∉ name.toList ∧ name ≠ "." ∧ name ≠ ".." ∧
    name.utf8ByteSize ≤ nameLimit

instance (name : String) : Decidable (IsName name) := inferInstanceAs (Decidable (_ ∧ _))

/-- A name leads to an entry of the current directory. -/
theorem locate_of_isName (t : Tree) {name : String} (h : IsName name) :
    t.locate name = .ok ⟨t.current, .name name, false⟩ := by
  obtain ⟨hne, hslash, hnul, hdot, hdots, hsize⟩ := h
  have hlimit : ¬ pathLimit ≤ name.utf8ByteSize := by
    simp only [nameLimit, pathLimit] at hsize ⊢
    omega
  have hnames : ((name.toList.splitOn '/').filter fun n => !n.isEmpty).map String.ofList =
      [name] := by
    rw [List.splitOn_eq_singleton hslash]
    simp [hne]
  have hhead : name.toList.head? ≠ some '/' := fun h => hslash (List.mem_of_head? h)
  have hlast : name.toList.getLast? ≠ some '/' := fun h => hslash (List.mem_of_getLast? h)
  rw [locate, if_neg (fun h => hlimit h.2), follow]
  simp only [List.isEmpty_iff, hne, hnul, hnames, hhead, hlast, if_false, List.getLast?_singleton,
    List.dropLast_singleton, walk, hdot, hdots, decide_false]
  rfl

/-! ## Entries of the current directory -/

/-- The location of an entry of the current directory. -/
def child (t : Tree) (name : String) : Location := t.current ++ [name]

theorem get?_child (t : Tree) (name : String) :
    t.entry? (t.child name) = t.entries.get? (t.child name).key := by
  rw [child, entry?, if_neg]
  simp

variable {t : Tree} {name : String} (hname : IsName name)
include hname

theorem write_of_isName (hfree : t.entry? (t.child name) ≠ some .directory) (content : ByteArray) :
    t.write name content = .ok (t.place (t.child name) (.file content)) := by
  have hsize : ¬ nameLimit < name.utf8ByteSize := by
    obtain ⟨-, -, -, -, -, hsize⟩ := hname
    omega
  simp only [write, t.locate_of_isName hname, bind, Except.bind, hsize, if_false]
  split
  · contradiction
  · split
    · next hentry => exact absurd hentry hfree
    · rfl
    · rfl

theorem read_of_isName {text : String}
    (hfile : t.entry? (t.child name) = some (.file text.toUTF8)) : t.read name = .ok text := by
  have htext : String.fromUTF8? text.toUTF8 = some text := dif_pos text.isValidUTF8
  have hfile : t.entry? (t.current ++ [name]) = some (.file text.toUTF8) := hfile
  have htarget : t.atTarget ⟨t.current, .name name, false⟩ =
      .ok (t.child name, .file text.toUTF8) := by
    simp only [atTarget, hfile]
    rfl
  have hlook : t.look name = .ok (t.child name, .file text.toUTF8) := by
    rw [look, t.locate_of_isName hname]
    exact htarget
  simp only [read, hlook, bind, Except.bind, htext]
  rfl

/-- A file is moved from a name to another one that no directory has. -/
theorem rename_of_isName {target : String} (htarget : IsName target) {content : ByteArray}
    (hfile : t.entry? (t.child name) = some (.file content))
    (hfree : t.entry? (t.child target) ≠ some .directory) :
    t.rename name target =
      .ok ((t.clear (t.child name)).place (t.child target) (.file content)) := by
  have hsize : ¬ nameLimit < target.utf8ByteSize := by
    obtain ⟨-, -, -, -, -, hsize⟩ := htarget
    omega
  have hfile : t.entry? (t.current ++ [name]) = some (.file content) := hfile
  simp only [rename, t.locate_of_isName hname, t.locate_of_isName htarget, bind, Except.bind, hfile,
    hsize, if_false]
  split
  · contradiction
  · split
    · next hentry => exact absurd hentry hfree
    · rfl
    · rfl

/-! ## Replaced files -/

omit hname in
/-- Events that are written to the log change no file. -/
theorem logged_answer (t : Tree) (events : List Event) :
    Program.logged answer t events = { t with events := events.reverse ++ t.events } := by
  induction events generalizing t with
  | nil => rfl
  | cons e rest ih =>
    refine (ih _).trans ?_
    rw [List.reverse_cons, List.append_assoc]
    rfl

omit hname in
/-- A file that stands in no directory of its own is replaced if the new content can be written and
moved. -/
theorem run_replaceFile {path text : String} {w u : Tree} (hparent : Path.parent? path = some "")
    (hwrite : t.write (stagingPath path) text.toUTF8 = .ok w)
    (hrename : w.rename (stagingPath path) path = .ok u) :
    Program.run answer t (replaceFile path text) = (.ok (), u) := by
  have hparent : Program.run answer t (createParent path) = (.ok (), t) := by
    rw [createParent, hparent]
    rfl
  have hwrite : Program.run answer t (.request (.write (stagingPath path) text)) = (.ok (), w) := by
    show t.attempt (t.write (stagingPath path) text.toUTF8) = _
    rw [hwrite]
    rfl
  have hrename : Program.run answer w (.request (.rename (stagingPath path) path)) = (.ok (), u) := by
    show w.attempt (w.rename (stagingPath path) path) = _
    rw [hrename]
    rfl
  rw [replaceFile, Program.run_bind, hparent]
  show Program.run answer t (Program.request _ >>= _) = _
  rw [Program.run_bind, hwrite]
  show Program.run answer w (Program.request _ >>= _) = _
  rw [Program.run_bind, hrename]
  rfl

/-- A file of the current directory is kept, if neither it nor the file beside it is a directory. -/
theorem keeps_of_isName (hstaging : IsName (stagingPath name)) (hparent : Path.parent? name = some "")
    (hfree : t.entry? (t.child name) ≠ some .directory)
    (hunused : t.entry? (t.child (stagingPath name)) ≠ some .directory)
    (hkey : (t.child name).key ≠ (t.child (stagingPath name)).key) :
    Program.Keeps answer t name := by
  intro before text
  rw [logged_answer]
  generalize before.reverse ++ t.events = events
  let u : Tree := { t with events }
  let w := u.place (u.child (stagingPath name)) (.file text.toUTF8)
  have hunused : u.entry? (u.child (stagingPath name)) ≠ some .directory := by
    rw [get?_child] at hunused ⊢
    exact hunused
  have hwrite : u.write (stagingPath name) text.toUTF8 = .ok w :=
    write_of_isName hstaging hunused text.toUTF8
  have hfile : w.entry? (w.child (stagingPath name)) = some (.file text.toUTF8) :=
    (get?_child w _).trans (Table.get?_insert_self ..)
  have hfree : w.entry? (w.child name) ≠ some .directory := by
    have hother : w.entries.get? (w.child name).key = t.entries.get? (t.child name).key :=
      Table.get?_insert_of_ne t.entries hkey _
    rw [get?_child, hother, ← get?_child]
    exact hfree
  have hrename := rename_of_isName hstaging hname hfile hfree
  rw [run_replaceFile hparent hwrite hrename]
  refine ⟨rfl, fun after => ?_⟩
  rw [logged_answer]
  exact read_of_isName hname ((get?_child _ name).trans (Table.get?_insert_self ..))

omit hname in
/-- A new tree keeps a file called `save`. -/
theorem keeps_save : Program.Keeps answer {} "save" :=
  keeps_of_isName (by decide +kernel) (by decide +kernel) (by decide +kernel) nofun nofun
    (by decide +kernel)

end VerbScript.Tree
