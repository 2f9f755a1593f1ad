import Mathlib.Logic.Function.Basic
import VerbScript.Proofs.Storage.Path
import VerbScript.Proofs.Storage.Program

/-!
# A file is replaced as a whole

`Files` is a file system seen as a map from places to contents. It may refuse every request, and a
refused write may leave any beginning of the text behind; a file is moved at once or not at all
(`Files.Grants`). A program on files may stop before every request and after every one, whatever it
was answered (`Program.Stops`). So the ways in which the replacing of a file may stop are few
(`stops_replaceFile_iff`), and in each of them the file holds its old content or the whole new one
(`replaceFile_atomic`).
-/

namespace VerbScript

/-- The contents of the files, by the places that they are at. -/
abbrev Files := Path.Place → Option ByteArray

namespace Files

/-- The files with a content at a path. -/
def put (s : Files) (path : String) (content : ByteArray) : Files :=
  Function.update s (Path.place path) (some content)

/-- The files with nothing at a path. -/
def erase (s : Files) (path : String) : Files := Function.update s (Path.place path) none

/-- From the files `s` the request may be answered so, and leave the files `u`. A write that fails
may have left nothing or a beginning of the text; a move that fails leaves everything as it was. -/
def Grants (s : Files) : (r : Request) → r.Answer → Files → Prop
  | .write path text, .ok (), u => u = s.put path text.toUTF8
  | .write path text, .error _, u => u = s ∨ ∃ n, u = s.put path (text.toUTF8.extract 0 n)
  | .rename source target, .ok (), u =>
    ∃ content, s (Path.place source) = some content ∧ u = (s.erase source).put target content
  | .remove path, .ok (), u => u = s.erase path
  | _, _, u => u = s

variable (s : Files) (path : String) (content : ByteArray)

@[simp] theorem put_self : s.put path content (Path.place path) = some content :=
  Function.update_self ..

@[simp] theorem erase_self : s.erase path (Path.place path) = none := Function.update_self ..

@[simp] theorem erase_put : (s.put path content).erase path = s.erase path :=
  Function.update_idem ..

variable {s path content} {place : Path.Place}

theorem put_of_ne (h : place ≠ Path.place path) : s.put path content place = s place :=
  Function.update_of_ne h ..

theorem erase_of_ne (h : place ≠ Path.place path) : s.erase path place = s place :=
  Function.update_of_ne h ..

end Files

namespace Program

variable {α β : Type}

/-- From the files `s` the program may stop with the files `w`: with a value at its end, or with
none before any of its requests. A request during which it stops is one after which it stops. -/
inductive Stops : Files → Program α → Option α → Files → Prop where
  | cut (s : Files) (p : Program α) : Stops s p none s
  | done (s : Files) (value : α) : Stops s (.done value) (some value) s
  | ask {s u w : Files} {r : Request} {next : r.Answer → Program α} {answer : r.Answer}
      {outcome : Option α} (hgrants : s.Grants r answer u) (hrest : Stops u (next answer) outcome w) :
      Stops s (.ask r next) outcome w

theorem stops_done_iff {s w : Files} {value : α} {outcome : Option α} :
    Stops s (.done value) outcome w ↔ w = s ∧ (outcome = none ∨ outcome = some value) := by
  constructor
  · rintro (_ | _)
    · exact ⟨rfl, .inl rfl⟩
    · exact ⟨rfl, .inr rfl⟩
  · rintro ⟨rfl, rfl | rfl⟩
    · exact .cut ..
    · exact .done ..

/-- A program stops before its first request, or where it goes on from the answer. -/
theorem stops_request_bind_iff {s w : Files} {r : Request} {f : r.Answer → Program α}
    {outcome : Option α} :
    Stops s (request r >>= f) outcome w ↔ outcome = none ∧ w = s ∨
      ∃ answer u, s.Grants r answer u ∧ Stops u (f answer) outcome w := by
  show Stops s (.ask r f) outcome w ↔ _
  constructor
  · rintro (_ | _ | ⟨hgrants, hrest⟩)
    · exact .inl ⟨rfl, rfl⟩
    · exact .inr ⟨_, _, hgrants, hrest⟩
  · rintro (⟨rfl, rfl⟩ | ⟨answer, u, hgrants, hrest⟩)
    · exact .cut ..
    · exact .ask hgrants hrest

/-- A program stops within its first part, or behind it. -/
theorem stops_bind_iff {s w : Files} {p : Program α} {f : α → Program β} {outcome : Option β} :
    Stops s (p >>= f) outcome w ↔
      outcome = none ∧ Stops s p none w ∨ ∃ x u, Stops s p (some x) u ∧ Stops u (f x) outcome w := by
  show Stops s (p.bind f) outcome w ↔ _
  constructor
  · intro h
    induction p generalizing s with
    | done value => exact .inr ⟨value, s, .done .., h⟩
    | ask r next ih =>
      cases h with
      | cut => exact .inl ⟨rfl, .cut ..⟩
      | ask hgrants hrest =>
        rcases ih _ hrest with ⟨houtcome, hfirst⟩ | ⟨x, u, hfirst, hthen⟩
        · exact .inl ⟨houtcome, .ask hgrants hfirst⟩
        · exact .inr ⟨x, u, .ask hgrants hfirst, hthen⟩
  · rintro (⟨rfl, h⟩ | ⟨x, u, h, hthen⟩)
    · generalize hnone : (none : Option α) = first at h
      induction h with
      | cut => exact .cut ..
      | done => cases hnone
      | ask hgrants _ ih => exact .ask hgrants (ih hnone)
    · generalize hsome : some x = first at h
      induction h with
      | cut => cases hsome
      | done =>
        cases hsome
        exact hthen
      | ask hgrants _ ih => exact .ask hgrants (ih hthen hsome)

theorem Stops.bind {s u w : Files} {p : Program α} {x : α} {f : α → Program β}
    {outcome : Option β} (h : Stops s p (some x) u) (hthen : Stops u (f x) outcome w) :
    Stops s (p >>= f) outcome w :=
  stops_bind_iff.2 (.inr ⟨x, u, h, hthen⟩)

theorem Stops.request_bind {s u w : Files} {r : Request} {answer : r.Answer}
    {f : r.Answer → Program α} {outcome : Option α} (hgrants : s.Grants r answer u)
    (hthen : Stops u (f answer) outcome w) : Stops s (request r >>= f) outcome w :=
  stops_request_bind_iff.2 (.inr ⟨answer, u, hgrants, hthen⟩)

end Program

/-! ## The ways in which the replacing of a file stops -/

open Program (Stops stops_done_iff stops_request_bind_iff stops_bind_iff)

/-- Where the replacing of the file at `path` may stop: with which outcome, and which files it
leaves. -/
inductive Replacing (s : Files) (path text : String) :
    Option (Except StorageFault Unit) → Files → Prop where
  /-- Nothing has been written. -/
  | untouched {outcome : Option (Except StorageFault Unit)} (h : outcome ≠ some (.ok ())) :
      Replacing s path text outcome s
  /-- A beginning of the text, or all of it, stands beside the file. -/
  | staged {outcome : Option (Except StorageFault Unit)} (h : outcome ≠ some (.ok ())) (n : Nat) :
      Replacing s path text outcome (s.put (stagingPath path) (text.toUTF8.extract 0 n))
  /-- The text could not be moved into place and has been removed. -/
  | removed {outcome : Option (Except StorageFault Unit)} (h : outcome ≠ some (.ok ())) :
      Replacing s path text outcome (s.erase (stagingPath path))
  /-- The text has been moved into place. -/
  | replaced {outcome : Option (Except StorageFault Unit)} (h : ∀ e, outcome ≠ some (.error e)) :
      Replacing s path text outcome ((s.erase (stagingPath path)).put path text.toUTF8)

section
variable {s w : Files} {path text : String} {outcome : Option (Except StorageFault Unit)}

/-- The directory of a file may be created or not; no file is changed by that. -/
theorem files_of_stops_createParent (h : Stops s (createParent path) outcome w) : w = s := by
  rw [createParent] at h
  split at h
  · rcases h with _ | _ | ⟨hgrants, hrest⟩
    · rfl
    · exact (stops_done_iff.1 hrest).1.trans hgrants
  · exact (stops_done_iff.1 h).1

theorem stops_createParent (s : Files) (path : String) :
    Stops s (createParent path) (some (.ok ())) s := by
  rw [createParent]
  split
  · exact .ask rfl (.done ..)
  · exact .done ..

theorem ne_ok_iff :
    outcome ≠ some (.ok ()) ↔ outcome = none ∨ ∃ e, outcome = some (.error e) := by
  rcases outcome with _ | e | _ <;> simp

theorem forall_ne_error_iff :
    (∀ e, outcome ≠ some (.error e)) ↔ outcome = none ∨ outcome = some (.ok ()) := by
  rcases outcome with _ | e | _ <;> simp

/-- A program that failed, or was cut short of failing, has not succeeded. -/
theorem ne_ok_of_failed {e : StorageFault} (h : outcome = none ∨ outcome = some (.error e)) :
    outcome ≠ some (.ok ()) := by
  rcases h with rfl | rfl
  all_goals nofun

namespace Replacing

/-- All of the text stands beside the file. -/
theorem staged_whole (h : outcome ≠ some (.ok ())) :
    Replacing s path text outcome (s.put (stagingPath path) text.toUTF8) := by
  have hstaged : Replacing s path text outcome _ := staged h text.toUTF8.size
  rwa [ByteArray.extract_zero_size] at hstaged

/-- Each request of the replacing leaves the files in one of these ways. -/
theorem of_stops (h : Stops s (replaceFile path text) outcome w) :
    Replacing s path text outcome w := by
  rw [replaceFile] at h
  rcases stops_bind_iff.1 h with ⟨rfl, hcut⟩ | ⟨_ | _, u, hparent, hwrite⟩
  · obtain rfl := files_of_stops_createParent hcut
    exact .untouched (by nofun)
  · obtain rfl := files_of_stops_createParent hparent
    obtain ⟨rfl, houtcome⟩ := stops_done_iff.1 hwrite
    exact .untouched (ne_ok_of_failed houtcome)
  obtain rfl := files_of_stops_createParent hparent
  rcases stops_request_bind_iff.1 hwrite with ⟨rfl, rfl⟩ | ⟨_ | _, v, hgrants, hmove⟩
  · exact .untouched (by nofun)
  · obtain ⟨rfl, houtcome⟩ := stops_done_iff.1 hmove
    rcases hgrants with rfl | ⟨n, rfl⟩
    · exact .untouched (ne_ok_of_failed houtcome)
    · exact .staged (ne_ok_of_failed houtcome) n
  obtain rfl := hgrants
  rcases stops_request_bind_iff.1 hmove with ⟨rfl, rfl⟩ | ⟨_ | _, v, hgrants, hend⟩
  · exact staged_whole (by nofun)
  · obtain rfl := hgrants
    rcases stops_request_bind_iff.1 hend with ⟨rfl, rfl⟩ | ⟨_ | _, v, hgrants, hend⟩
    · exact staged_whole (by nofun)
    · obtain rfl := hgrants
      obtain ⟨rfl, houtcome⟩ := stops_done_iff.1 hend
      exact staged_whole (ne_ok_of_failed houtcome)
    · obtain rfl := hgrants
      obtain ⟨rfl, houtcome⟩ := stops_done_iff.1 hend
      rw [Files.erase_put]
      exact .removed (ne_ok_of_failed houtcome)
  · obtain ⟨content, hcontent, rfl⟩ := hgrants
    obtain ⟨rfl, houtcome⟩ := stops_done_iff.1 hend
    obtain rfl := Option.some.inj ((Files.put_self ..).symm.trans hcontent)
    rw [Files.erase_put]
    exact .replaced (by rcases houtcome with rfl | rfl <;> nofun)

/-- In each of these ways the replacing may stop. -/
theorem stops (h : Replacing s path text outcome w) :
    Stops s (replaceFile path text) outcome w := by
  have hparent := stops_createParent s path
  have hwritten : s.Grants (.write (stagingPath path) text) (.ok ())
    (s.put (stagingPath path) text.toUTF8) := rfl
  cases h with
  | untouched h =>
    have hrefused (e : StorageFault) : s.Grants (.write (stagingPath path) text) (.error e) s :=
      .inl rfl
    obtain rfl | ⟨e, rfl⟩ := ne_ok_iff.1 h
    · exact .cut ..
    · exact hparent.bind (.request_bind (hrefused e) (.done ..))
  | staged h n =>
    have hpart (e : StorageFault) : s.Grants (.write (stagingPath path) text) (.error e)
        (s.put (stagingPath path) (text.toUTF8.extract 0 n)) := .inr ⟨n, rfl⟩
    obtain rfl | ⟨e, rfl⟩ := ne_ok_iff.1 h
    · exact hparent.bind (.request_bind (hpart .noTree) (.cut ..))
    · exact hparent.bind (.request_bind (hpart e) (.done ..))
  | removed h =>
    have hrefused (u : Files) (e : StorageFault) :
        u.Grants (.rename (stagingPath path) path) (.error e) u := rfl
    have hremoved (u : Files) : u.Grants (.remove (stagingPath path)) (.ok ())
      (u.erase (stagingPath path)) := rfl
    rw [← Files.erase_put s (stagingPath path) text.toUTF8]
    obtain rfl | ⟨e, rfl⟩ := ne_ok_iff.1 h
    · exact hparent.bind (.request_bind hwritten (.request_bind (hrefused _ .noTree)
        (.request_bind (hremoved _) (.cut ..))))
    · exact hparent.bind (.request_bind hwritten (.request_bind (hrefused _ e)
        (.request_bind (hremoved _) (.done ..))))
  | replaced h =>
    have hmoved : (s.put (stagingPath path) text.toUTF8).Grants (.rename (stagingPath path) path)
        (.ok ()) ((s.erase (stagingPath path)).put path text.toUTF8) :=
      ⟨_, Files.put_self .., by rw [Files.erase_put]⟩
    obtain rfl | rfl := forall_ne_error_iff.1 h
    · exact hparent.bind (.request_bind hwritten (.request_bind hmoved (.cut ..)))
    · exact hparent.bind (.request_bind hwritten (.request_bind hmoved (.done ..)))

end Replacing

/-- The replacing of a file stops in these ways and in no others. -/
theorem stops_replaceFile_iff :
    Stops s (replaceFile path text) outcome w ↔ Replacing s path text outcome w :=
  ⟨.of_stops, Replacing.stops⟩

/-! ## What the files hold then -/

namespace Replacing

/-- The file is as it was, unless all of the text has been moved into place. -/
theorem at_path (h : Replacing s path text outcome w) :
    outcome ≠ some (.ok ()) ∧ w (Path.place path) = s (Path.place path) ∨
      w (Path.place path) = some text.toUTF8 ∧ w (Path.place (stagingPath path)) = none := by
  have hne := place_stagingPath_ne path
  cases h with
  | untouched h => exact .inl ⟨h, rfl⟩
  | staged h n => exact .inl ⟨h, Files.put_of_ne hne.symm⟩
  | removed h => exact .inl ⟨h, Files.erase_of_ne hne.symm⟩
  | replaced h => exact .inr ⟨Files.put_self .., (Files.put_of_ne hne).trans (Files.erase_self ..)⟩

/-- Elsewhere nothing changes. -/
theorem elsewhere (h : Replacing s path text outcome w) {place : Path.Place}
    (hpath : place ≠ Path.place path) (hstaging : place ≠ Path.place (stagingPath path)) :
    w place = s place := by
  cases h with
  | untouched => rfl
  | staged => exact Files.put_of_ne hstaging
  | removed => exact Files.erase_of_ne hstaging
  | replaced => exact (Files.put_of_ne hpath).trans (Files.erase_of_ne hstaging)

end Replacing

end

/-- A file is replaced as a whole: the replacing may succeed, and wherever it stops the file holds
what it held before or all of the text. Once it has succeeded the file holds the text, and nothing
stands beside it. No other file is changed. -/
theorem replaceFile_atomic (s : Files) (path text : String) :
    (∃ w, Stops s (replaceFile path text) (some (.ok ())) w) ∧
      ∀ outcome w, Stops s (replaceFile path text) outcome w →
        (w (Path.place path) = s (Path.place path) ∨ w (Path.place path) = some text.toUTF8) ∧
        (outcome = some (.ok ()) →
          w (Path.place path) = some text.toUTF8 ∧ w (Path.place (stagingPath path)) = none) ∧
        ∀ place, place ≠ Path.place path → place ≠ Path.place (stagingPath path) →
          w place = s place := by
  refine ⟨⟨_, stops_replaceFile_iff.2 (.replaced nofun)⟩, fun outcome w hstops => ?_⟩
  have h := stops_replaceFile_iff.1 hstops
  refine ⟨h.at_path.imp And.right And.left, fun hok => ?_, fun _ => h.elsewhere⟩
  rcases h.at_path with ⟨hfailed, -⟩ | hreplaced
  · exact absurd hok hfailed
  · exact hreplaced

/-- The device is full, and a beginning left by an earlier run stands beside the file. -/
theorem replaceFile_atomic_full_device :
    let s : Files := (Files.put (fun _ => none) "saves/slot.json" "[1]".toUTF8).put
      "saves/slot.json.partial" "[".toUTF8
    let w : Files := s.put "saves/slot.json.partial" "[2".toUTF8
    let fault : StorageFault := .other "No space left on device (os error 28)"
    Stops s (replaceFile "saves/slot.json" "[2]") (some (.error fault)) w ∧
      (w (Path.place "saves/slot.json") = s (Path.place "saves/slot.json") ∨
        w (Path.place "saves/slot.json") = some "[2]".toUTF8) := by
  intro s w fault
  have hstaging : stagingPath "saves/slot.json" = "saves/slot.json.partial" := by decide +kernel
  have hpart : "[2]".toUTF8.extract 0 2 = "[2".toUTF8 := by decide +kernel
  have hstops : Stops s (replaceFile "saves/slot.json" "[2]") (some (.error fault)) w := by
    have hstaged : Replacing s "saves/slot.json" "[2]" (some (.error fault)) _ :=
      .staged (by nofun) 2
    rw [hstaging, hpart] at hstaged
    exact stops_replaceFile_iff.2 hstaged
  exact ⟨hstops, ((replaceFile_atomic s "saves/slot.json" "[2]").2 _ _ hstops).1⟩

end VerbScript
