import VerbScript.Demo.World
import VerbScript.Demo.Kinds
import VerbScript.Proofs.Save.Truncated

/-!
# Truncated saves of the demo

The reader of a snapshot reads balanced text (`Snapshot.hostBalanced`), in both of the forms that a
snapshot may be written in and with members that nobody asks for. So a save of the demo's verbs that was cut
anywhere is refused, and nothing is taken over from it (`load_truncated`).
-/

namespace VerbScript.Demo

open Json.Reader (Balanced)

namespace Snapshot

theorem balanced_statesReader : Balanced statesReader := Json.Reader.balanced_text.membersOf.map _

theorem balanced_field (s : Partial) (key : String) : Balanced (field s key) := by
  have hfloat : Balanced Json.Reader.float := Json.Reader.balanced_numeric _ _
  rw [field]
  split
  · exact (hfloat.once key s.clock).map _
  split
  · exact (hfloat.optional.once key s.resumeAt).map _
  split
  · exact (balanced_statesReader.once key s.actorStates).map _
  · exact (Json.Reader.balanced_skip.map _).valueOf key

/-- The fields of a snapshot that is written as an array are read up to its closing bracket. -/
theorem passes_arrayFields {c : Json.Cursor} {p : Json.Part Snapshot c} (h : arrayFields c = .ok p) :
    c.Passes (-1) p.next := by
  have hfloat : Balanced Json.Reader.float := Json.Reader.balanced_numeric _ _
  obtain ⟨clock, hclock, h⟩ := exists_of_bind_eq_ok h
  obtain ⟨resumeAt, hresume, h⟩ := exists_of_bind_eq_ok h
  obtain ⟨states, hstates, h⟩ := exists_of_bind_eq_ok h
  obtain ⟨close, hclose, h⟩ := exists_of_bind_eq_ok h
  cases h
  exact (Json.Reader.passes_nextField hfloat hclock).before
    ((Json.Reader.passes_nextField hfloat.optional hresume).before
      ((Json.Reader.passes_nextField balanced_statesReader hstates).before
        (Json.Reader.passes_endArray hclose)))

theorem hostBalanced : Save.HostBalanced Snapshot := fun _ =>
  Json.Reader.balanced_ofObjectOrArray _
    (Json.Reader.balancedAt_record balanced_field {} Partial.finish)
    (Json.Reader.balancedAt_arrayRecord fun _ _ h => passes_arrayFields h)

end Snapshot

/-- A save is refused if it was cut at any byte before its end, and the catalog that was to read it is left
as it is: it is no text if the cut splits a character, and else no document. -/
theorem load_truncated (c : Catalog DemoAction) (s : Snapshot) :
    ∃ text, Save.render c.runtimeState s = .ok text ∧
      (∀ {φ : Type} (answer : φ → (r : Request) → r.Answer × φ) (store : φ) (path : String),
        (Program.run answer store (Save.write path c s)).1 =
          (Program.run answer store (replaceFile path text)).1.mapError (.write path)) ∧
      ∀ k, k < text.utf8ByteSize → ∀ (t : Tree) (path : String) (l : Tree.Location),
        t.look path = .ok (l, .file (text.toUTF8.extract 0 k)) → ∀ d : Catalog DemoAction,
          let loaded := (t.run (Save.load (η := Snapshot) path d)).1
          if (⟨k⟩ : String.Pos.Raw).IsValid text then
            ∃ failure, loaded = (.error (.parse path failure), d)
          else loaded = (.error (.read path .notText), d) := by
  refine ⟨(Save.document c.runtimeState s.toJson).pretty, rfl, fun answer store path => ?_, ?_⟩
  · rw [Save.run_write answer store path c (by rfl)]
  · exact fun k hk t path l hlook d => Save.run_load_of_cut Snapshot.hostBalanced hk hlook d

/-- The save of a lever that waits, cut behind the braces of the host's section and within the name of an
actor. -/
theorem load_truncated_lever :
    let c : Catalog DemoAction := Catalog.insert {} { id := "use", ip := 0, steps :=
      [⟨"wait", .wait { time := some 2, startedAt := some 0.5 }⟩] }
    let s : Snapshot := ⟨0.5, some 2.5, Table.ofList [("é", "open")]⟩
    let text := (Save.document c.runtimeState s.toJson).pretty
    let cut (k : Nat) : Tree := ({} : Tree).place ["save"] (.file (text.toUTF8.extract 0 k))
    (∃ failure, ((cut 125).run (Save.load (η := Snapshot) "save" c)).1 =
        (.error (.parse "save" failure), c)) ∧
      ((cut 105).run (Save.load (η := Snapshot) "save" c)).1 =
        (.error (.read "save" .notText), c) := by
  intro c s text cut
  obtain ⟨text', hrender, -, hcut⟩ := load_truncated c s
  obtain rfl : text = text' := Except.ok.inj hrender
  obtain ⟨hsize, hbetween, hsplits⟩ : text.utf8ByteSize = 254 ∧
      (⟨125⟩ : String.Pos.Raw).IsValid text ∧ ¬ (⟨105⟩ : String.Pos.Raw).IsValid text := by
    decide +kernel
  have hlook (k : Nat) :
      (cut k).look "save" = .ok (["save"], .file (text.toUTF8.extract 0 k)) := rfl
  have hbrace := hcut 125 (by rw [hsize]; decide) (cut 125) "save" ["save"] (hlook 125) c
  have hwithin := hcut 105 (by rw [hsize]; decide) (cut 105) "save" ["save"] (hlook 105) c
  rw [if_pos hbetween] at hbrace
  rw [if_neg hsplits] at hwithin
  exact ⟨hbrace, hwithin⟩

end VerbScript.Demo
