import VerbScript.Demo.Kinds
import VerbScript.Proofs.Demo.Shape
import VerbScript.Proofs.Save.File
import VerbScript.Proofs.Save.Parts
import VerbScript.Storage.Tree

/-!
# Which texts are accepted as saves

The version of a save is looked at once everything else of it has been read. So a document with another
version is refused for its version only if it has a snapshot's section for the host, and else for what is
wrong with that section (`load_of_version`). What is read as a save is a whole document up to what stands
behind it, which nobody looks at, and up to limits that the host passes over (`Save.parse_of_read?`).
-/

namespace VerbScript

open Json (merged mergedMembers valuesOf lookup lookup_mergedMembers tree? parse_eq_tree?)
open Json.Reader (Decodes)

namespace Demo

open Save (partsBy partsBy_eq_some wordBy_int versionKey hostKey read? read?_of_tree?)

variable {α ω : Type} [Action α ω]

/-- Whether the members of an object are those of a save of the demo, whatever its version and its verbs. -/
def holdsSnapshot (ms : List (String × Json)) : Bool :=
  (valuesOf versionKey ms).length = 1 && Json.fitsOnce Snapshot.fits (valuesOf hostKey ms)

/-- A single version is the one that is looked up. -/
theorem valuesOf_version {doc : List (String × Json)} {n : Int}
    (hversion : lookup versionKey (mergedMembers [] doc) = some (.int n))
    (hlength : (valuesOf versionKey doc).length = 1) : valuesOf versionKey doc = [.int n] := by
  obtain ⟨v, hv⟩ := List.length_eq_one_iff.1 hlength
  rw [lookup_mergedMembers, hv] at hversion
  have hmerged : merged v = .int n := Option.some.inj hversion
  rw [hv, Json.eq_int_of_merged hmerged]

/-- The members of a save of the demo make up its parts, with the version that stands there, and no others
do. -/
theorem partsBy_of_version {doc : List (String × Json)} {n : Nat}
    (hversion : lookup versionKey (mergedMembers [] doc) = some (.int n)) (hn : n < Number.wordBound 32) :
    if holdsSnapshot doc then ∃ parts, partsBy Snapshot.ofTree (.object doc) = some parts ∧ parts.version = n
    else partsBy Snapshot.ofTree (.object doc) = none := by
  split
  · next hholds =>
    obtain ⟨hlength, hfits⟩ := (Bool.and_eq_true _ _).mp hholds
    obtain ⟨host, hhost, hfit⟩ := Json.fitsOnce_eq_true.1 hfits
    obtain ⟨s, hs⟩ := Option.isSome_iff_exists.1 ((Snapshot.isSome_ofTree host).trans hfit)
    have hvalues := valuesOf_version hversion (of_decide_eq_true hlength)
    exact ⟨⟨n, s, .object (mergedMembers [] (doc.filter Save.isRest))⟩,
      partsBy_eq_some.2 ⟨⟨_, hvalues, wordBy_int hn⟩, ⟨host, hhost, hs⟩, rfl⟩, rfl⟩
  · next hholds =>
    refine Option.eq_none_iff_forall_ne_some.2 fun parts hparts => hholds ?_
    obtain ⟨⟨v, hv, -⟩, ⟨host, hhost, hs⟩, -⟩ := partsBy_eq_some.1 hparts
    have hfit : Snapshot.fits host = true := by
      rw [← Snapshot.isSome_ofTree, hs]
      rfl
    rw [holdsSnapshot, hv, Json.fitsOnce_eq_true.2 ⟨host, hhost, hfit⟩]
    rfl

/-- What is looked up as an integer in a text is so in the document that the text holds. -/
theorem exists_document_of_int? {text key : String} {n : Int}
    (h : ((Json.parse text).toOption.bind (Json.member? key)).bind Json.int? = some n) :
    ∃ document, Json.parse text = .ok document ∧ document.member? key = some (.int n) := by
  obtain ⟨v, hv, hn⟩ := Option.bind_eq_some_iff.1 h
  obtain ⟨document, hdocument, hmember⟩ := Option.bind_eq_some_iff.1 hv
  refine ⟨document, toOption_eq_some_iff.1 hdocument, ?_⟩
  cases v with
  | number m =>
    cases m with
    | int k =>
      cases hn
      exact hmember
    | float x => cases hn
  | _ => cases hn

/-- A document with another version than the one that is expected is refused, and the catalog is left as it
is. The version is what it is refused for if there is one version and one host, which has the shape of a
snapshot; else it is refused before the version is looked at. -/
theorem load_of_version {φ : Type} (answer : φ → (r : Request) → r.Answer × φ) (store : φ) (path : String)
    (c : Catalog α) {text : String} {document : Json} {n : Nat}
    (hread : (answer store (.read path)).1 = .ok text) (hparse : Json.parse text = .ok document)
    (hversion : document.member? versionKey = some (.int n)) (hn : n < Number.wordBound 32)
    (hother : n ≠ Save.version) :
    ∃ doc, tree? text = .ok (.object doc) ∧ document = .object (mergedMembers [] doc) ∧
      let loaded := (Program.run answer store (Save.load (η := Snapshot) path c)).1
      if holdsSnapshot doc then loaded = (.error (.versionMismatch path n), c)
      else ∃ failure, loaded = (.error (.parse path failure), c) := by
  rw [parse_eq_tree?] at hparse
  obtain ⟨v, htree, rfl⟩ := exists_of_map hparse
  cases v with
  | object doc =>
    refine ⟨doc, htree, rfl, ?_⟩
    have hparts := partsBy_of_version hversion hn
    have hread? : (read? text).toOption = partsBy Snapshot.ofTree (.object doc) :=
      read?_of_tree? Snapshot.decodes_reader htree
    rw [Save.run_load answer store path c hread]
    split at hparts
    · next hholds =>
      obtain ⟨parts, hparts, rfl⟩ := hparts
      rw [if_pos hholds, Save.restore, toOption_eq_some_iff.1 (hread?.trans hparts)]
      simp only [if_pos hother]
    · next hholds =>
      obtain ⟨failure, hfailure⟩ := toOption_eq_none_iff.1 (hread?.trans hparts)
      rw [if_neg hholds, Save.restore, hfailure]
      exact ⟨failure, rfl⟩
  | _ => cases hversion

/-- A save of the next version that holds a snapshot is refused for its version. -/
theorem load_of_version_next :
    let text := "\x7b\"save_version\":2,\"host\":\x7b\"clock\":3,\"name\":[]\x7d,\"verbs\":\x7b\x7d\x7d"
    let t := ({} : Tree).place ["next.json"] (.file text.toUTF8)
    let c : Catalog DemoAction := {}
    (t.run (Save.load (η := Snapshot) "next.json" c)).1 = (.error (.versionMismatch "next.json" 2), c) := by
  intro text t c
  have hread : (Tree.answer t (.read "next.json")).1 = .ok text := by decide +kernel
  obtain ⟨document, hparse, hversion⟩ :
      ∃ document, Json.parse text = .ok document ∧ document.member? versionKey = some (.int 2) :=
    exists_document_of_int? (by decide +kernel)
  obtain ⟨doc, htree, -, hload⟩ :=
    load_of_version Tree.answer t "next.json" c (n := 2) hread hparse hversion (by decide) (by decide)
  have hholds : (tree? text).toOption.map (fun v => holdsSnapshot (Save.membersOf v)) = some true := by
    decide +kernel
  rw [htree] at hholds
  have hdoc : holdsSnapshot doc = true := Option.some.inj hholds
  rwa [if_pos hdoc] at hload

/-- A document of the next version without a host is not refused for its version. -/
theorem not_versionMismatch_of_bare :
    ¬ ∀ (text : String) (document : Json) (n : Nat), Json.parse text = .ok document →
      document.member? versionKey = some (.int n) → n < Number.wordBound 32 → n ≠ Save.version →
      ∀ (t : Tree) (path : String) (c : Catalog DemoAction), (Tree.answer t (.read path)).1 = .ok text →
        (t.run (Save.load (η := Snapshot) path c)).1 = (.error (.versionMismatch path n), c) := by
  let text := "\x7b\"save_version\":2,\"verbs\":\x7b\x7d\x7d"
  let t := ({} : Tree).place ["old.json"] (.file text.toUTF8)
  intro hall
  have hread : (Tree.answer t (.read "old.json")).1 = .ok text := by decide +kernel
  obtain ⟨document, hparse, hversion⟩ :
      ∃ document, Json.parse text = .ok document ∧ document.member? versionKey = some (.int 2) :=
    exists_document_of_int? (by decide +kernel)
  have hload := hall text document 2 hparse hversion (by decide) (by decide) t "old.json" {} hread
  obtain ⟨failure, hfailure⟩ : ∃ failure, read? (η := Snapshot) text = .error failure :=
    toOption_eq_none_iff.1 (Option.isNone_iff_eq_none.1 (by decide +kernel))
  have hrun := Save.run_load (η := Snapshot) Tree.answer t "old.json" ({} : Catalog DemoAction) hread
  rw [Tree.run, hrun, Save.restore, hfailure] at hload
  cases hload

end Demo

namespace Save

variable {η : Type} [Host η] {P : Json.Place → Prop} {hostBy : Json → Option η}

/-- What is read as a save is a document up to where the reading stops. The document has the version and the
catalog that are read, and the host that is read is what its section stands for. What stands behind it does
not count for the save, though it does for the document; and a limit may be passed over in what the host
does not ask for. -/
theorem parse_of_read?
    (hhost : Decodes P (Json.Reader.tree (Json.Reader.depthLimit - 1))
      (Host.reader (Json.Reader.depthLimit - 1)) hostBy) {text : String} {parts : Parts η}
    (hread : read? text = .ok parts) :
    ∃ stop : Json.Cursor, Json.Reader.out reader (Json.Cursor.start text) = .ok (parts, stop) ∧
      ((∃ ms, Json.parse text = (if stop.skipBlank.rest.isEmpty then .ok (.object ms)
            else .error (stop.skipBlank.failNext .trailingCharacters)) ∧
          lookup versionKey ms = some (.int parts.version) ∧
          (∃ h, hostBy h = some parts.host ∧ lookup hostKey ms = some (merged h)) ∧
          parts.catalog = .object (ms.filter isRest)) ∨
        ∃ failure, Json.parse text = .error failure ∧ failure.fault.IsLimit ∧ InHost P failure.place) := by
  rw [read?_eq] at hread
  obtain ⟨⟨parts', stop⟩, hout, rfl⟩ := exists_of_map hread
  refine ⟨stop, hout, ?_⟩
  have hfollows := decodes_reader hhost (Json.Cursor.start text)
  rw [hout] at hfollows
  have htree := Json.tree?_eq text
  rw [parse_eq_tree?]
  cases hbase : Json.Reader.out (Json.Reader.tree Json.Reader.depthLimit) (Json.Cursor.start text) with
  | error failure =>
    -- No tree stands where the save was read, so a limit was passed over.
    rw [hbase] at htree
    refine .inr ⟨failure, by rw [htree]; rfl, ?_⟩
    obtain hnone | hlimit := hfollows.error failure hbase
    · cases hnone
    · exact hlimit
  | ok p =>
    obtain ⟨v, stop'⟩ := p
    obtain ⟨parts'', hparts, hstop⟩ := Option.map_eq_some_iff.1 (hfollows.ok _ hbase).symm
    cases hstop
    cases v with
    | object doc =>
      obtain ⟨⟨v, hv, hversion⟩, ⟨h, hh, hhost⟩, hcatalog⟩ := partsBy_eq_some.1 hparts
      refine .inl ⟨mergedMembers [] doc, ?_, ?_, ⟨h, hhost, ?_⟩, ?_⟩
      · rw [htree, hbase]
        show Except.map merged (if stop'.skipBlank.rest.isEmpty then _ else _) = _
        split <;> rfl
      · rw [lookup_mergedMembers, hv, eq_int_of_wordBy hversion]
        rfl
      · rw [lookup_mergedMembers, hh]
        rfl
      · rw [filter_isRest, hcatalog]
    | _ => cases hparts

/-- A save is read off a text that holds no document, for a number that no double can hold stands in a
member of the host's section that is no field of a snapshot. -/
theorem parse_of_read?_snapshot :
    let text := "\x7b\"save_version\":1,\"host\":\x7b\"clock\":3,\"mass\":1e400\x7d,\"verbs\":\x7b\x7d\x7d"
    ∃ parts : Parts Demo.Snapshot, read? text = .ok parts ∧
      ∃ failure, Json.parse text = .error failure ∧ failure.fault.IsLimit ∧
        InHost Demo.Snapshot.Unknown failure.place := by
  intro text
  obtain ⟨parts, hparts⟩ : ∃ parts, (read? (η := Demo.Snapshot) text).toOption = some parts :=
    Option.isSome_iff_exists.1 (by decide +kernel)
  have hread := toOption_eq_some_iff.1 hparts
  refine ⟨parts, hread, ?_⟩
  obtain ⟨stop, hstop, ⟨ms, hparse, -⟩ | hlimit⟩ := parse_of_read? Demo.Snapshot.decodes_reader hread
  · have hblank : (Json.Reader.out (reader (η := Demo.Snapshot)) (Json.Cursor.start text)).toOption.map
        (fun p => p.2.skipBlank.rest.isEmpty) = some true := by decide +kernel
    have hnone : (Json.parse text).toOption = none := Option.isNone_iff_eq_none.1 (by decide +kernel)
    rw [hstop] at hblank
    rw [hparse, if_pos (Option.some.inj hblank)] at hnone
    cases hnone
  · exact hlimit

/-- A save may be read off a text that goes on behind it and so holds no document. -/
theorem not_document_of_read? :
    ¬ ∀ (text : String) (parts : Parts Demo.Snapshot), read? text = .ok parts →
      ∃ v, Json.parse text = .ok v := by
  intro hall
  let text :=
    "\x7b\"save_version\":1,\"host\":\x7b\"clock\":1.5,\"resume_at\":null\x7d,\"verbs\":\x7b\x7d\x7d x"
  obtain ⟨parts, hparts⟩ : ∃ parts, (read? (η := Demo.Snapshot) text).toOption = some parts :=
    Option.isSome_iff_exists.1 (by decide +kernel)
  obtain ⟨v, hv⟩ := hall text parts (toOption_eq_some_iff.1 hparts)
  have hnone : (Json.parse text).toOption = none := Option.isNone_iff_eq_none.1 (by decide +kernel)
  rw [hv] at hnone
  cases hnone

end Save

end VerbScript
