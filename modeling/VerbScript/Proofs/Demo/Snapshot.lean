import VerbScript.Demo.World
import VerbScript.Proofs.Save.Format
import VerbScript.Proofs.Table

/-!
# Snapshots are read as they are written

A snapshot whose times read back is read as it is encoded (`Snapshot.hostKept`), whatever the
actors and their states are called.
-/

namespace VerbScript.Demo.Snapshot

open Json (Reader prettyChars ReadsBack)
open Json.Reader (ReadsSpaced Reads Gathers)

/-- The clock and the timer of a snapshot read back. -/
def TimesReadBack (s : Snapshot) : Prop := ReadsBack s.clock ∧ ∀ x ∈ s.resumeAt, ReadsBack x

instance (s : Snapshot) : Decidable s.TimesReadBack := inferInstanceAs (Decidable (_ ∧ _))

theorem reads_states (t : Table String) (level : Nat) :
    ReadsSpaced statesReader
      (prettyChars level (.object (t.entries.map fun (actor, state) => (actor, .string state)))) t := by
  have hmembers : List.Forall₂ (fun (m : String × Json) (e : String × String) => m.1 = e.1 ∧
      ReadsSpaced Reader.text (prettyChars (level + 1) m.2) e.2)
      (t.entries.map fun (actor, state) => (actor, .string state)) t.entries :=
    List.forall₂_map_left_iff.2
      (List.forall₂_same.2 fun e _ => ⟨rfl, Json.Reader.reads_text e.2 (level + 1)⟩)
  have hread := (Json.Reader.reads_membersOf hmembers).map Table.ofList
  rwa [Table.ofList_entries] at hread

/-- The fields of a snapshot are read one after the other. -/
theorem gathers_toJson {s : Snapshot} (h : s.TimesReadBack) (level : Nat) :
    Gathers field level {}
      [(clockKey, .ofFloat s.clock), (resumeKey, (s.resumeAt.map Json.ofFloat).getD .null),
        (statesKey, .object (s.actorStates.entries.map fun (actor, state) =>
          (actor, .string state)))]
      ⟨some s.clock, some s.resumeAt, some s.actorStates⟩ := by
  have hclock := (Json.Reader.reads_once (Json.Reader.reads_float h.1 (level + 1)) clockKey).map
    fun v => ({ clock := v } : Partial)
  have hresume := (Json.Reader.reads_once (Json.Reader.reads_optional_float h.2 (level + 1))
    resumeKey).map fun v => ({ clock := some s.clock, resumeAt := v } : Partial)
  have hstates := (Json.Reader.reads_once (reads_states s.actorStates (level + 1)) statesKey).map
    fun v => (⟨some s.clock, some s.resumeAt, v⟩ : Partial)
  exact .cons hclock (.cons hresume (.cons hstates (.nil _)))

/-- A snapshot whose times read back is read as it is encoded. -/
theorem hostKept {s : Snapshot} (h : s.TimesReadBack) : Save.HostKept s := by
  have hfinish : (⟨some s.clock, some s.resumeAt, some s.actorStates⟩ : Partial).finish = .ok s := rfl
  exact ⟨s.toJson, rfl,
    Json.Reader.reads_ofObjectOrArray ((gathers_toJson h 1).reads_record hfinish)⟩

end VerbScript.Demo.Snapshot
