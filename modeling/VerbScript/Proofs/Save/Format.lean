import VerbScript.Proofs.Json.Record
import VerbScript.Save.Format

/-!
# Saves are read as they are written

The text of a save is read as its three parts: the version, the host's section and the catalog's
document (`read?_render`). The catalog's members stand next to the other two, so none of them may
have the key of one of these.
-/

namespace VerbScript.Save

open Json (prettyChars Readable)
open Json.Reader (ReadsSpaced Reads Gathers)

variable {η : Type} [Host η]

/-- A host that is read as it is encoded. -/
def HostKept (host : η) : Prop :=
  ∃ h, Host.encode host = .ok h ∧
    ReadsSpaced (Host.reader (Json.Reader.depthLimit - 1)) (prettyChars 1 h) host

theorem field_of_ne {depth : Nat} {s : Partial η} {key : String} (hversion : key ≠ versionKey)
    (hhost : key ≠ hostKey) : field depth s key =
      .map (fun rest => { s with rest }) (Json.Reader.addMember (.value depth) s.rest key) := by
  rw [field, if_neg hversion, if_neg hhost]

/-- The members of a save are read one after the other. -/
theorem gathers_document {host : η} {h : Json} {ms : List (String × Json)}
    (hread : ReadsSpaced (Host.reader (Json.Reader.depthLimit - 1)) (prettyChars 1 h) host)
    (hkeys : (ms.map (·.1)).Nodup)
    (hms : ∀ m ∈ ms, Readable (Json.Reader.depthLimit - 1) m.2)
    (hversion : versionKey ∉ ms.map (·.1)) (hhost : hostKey ∉ ms.map (·.1)) :
    Gathers (field (Json.Reader.depthLimit - 1)) 0 {}
      ((versionKey, .int version) :: (hostKey, h) :: ms)
      (⟨some version, some host, ms⟩ : Partial η) := by
  have hfirst : Reads (field (Json.Reader.depthLimit - 1) ({} : Partial η) versionKey)
      (':' :: ' ' :: prettyChars 1 (.int version)) { version := some version } :=
    (Json.Reader.reads_once (Json.Reader.reads_word32 (by decide) 1) versionKey).map
      fun v => ({ version := v } : Partial η)
  have hsecond : Reads
      (field (Json.Reader.depthLimit - 1) ({ version := some version } : Partial η) hostKey)
      (':' :: ' ' :: prettyChars 1 h) { version := some version, host := some host } :=
    (Json.Reader.reads_once hread hostKey).map fun x => (⟨some version, x, []⟩ : Partial η)
  refine .cons hfirst (.cons hsecond ?_)
  refine Json.Reader.gathers_of_addMember
    (fun rest => (⟨some version, some host, rest⟩ : Partial η)) (fun acc m hm => ?_)
    ((List.nil_append ms).symm ▸ hkeys) fun m hm => (hms m hm).reads_pretty 1
  have hmem : m.1 ∈ ms.map (·.1) := List.mem_map_of_mem hm
  exact field_of_ne (fun heq => hversion (heq ▸ hmem)) fun heq => hhost (heq ▸ hmem)

/-- The text of a save is read as its parts. -/
theorem read?_render (ms : List (String × Json)) {host : η} (hkept : HostKept host)
    (hkeys : (ms.map (·.1)).Nodup)
    (hms : ∀ m ∈ ms, Readable (Json.Reader.depthLimit - 1) m.2)
    (hversion : versionKey ∉ ms.map (·.1)) (hhost : hostKey ∉ ms.map (·.1)) :
    ∃ text, render (.object ms) host = .ok text ∧
      read? text = .ok ⟨version, host, .object ms⟩ := by
  obtain ⟨h, hencode, hread⟩ := hkept
  have hfinish : (⟨some version, some host, ms⟩ : Partial η).finish =
      .ok ⟨version, host, .object ms⟩ := rfl
  have hreader : ReadsSpaced reader (prettyChars 0 (document (.object ms) h))
      (⟨version, host, .object ms⟩ : Parts η) :=
    Json.Reader.reads_ofObject
      ((gathers_document hread hkeys hms hversion hhost).reads_record hfinish)
  have hstart : (Json.Cursor.start (document (.object ms) h).pretty).rest =
      prettyChars 0 (document (.object ms) h) ++ [] := by
    simp [Json.Cursor.start, Json.pretty]
  obtain ⟨s, hs, hvalue, -⟩ := hreader.reads.at hstart Json.Reader.ends_nil
  refine ⟨_, by rw [render, hencode]; rfl, ?_⟩
  rw [read?, hs, ← hvalue]
  rfl

end VerbScript.Save
