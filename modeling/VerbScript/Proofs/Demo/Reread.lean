import VerbScript.Proofs.Catalog.StateOrder
import VerbScript.Proofs.Demo.Progress
import VerbScript.Proofs.Demo.Session
import VerbScript.Proofs.Demo.Shape
import VerbScript.Proofs.Save.Reread
import VerbScript.Proofs.Verb.Restoring

/-!
# Saves of the demo whose times may not read back

The times in a save may be read as other times. All the rest of what a session is reloaded as does not
depend on them (`Session.reloaded_of_restore`): the actors have the states that they had, and each verb has
the pointer that it had and the same steps, but for the times at which its waits began.
-/

namespace VerbScript

open Json (Reread RereadMember Printable NumberAt)

/-! ## Snapshots -/

namespace Demo.Snapshot

variable {s t : Snapshot} {h : Json}

theorem printable_toJson (s : Snapshot) (depth : Nat) : Printable (depth + 2) s.toJson := by
  refine .object (by simp [clockKey, resumeKey, statesKey]) ?_
  simp only [List.forall_mem_cons]
  refine ⟨.ofFloat _ s.clock, ?_, ?_, List.forall_mem_nil _⟩
  · cases s.resumeAt with
    | none => exact .null _
    | some x => exact .ofFloat _ x
  · refine .object ?_ fun m hm => ?_
    · simpa only [List.map_map, Function.comp_def] using s.actorStates.nodup_keys
    · obtain ⟨e, -, rfl⟩ := List.mem_map.1 hm
      exact .string _ e.2

/-- The numbers of a snapshot are in its fields. -/
theorem not_unknown_of_numberAt {p : Json.Place} (hp : NumberAt s.toJson p) : ¬ Unknown p := by
  rintro ⟨key, q, rfl, hkey⟩
  obtain ⟨v, hv, -⟩ := hp.exists_member
  exact hkey (List.mem_map_of_mem (f := (·.1)) hv)

/-- Members with texts are read as they were printed. -/
theorem eq_of_reread_strings {es : List (String × String)} {ms : List (String × Json)}
    (h : List.Forall₂ RereadMember (es.map fun e => (e.1, .string e.2)) ms) :
    ms = es.map fun e => (e.1, .string e.2) := by
  induction es generalizing ms with
  | nil =>
    cases h
    rfl
  | cons e es ih =>
    obtain ⟨_, _, ⟨_, hs⟩, hes, rfl⟩ := List.forall₂_cons_left_iff.1 h
    cases hs
    rw [ih hes]
    rfl

theorem tableBy_strings (es : List (String × String)) :
    Json.tableBy Json.string? (.object (es.map fun e => (e.1, .string e.2))) = some es := by
  have hfold (all : List (String × String)) :
      (es.map fun e => (e.1, Json.string e.2)).foldlM
        (fun all m => (Json.string? m.2).map fun x => (m.1, x) :: all) all = some (es.reverse ++ all) := by
    induction es generalizing all with
    | nil => rfl
    | cons e es ih =>
      rw [List.reverse_cons, List.append_assoc]
      exact ih _
  rw [Json.tableBy, Json.objectBy, hfold, Option.map_some, List.append_nil, List.reverse_reverse]

/-- The states of the actors do not depend on what the times are read as. -/
theorem actorStates_eq_of_reread (hread : Reread s.toJson h) (ht : ofTree h = some t) :
    t.actorStates = s.actorStates := by
  cases hread with
  | object hall =>
    obtain ⟨_, _, ⟨_, _⟩, hall', rfl⟩ := List.forall₂_cons_left_iff.1 hall
    obtain ⟨_, _, ⟨_, _⟩, hall'', rfl⟩ := List.forall₂_cons_left_iff.1 hall'
    obtain ⟨_, _, ⟨_, hstates⟩, hnil, rfl⟩ := List.forall₂_cons_left_iff.1 hall''
    cases hnil
    cases hstates with
    | object hstates =>
      obtain rfl := eq_of_reread_strings hstates
      obtain ⟨⟨clock, resumeAt, states⟩, hfields, hfinish⟩ := Option.bind_eq_some_iff.1 ht
      obtain ⟨-, -, hseen⟩ := foldlM_fieldBy_eq_some.1 hfields
      have hvalues {clock resumeAt states : Json} : Json.valuesOf statesKey
          [(clockKey, clock), (resumeKey, resumeAt), (statesKey, states)] = [states] := by
        simp [Json.valuesOf, clockKey, resumeKey, statesKey]
      rw [hvalues] at hseen
      obtain ⟨hnil, -⟩ | ⟨_, x, hv, hx, rfl⟩ := Json.seenBy_none_eq_some.1 hseen
      · cases hnil
      cases hv
      rw [statesBy, tableBy_strings, Option.map_some, Table.ofList_entries, Option.some_inj] at hx
      cases clock with
      | none => cases hfinish
      | some clock =>
        cases hfinish
        exact hx.symm

end Demo.Snapshot

/-! ## Verbs -/

section

variable {α ω : Type} [Action α ω]

/-- A verb that takes over what its runtime state is read as has the pointer that was written. -/
theorem Verb.ip_of_reread {v u w : Verb α} {state : Json} (hstate : Reread v.runtimeState state)
    (hread : (u.readRuntimeState state).value = (.ok (), w)) : w.ip = v.ip := by
  have hrestores : u.Restores state (.ok ()) w := by
    have := u.restores_readRuntimeState state
    rwa [hread] at this
  cases hstate with
  | object hall =>
    obtain ⟨_, _, ⟨_, hip⟩, hall', rfl⟩ := List.forall₂_cons_left_iff.1 hall
    obtain ⟨_, _, ⟨_, _⟩, hnil, rfl⟩ := List.forall₂_cons_left_iff.1 hall'
    cases hnil
    cases hrestores with
    | accepted hshape =>
      obtain ⟨hpair, -⟩ := hshape
      cases hpair with
      | object honly _ =>
        have hvalue := congrArg Prod.snd (List.cons.inj honly).1
        cases hvalue
        cases hip with
        | number h => exact h _ _ rfl rfl

/-- Verbs that take over what the runtime states of a catalog are read as have the pointers that were
written. -/
theorem Catalog.ip_of_reread {c d d' : Catalog α} {payload : Json} (hstate : Reread c.runtimeState payload)
    (hread : (d.readRuntimeState payload).value = (.ok (), d')) {id : String} {v u : Verb α}
    (hv : c.get? id = some v) (hu : d'.get? id = some u) : u.ip = v.ip := by
  cases hstate with
  | object hall =>
    obtain ⟨_, _, ⟨_, hstates⟩, hnil, rfl⟩ := List.forall₂_cons_left_iff.1 hall
    cases hnil
    cases hstates with
    | @object _ states hstates =>
      have hholds : HoldsStates states (.object [(verbsKey, .object states)]) := .object rfl
      have hkeys : (states.map (·.1)).Nodup := by
        rw [Json.map_fst_of_reread hstates]
        simpa only [List.map_map, Function.comp_def] using c.verbs.nodup_keys
      have haccepts := (readRuntimeState_eq_ok_iff hholds).1 hread
      have hmem : (id, v.runtimeState) ∈ c.verbs.entries.map fun e => (e.1, e.2.runtimeState) :=
        List.mem_map.2 ⟨(id, v), Table.mem_of_get? hv, rfl⟩
      obtain ⟨i, hi⟩ := List.getElem?_of_mem hmem
      obtain ⟨_, hi', hstate⟩ := exists_of_getElem?_forall₂ hstates.flip hi
      obtain ⟨_, hstate⟩ := hstate
      obtain ⟨_, w, -, htook, hw⟩ := haccepts.tookOver hkeys _ (List.mem_of_getElem? hi')
      obtain rfl : u = w := Option.some.inj (hu.symm.trans hw)
      exact Verb.ip_of_reread hstate htook

end

namespace Demo

/-! ## What a session is reloaded as -/

/-- Steps of the same kind whose actions differ in no more than when a wait began. -/
def Alike (s t : Step DemoAction) : Prop :=
  t.kind = s.kind ∧ t.action.unstarted = s.action.unstarted

theorem Alike.refl (s : Step DemoAction) : Alike s s := ⟨rfl, rfl⟩

theorem Alike.of_moved {s t : Step DemoAction} (h : s.Moved t) : Alike s t :=
  ⟨h.kind_eq, DemoAction.unstarted_of_moved h⟩

theorem Alike.of_kin {s t : Step DemoAction} (h : s.Kin t) : Alike s t := by
  obtain ⟨s₀, hs, ht⟩ := h
  exact ⟨ht.kind_eq.trans hs.kind_eq.symm,
    (DemoAction.unstarted_of_moved ht).trans (DemoAction.unstarted_of_moved hs).symm⟩

theorem Alike.trans {s t u : Step DemoAction} (hst : Alike s t) (htu : Alike t u) : Alike s u :=
  ⟨htu.1.trans hst.1, htu.2.trans hst.2⟩

theorem Alike.refl_list (ss : List (Step DemoAction)) : List.Forall₂ Alike ss ss :=
  List.forall₂_same.2 fun s _ => .refl s

theorem Alike.trans_list {ss ts us : List (Step DemoAction)} (hst : List.Forall₂ Alike ss ts)
    (htu : List.Forall₂ Alike ts us) : List.Forall₂ Alike ss us :=
  forall₂_comp hst htu fun _ _ _ => trans

/-- Verbs at the same step of steps that are alike. -/
structure Aligned (v u : Verb DemoAction) : Prop where
  id_eq : u.id = v.id
  policy_eq : u.policy = v.policy
  ip_eq : u.ip = v.ip
  steps : List.Forall₂ Alike v.steps u.steps

theorem Aligned.refl (v : Verb DemoAction) : Aligned v v :=
  ⟨rfl, rfl, rfl, Alike.refl_list v.steps⟩

theorem Aligned.trans {v u w : Verb DemoAction} (hvu : Aligned v u) (huw : Aligned u w) : Aligned v w :=
  ⟨huw.id_eq.trans hvu.id_eq, huw.policy_eq.trans hvu.policy_eq, huw.ip_eq.trans hvu.ip_eq,
    Alike.trans_list hvu.steps huw.steps⟩

theorem Aligned.phase_eq {v u : Verb DemoAction} (h : Aligned v u) : u.phase = v.phase := by
  rw [Verb.phase, Verb.phase, Verb.current?, Verb.current?, h.ip_eq, h.steps.length_eq]

/-- The session `u` is what the session `t` may be reloaded as, whatever its times are read as. -/
structure Session.Reloaded (t u : Session DemoAction) : Prop where
  registry_eq : u.registry = t.registry
  definitions_eq : u.definitions = t.definitions
  policy_eq : u.policy = t.policy
  verbs : ∀ id, Option.Rel Aligned (t.catalog.get? id) (u.catalog.get? id)
  states_eq : u.world.actorStates = t.world.actorStates
  effects_eq : u.world.effects = t.world.effects

theorem Session.Reloaded.refl (t : Session DemoAction) : t.Reloaded t := by
  refine ⟨rfl, rfl, rfl, fun id => ?_, rfl, rfl⟩
  cases t.catalog.get? id with
  | none => exact .none
  | some v => exact .some (.refl v)

theorem Session.Reloaded.exists_aligned {t u : Session DemoAction} (h : t.Reloaded u) {id : String}
    {v : Verb DemoAction} (hv : t.catalog.get? id = some v) :
    ∃ w, u.catalog.get? id = some w ∧ Aligned v w := by
  have hverb := h.verbs id
  rw [hv] at hverb
  generalize u.catalog.get? id = w? at hverb ⊢
  cases hverb with
  | some haligned => exact ⟨_, rfl, haligned⟩

theorem printable_captured {s : Step DemoAction} {p : Progress DemoAction}
    (hp : Action.progress? s.action = some p) (depth : Nat) : Printable (depth + 1) p.captured := by
  cases hs : s.action with
  | wait a =>
    rw [hs] at hp
    cases hp
    refine .object (by simp) fun m hm => ?_
    obtain rfl := List.mem_singleton.1 hm
    show Printable depth ((a.startedAt.map Json.ofFloat).getD .null)
    cases a.startedAt with
    | none => exact .null depth
    | some x => exact .ofFloat depth x
  | _ => rw [hs] at hp; cases hp

theorem printable_runtimeState (v : Verb DemoAction) (depth : Nat) :
    Printable (depth + 3) v.runtimeState := by
  refine .object (by simp [RuntimeState.ipKey, Definition.actionsKey]) ?_
  simp only [List.forall_mem_cons]
  refine ⟨.int _ v.ip, ?_, List.forall_mem_nil _⟩
  refine .array fun e he => ?_
  obtain ⟨s, -, hcaptured⟩ := List.mem_filterMap.1 he
  obtain ⟨p, hp, rfl⟩ := Option.map_eq_some_iff.1 hcaptured
  exact printable_captured hp depth

theorem printable_document (c : Catalog DemoAction) (s : Snapshot) :
    Printable Json.Reader.depthLimit (Save.document c.runtimeState s.toJson) := by
  refine .object ?_ ?_
  · show [Save.versionKey, Save.hostKey, Catalog.verbsKey].Nodup
    decide
  · show ∀ m ∈ [(Save.versionKey, Json.int Save.version), (Save.hostKey, s.toJson), (Catalog.verbsKey, _)], _
    simp only [List.forall_mem_cons]
    refine ⟨.int _ _, s.printable_toJson 124, .object ?_ fun m hm => ?_, List.forall_mem_nil _⟩
    · simpa only [List.map_map, Function.comp_def] using c.verbs.nodup_keys
    · obtain ⟨e, -, rfl⟩ := List.mem_map.1 hm
      exact printable_runtimeState e.2 122

/-- The verbs of a catalog that takes over what the runtime states of another one are read as are aligned with
those of the other one, if both were reached from the same definitions. -/
theorem aligned_of_reread {definitions payload : Json} {c d d' : Catalog DemoAction}
    (hc : Catalog.Reached registry definitions c) (hd : Catalog.Reached registry definitions d)
    (hpolicy : d.policy = c.policy) (hstate : Reread c.runtimeState payload)
    (hread : (d.readRuntimeState payload).value = (.ok (), d')) (id : String) :
    Option.Rel Aligned (c.get? id) (d'.get? id) := by
  have hmoved := d.moved_readRuntimeState payload
  have hd' := hd.restore payload
  rw [hread] at hmoved hd'
  have hkin := hc.kin hd' id
  generalize hv : c.get? id = v? at hkin ⊢
  generalize hu : d'.get? id = u? at hkin ⊢
  cases hkin with
  | none => exact .none
  | some hsteps =>
    obtain ⟨hvid, hvpolicy, -⟩ := hc.wellFormed id _ hv
    obtain ⟨huid, hupolicy, -⟩ := hd'.wellFormed id _ hu
    have hsame : d'.policy = c.policy := hmoved.policy_eq.trans hpolicy
    exact .some ⟨huid.trans hvid.symm, hupolicy.trans (hsame.trans hvpolicy.symm),
      Catalog.ip_of_reread hstate hread hv hu, hsteps.imp fun _ _ => .of_kin⟩

/-- A session that is restored from its own save into a catalog that was loaded anew is what it was, but for
the times. -/
theorem Session.reloaded_of_restore {t : Session DemoAction} (h : Sound Demo.registry t) {path : String}
    {c catalog : Catalog DemoAction} {snapshot : Snapshot}
    (hload : (loadCatalog t.registry t.definitions t.policy).value = .ok c)
    (hrestore : (Save.restore path c t.saveText).value = (.ok snapshot, catalog)) :
    t.Reloaded { t with catalog, world := t.world.restore snapshot } := by
  obtain ⟨hfresh, hpolicy⟩ := reached_loadCatalog (h.registry_eq ▸ hload)
  rw [Save.restore] at hrestore
  split at hrestore
  · cases hrestore
  next parts hparts =>
  split at hrestore
  · cases hrestore
  simp only at hrestore
  cases hread : (c.readRuntimeState parts.catalog).value with
  | mk result d =>
    rw [hread] at hrestore
    cases result with
    | error => cases hrestore
    | ok =>
      cases hrestore
      obtain ⟨⟨host, hhost, hof⟩, hcatalog⟩ := Save.reread_of_read? Snapshot.decodes_reader
        (printable_document t.catalog t.world.snapshot) (fun _ => Snapshot.not_unknown_of_numberAt)
        (by simp [Save.versionKey, Catalog.verbsKey]) (by simp [Save.hostKey, Catalog.verbsKey]) hparts
      exact ⟨rfl, rfl, rfl,
        aligned_of_reread h.reached hfresh (hpolicy.trans h.policy_eq.symm) hcatalog hread,
        Snapshot.actorStates_eq_of_reread hhost hof, rfl⟩

end Demo

end VerbScript
