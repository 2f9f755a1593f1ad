import VerbScript.Proofs.Demo.Kinds
import VerbScript.Proofs.Trace.Kinds
import VerbScript.Proofs.Verb.Definition

/-!
# Setting a property

Setting a property of a step to a text succeeds exactly if the property is declared, the text stands
for a value of its domain and the action takes this value. Then the property is that value and
nothing else has changed; if it fails, nothing has (`Registry.SetsExactly`). That rests on three
lists of names for each kind: those that it declares, those that its actions hand out and those that
they set. A registry is lawful if they agree, and its actions are ranged (`Registry.Ranged`) if what
they refuse is said by a range of values, and changes nothing.
-/

namespace VerbScript

open Property (Value Declaration)

variable {α ω : Type} [Action α ω]

/-- The progress of an action as it is written in a document, if it has any. -/
def Action.captured? (a : α) : Option Json := (Action.progress? a).map (·.captured)

namespace Registry

/-- Actions take the values in a range and refuse the others, which changes nothing; setting a
property leaves the progress as it is. -/
structure Ranged (r : Registry α) (tag : α → String) (inRange : α → String → Value → Prop) :
    Prop where
  ok_iff : ∀ k ∈ r.kinds, ∀ d ∈ k.properties, ∀ a : α, tag a = k.id → ∀ v, d.domain.Admits v →
    ((Action.setProperty a d.name v).1 = .ok () ↔ inRange a d.name v)
  refused : ∀ (a : α) name v e, (Action.setProperty a name v).1 = .error e →
    (Action.setProperty a name v).2 = a
  captured : ∀ (a : α) name v,
    Action.captured? (Action.setProperty a name v).2 = Action.captured? a

/-- What setting a property of the step to a text comes to. -/
structure SetsExactly (r : Registry α) (inRange : α → String → Value → Prop) (s : Step α)
    (name raw : String) : Prop where
  ok_iff : (r.setProperty s name raw).1 = .ok () ↔
    ∃ d v, r.declaration s.kind name = .ok d ∧ d.domain.coerce raw = .ok v ∧
      inRange s.action name v
  value : (r.setProperty s name raw).1 = .ok () →
    ∀ d v, r.declaration s.kind name = .ok d → d.domain.coerce raw = .ok v →
      Action.property? (r.setProperty s name raw).2.action name = some v
  refused : ∀ e, (r.setProperty s name raw).1 = .error e → (r.setProperty s name raw).2 = s
  kind_eq : (r.setProperty s name raw).2.kind = s.kind
  others : ∀ other, other ≠ name →
    Action.property? (r.setProperty s name raw).2.action other = Action.property? s.action other
  captured : Action.captured? (r.setProperty s name raw).2.action = Action.captured? s.action

/-- Each property that a kind declares can be set to a value, and is the value then. -/
def Settable (r : Registry α) (tag : α → String) : Prop :=
  ∀ k ∈ r.kinds, ∀ d ∈ k.properties, ∃ raw v, d.domain.coerce raw = .ok v ∧
    ∀ s : Step α, s.kind = k.id → tag s.action = s.kind →
      (r.setProperty s d.name raw).1 = .ok () ∧
        Action.property? (r.setProperty s d.name raw).2.action d.name = some v

variable {r : Registry α} {tag : α → String} {inRange : α → String → Value → Prop} {k : Kind α}
  {s : Step α}

/-- A property that is not declared, or a text that stands for nothing, is refused as such. -/
theorem setProperty_of_error {name raw : String} {e : Error}
    (h : r.coerce s name raw = .error e) : r.setProperty s name raw = (.error e, s) := by
  rw [setProperty, h]

/-- A text that stands for a value sets the action's property to the value. -/
theorem setProperty_of_ok {name raw : String} {v : Value} (h : r.coerce s name raw = .ok v) :
    r.setProperty s name raw =
      ((Action.setProperty s.action name v).1.mapError fun e =>
          .invalidValue s.kind name raw e.message,
        { s with action := (Action.setProperty s.action name v).2 }) := by
  rw [setProperty, h]

theorem coerce_eq_ok_iff {name raw : String} {v : Value} :
    r.coerce s name raw = .ok v ↔
      ∃ d, r.declaration s.kind name = .ok d ∧ d.domain.coerce raw = .ok v := by
  rw [coerce, bind_eq_ok_iff]
  refine exists_congr fun d => and_congr_right fun _ => ?_
  cases d.domain.coerce raw <;> simp

theorem mem_of_declaration {name : String} {d : Declaration} (hk : r.kind? s.kind = some k)
    (h : r.declaration s.kind name = .ok d) : d ∈ k.properties ∧ d.name = name := by
  rw [declaration_of_kind? hk] at h
  split at h
  · next hd =>
    cases h
    exact mem_of_declaration? hd
  · cases h

/-- Properties of a step are set exactly, whatever state its action is in. -/
theorem Lawful.setsExactly (hr : r.Lawful tag) (hrange : r.Ranged tag inRange)
    (hk : r.kind? s.kind = some k) (ha : tag s.action = k.id) (name raw : String) :
    r.SetsExactly inRange s name raw := by
  obtain ⟨-, hmem, -⟩ := kind_of_kind? hk
  cases hc : r.coerce s name raw with
  | error e =>
    have hset := setProperty_of_error hc
    have hnone (v : Value) : r.coerce s name raw ≠ .ok v := by rw [hc]; nofun
    refine ⟨?_, ?_, ?_, ?_, ?_, ?_⟩ <;> rw [hset]
    · refine iff_of_false nofun ?_
      rintro ⟨d, v, hd, hv, -⟩
      exact hnone v (coerce_eq_ok_iff.2 ⟨d, hd, hv⟩)
    · nofun
    · exact fun _ _ => rfl
    · exact fun _ _ => rfl
  | ok v =>
    obtain ⟨d, hd, hv⟩ := coerce_eq_ok_iff.1 hc
    obtain ⟨hdmem, rfl⟩ := mem_of_declaration hk hd
    have hadmits := Property.Domain.admits_of_coerce hv
    have haccepts := hrange.ok_iff k hmem d hdmem s.action ha v hadmits
    have htakes := hr.takes k hmem d hdmem s.action ha v hadmits
    have hset := setProperty_of_ok hc
    have hok : (r.setProperty s d.name raw).1 = .ok () ↔
        (Action.setProperty s.action d.name v).1 = .ok () := by
      rw [hset]
      cases (Action.setProperty s.action d.name v).1 <;> simp [Except.mapError]
    -- the declaration and the value are the only ones that are meant
    have hunique {d' : Declaration} {v' : Value} (hd' : r.declaration s.kind d.name = .ok d')
        (hv' : d'.domain.coerce raw = .ok v') : v' = v := by
      cases hd.symm.trans hd'
      cases hv.symm.trans hv'
      rfl
    refine ⟨?accepted, ?value, ?refused, ?kind, ?others, ?captured⟩
    case accepted =>
      rw [hok, haccepts]
      constructor
      · exact fun h => ⟨d, v, hd, hv, h⟩
      · rintro ⟨d', v', hd', hv', h⟩
        exact hunique hd' hv' ▸ h
    case value =>
      intro h d' v' hd' hv'
      rw [hok] at h
      rw [hset, hunique hd' hv', htakes, h]
      rfl
    case refused =>
      intro e he
      rw [hset] at he ⊢
      cases hres : (Action.setProperty s.action d.name v).1 with
      | ok => rw [hres] at he; cases he
      | error cause => simp only [hrange.refused _ _ _ _ hres]
    case kind => rw [hset]
    case others =>
      intro other hother
      rw [hset]
      exact hr.property?_setProperty_of_ne s.action d.name v other hother
    case captured =>
      rw [hset]
      exact hrange.captured s.action d.name v

/-- A property is settable if some text stands for a value that the actions of its kind take. -/
theorem Lawful.settable (hr : r.Lawful tag) (hrange : r.Ranged tag inRange)
    (hkind : ∀ k ∈ r.kinds, r.kind? k.id = some k)
    (hsample : ∀ k ∈ r.kinds, ∀ d ∈ k.properties, ∃ raw v, d.domain.coerce raw = .ok v ∧
      ∀ a, tag a = k.id → inRange a d.name v) : r.Settable tag := by
  intro k hmem d hd
  obtain ⟨raw, v, hv, hin⟩ := hsample k hmem d hd
  refine ⟨raw, v, hv, fun s hs ha => ?_⟩
  have hk : r.kind? s.kind = some k := hs ▸ hkind k hmem
  have hexact := hr.setsExactly hrange hk (ha.trans hs) d.name raw
  have hdecl : r.declaration s.kind d.name = .ok d := by
    rw [declaration_of_kind? hk, Definition.declaration?_of_mem hr hmem hd]
  have hok := hexact.ok_iff.2 ⟨d, v, hdecl, hv, hin s.action (ha.trans hs)⟩
  exact ⟨hok, hexact.value hok d v hdecl hv⟩

end Registry

/-! ## The demo's kinds -/

namespace Demo

/-- The values that an action takes: a volume is within 0 and 1, and a time is not negative. -/
def DemoAction.InRange : DemoAction → String → Value → Prop
  | .sound _, name, v => name = "volume" → ∀ x, v = .float x → 0.0 ≤ x ∧ x ≤ 1.0
  | .wait _, name, v => name = "time" → ∀ x, v = .float x → ¬ x < 0.0
  | _, _, _ => True

theorem PlaySound.ok_iff_inRange (a : PlaySound) :
    ∀ d ∈ commonProperties ++ [⟨"sound", .text⟩, ⟨"volume", .float⟩], ∀ v, d.domain.Admits v →
      ((Action.setProperty (DemoAction.sound a) d.name v).1 = .ok () ↔
        DemoAction.InRange (.sound a) d.name v) := by
  simp only [commonProperties, List.cons_append, List.nil_append, List.forall_mem_cons]
  refine ⟨?comment, ?sound, ?volume, List.forall_mem_nil _⟩
  case comment | sound =>
    intro v hv
    cases hv
    simp [Action.setProperty, DemoAction.InRange]
  case volume =>
    intro v hv
    cases hv with
    | @float x hx =>
      by_cases hrange : 0.0 ≤ x ∧ x ≤ 1.0
      all_goals simp [Action.setProperty, Value.float?, DemoAction.InRange, hrange]

theorem Wait.ok_iff_inRange (a : Wait) :
    ∀ d ∈ commonProperties ++ [⟨"time", .float⟩], ∀ v, d.domain.Admits v →
      ((Action.setProperty (DemoAction.wait a) d.name v).1 = .ok () ↔
        DemoAction.InRange (.wait a) d.name v) := by
  simp only [commonProperties, List.cons_append, List.nil_append, List.forall_mem_cons]
  refine ⟨?comment, ?time, List.forall_mem_nil _⟩
  case comment =>
    intro v hv
    cases hv
    simp [Action.setProperty, DemoAction.InRange]
  case time =>
    intro v hv
    cases hv with
    | @float x hx =>
      by_cases hrange : x < 0.0
      all_goals simp [Action.setProperty, Value.float?, DemoAction.InRange, hrange]

namespace DemoAction

theorem ok_iff_inRange {k : Kind DemoAction} (hk : k ∈ kinds) {d : Declaration}
    (hd : d ∈ k.properties) {a : DemoAction} (ha : tag a = k.id) {v : Value}
    (hv : d.domain.Admits v) :
    (Action.setProperty a d.name v).1 = .ok () ↔ InRange a d.name v := by
  simp only [kinds, List.mem_cons, List.not_mem_nil, or_false] at hk
  rcases hk with rfl | rfl | rfl | rfl | rfl
  all_goals
    cases a
    all_goals try (simp [tag] at ha; done)
  · exact PlaySound.ok_iff_inRange _ d hd v hv
  · exact Wait.ok_iff_inRange _ d hd v hv
  all_goals
    refine iff_of_true ?_ trivial
    simp only [commonProperties, List.cons_append, List.nil_append, List.mem_cons,
      List.not_mem_nil, or_false] at hd
  · rcases hd with rfl | rfl | rfl | rfl
    all_goals rfl
  · rcases hd with rfl | rfl | rfl
    all_goals rfl
  · obtain rfl := hd
    rfl

/-- What an action refuses does not change it. -/
theorem setProperty_refused (a : DemoAction) (name : String) (v : Value) (e : ActionError)
    (h : (Action.setProperty a name v).1 = .error e) : (Action.setProperty a name v).2 = a := by
  cases a
  all_goals
    simp only [Action.setProperty, Prod.map, id_eq] at h ⊢
    split_ifs at h ⊢
    all_goals simp_all

theorem captured?_setProperty (a : DemoAction) (name : String) (v : Value) :
    Action.captured? (Action.setProperty a name v).2 = Action.captured? a := by
  cases a with
  | wait a =>
    simp only [Action.captured?, Action.progress?, Action.setProperty, Prod.map, Option.map_some,
      Progress.mapAction]
    split_ifs
    all_goals rfl
  | _ => rfl

end DemoAction

theorem registry_ranged : registry.Ranged DemoAction.tag DemoAction.InRange where
  ok_iff _ hk _ hd _ ha _ hv := DemoAction.ok_iff_inRange hk hd ha hv
  refused := DemoAction.setProperty_refused
  captured := DemoAction.captured?_setProperty

theorem DemoAction.kind?_tag (a : DemoAction) : ∃ k, registry.kind? a.tag = some k := by
  cases a
  all_goals exact ⟨_, rfl⟩

theorem setsExactly {s : Step DemoAction} (hs : s.action.tag = s.kind) (name raw : String) :
    registry.SetsExactly DemoAction.InRange s name raw := by
  obtain ⟨k, hk⟩ := s.action.kind?_tag
  obtain ⟨-, -, hid⟩ := Registry.kind_of_kind? hk
  exact registry_lawful.setsExactly registry_ranged (hs ▸ hk) hid.symm name raw

/-- Half is a volume and a time. -/
theorem DemoAction.inRange_half (a : DemoAction) (name : String) :
    a.InRange name (.float 0.5) := by
  have hlow : (0.0 : Float) ≤ 0.5 := by decide
  have hhigh : (0.5 : Float) ≤ 1.0 := by decide
  have hpos : ¬ (0.5 : Float) < 0.0 := by decide
  cases a with
  | sound _ =>
    rintro - x ⟨⟩
    exact ⟨hlow, hhigh⟩
  | wait _ =>
    rintro - x ⟨⟩
    exact hpos
  | _ => trivial

theorem DemoAction.inRange_text (a : DemoAction) (name : String) (t : String) :
    a.InRange name (.text t) := by
  cases a with
  | sound _ | wait _ => rintro - x ⟨⟩
  | _ => trivial

theorem settable : registry.Settable DemoAction.tag := by
  refine registry_lawful.settable registry_ranged ?kinds ?sample
  case kinds => simp [registry, kinds, Registry.kind?]
  case sample =>
    have hdomain : ∀ k ∈ registry.kinds, ∀ d ∈ k.properties,
        d.domain = .text ∨ d.domain = .float ∨ d.domain = .choice ShowText.styles := by
      simp [registry, kinds, commonProperties]
    intro k hk d hd
    rcases hdomain k hk d hd with h | h | h
    all_goals rw [h]
    · exact ⟨"", .text "", rfl, fun a _ => a.inRange_text d.name ""⟩
    · exact ⟨"0.5", .float 0.5, rfl, fun a _ => a.inRange_half d.name⟩
    · exact ⟨"plain", .text "plain", rfl, fun a _ => a.inRange_text d.name "plain"⟩

end Demo

/-! ## The kinds that leave a trace -/

namespace Trace

namespace TraceAction

/-- A trace's actions take every value. -/
theorem setProperty_ok {k : Kind TraceAction} (hk : k ∈ kinds) {d : Declaration}
    (hd : d ∈ k.properties) {a : TraceAction} (ha : tag a = k.id) (v : Value) :
    (Action.setProperty a d.name v).1 = .ok () := by
  simp only [kinds, List.mem_cons, List.not_mem_nil, or_false] at hk
  rcases hk with rfl | rfl | rfl
  all_goals
    cases a
    all_goals try (simp [tag] at ha; done)
  all_goals
    simp only [List.mem_cons, List.not_mem_nil, or_false] at hd
  · rcases hd with rfl | rfl | rfl | rfl
    all_goals rfl
  · obtain rfl := hd
    rfl

theorem setProperty_refused (a : TraceAction) (name : String) (v : Value) (e : ActionError)
    (h : (Action.setProperty a name v).1 = .error e) : (Action.setProperty a name v).2 = a := by
  cases a
  all_goals
    simp only [Action.setProperty, Prod.map, id_eq] at h ⊢
    try split_ifs at h ⊢
    all_goals simp_all

theorem captured?_setProperty (a : TraceAction) (name : String) (v : Value) :
    Action.captured? (Action.setProperty a name v).2 = Action.captured? a := by
  cases a with
  | pause a =>
    simp only [Action.captured?, Action.progress?, Action.setProperty, Prod.map, Option.map_some,
      Progress.mapAction]
    split_ifs
    all_goals rfl
  | _ => rfl

end TraceAction

theorem registry_ranged : registry.Ranged TraceAction.tag fun _ _ _ => True where
  ok_iff _ hk _ hd _ ha v _ := iff_of_true (TraceAction.setProperty_ok hk hd ha v) trivial
  refused := TraceAction.setProperty_refused
  captured := TraceAction.captured?_setProperty

theorem TraceAction.kind?_tag (a : TraceAction) : ∃ k, registry.kind? a.tag = some k := by
  cases a
  all_goals exact ⟨_, rfl⟩

theorem setsExactly {s : Step TraceAction} (hs : s.action.tag = s.kind) (name raw : String) :
    registry.SetsExactly (fun _ _ _ => True) s name raw := by
  obtain ⟨k, hk⟩ := s.action.kind?_tag
  obtain ⟨-, -, hid⟩ := Registry.kind_of_kind? hk
  exact registry_lawful.setsExactly registry_ranged (hs ▸ hk) hid.symm name raw

theorem settable : registry.Settable TraceAction.tag := by
  refine registry_lawful.settable registry_ranged ?kinds ?sample
  case kinds => simp [registry, kinds, Registry.kind?]
  case sample =>
    have hdomain : ∀ k ∈ registry.kinds, ∀ d ∈ k.properties,
        d.domain = .text ∨ d.domain = .int ∨ d.domain = .bool ∨ d.domain = .float := by
      simp [registry, kinds]
    intro k hk d hd
    rcases hdomain k hk d hd with h | h | h | h
    all_goals rw [h]
    · exact ⟨"", .text "", rfl, fun _ _ => trivial⟩
    · exact ⟨"0", .int 0, rfl, fun _ _ => trivial⟩
    · exact ⟨"true", .bool true, rfl, fun _ _ => trivial⟩
    · exact ⟨"0.5", .float 0.5, rfl, fun _ _ => trivial⟩

end Trace

/-- Setting a property of any step of the demo, or of one that leaves a trace, succeeds exactly on a
text for a value in range of a declared property, sets this property to exactly this value, and
touches neither the other properties nor the progress; a failure touches nothing. Each declared
property can be set and read. -/
theorem Registry.setProperty_exact :
    ((∀ s : Step Demo.DemoAction, s.action.tag = s.kind → ∀ name raw,
        Demo.registry.SetsExactly Demo.DemoAction.InRange s name raw) ∧
      Demo.registry.Settable Demo.DemoAction.tag) ∧
    (∀ s : Step Trace.TraceAction, s.action.tag = s.kind → ∀ name raw,
        Trace.registry.SetsExactly (fun _ _ _ => True) s name raw) ∧
      Trace.registry.Settable Trace.TraceAction.tag :=
  ⟨⟨fun _ => Demo.setsExactly, Demo.settable⟩, fun _ => Trace.setsExactly, Trace.settable⟩

/-- A wait that has begun gets another time and keeps the one at which it began; a sound keeps its
volume where the new one is too loud; a pause that has counted seconds goes on from there. -/
theorem Registry.setProperty_exact_started :
    let wait : Step Demo.DemoAction := ⟨"wait", .wait { time := some 1.0, startedAt := some 0.25 }⟩
    let sound : Step Demo.DemoAction := ⟨"sound", .sound { volume := some 0.5 }⟩
    let pause : Step Trace.TraceAction := ⟨"pause", .pause { elapsed := 1.5 }⟩
    (wait.action.tag = wait.kind ∧ sound.action.tag = sound.kind ∧ pause.action.tag = pause.kind) ∧
    (Action.property? (Demo.registry.setProperty wait "time" " 2.5 ").2.action "time" =
        some (.float 2.5) ∧
      Action.captured? (Demo.registry.setProperty wait "time" " 2.5 ").2.action =
        some (.object [("started_at", .ofFloat 0.25)])) ∧
    Demo.registry.setProperty sound "volume" "1.5" =
      (.error (.invalidValue "sound" "volume" "1.5" "volume must be within 0..=1"), sound) ∧
    Action.captured? (Trace.registry.setProperty pause "seconds" "3").2.action =
      some (.object [("elapsed", .ofFloat 1.5)]) := by
  intro wait sound pause
  obtain ⟨⟨hdemo, -⟩, htrace, -⟩ := setProperty_exact
  have hwait := hdemo wait rfl "time" " 2.5 "
  have hsound := hdemo sound rfl "volume" "1.5"
  have hpause := htrace pause rfl "seconds" "3"
  have hloud : (Demo.registry.setProperty sound "volume" "1.5").1 =
      .error (.invalidValue "sound" "volume" "1.5" "volume must be within 0..=1") := by
    decide +kernel
  refine ⟨⟨rfl, rfl, rfl⟩, ⟨?_, ?_⟩, ?_, ?_⟩
  · exact hwait.value (by decide +kernel) ⟨"time", .float⟩ (.float 2.5) rfl rfl
  · exact hwait.captured
  · exact Prod.ext hloud (hsound.refused _ hloud)
  · exact hpause.captured

end VerbScript
