import VerbScript.Proofs.Verb.LifeCycle
import VerbScript.Trace.Kinds

/-!
# Suspensions do not show

Under the policy that goes on after a failure, a verb that is run, and resumed in the world it left
for as long as it is suspended, comes to what one pass over its steps comes to (`pass`): every
action is executed once, in order, whatever it answers. It is suspended at the steps that answer
that they block, one after the other, so there are as many resumptions as such answers
(`Verb.run_resumed_eq_pass`). A sweep is the pass up to the step that blocks, and the pass over the
steps behind it is left to do (`sweep_proceed_cases`).
-/

namespace VerbScript

variable {α ω : Type}

/-- What executing every step once comes to. -/
structure Pass (α ω : Type) where
  steps : List (Step α)
  world : ω
  /-- What the actions answered, in the order of the steps. -/
  results : List (Except ActionError Status)

/-- Executes every step once, from the first to the last, whatever the actions answer. -/
def pass [Action α ω] : List (Step α) → ω → Pass α ω
  | [], w => ⟨[], w, []⟩
  | s :: rest, w =>
    let x := Action.execute s.action w
    let p := pass rest x.world
    ⟨{ s with action := x.action } :: p.steps, p.world, x.result :: p.results⟩

/-- Whether an action answered that it blocks. -/
def isBlocking : Except ActionError Status → Bool
  | .ok .blocking => true
  | _ => false

/-- The places of the steps that answered that they block, the first answer being that of the step
with the index `i`. -/
def stops (i : Nat) : List (Except ActionError Status) → List Nat
  | [] => []
  | r :: rest => if isBlocking r then i :: stops (i + 1) rest else stops (i + 1) rest

theorem isBlocking_iff {r : Except ActionError Status} :
    isBlocking r = true ↔ r = .ok .blocking := by
  unfold isBlocking
  split <;> simp_all

theorem length_stops (i : Nat) (results : List (Except ActionError Status)) :
    (stops i results).length = results.countP isBlocking := by
  induction results generalizing i with
  | nil => rfl
  | cons r rest ih =>
    rw [stops, List.countP_cons]
    split
    · rw [List.length_cons, ih]
    · rw [ih, Nat.add_zero]

/-- The turn after `n` resumptions, each in the world that the turn before it left. -/
def Turn.resumed [Action α ω] (t : Turn α ω) : Nat → Turn α ω
  | 0 => t
  | n + 1 => (t.verb.resume t.world).resumed n

variable [Action α ω]

theorem length_pass (steps : List (Step α)) (w : ω) :
    (pass steps w).steps.length = steps.length ∧ (pass steps w).results.length = steps.length := by
  induction steps generalizing w with
  | nil => exact ⟨rfl, rfl⟩
  | cons s rest ih =>
    obtain ⟨hsteps, hresults⟩ := ih (Action.execute s.action w).world
    exact ⟨congrArg Nat.succ hsteps, congrArg Nat.succ hresults⟩

/-- A sweep that goes on after failures is the pass over its steps, or the pass up to the first step
that blocks. -/
theorem sweep_proceed_cases (verb : String) (i : Nat) (steps : List (Step α)) (w : ω) :
    let s := sweep .proceed verb i steps w
    let p := pass steps w
    (s.halt = .finished ∧ s.steps = p.steps ∧ s.world = p.world ∧ stops i p.results = []) ∨
      ∃ n < steps.length, s.halt = .blocked (i + n) ∧
        s.steps.drop (n + 1) = steps.drop (n + 1) ∧
        let q := pass (steps.drop (n + 1)) s.world
        p.steps = s.steps.take (n + 1) ++ q.steps ∧ p.world = q.world ∧
          stops i p.results = (i + n) :: stops (i + n + 1) q.results := by
  induction steps generalizing i w with
  | nil => exact .inl ⟨rfl, rfl, rfl, rfl⟩
  | cons s rest ih =>
    rcases sweep_cons .proceed verb i s rest w with ⟨_, hresult, h⟩ | ⟨_, hresult, h⟩ | ⟨_, _, -, h⟩
    · -- the step is passed, and the steps behind it are swept
      have hpassed : ¬ isBlocking (Action.execute s.action w).result = true :=
        fun hblocks => hresult (isBlocking_iff.1 hblocks)
      simp only [h, pass, stops, if_neg hpassed]
      rcases ih (i + 1) (Action.execute s.action w).world with
        ⟨hhalt, hsteps, hworld, hstops⟩ | ⟨n, hn, hhalt, hdrop, hsteps, hworld, hstops⟩
      · exact .inl ⟨hhalt, congrArg _ hsteps, hworld, hstops⟩
      · have hplace : i + 1 + n = i + (n + 1) := by omega
        rw [hplace] at hhalt hstops
        exact .inr ⟨n + 1, Nat.succ_lt_succ hn, hhalt, hdrop, congrArg _ hsteps, hworld, hstops⟩
    · -- the step blocks, and the steps behind it are not touched
      simp only [h, pass, stops, if_pos (isBlocking_iff.2 hresult)]
      exact .inr ⟨0, Nat.succ_pos _, rfl, rfl, rfl, rfl, rfl⟩
    · cases policy_of_failed (congrArg Sweep.halt h)

namespace Turn

/-- What has been logged does not matter to resumptions. -/
theorem resumed_of_events (t : Turn α ω) (events : List Log.Event) (n : Nat) :
    let u : Turn α ω := { t with events }
    (u.resumed n).outcome = (t.resumed n).outcome ∧ (u.resumed n).verb = (t.resumed n).verb ∧
      (u.resumed n).world = (t.resumed n).world := by
  cases n with
  | zero => exact ⟨rfl, rfl, rfl⟩
  | succ n => exact ⟨rfl, rfl, rfl⟩

end Turn

namespace Verb

variable {v : Verb α}

/-- A turn that goes on after failures comes to what the pass over the steps comes to, or it leaves
the verb suspended, and the pass over the steps behind the one that blocks is left to do. -/
theorem runFrom_proceed (hpolicy : v.policy = .proceed) {start : Nat}
    (hstart : start ≤ v.steps.length) (w : ω) :
    let t := v.runFrom start w
    let p := pass (v.steps.drop start) w
    let passed : Verb α := { v with steps := v.steps.take start ++ p.steps, ip := v.steps.length }
    (stops start p.results = [] ∧ t.outcome = .ok .finished ∧ t.world = p.world ∧ t.verb = passed) ∨
      ∃ i < v.steps.length, t.outcome = .ok (.suspended i) ∧ t.verb.phase = .suspended i ∧
        t.verb.policy = .proceed ∧ t.verb.steps.length = v.steps.length ∧
        let q := pass (t.verb.steps.drop (i + 1)) t.world
        stops start p.results = i :: stops (i + 1) q.results ∧ p.world = q.world ∧
          passed = { t.verb with
            steps := t.verb.steps.take (i + 1) ++ q.steps, ip := t.verb.steps.length } := by
  have hbefore : (v.steps.take start).length = start := by
    rw [List.length_take, Nat.min_eq_left hstart]
  have hsweep := sweep_proceed_cases v.id start (v.steps.drop start) w
  obtain ⟨hworld, hlength, hcases⟩ := v.runFrom_cases hstart w
  simp only [hpolicy] at hworld hlength hcases
  generalize sweep .proceed v.id start (v.steps.drop start) w = s at hsweep hworld hlength hcases
  obtain ⟨hhalt, hsteps, hpass, hstops⟩ | ⟨n, -, hhalt, hdrop, hsteps, hpass, hstops⟩ := hsweep
  · obtain ⟨-, houtcome, hverb⟩ | ⟨_, hother, -⟩ | ⟨_, _, _, hother, -⟩ := hcases
    · refine .inl ⟨hstops, houtcome, hworld.trans hpass, ?_⟩
      rw [hverb, hlength, hsteps, hpolicy]
    all_goals cases hother.symm.trans hhalt
  · obtain ⟨hother, -⟩ | ⟨i, hblocked, -, hlt, houtcome, hverb⟩ | ⟨_, _, _, hother, -⟩ := hcases
    · cases hother.symm.trans hhalt
    · cases hblocked.symm.trans hhalt
      have hphase := (agrees_runFrom hstart w).ok _ houtcome
      rw [hverb] at hphase
      have hplace : start + n + 1 = (v.steps.take start).length + (n + 1) := by omega
      refine .inr ⟨start + n, hlength ▸ hlt, houtcome, ?_⟩
      rw [hverb, hworld]
      refine ⟨hphase, rfl, hlength, ?_⟩
      simp only [hplace, List.drop_length_add_append, List.take_length_add_append, hdrop]
      exact ⟨hplace ▸ hstops, hpass, by rw [hlength, hsteps, List.append_assoc, hpolicy]⟩
    · cases hother.symm.trans hhalt

/-- A turn from one of the steps on, and the resumptions that follow it, come to what the pass over
these steps comes to. -/
theorem resumed_runFrom (hpolicy : v.policy = .proceed) {start : Nat}
    (hstart : start ≤ v.steps.length) (w : ω) :
    let p := pass (v.steps.drop start) w
    let remaining := stops start p.results
    (∀ k i, remaining[k]? = some i → ((v.runFrom start w).resumed k).outcome = .ok (.suspended i)) ∧
    let t := (v.runFrom start w).resumed remaining.length
    t.outcome = .ok .finished ∧ t.world = p.world ∧
      t.verb = { v with steps := v.steps.take start ++ p.steps, ip := v.steps.length } := by
  intro p remaining
  -- With each resumption, one step less remains that blocks.
  induction hremaining : remaining generalizing v start w with
  | nil =>
    obtain ⟨-, hdone⟩ | ⟨i, -, -, -, -, -, hblocked, -⟩ := runFrom_proceed hpolicy hstart w
    · exact ⟨nofun, hdone⟩
    · cases hblocked.symm.trans hremaining
  | cons i remaining ih =>
    obtain ⟨hnone, -⟩ | ⟨j, hj, houtcome, hphase, hpolicy', hlength, hblocked, hworld, hpassed⟩ :=
      runFrom_proceed hpolicy hstart w
    · cases hnone.symm.trans hremaining
    · obtain ⟨rfl, hrest⟩ := List.cons.inj (hblocked.symm.trans hremaining)
      obtain ⟨hstopped, hdone, hworld', hverb⟩ :=
        ih hpolicy' (hlength ▸ hj : j + 1 ≤ _) (v.runFrom start w).world hrest
      rw [← resume_of_suspended hphase] at hstopped hdone hworld' hverb
      refine ⟨fun k i hk => ?_, hdone, hworld'.trans hworld.symm, hverb.trans hpassed.symm⟩
      cases k with
      | zero => exact Option.some.inj hk ▸ houtcome
      | succ k => exact hstopped k i hk

/-- A verb that is run, and resumed in the world it left until it has finished, leaves the world and
the actions as one pass over its steps does, which executes each once and does not mind the answers.
There are as many resumptions as steps that block, and the verb is suspended at each of these in
turn. -/
theorem run_resumed_eq_pass (hidle : ∀ i, v.phase ≠ .suspended i) (hpolicy : v.policy = .proceed)
    (w : ω) :
    let p := pass v.steps w
    let blocks := p.results.countP isBlocking
    p.results.length = v.steps.length ∧
    (∀ k < blocks, ∃ i, (stops 0 p.results)[k]? = some i ∧
      ((v.run w).resumed k).outcome = .ok (.suspended i)) ∧
    let t := (v.run w).resumed blocks
    t.outcome = .ok .finished ∧ t.world = p.world ∧
      t.verb = { v with steps := p.steps, ip := v.steps.length } := by
  intro p blocks
  have hblocks : (stops 0 p.results).length = blocks := length_stops 0 p.results
  obtain ⟨hstopped, hdone⟩ := resumed_runFrom hpolicy (Nat.zero_le _) w
  have hrun (k : Nat) := (v.runFrom 0 w).resumed_of_events
    (.verbStarted v.id v.steps.length :: (v.runFrom 0 w).events) k
  rw [← run_of_not_suspended hidle] at hrun
  refine ⟨(length_pass v.steps w).2, fun k hk => ?_, ?_⟩
  · have hk : k < (stops 0 p.results).length := hblocks ▸ hk
    have hstop := List.getElem?_eq_getElem hk
    exact ⟨_, hstop, (hrun k).1.trans (hstopped k _ hstop)⟩
  · obtain ⟨houtcome, hverb, hworld⟩ := hrun blocks
    rw [← hblocks] at houtcome hverb hworld ⊢
    exact ⟨houtcome.trans hdone.1, hworld.trans hdone.2.1, hverb.trans hdone.2.2⟩

/-- A verb that begins and ends with steps that block, with one that fails between them. -/
theorem run_resumed_eq_pass_pauses :
    let v : Verb Trace.TraceAction :=
      { id := "use", steps := [⟨"pause", .pause {}⟩, ⟨"broken", .broken {}⟩, ⟨"note", .note {}⟩,
        ⟨"pause", .pause {}⟩, ⟨"pause", .pause {}⟩] }
    let w : Trace.World := {}
    (v.run w).outcome = .ok (.suspended 0) ∧ ((v.run w).resumed 1).outcome = .ok (.suspended 3) ∧
      ((v.run w).resumed 2).outcome = .ok (.suspended 4) ∧
      ((v.run w).resumed 3).outcome = .ok .finished ∧
      ((v.run w).resumed 3).world.executed = ["pause", "broken", "note:", "pause", "pause"] := by
  intro v w
  obtain ⟨-, hstopped, hdone, hworld, -⟩ := run_resumed_eq_pass (v := v) nofun rfl w
  have hblocks : (pass v.steps w).results.countP isBlocking = 3 := rfl
  have hstops : stops 0 (pass v.steps w).results = [0, 3, 4] := rfl
  rw [hblocks] at hstopped hdone hworld
  rw [hstops] at hstopped
  have hstop {k i : Nat} (hk : k < 3) (hi : [0, 3, 4][k]? = some i) :
      ((v.run w).resumed k).outcome = .ok (.suspended i) := by
    obtain ⟨j, hj, houtcome⟩ := hstopped k hk
    exact Option.some.inj (hj.symm.trans hi) ▸ houtcome
  exact ⟨hstop (k := 0) (by decide) rfl, hstop (by decide) rfl, hstop (by decide) rfl, hdone,
    congrArg Trace.World.executed hworld⟩

end Verb

end VerbScript
