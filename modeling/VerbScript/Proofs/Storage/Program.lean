import VerbScript.Storage.Replace

/-!
# What programs come to

`Program.Always` states what a program comes to whatever it is answered. Writing to the log is not
answered by anything that a program could go by, so a program that does nothing else has one value
(`Program.logged?`), and leaves the storage as some events have (`Program.logged`). A storage keeps
a file if what the file is replaced by is what is read afterwards, whatever is written to the log in
between (`Program.Keeps`); it is faithful if that holds whenever replacing and reading the file
succeed (`Program.Faithful`).
-/

namespace VerbScript.Program

open Log (Event)

variable {α β φ : Type}

instance : LawfulMonad Program :=
  LawfulMonad.mk' Program
    (fun p => by
      show p.bind done = p
      induction p with
      | done value => rfl
      | ask request next ih => exact congrArg (ask request) (funext ih))
    (fun _ _ => rfl)
    (fun p f g => by
      show (p.bind f).bind g = p.bind fun x => (f x).bind g
      induction p with
      | done value => rfl
      | ask request next ih => exact congrArg (ask request) (funext ih))

theorem run_map (answer : φ → (r : Request) → r.Answer × φ) (store : φ) (f : α → β)
    (p : Program α) :
    run answer store (f <$> p) = (f (run answer store p).1, (run answer store p).2) :=
  run_bind answer store p (pure ∘ f)

/-- Whatever the program is answered, its value is one of which `P` holds. -/
def Always (P : α → Prop) : Program α → Prop
  | done value => P value
  | ask _ next => ∀ answer, (next answer).Always P

theorem always_true (p : Program α) : p.Always fun _ => True := by
  induction p with
  | done value => trivial
  | ask request next ih => exact ih

theorem Always.bind {P : α → Prop} {Q : β → Prop} {p : Program α} {f : α → Program β}
    (h : p.Always P) (hf : ∀ x, P x → (f x).Always Q) : (p >>= f).Always Q := by
  show (p.bind f).Always Q
  induction p with
  | done value => exact hf value h
  | ask request next ih => exact fun a => ih a (h a)

theorem Always.run {P : α → Prop} {p : Program α} (h : p.Always P)
    (answer : φ → (r : Request) → r.Answer × φ) (store : φ) : P (run answer store p).1 := by
  induction p generalizing store with
  | done value => exact h
  | ask request next ih => exact ih _ (h _) _

/-- The value of a program that asks for nothing but to write to the log. -/
def logged? : Program α → Option α
  | done value => some value
  | ask (.log _) next => logged? (next ())
  | ask _ _ => none

theorem logged?_log (events : List Event) : (log events).logged? = some () := by
  induction events with
  | nil => rfl
  | cons e rest ih => exact ih

theorem logged?_bind {p : Program α} {x : α} (h : p.logged? = some x) (f : α → Program β) :
    (p >>= f).logged? = (f x).logged? := by
  show (p.bind f).logged? = _
  induction p with
  | done value =>
    cases h
    rfl
  | ask request next ih =>
    cases request with
    | log e => exact ih () h
    | _ => cases h

theorem always_of_logged? {P : α → Prop} {p : Program α} {x : α} (h : p.logged? = some x)
    (hx : P x) : p.Always P := by
  induction p with
  | done value =>
    cases h
    exact hx
  | ask request next ih =>
    cases request with
    | log e => exact fun _ => ih () h
    | _ => cases h

variable (answer : φ → (r : Request) → r.Answer × φ)

/-- The storage once events have been written to the log. -/
def logged : φ → List Event → φ
  | store, [] => store
  | store, e :: rest => logged (answer store (.log e)).2 rest

theorem logged_append (store : φ) (before after : List Event) :
    logged answer store (before ++ after) = logged answer (logged answer store before) after := by
  induction before generalizing store with
  | nil => rfl
  | cons e rest ih => exact ih _

theorem run_log (store : φ) (events : List Event) :
    run answer store (log events) = ((), logged answer store events) := by
  induction events generalizing store with
  | nil => rfl
  | cons e rest ih => exact ih _

/-- A program that only writes to the log has its value in every storage. -/
theorem run_of_logged? {p : Program α} {x : α} (h : p.logged? = some x) (store : φ) :
    ∃ events, run answer store p = (x, logged answer store events) := by
  induction p generalizing store with
  | done value =>
    cases h
    exact ⟨[], rfl⟩
  | ask request next ih =>
    cases request with
    | log e =>
      obtain ⟨events, hrun⟩ := ih () h (answer store (.log e)).2
      exact ⟨e :: events, hrun⟩
    | _ => cases h

theorem fst_run_of_logged? {p : Program α} {x : α} (h : p.logged? = some x) (store : φ) :
    (run answer store p).1 = x := by
  obtain ⟨events, hrun⟩ := run_of_logged? answer h store
  rw [hrun]

/-- From `store` on, whatever is written to the log, the file at `path` can be replaced by any text
and is read as that text until it is replaced again. -/
def Keeps (store : φ) (path : String) : Prop :=
  ∀ before text,
    let replaced := run answer (logged answer store before) (replaceFile path text)
    replaced.1 = .ok () ∧
      ∀ after, (answer (logged answer replaced.2 after) (.read path)).1 = .ok text

/-- From `store` on, whatever is written to the log, the file at `path` is not read as another text
than the one that it was replaced by, until it is replaced again. -/
def Faithful (store : φ) (path : String) : Prop :=
  ∀ before text,
    let replaced := run answer (logged answer store before) (replaceFile path text)
    replaced.1 = .ok () →
      ∀ after content, (answer (logged answer replaced.2 after) (.read path)).1 = .ok content →
        content = text

variable {answer}

theorem Keeps.replaceFile {store : φ} {path : String} (h : Keeps answer store path)
    (text : String) :
    ∃ replaced, run answer store (replaceFile path text) = (.ok (), replaced) ∧
      ∀ events, (answer (logged answer replaced events) (.read path)).1 = .ok text := by
  obtain ⟨hreplace, hread⟩ := h [] text
  exact ⟨_, Prod.ext hreplace rfl, hread⟩

theorem Keeps.logged {store : φ} {path : String} (h : Keeps answer store path)
    (events : List Event) : Keeps answer (logged answer store events) path := by
  intro before text
  have hkeeps := h (events ++ before) text
  rwa [logged_append] at hkeeps

theorem Keeps.faithful {store : φ} {path : String} (h : Keeps answer store path) :
    Faithful answer store path := fun before text _ after _ hread =>
  Except.ok.inj (hread.symm.trans ((h before text).2 after))

theorem Faithful.logged {store : φ} {path : String} (h : Faithful answer store path)
    (events : List Event) : Faithful answer (logged answer store events) path := by
  intro before text
  have hfaithful := h (events ++ before) text
  rwa [logged_append] at hfaithful

end VerbScript.Program
