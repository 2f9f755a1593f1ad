import VerbScript.Demo.Kinds

/-!
# Kinds side by side

Actions of two types that act on the same world are actions of their sum, and two registries make
one of both (`Registry.beside`). A `Hold` is an action to put beside the demo's own: it blocks and
leaves it to somebody else to go on.
-/

namespace VerbScript

variable {α β ω : Type}

instance [Action α ω] [Action β ω] : Action (α ⊕ β) ω where
  execute
    | .inl a, w => (Action.execute a w).mapAction .inl
    | .inr b, w => (Action.execute b w).mapAction .inr
  property?
    | .inl a, name => Action.property? a name
    | .inr b, name => Action.property? b name
  setProperty
    | .inl a, name, v => (Action.setProperty a name v).map id .inl
    | .inr b, name, v => (Action.setProperty b name v).map id .inr
  cancel?
    | .inl a => (Action.cancel? a).map fun r => (.inl r.1, r.2)
    | .inr b => (Action.cancel? b).map fun r => (.inr r.1, r.2)
  progress?
    | .inl a => (Action.progress? a).map (Progress.mapAction .inl)
    | .inr b => (Action.progress? b).map (Progress.mapAction .inr)

/-- The kind with the action it makes changed. -/
def Kind.map (f : α → β) (k : Kind α) : Kind β := ⟨k.id, k.properties, f k.make⟩

/-- The kinds of two registries in one, those of the first before those of the second. -/
def Registry.beside (r : Registry α) (s : Registry β) : Registry (α ⊕ β) :=
  ⟨r.kinds.map (Kind.map .inl) ++ s.kinds.map (Kind.map .inr)⟩

namespace Demo

/-- Blocks, and arms no timer. -/
structure Hold where

instance : Action Hold World where
  execute a w := ⟨.ok .blocking, a, w, []⟩

/-- The registry of the one kind that holds. -/
def holdRegistry : Registry Hold := ⟨[{ id := "hold", make := {} }]⟩

end Demo

end VerbScript
