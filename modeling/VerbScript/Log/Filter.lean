import VerbScript.Log.Directive

/-!
# Log filters

A `Filter` is a list of directives. Of the directives that speak of a record the one that asks for
the most counts, and of two that ask for the same the last one; a record of which none speaks is
not shown. `Filter.choose` reads the text of a filter; where there is none, or a directive is
malformed, records of the level `info` and above are shown.
-/

namespace VerbScript.Log

/-- Directives, in the order in which they were written. -/
abbrev Filter := List Directive

namespace Filter

/-- The filter that shows records down to a level. -/
def level (l : Level) : Filter := [{ rank := l.rank }]

/-- Reads the directives of a filter, with commas between them. The empty text has none, so it shows
nothing. -/
def parse (text : String) : Except Directive.Fault Filter :=
  ((text.splitOn ",").filter fun p => !p.isEmpty).mapM Directive.parse

/-- The filter of a setting that may be absent. There is none if a word of the setting begins or
ends inside a character. -/
def choose (setting? : Option String) : Option Filter :=
  match setting? with
  | none => some (level .info)
  | some text =>
    match parse text with
    | .ok f => some f
    | .error .malformed => some (level .info)
    | .error .splitCharacter => none

/-- The directive that asks for more, the second one if they ask for the same. -/
def decisive (best? : Option Directive) (d : Directive) : Option Directive :=
  match best? with
  | none => some d
  | some best => if (best.order d).isLE then some d else some best

/-- Whether a record is shown. -/
def admits (f : Filter) (r : Record) : Bool :=
  match (f.filter fun d => d.concerns r).foldl decisive none with
  | none => false
  | some d => r.level.rank ≤ d.rank

/-- The lines of the events that are shown, in order. -/
def lines (f : Filter) (events : List Event) : List String :=
  ((events.map Event.record).filter f.admits).map Record.line

end Filter

end VerbScript.Log
