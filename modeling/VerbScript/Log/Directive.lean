import VerbScript.Log.Event
import VerbScript.Log.Pattern
import VerbScript.Text.Blank

/-!
# Directives of a log filter

A directive says down to which level some records are shown. It is written as a level, or in the
form `source[span{field=value}]=level`, of which every part may be left out. It speaks of the
records from sources whose names begin with `source`, with a field of the given name. A span is a
named stretch of work, and values belong to spans; the work here is not divided into spans, so a
directive that asks for a span or for a value speaks of no record.

The words of a directive are found without the blanks around it and then cut from the whole text at
the offsets, in bytes, where they were found (`Directive.parse`): blanks belong to the last word,
and blanks before the first word shift all of them.
-/

namespace VerbScript.Log

/-- Which records are shown, down to a level given by its rank; the rank `0` shows none. -/
structure Directive where
  /-- The beginning of the names of the sources that the directive speaks of. -/
  source? : Option String := none
  /-- A field that a record has to have. -/
  field? : Option String := none
  /-- Whether the directive speaks only of records inside spans. -/
  inSpans : Bool := false
  rank : Nat
  deriving Repr, DecidableEq

namespace Directive

/-- Why a directive cannot be read. -/
inductive Fault where
  | malformed
  /-- A word begins or ends inside a character. -/
  | splitCharacter
  deriving Repr, DecidableEq

/-- The rank at which every record is shown. -/
def lowest : Nat := Level.trace.rank

/-- The rank that a word or a digit names. -/
def rank? (word : String) : Option Nat :=
  let name := String.ofList (word.toList.map Char.toLower)
  match Number.unsigned? word.toList with
  | some n => if n ≤ lowest then some n else none
  | none =>
    if name = "off" then some 0
    else if name = "error" ∨ name = "" then some Level.error.rank
    else if name = "warn" then some Level.warn.rank
    else if name = "info" then some Level.info.rank
    else if name = "debug" then some Level.debug.rank
    else if name = "trace" then some Level.trace.rank
    else none

/-! ## Words -/

/-- The characters before and behind an offset in bytes, unless it is inside a character. -/
def splitAt? : Nat → List Char → Option (List Char × List Char)
  | 0, cs => some ([], cs)
  | _, [] => none
  | n, c :: cs =>
    if c.utf8Size ≤ n then
      (splitAt? (n - c.utf8Size) cs).map fun (before, behind) => (c :: before, behind)
    else none

/-- The word from an offset to the end of a text. -/
def wordFrom (text : List Char) (start : Nat) : Except Fault (List Char) :=
  match splitAt? start text with
  | some (_, word) => .ok word
  | none => .error .splitCharacter

/-- The word between two offsets of a text. -/
def word (text : List Char) (start stop : Nat) : Except Fault (List Char) :=
  match splitAt? stop text with
  | some (before, _) => wordFrom before start
  | none => .error .splitCharacter

/-- Looks for the first character of a kind in what stands at an offset; gives its offset and
itself with what follows. -/
def seek (isSought : Char → Bool) : Nat → List Char → Nat × List Char
  | n, [] => (n, [])
  | n, c :: cs => if isSought c then (n, c :: cs) else seek isSought (n + c.utf8Size) cs

/-! ## Reading -/

/-- Whether a directive may begin with a character; the bracket of a span is another way. -/
def opens (c : Char) : Bool := c = '-' || c = ':' || c = '_' || Text.isAlphanumeric c

/-- Reads the level from an offset on; nothing stands for the lowest one. -/
def readRank (text : List Char) (start : Nat) : Except Fault Nat := do
  let word ← wordFrom text start
  if word.isEmpty then return lowest
  match rank? (String.ofList word) with
  | some rank => return rank
  | none => throw .malformed

/-- Reads what stands behind the bracket that closes a span: nothing, or a level. -/
def readTail (text : List Char) (d : Directive) (n : Nat) : List Char → Except Fault Directive
  | [] => return { d with rank := lowest }
  | c :: _ => do
    if c ≠ '=' then throw .malformed
    return { d with rank := ← readRank text (n + 1) }

/-- Reads a field with or without a value: its name, and whether a value is asked for. -/
def readField (cs : List Char) : Except Fault (String × Bool) :=
  let name := String.ofList (cs.takeWhile (· ≠ '='))
  match cs.dropWhile (· ≠ '=') with
  | [] => if cs.isEmpty then .error .malformed else .ok (name, false)
  | _ :: value =>
    if Pattern.isWellFormed (value.takeWhile (· ≠ '=')) then .ok (name, true)
    else .error .malformed

/-- Reads a span and what follows, from behind the opening bracket on. -/
def readSpan (text : List Char) (source? : Option String) (start : Nat) (cs : List Char) :
    Except Fault Directive := do
  let (stop, rest) := seek (fun c => c = ']' || c = '\x7b') start cs
  match rest with
  | ']' :: rest =>
    let _ ← word text start stop
    readTail text { source?, inSpans := true, rank := lowest } (stop + 1) rest
  | '\x7b' :: rest =>
    let span ← word text start stop
    let (fieldStop, rest) := seek (· = '\x7d') (stop + 1) rest
    match rest with
    | _ :: rest =>
      let (field, hasValue) ← readField (← word text (stop + 1) fieldStop)
      match rest with
      | ']' :: rest =>
        readTail text
          { source?, field? := some field, inSpans := !span.isEmpty || hasValue, rank := lowest }
          (fieldStop + 2) rest
      | _ => throw .malformed
    | [] => throw .malformed
  | _ => throw .malformed

/-- Reads a directive. A single word is a level if it names one, and otherwise the beginning of
sources that are shown down to the lowest level. -/
def parse (directive : String) : Except Fault Directive := do
  let text := directive.toList
  match Text.trimBlank text with
  | [] => throw .malformed
  | c :: cs =>
    if c = '[' then readSpan text none 1 cs
    else if !opens c then throw .malformed
    else
      match seek (fun c => c = '=' || c = '[') 0 (c :: cs) with
      | (stop, '=' :: _) =>
        let source := String.ofList (← word text 0 stop)
        return { source? := some source, rank := ← readRank text (stop + 1) }
      | (stop, _ :: rest) =>
        let source := String.ofList (← word text 0 stop)
        readSpan text (some source) (stop + 1) rest
      | (_, []) =>
        match rank? directive with
        | some rank => return { rank }
        | none => return { source? := some directive, rank := lowest }

/-! ## Meaning -/

/-- Whether a directive speaks of a record. -/
def concerns (d : Directive) (r : Record) : Bool :=
  !d.inSpans && d.source?.all (fun s => r.source.name.startsWith s) && d.field?.all r.has

/-- How long the beginning of a source's name is, plus one; a directive without one counts zero. -/
def reach (d : Directive) : Nat :=
  match d.source? with
  | none => 0
  | some source => source.utf8ByteSize + 1

/-- The order of directives by how much they ask for: by how long a beginning of a source is, then
by whether there is a field, then by the fields' names. -/
def order (a b : Directive) : Ordering :=
  (compare a.reach b.reach).then (compare a.field? b.field?)

end Directive

end VerbScript.Log
