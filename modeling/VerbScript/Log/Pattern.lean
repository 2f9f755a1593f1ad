import VerbScript.Number.Decimal
import VerbScript.Text.Alphanumeric

/-!
# Patterns of values

A filter may ask for the value of a field: for a number, or for a text that matches a regular
expression. `Pattern.isWellFormed` says whether such a request can be read at all. An expression
is well formed if each repetition has something to repeat and if groups, classes and escapes are
complete; classes that need tables of characters (digits, words, cases) are not offered, and
neither are references to groups. A closing brace ends the request, so that nothing in it stands in
braces.
-/

namespace VerbScript.Log.Pattern

/-! ## Escapes -/

/-- The code point that hexadecimal digits name. -/
def codePoint (digits : List Char) : Nat :=
  digits.foldl (fun n c => 16 * n + (if c.isDigit then c.toNat - 48 else c.toLower.toNat - 87)) 0

/-- A hexadecimal digit. -/
def isHexDigit (c : Char) : Bool :=
  c.isDigit || ('a' ≤ c.toLower && c.toLower ≤ 'f')

/-- The character that exactly `count` hexadecimal digits name, and what follows them. -/
def hex (count : Nat) (cs : List Char) : Option (Option Char × List Char) :=
  let digits := cs.take count
  let n := codePoint digits
  if digits.length = count ∧ digits.all isHexDigit ∧ n.isValidChar then
    some (some (Char.ofNat n), cs.drop count)
  else none

/-- A character that an escape shows as it is. -/
def isMark (c : Char) : Bool :=
  c.toNat < 0x80 && !c.isAlphanum && c ≠ '<' && c ≠ '>'

/-- Reads an escape behind its backslash: the character that it stands for, unless it stands for a
place in the text, and what follows. -/
def escape : List Char → Option (Option Char × List Char)
  | [] => none
  | c :: rest =>
    if isMark c then some (some c, rest)
    else
      match c with
      | 'a' => some (some '\x07', rest)
      | 'f' => some (some '\x0c', rest)
      | 't' => some (some '\t', rest)
      | 'n' => some (some '\n', rest)
      | 'r' => some (some '\r', rest)
      | 'v' => some (some '\x0b', rest)
      | 'A' | 'z' => some (none, rest)
      | 'x' => hex 2 rest
      | 'u' => hex 4 rest
      | 'U' => hex 8 rest
      | _ => none

/-! ## Classes -/

/-- The names of the classes of ASCII characters. -/
def classNames : List String :=
  ["alnum", "alpha", "ascii", "blank", "cntrl", "digit", "graph", "lower", "print", "punct",
    "space", "upper", "word", "xdigit"]

/-- Reads a named class behind the bracket that opens it. -/
def namedClass? : List Char → Option (List Char)
  | ':' :: cs =>
    let cs := if cs.head? = some '^' then cs.tail else cs
    match cs.dropWhile (· ≠ ':') with
    | ':' :: ']' :: rest =>
      if String.ofList (cs.takeWhile (· ≠ ':')) ∈ classNames then some rest else none
    | _ => none
  | _ => none

/-- Reads what may only stand at the beginning of a class, behind its bracket: the sign that turns
it around, then dashes, or else a closing bracket that belongs to the class. -/
def openClass (cs : List Char) : List Char :=
  let cs := if cs.head? = some '^' then cs.tail else cs
  let rest := cs.dropWhile (· = '-')
  if rest.length = cs.length ∧ rest.head? = some ']' then rest.tail else rest

/-- Reads a character of a class, and gives what follows. -/
def member : List Char → Option (Char × List Char)
  | [] => none
  | '\\' :: rest => (escape rest).bind fun (c?, rest) => c?.map fun c => (c, rest)
  | c :: rest => some (c, rest)

/-- Reads a class up to its closing bracket and gives what follows; `depth` classes are open around
it. -/
def closeClass : Nat → Nat → List Char → Option (List Char)
  | 0, _, _ => none
  | fuel + 1, depth, cs =>
    match cs with
    | '[' :: rest =>
      match namedClass? rest with
      | some rest => closeClass fuel depth rest
      | none => closeClass fuel (depth + 1) (openClass rest)
    | ']' :: rest => if depth = 0 then some rest else closeClass fuel (depth - 1) rest
    | '&' :: '&' :: rest | '-' :: '-' :: rest | '~' :: '~' :: rest => closeClass fuel depth rest
    | cs => do
      let (first, rest) ← member cs
      match rest with
      | '-' :: ']' :: _ | '-' :: '-' :: _ => closeClass fuel depth rest
      | '-' :: rest =>
        let (last, rest) ← member rest
        if first ≤ last then closeClass fuel depth rest else none
      | rest => closeClass fuel depth rest

/-! ## Groups -/

/-- What an opening parenthesis begins. -/
inductive Opening where
  | group
  /-- Marks for the rest of the group around it. -/
  | marks
  deriving Repr, DecidableEq

/-- The letters that change how a group is read. -/
def markLetters : List Char := ['m', 's', 'u', 'R', 'U', 'x']

/-- Whether marks are written well: letters, of which a dash turns those behind it off. -/
def areMarks (cs : List Char) : Bool :=
  cs.all (fun c => c = '-' || markLetters.contains c) && cs.count '-' ≤ 1 &&
    cs.getLast? ≠ some '-' && (cs.filter (· ≠ '-')).Nodup

/-- Whether the name of a group is written well. -/
def isGroupName : List Char → Bool
  | [] => false
  | c :: cs =>
    (c = '_' || Text.isAlphanumeric c && !c.isDigit) &&
      cs.all fun c => Text.isAlphanumeric c || ['_', '.', '[', ']'].contains c

/-- Reads the name of a group up to the bracket that closes it. -/
def openNamed (cs : List Char) : Option (Opening × List Char) :=
  match cs.dropWhile (· ≠ '>') with
  | _ :: rest => if isGroupName (cs.takeWhile (· ≠ '>')) then some (.group, rest) else none
  | [] => none

/-- Reads what an opening parenthesis begins, and gives what follows. -/
def openGroup : List Char → Option (Opening × List Char)
  | '?' :: 'P' :: '<' :: rest => openNamed rest
  | '?' :: '<' :: rest => openNamed rest
  | '?' :: rest =>
    let isEnd (c : Char) := c = ':' || c = ')'
    let marks := rest.takeWhile fun c => !isEnd c
    match rest.dropWhile fun c => !isEnd c with
    | ':' :: rest => if areMarks marks then some (.group, rest) else none
    | ')' :: rest => if !marks.isEmpty && areMarks marks then some (.marks, rest) else none
    | _ => none
  | rest => some (.group, rest)

/-! ## Expressions -/

/-- Reads an expression inside `groups` open groups; `subject` says whether something that can be
repeated stands before it. -/
def closes : Nat → Nat → Bool → List Char → Bool
  | 0, _, _, _ => false
  | _, groups, _, [] => groups = 0
  | fuel + 1, groups, subject, c :: rest =>
    match c with
    | '(' =>
      match openGroup rest with
      | some (.group, rest) => closes fuel (groups + 1) false rest
      | some (.marks, rest) => closes fuel groups false rest
      | none => false
    | ')' => groups ≠ 0 && closes fuel (groups - 1) true rest
    | '|' => closes fuel groups false rest
    | '\x7b' => false
    | '[' =>
      match closeClass (rest.length + 1) 0 (openClass rest) with
      | some rest => closes fuel groups true rest
      | none => false
    | '\\' =>
      match escape rest with
      | some (_, rest) => closes fuel groups true rest
      | none => false
    | c =>
      if c = '*' ∨ c = '+' ∨ c = '?' then
        subject && closes fuel groups true (if rest.head? = some '?' then rest.tail else rest)
      else closes fuel groups true rest

/-- Whether a text asks for a value: for a number, or by a well-formed expression. -/
def isWellFormed (cs : List Char) : Bool :=
  (Number.readFloat? cs).isSome || closes (cs.length + 1) 0 false cs

end VerbScript.Log.Pattern
