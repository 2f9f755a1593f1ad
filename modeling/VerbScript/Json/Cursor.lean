import VerbScript.Json.Mismatch

/-!
# Reading positions

A `Cursor` is what is left of a text together with the line and the column that have been reached.
Columns count the bytes of the line that have been read. A `Reader` reads a value off a cursor and
hands back a cursor with strictly less left, which is what makes the loops over items and members
end; what goes wrong is a `Failure`, a fault with its position and its place in the document.
-/

namespace VerbScript.Json

/-- What is wrong with a text that is not a document. -/
inductive SyntaxFault where
  | endInValue
  | endInList
  | endInObject
  | endInString
  | valueExpected
  | wordExpected
  | colonExpected
  | commaOrBracketExpected
  | commaOrBraceExpected
  | trailingComma
  | trailingCharacters
  | keyExpected
  | invalidNumber
  | numberTooLarge
  | invalidEscape
  | loneSurrogate
  | endOfSurrogates
  | controlCharacter
  | tooDeep
  deriving Repr, DecidableEq

/-- The text of a syntax fault. -/
def SyntaxFault.message : SyntaxFault → String
  | endInValue => "EOF while parsing a value"
  | endInList => "EOF while parsing a list"
  | endInObject => "EOF while parsing an object"
  | endInString => "EOF while parsing a string"
  | valueExpected => "expected value"
  | wordExpected => "expected ident"
  | colonExpected => "expected `:`"
  | commaOrBracketExpected => "expected `,` or `]`"
  | commaOrBraceExpected => "expected `,` or `\x7d`"
  | trailingComma => "trailing comma"
  | trailingCharacters => "trailing characters"
  | keyExpected => "key must be a string"
  | invalidNumber => "invalid number"
  | numberTooLarge => "number out of range"
  | invalidEscape => "invalid escape"
  | loneSurrogate => "lone leading surrogate in hex escape"
  | endOfSurrogates => "unexpected end of hex escape"
  | controlCharacter => "control character (\\u0000-\\u001F) found while parsing a string"
  | tooDeep => "recursion limit exceeded"

/-- What can go wrong when a text is read. -/
inductive Fault where
  | malformed (fault : SyntaxFault)
  | misfit (mismatch : Mismatch)

/-- The text of a fault. -/
def Fault.message : Fault → String
  | malformed f => f.message
  | misfit m => m.message

/-- A line, counted from one, and the bytes of it that have been read. -/
structure Position where
  line : Nat
  column : Nat
  deriving Repr, DecidableEq

namespace Position

/-- The position behind a character. -/
def after (p : Position) (c : Char) : Position :=
  if c = '\n' then ⟨p.line + 1, 0⟩ else ⟨p.line, p.column + c.utf8Size⟩

/-- The position behind the first byte of a character. -/
def afterByte (p : Position) (c : Char) : Position :=
  if c = '\n' then ⟨p.line + 1, 0⟩ else ⟨p.line, p.column + 1⟩

/-- The position behind some characters. -/
def afterAll (p : Position) (cs : List Char) : Position := cs.foldl after p

/-- The position behind the first `n` bytes of some characters. -/
def afterBytes (p : Position) : Nat → List Char → Position
  | _, [] => p
  | n, c :: cs =>
    if n = 0 then p
    else if c.utf8Size ≤ n then afterBytes (p.after c) (n - c.utf8Size) cs
    else ⟨p.line, p.column + n⟩

end Position

/-- A fault, where in the text it was noticed and where in the document it stands. -/
structure Failure where
  fault : Fault
  position : Position
  place : Place

namespace Failure

/-- A failure seen from the value around it. -/
def within (s : Segment) (f : Failure) : Failure := { f with place := s :: f.place }

/-- The text of a failure with its position. -/
def message (f : Failure) : String :=
  f.fault.message ++ " at line " ++ toString f.position.line ++ " column " ++
    toString f.position.column

end Failure

/-- What is left of a text, and the position that has been reached. -/
structure Cursor where
  position : Position
  rest : List Char

namespace Cursor

/-- The start of a text. -/
def start (s : String) : Cursor := ⟨⟨1, 0⟩, s.toList⟩

/-- The count of characters that are left. -/
def size (c : Cursor) : Nat := c.rest.length

/-- The cursor behind the next character. -/
def next (c : Cursor) : Cursor :=
  match c.rest with
  | [] => c
  | ch :: rest => ⟨c.position.after ch, rest⟩

/-- The position behind the next byte, if there is one. -/
def peeked (c : Cursor) : Position :=
  match c.rest with
  | [] => c.position
  | ch :: _ => c.position.afterByte ch

/-- The cursor behind the longest run of characters for which `p` holds. -/
def skipWhile (p : Char → Bool) (c : Cursor) : Cursor :=
  ⟨c.position.afterAll (c.rest.takeWhile p), c.rest.dropWhile p⟩

/-- The four blanks that may stand between the parts of a document. -/
def isBlank (c : Char) : Bool := c = ' ' || c = '\n' || c = '\t' || c = '\r'

/-- The cursor behind the blanks. -/
def skipBlank (c : Cursor) : Cursor := c.skipWhile isBlank

/-- A syntax fault at the position that has been reached. -/
def failHere (c : Cursor) (f : SyntaxFault) : Failure := ⟨.malformed f, c.position, []⟩

/-- A syntax fault at the next byte. -/
def failNext (c : Cursor) (f : SyntaxFault) : Failure := ⟨.malformed f, c.peeked, []⟩

theorem size_skipWhile_le (p : Char → Bool) (c : Cursor) : (c.skipWhile p).size ≤ c.size := by
  simp only [size, skipWhile]
  exact (List.dropWhile_sublist p).length_le

theorem size_skipBlank_le (c : Cursor) : c.skipBlank.size ≤ c.size :=
  c.size_skipWhile_le isBlank

theorem size_next_lt (c : Cursor) {ch : Char} {rest : List Char} (h : c.rest = ch :: rest) :
    c.next.size < c.size := by
  simp [size, next, h]

theorem size_next_le (c : Cursor) : c.next.size ≤ c.size := by
  rcases h : c.rest with _ | ⟨ch, rest⟩
  · simp [size, next, h]
  · exact Nat.le_of_lt (size_next_lt c h)

end Cursor

/-- A value read off a cursor, and the cursor behind it. -/
structure Scanned (α : Type) (c : Cursor) where
  value : α
  next : Cursor
  shorter : next.size < c.size

namespace Scanned

variable {α β : Type} {c d : Cursor}

/-- The same reading seen from a cursor with more left. -/
def widen (s : Scanned α c) (h : c.size ≤ d.size) : Scanned α d :=
  ⟨s.value, s.next, Nat.lt_of_lt_of_le s.shorter h⟩

/-- The reading with its value changed. -/
def map (f : α → β) (s : Scanned α c) : Scanned β c := ⟨f s.value, s.next, s.shorter⟩

end Scanned

/-- A value that a part of the text holds, which may be empty, and the cursor behind the part. -/
structure Part (α : Type) (c : Cursor) where
  value : α
  next : Cursor
  notLonger : next.size ≤ c.size

namespace Part

variable {α β : Type} {c d : Cursor}

/-- The part that takes nothing off the cursor. -/
def here (value : α) (c : Cursor) : Part α c := ⟨value, c, Nat.le_refl _⟩

/-- The same part seen from a cursor with more left. -/
def widen (p : Part α c) (h : c.size ≤ d.size) : Part α d :=
  ⟨p.value, p.next, Nat.le_trans p.notLonger h⟩

/-- The same part seen from a cursor before the first character. -/
def scanned (p : Part α c) (h : c.size < d.size) : Scanned α d :=
  ⟨p.value, p.next, Nat.lt_of_le_of_lt p.notLonger h⟩

/-- The part with its value changed. -/
def map (f : α → β) (p : Part α c) : Part β c := ⟨f p.value, p.next, p.notLonger⟩

end Part

/-- A cursor with no more left than `c`, where the reading goes on. -/
structure Ahead (c : Cursor) where
  cursor : Cursor
  notLonger : cursor.size ≤ c.size

/-- The cursor itself. -/
def Ahead.here (c : Cursor) : Ahead c := ⟨c, Nat.le_refl _⟩

/-- A way to read a value off a cursor. -/
abbrev Reader (α : Type) := (c : Cursor) → Except Failure (Scanned α c)

namespace Reader

variable {α β : Type}

/-- The reader `r` for the part of a document at `s`. -/
def within (s : Segment) (r : Reader α) : Reader α := fun c => (r c).mapError (Failure.within s)

/-- The reader `r` with its value changed. -/
def map (f : α → β) (r : Reader α) : Reader β := fun c => (r c).map (Scanned.map f)

/-- The reading `r` at a cursor ahead of `c`. -/
def after {c : Cursor} (a : Ahead c) (r : Reader α) : Except Failure (Scanned α c) :=
  (r a.cursor).map fun s => s.widen a.notLonger

/-- The reader `r` behind blanks. -/
def spaced (r : Reader α) : Reader α := fun c =>
  (r c.skipBlank).map fun s => s.widen c.size_skipBlank_le

end Reader

end VerbScript.Json
