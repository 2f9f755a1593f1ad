import VerbScript.Json.Lexeme

/-!
# Reading a document

`Reader.value` reads one value, with arrays and objects nested no deeper than its argument;
`Json.parse` reads a whole text, after which only blanks may follow. The loops over items and
members (`Reader.items`, `Reader.members`) take the reader of what stands inside as an argument,
so that the readers of records share them. `Reader.skip` reads past a value that nobody asks for,
at any depth.

The place of a failure is the path to the innermost value whose reading failed. A fault of the
commas, colons and brackets of an array or an object is a fault of the array or the object itself;
a fault in a key stands at an unknown step below the object.
-/

namespace VerbScript.Json.Reader

variable {α σ : Type} {c : Cursor}

/-! ## Items of an array -/

/-- The place of the next item of an array, its index being `i`, or nothing before the closing
bracket. -/
def nextItem (i : Nat) (c : Cursor) : Except Failure (Option (Ahead c)) :=
  let d := c.skipBlank
  have hd : d.size ≤ c.size := c.size_skipBlank_le
  match d.rest with
  | [] => .error (d.failHere .endInList)
  | ch :: _ =>
    if ch = ']' then .ok none
    else if i = 0 then .ok (some ⟨d, hd⟩)
    else if ch = ',' then
      let e := d.next.skipBlank
      match e.rest with
      | [] => .error (e.failHere .endInValue)
      | ch :: _ =>
        if ch = ']' then .error (e.failNext .trailingComma)
        else .ok (some ⟨e, Nat.le_trans d.next.size_skipBlank_le (Nat.le_trans d.size_next_le hd)⟩)
    else .error (d.failNext .commaOrBracketExpected)

/-- The cursor behind the closing bracket that `nextItem` saw. -/
def pastClose (c : Cursor) : Cursor := c.skipBlank.next

theorem size_pastClose_le (c : Cursor) : (pastClose c).size ≤ c.size :=
  Nat.le_trans c.skipBlank.size_next_le c.size_skipBlank_le

/-- The items of an array from the one with index `i` on, up to the closing bracket and past it. -/
def itemsFrom (item : Reader α) (i : Nat) (c : Cursor) : Except Failure (Part (List α) c) :=
  match nextItem i c with
  | .error e => .error e
  | .ok none => .ok ⟨[], pastClose c, size_pastClose_le c⟩
  | .ok (some a) =>
    match within (.index i) item a.cursor with
    | .error e => .error e
    | .ok s =>
      have shorter : s.next.size < c.size := Nat.lt_of_lt_of_le s.shorter a.notLonger
      match itemsFrom item (i + 1) s.next with
      | .error e => .error e
      | .ok p => .ok ⟨s.value :: p.value, p.next, Nat.le_trans p.notLonger (Nat.le_of_lt shorter)⟩
termination_by c.size

/-- The items of an array, its opening bracket being next. -/
def items (item : Reader α) : Reader (List α) := fun c =>
  match h : c.rest with
  | [] => .error (c.failHere .endInValue)
  | _ :: _ => (itemsFrom item 0 c.next).map fun p => p.scanned (c.size_next_lt h)

/-! ## Members of an object -/

/-- A string, its opening quote being next. -/
def string : Reader String := fun c =>
  match h : c.rest with
  | [] => .error (c.failHere .endInValue)
  | ch :: rest =>
    match hr : stringBody (c.position.after ch) rest with
    | .error e => .error e
    | .ok r =>
      .ok ⟨String.ofList r.1, r.2, by
        have := size_stringBody_lt hr
        simp only [Cursor.size, h, List.length_cons] at *
        omega⟩

/-- The place of the next key of an object, or nothing before the closing brace. -/
def nextMember (first : Bool) (c : Cursor) : Except Failure (Option (Ahead c)) :=
  let d := c.skipBlank
  have hd : d.size ≤ c.size := c.size_skipBlank_le
  match d.rest with
  | [] => .error (d.failHere .endInObject)
  | ch :: _ =>
    if ch = '\x7d' then .ok none
    else if first then
      if ch = '"' then .ok (some ⟨d, hd⟩) else .error (d.failNext .keyExpected)
    else if ch = ',' then
      let e := d.next.skipBlank
      match e.rest with
      | [] => .error (e.failHere .endInValue)
      | ch :: _ =>
        if ch = '"' then
          .ok (some ⟨e, Nat.le_trans d.next.size_skipBlank_le (Nat.le_trans d.size_next_le hd)⟩)
        else if ch = '\x7d' then .error (e.failNext .trailingComma)
        else .error (e.failNext .keyExpected)
    else .error (d.failNext .commaOrBraceExpected)

/-- The next key of an object, or nothing before the closing brace. -/
def nextKey (first : Bool) (c : Cursor) : Except Failure (Option (Scanned String c)) :=
  match nextMember first c with
  | .error e => .error e
  | .ok none => .ok none
  | .ok (some a) => (after a string).map some

/-- The colon after a key. -/
def colon : Reader Unit := fun c =>
  let d := c.skipBlank
  match h : d.rest with
  | [] => .error (d.failHere .endInObject)
  | ch :: _ =>
    if ch = ':' then
      .ok ⟨(), d.next, Nat.lt_of_lt_of_le (d.size_next_lt h) c.size_skipBlank_le⟩
    else .error (d.failNext .colonExpected)

/-- The value `r` reads after a colon, for the member with the given key. -/
def valueOf (key : String) (r : Reader α) : Reader α := fun c =>
  match colon c with
  | .error e => .error e
  | .ok s => (within (.key key) r s.next).map fun t => t.widen (Nat.le_of_lt s.shorter)

/-- The members of an object up to its closing brace and past it: `step` reads the value of a key
and adds it to what was gathered. -/
def membersFrom (step : σ → String → Reader σ) (first : Bool) (s : σ) (c : Cursor) :
    Except Failure (Part σ c) :=
  match (nextKey first c).mapError (Failure.within .unknown) with
  | .error e => .error e
  | .ok none => .ok ⟨s, pastClose c, size_pastClose_le c⟩
  | .ok (some key) =>
    match step s key.value key.next with
    | .error e => .error e
    | .ok t =>
      have shorter : t.next.size < c.size := Nat.lt_trans t.shorter key.shorter
      match membersFrom step false t.value t.next with
      | .error e => .error e
      | .ok p => .ok ⟨p.value, p.next, Nat.le_trans p.notLonger (Nat.le_of_lt shorter)⟩
termination_by c.size

/-- The members of an object, its opening brace being next. -/
def members (step : σ → String → Reader σ) (s : σ) : Reader σ := fun c =>
  match h : c.rest with
  | [] => .error (c.failHere .endInValue)
  | _ :: _ => (membersFrom step true s c.next).map fun p => p.scanned (c.size_next_lt h)

/-! ## Values -/

/-- The word `w`, its first character being next, which stands for `v`. -/
def constant (w : List Char) (v : α) : Reader α := fun c =>
  match h : c.rest with
  | [] => .error (c.failHere .endInValue)
  | _ :: _ =>
    match hr : word w c.next with
    | .error e => .error e
    | .ok d => .ok ⟨v, d, Nat.lt_of_le_of_lt (size_word_le hr) (c.size_next_lt h)⟩

/-- A reader that refuses a value for standing too deep. -/
def tooDeep : Reader α := fun c => .error (c.failNext .tooDeep)

/-- A value by its first character, blanks before it being allowed; arrays and objects are read by
the readers that are given. -/
def valueWith (array object : Reader Json) : Reader Json :=
  spaced fun c =>
    match c.rest with
    | [] => .error (c.failHere .endInValue)
    | ch :: _ =>
      if ch = 'n' then constant ['u', 'l', 'l'] .null c
      else if ch = 't' then constant ['r', 'u', 'e'] (.bool true) c
      else if ch = 'f' then constant ['a', 'l', 's', 'e'] (.bool false) c
      else if opensNumber ch then map .number number c
      else if ch = '"' then map .string string c
      else if ch = '[' then array c
      else if ch = '\x7b' then object c
      else .error (c.failNext .valueExpected)

/-- A member of an object whose members so far are `ms`: the last value of a key counts, at the
place of its first. -/
def addMember (value : Reader Json) (ms : List (String × Json)) (key : String) :
    Reader (List (String × Json)) :=
  valueOf key (map (put key · ms) value)

/-- A value with arrays and objects nested at most `depth` deep. -/
def value : Nat → Reader Json
  | 0 => valueWith tooDeep tooDeep
  | depth + 1 =>
    valueWith (map .array (items (value depth)))
      (map .object (members (addMember (value depth)) []))

/-- How deep arrays and objects may be nested. -/
def depthLimit : Nat := 127

/-! ## Skipping -/

/-- Reads past the digits of an exponent, its letter being next. -/
def skipExponent (c : Cursor) : Except Failure (Ahead c) :=
  let d := c.next
  let signed := d.rest.head? = some '+' ∨ d.rest.head? = some '-'
  let e := if signed then d.next else d
  have he : e.size ≤ c.size := by
    by_cases hs : signed
    · simpa only [e, hs, if_true] using Nat.le_trans d.size_next_le c.size_next_le
    · simpa only [e, hs, if_false] using c.size_next_le
  if e.rest.head?.any Char.isDigit then
    .ok ⟨e.skipWhile Char.isDigit, Nat.le_trans (e.size_skipWhile_le _) he⟩
  else .error (e.failNext .invalidNumber)

/-- Reads past an exponent, if one is next. -/
def skipAfterFraction (c : Cursor) : Except Failure (Ahead c) :=
  if c.rest.head?.any opensExponent then skipExponent c else .ok (.here c)

/-- Reads past a fraction and an exponent, if they are next. -/
def skipAfterWhole (c : Cursor) : Except Failure (Ahead c) :=
  if c.rest.head? = some '.' then
    let d := c.next
    if d.rest.head?.any Char.isDigit then
      (skipAfterFraction (d.skipWhile Char.isDigit)).map fun a =>
        ⟨a.cursor, Nat.le_trans a.notLonger (Nat.le_trans (d.size_skipWhile_le _) c.size_next_le)⟩
    else .error (d.failNext .invalidNumber)
  else skipAfterFraction c

/-- Reads past a number. -/
def skipNumber : Reader Unit := fun c =>
  let d := if c.rest.head? = some '-' then c.next else c
  have hd : d.size ≤ c.size := by
    by_cases h : c.rest.head? = some '-'
    · simpa only [d, h, if_true] using c.size_next_le
    · simp only [d, h, if_false, Nat.le_refl]
  match h : d.rest with
  | [] => .error (d.failHere .invalidNumber)
  | ch :: _ =>
    let e := if ch = '0' then d.next else d.next.skipWhile Char.isDigit
    have he : e.size < d.size := by
      by_cases hz : ch = '0'
      · simpa only [e, hz, if_true] using d.size_next_lt h
      · simpa only [e, hz, if_false] using
          Nat.lt_of_le_of_lt (d.next.size_skipWhile_le _) (d.size_next_lt h)
    if !ch.isDigit then .error (d.failNext .invalidNumber)
    else if ch = '0' ∧ e.rest.head?.any Char.isDigit then .error (e.failNext .invalidNumber)
    else (skipAfterWhole e).map fun a =>
      ⟨(), a.cursor, Nat.lt_of_le_of_lt a.notLonger (Nat.lt_of_lt_of_le he hd)⟩

/-- Reads past a string, its opening quote being next. -/
def skipQuoted : Reader Unit := fun c =>
  match h : c.rest with
  | [] => .error (c.failHere .endInValue)
  | ch :: rest =>
    match hr : skipString (c.position.after ch) rest with
    | .error e => .error e
    | .ok d =>
      .ok ⟨(), d, by
        have := size_skipString_lt hr
        simp only [Cursor.size, h, List.length_cons] at *
        omega⟩

/-- A bracket that is still open. -/
inductive Bracket where
  | square
  | curly
  deriving Repr, DecidableEq

namespace Bracket

/-- The character that closes a bracket. -/
def closing : Bracket → Char
  | square => ']'
  | curly => '\x7d'

/-- The fault of a text that ends inside a bracket. -/
def endInside : Bracket → SyntaxFault
  | square => .endInList
  | curly => .endInObject

/-- The fault of a text that goes on without a comma inside a bracket. -/
def commaExpected : Bracket → SyntaxFault
  | square => .commaOrBracketExpected
  | curly => .commaOrBraceExpected

end Bracket

/-- Reads past a key and its colon. -/
def skipKey (c : Cursor) : Except Failure (Ahead c) :=
  let d := c.skipBlank
  match d.rest with
  | [] => .error (d.failHere .endInObject)
  | ch :: _ =>
    if ch = '"' then
      match skipQuoted d with
      | .error e => .error e
      | .ok s =>
        match colon s.next with
        | .error e => .error e
        | .ok t =>
          .ok ⟨t.next, Nat.le_trans (Nat.le_of_lt (Nat.lt_trans t.shorter s.shorter))
            c.size_skipBlank_le⟩
    else .error (d.failNext .keyExpected)

/-- Reads past a value that holds no other, or past an opening bracket, which is handed back. -/
def skipToken : Reader (Option Bracket) := fun c =>
  match h : c.rest with
  | [] => .error (c.failHere .endInValue)
  | ch :: _ =>
    if ch = 'n' then constant ['u', 'l', 'l'] none c
    else if ch = 't' then constant ['r', 'u', 'e'] none c
    else if ch = 'f' then constant ['a', 'l', 's', 'e'] none c
    else if opensNumber ch then map (fun _ => none) skipNumber c
    else if ch = '"' then map (fun _ => none) skipQuoted c
    else if ch = '[' then .ok ⟨some .square, c.next, c.size_next_lt h⟩
    else if ch = '\x7b' then .ok ⟨some .curly, c.next, c.size_next_lt h⟩
    else .error (c.failNext .valueExpected)

/-- Closes the brackets that close at `c`, then stops where the next value of the innermost open
bracket stands. Nothing is left open when the value that is skipped has ended. A comma is due unless
the innermost bracket was just opened (`fresh`). -/
def skipClosing (fresh : Bool) : List Bracket → (c : Cursor) →
    Except Failure (Part (List Bracket) c)
  | [], c => .ok (.here [] c)
  | b :: opened, c =>
    let d := c.skipBlank
    have hd : d.size ≤ c.size := c.size_skipBlank_le
    match d.rest with
    | [] => .error (d.failHere b.endInside)
    | ch :: _ =>
      if ch = b.closing then
        (skipClosing false opened d.next).map fun p => p.widen (Nat.le_trans d.size_next_le hd)
      else if ch = ',' ∧ !fresh then .ok ⟨b :: opened, d.next, Nat.le_trans d.size_next_le hd⟩
      else if fresh then .ok ⟨b :: opened, d, hd⟩
      else .error (d.failNext b.commaExpected)

/-- Reads past a value inside the given open brackets and past all that they hold. -/
def skipWithin (opened : List Bracket) (c : Cursor) : Except Failure (Scanned Unit c) :=
  match spaced skipToken c with
  | .error e => .error e
  | .ok s =>
    match skipClosing s.value.isSome (s.value.toList ++ opened) s.next with
    | .error e => .error e
    | .ok p =>
      have shorter : p.next.size < c.size := Nat.lt_of_le_of_lt p.notLonger s.shorter
      match p.value with
      | [] => .ok ⟨(), p.next, shorter⟩
      | .square :: rest =>
        match skipWithin (.square :: rest) p.next with
        | .error e => .error e
        | .ok t => .ok (t.widen (Nat.le_of_lt shorter))
      | .curly :: rest =>
        match skipKey p.next with
        | .error e => .error e
        | .ok a =>
          have nearer : a.cursor.size < c.size := Nat.lt_of_le_of_lt a.notLonger shorter
          match skipWithin (.curly :: rest) a.cursor with
          | .error e => .error e
          | .ok t => .ok (t.widen (Nat.le_of_lt nearer))
termination_by c.size

/-- Reads past a value, however deep. -/
def skip : Reader Unit := skipWithin []

end Reader

/-- The value that a text holds, with nothing but blanks after it. -/
def parse (s : String) : Except Failure Json :=
  match Reader.value Reader.depthLimit (Cursor.start s) with
  | .error e => .error e
  | .ok v =>
    let c := v.next.skipBlank
    if c.rest.isEmpty then .ok v.value else .error (c.failNext .trailingCharacters)

end VerbScript.Json
