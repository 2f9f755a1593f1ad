import VerbScript.Json.Cursor
import VerbScript.Number.Scaled

/-!
# Words, numbers and strings of a document

The parts of a document that hold no other value. `word` reads the rest of `null`, `true` and
`false`; `number` tells integers of 64 bits apart from all other numbers, which become doubles as
`Scaled.toFloat` says; `stringBody` reads up to the closing quote and joins surrogate pairs.
`skipNumber` and `skipString` read past a number or a string without asking what it stands for, so
they refuse less: a double may be too large and surrogates may stand alone.
-/

namespace VerbScript.Json.Reader

open VerbScript.Number (foldDigits wordBound)

/-- Reads the characters of `expected`. -/
def word : List Char → Cursor → Except Failure Cursor
  | [], c => .ok c
  | e :: es, c =>
    match c.rest with
    | [] => .error (c.failHere .endInValue)
    | ch :: _ => if ch = e then word es c.next else .error (c.failNext .wordExpected)

theorem size_word_le {es : List Char} {c d : Cursor} (h : word es c = .ok d) : d.size ≤ c.size := by
  induction es generalizing c with
  | nil => simp only [word, Except.ok.injEq] at h; subst h; exact Nat.le_refl _
  | cons e es ih =>
    rw [word] at h
    split at h
    · contradiction
    · split at h
      · exact Nat.le_trans (ih h) c.size_next_le
      · contradiction

/-! ## Numbers -/

/-- The number of a text without fraction and exponent: an integer if it fits an unsigned word, or
with a minus a signed one and is not zero. -/
def wholeNumber (negative : Bool) (digits : List Char) : Number :=
  let n := foldDigits 0 digits
  if negative then
    if 1 ≤ n ∧ n ≤ wordBound 63 then .int (-(n : Int))
    else .float (Number.Scaled.ofParts true digits [] 0).toFloat
  else if n < wordBound 64 then .int n
  else .float (Number.Scaled.ofParts false digits [] 0).toFloat

/-- A number that was read up to `c`, unless it is too large for a double. -/
def finite (n : Number) (c : Cursor) : Except Failure (Part Number c) :=
  match n with
  | .int _ => .ok (.here n c)
  | .float x =>
    if x.isFinite then .ok (.here n c) else .error (c.failHere .numberTooLarge)

/-- How many digits of an exponent have been read when it no longer fits a signed 32-bit word. -/
def overflowAt? (digits : List Char) : Option Nat :=
  (List.range' 1 digits.length).find? fun k => decide (wordBound 31 ≤ foldDigits 0 (digits.take k))

/-- The digits of an exponent whose sign has been read, and the number they end. -/
def exponentDigits (negative down : Bool) (whole fraction : List Char) (c : Cursor) :
    Except Failure (Part Number c) :=
  let digits := c.rest.takeWhile Char.isDigit
  if digits.isEmpty then
    .error (if c.rest.isEmpty then c.failHere .endInValue else c.failNext .invalidNumber)
  else
    let shift : Int := foldDigits 0 digits
    let d := Number.Scaled.ofParts negative whole fraction (if down then -shift else shift)
    match if d.significand = 0 ∨ down then none else overflowAt? digits with
    | some k =>
      .error ⟨.malformed .numberTooLarge, c.position.afterAll (digits.take k), []⟩
    | none =>
      (finite (.float d.toFloat) (c.skipWhile Char.isDigit)).map
        fun p => p.widen (c.size_skipWhile_le Char.isDigit)

/-- The sign and the digits of an exponent. -/
def exponentSign (negative : Bool) (whole fraction : List Char) (c : Cursor) :
    Except Failure (Part Number c) :=
  match c.rest with
  | '-' :: _ =>
    (exponentDigits negative true whole fraction c.next).map fun p => p.widen c.size_next_le
  | '+' :: _ =>
    (exponentDigits negative false whole fraction c.next).map fun p => p.widen c.size_next_le
  | _ => exponentDigits negative false whole fraction c

/-- Whether a character opens an exponent. -/
def opensExponent (ch : Char) : Bool := ch = 'e' || ch = 'E'

/-- What follows the digits of a fraction. -/
def afterFraction (negative : Bool) (whole fraction : List Char) (c : Cursor) :
    Except Failure (Part Number c) :=
  if (c.rest.head?.any opensExponent) then
    (exponentSign negative whole fraction c.next).map fun p => p.widen c.size_next_le
  else finite (.float (Number.Scaled.ofParts negative whole fraction 0).toFloat) c

/-- The digits of a fraction whose point has been read. -/
def fractionDigits (negative : Bool) (whole : List Char) (c : Cursor) :
    Except Failure (Part Number c) :=
  let fraction := c.rest.takeWhile Char.isDigit
  if fraction.isEmpty then
    .error (if c.rest.isEmpty then c.failHere .endInValue else c.failNext .invalidNumber)
  else
    (afterFraction negative whole fraction (c.skipWhile Char.isDigit)).map
      fun p => p.widen (c.size_skipWhile_le Char.isDigit)

/-- What follows the whole digits of a number. -/
def afterWhole (negative : Bool) (whole : List Char) (c : Cursor) :
    Except Failure (Part Number c) :=
  if c.rest.head? = some '.' then
    (fractionDigits negative whole c.next).map fun p => p.widen c.size_next_le
  else if c.rest.head?.any opensExponent then
    (exponentSign negative whole [] c.next).map fun p => p.widen c.size_next_le
  else finite (wholeNumber negative whole) c

/-- A number whose sign has been read. -/
def unsignedNumber (negative : Bool) : Reader Number := fun c =>
  match h : c.rest with
  | [] => .error (c.failHere .endInValue)
  | ch :: _ =>
    if ch = '0' then
      if c.next.rest.head?.any Char.isDigit then .error (c.next.failNext .invalidNumber)
      else (afterWhole negative ['0'] c.next).map fun p => p.scanned (c.size_next_lt h)
    else if ch.isDigit then
      (afterWhole negative (ch :: c.next.rest.takeWhile Char.isDigit)
        (c.next.skipWhile Char.isDigit)).map fun p =>
          (p.widen (c.next.size_skipWhile_le Char.isDigit)).scanned (c.size_next_lt h)
    else .error (c.failNext .invalidNumber)

/-- A number. -/
def number : Reader Number := fun c =>
  if c.rest.head? = some '-' then
    (unsignedNumber true c.next).map fun s => s.widen c.size_next_le
  else unsignedNumber false c

/-- Whether a character opens a number. -/
def opensNumber (ch : Char) : Bool := ch = '-' || ch.isDigit

/-! ## Strings -/

/-- The value of a hexadecimal digit. -/
def hexValue? (c : Char) : Option Nat :=
  if '0' ≤ c ∧ c ≤ '9' then some (c.toNat - '0'.toNat)
  else if 'a' ≤ c ∧ c ≤ 'f' then some (c.toNat - 'a'.toNat + 10)
  else if 'A' ≤ c ∧ c ≤ 'F' then some (c.toNat - 'A'.toNat + 10)
  else none

/-- The value of four hexadecimal digits. -/
def hexUnit? (a b c d : Char) : Option Nat := do
  return ((← hexValue? a) * 16 + (← hexValue? b)) * 256 + (← hexValue? c) * 16 + (← hexValue? d)

/-- The fault of a hexadecimal escape that has no four digits: its next four bytes are read first.
-/
def badHex (p : Position) (rest : List Char) : Failure :=
  if (String.ofList rest).utf8ByteSize < 4 then
    ⟨.malformed .endInString, p.afterAll rest, []⟩
  else ⟨.malformed .invalidEscape, p.afterBytes 4 rest, []⟩

/-- What the letter after a backslash stands for. -/
def letterEscape? (c : Char) : Option Char :=
  if c = '"' ∨ c = '\\' ∨ c = '/' then some c
  else if c = 'b' then some '\x08'
  else if c = 'f' then some '\x0c'
  else if c = 'n' then some '\n'
  else if c = 'r' then some '\r'
  else if c = 't' then some '\t'
  else none

/-- The character that two surrogates stand for. -/
def joinSurrogates (high low : Nat) : Char :=
  Char.ofNat (0x10000 + (high - 0xD800) * 0x400 + (low - 0xDC00))

/-- A character before those of a string. -/
def push (c : Char) (r : Except Failure (List Char × Cursor)) :
    Except Failure (List Char × Cursor) :=
  r.map fun r => (c :: r.1, r.2)

theorem exists_of_push {c : Char} {r : Except Failure (List Char × Cursor)} {s : List Char × Cursor}
    (h : push c r = .ok s) : ∃ cs, r = .ok (cs, s.2) ∧ s.1 = c :: cs := by
  cases r with
  | error e => simp [push, Except.map] at h
  | ok t =>
    simp only [push, Except.map, Except.ok.injEq] at h
    exact ⟨t.1, by simp [← h]⟩

/-- The characters up to the closing quote, with the cursor behind it. -/
def stringBody (p : Position) : List Char → Except Failure (List Char × Cursor)
  | [] => .error ⟨.malformed .endInString, p, []⟩
  | c :: rest =>
    if c = '"' then .ok ([], ⟨p.after c, rest⟩)
    else if c = '\\' then
      match rest with
      | [] => .error ⟨.malformed .endInString, p.after c, []⟩
      | e :: rest =>
        let p := (p.after c)
        if e = 'u' then
          match rest with
          | h₁ :: h₂ :: h₃ :: h₄ :: rest =>
            match hexUnit? h₁ h₂ h₃ h₄ with
            | none => .error (badHex (p.after e) (h₁ :: h₂ :: h₃ :: h₄ :: rest))
            | some n =>
              let p := (p.after e).afterAll [h₁, h₂, h₃, h₄]
              if 0xDC00 ≤ n ∧ n ≤ 0xDFFF then .error ⟨.malformed .loneSurrogate, p, []⟩
              else if 0xD800 ≤ n ∧ n ≤ 0xDBFF then
                match rest with
                | [] => .error ⟨.malformed .endInString, p, []⟩
                | b :: rest =>
                  if b ≠ '\\' then .error ⟨.malformed .endOfSurrogates, p.afterByte b, []⟩
                  else
                    let p := p.after b
                    match rest with
                    | [] => .error ⟨.malformed .endInString, p, []⟩
                    | u :: rest =>
                      if u ≠ 'u' then .error ⟨.malformed .endOfSurrogates, p.afterByte u, []⟩
                      else
                        match rest with
                        | k₁ :: k₂ :: k₃ :: k₄ :: rest =>
                          match hexUnit? k₁ k₂ k₃ k₄ with
                          | none => .error (badHex (p.after u) (k₁ :: k₂ :: k₃ :: k₄ :: rest))
                          | some m =>
                            let p := (p.after u).afterAll [k₁, k₂, k₃, k₄]
                            if 0xDC00 ≤ m ∧ m ≤ 0xDFFF then
                              push (joinSurrogates n m) (stringBody p rest)
                            else .error ⟨.malformed .loneSurrogate, p, []⟩
                        | short => .error (badHex (p.after u) short)
              else push (Char.ofNat n) (stringBody p rest)
          | short => .error (badHex (p.after e) short)
        else
          match letterEscape? e with
          | some ch => push ch (stringBody (p.after e) rest)
          | none => .error ⟨.malformed .invalidEscape, p.afterByte e, []⟩
    else if c.toNat < 0x20 then .error ⟨.malformed .controlCharacter, p.afterByte c, []⟩
    else push c (stringBody (p.after c) rest)

theorem size_stringBody_lt {p : Position} {cs : List Char} {r : List Char × Cursor}
    (h : stringBody p cs = .ok r) : r.2.size < cs.length := by
  fun_induction stringBody p cs generalizing r <;> try simp only [List.length_cons]
  all_goals grind [exists_of_push, Cursor.size]

/-- Reads past a string up to its closing quote. -/
def skipString (p : Position) : List Char → Except Failure Cursor
  | [] => .error ⟨.malformed .endInString, p, []⟩
  | c :: rest =>
    if c = '"' then .ok ⟨p.after c, rest⟩
    else if c = '\\' then
      match rest with
      | [] => .error ⟨.malformed .endInString, p.after c, []⟩
      | e :: rest =>
        let p := (p.after c)
        if e = 'u' then
          match rest with
          | h₁ :: h₂ :: h₃ :: h₄ :: rest =>
            match hexUnit? h₁ h₂ h₃ h₄ with
            | none => .error (badHex (p.after e) (h₁ :: h₂ :: h₃ :: h₄ :: rest))
            | some _ => skipString ((p.after e).afterAll [h₁, h₂, h₃, h₄]) rest
          | short => .error (badHex (p.after e) short)
        else
          match letterEscape? e with
          | some _ => skipString (p.after e) rest
          | none => .error ⟨.malformed .invalidEscape, p.afterByte e, []⟩
    else if c.toNat < 0x20 then .error ⟨.malformed .controlCharacter, p, []⟩
    else skipString (p.after c) rest

theorem size_skipString_lt {p : Position} {cs : List Char} {r : Cursor}
    (h : skipString p cs = .ok r) : r.size < cs.length := by
  fun_induction skipString p cs generalizing r <;> try simp only [List.length_cons]
  all_goals grind [Cursor.size]

end VerbScript.Json.Reader
