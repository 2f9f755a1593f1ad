import VerbScript.Json.Reader

/-!
# Reading records off a text

The readers of values whose shape is fixed: numbers of a given kind, texts, tables of texts, and
the parts from which the reader of a record is put together (`Reader.record`, `Reader.nextField`).
A value of another shape is refused where it stands. A fault of a record as a whole, such as a
missing field, is noticed behind the closing bracket.
-/

namespace VerbScript.Json.Reader

variable {α β σ : Type}

/-- A failure for a value's shape at a position. -/
def misfit (p : Position) (m : Mismatch) : Failure := ⟨.misfit m, p, []⟩

/-- Refuses the value that is next for its type. A value that holds no other is read first. -/
def refuse (expected : String) : Reader α := fun c =>
  match c.rest with
  | [] => .error (c.failHere .endInValue)
  | ch :: _ =>
    let found (f : Found) (d : Cursor) : Except Failure (Scanned α c) :=
      .error (misfit d.position (.invalidType f expected))
    let after (r : Reader Found) : Except Failure (Scanned α c) := do
      let s ← r c
      found s.value s.next
    if ch = 'n' then after (constant ['u', 'l', 'l'] .null)
    else if ch = 't' then after (constant ['r', 'u', 'e'] (.bool true))
    else if ch = 'f' then after (constant ['a', 'l', 's', 'e'] (.bool false))
    else if opensNumber ch then after (map .number number)
    else if ch = '"' then after (map .string string)
    else if ch = '[' then found .sequence c
    else if ch = '\x7b' then found .map c
    else .error (c.failNext .valueExpected)

/-- A number that `accept` takes. -/
def numeric (expected : String) (accept : Number → Except Mismatch α) : Reader α :=
  spaced fun c =>
    if c.rest.head?.any opensNumber then
      match number c with
      | .error e => .error e
      | .ok s =>
        match accept s.value with
        | .ok x => .ok ⟨x, s.next, s.shorter⟩
        | .error m => .error (misfit s.next.position m)
    else refuse expected c

/-- An integer from `0` to below `2 ^ 32`. -/
def word32 : Reader Nat :=
  numeric "u32" fun
    | .int n =>
      if 0 ≤ n ∧ n < VerbScript.Number.wordBound 32 then .ok n.toNat
      else .error (.outOfRange n "u32")
    | .float x => .error (.invalidType (.number (.float x)) "u32")

/-- A number as a double. -/
def float : Reader Float := numeric "f64" fun n => .ok n.toFloat

/-- A text. -/
def text : Reader String :=
  spaced fun c => if c.rest.head? = some '"' then string c else refuse "a string" c

/-- The word `null`, or what `r` reads. -/
def optional (r : Reader α) : Reader (Option α) :=
  spaced fun c =>
    if c.rest.head? = some 'n' then constant ['u', 'l', 'l'] none c else map some r c

/-- An object, read by `object`; another value is refused. -/
def ofObject (expected : String) (object : Reader α) : Reader α :=
  spaced fun c => if c.rest.head? = some '\x7b' then object c else refuse expected c

/-- An object or an array, read by `object` and `array`; another value is refused. -/
def ofObjectOrArray (expected : String) (object array : Reader α) : Reader α :=
  spaced fun c =>
    if c.rest.head? = some '\x7b' then object c
    else if c.rest.head? = some '[' then array c
    else refuse expected c

/-- The members of an object whose values `r` reads, in document order. -/
def membersOf (r : Reader α) : Reader (List (String × α)) :=
  ofObject "a map"
    (map List.reverse (members (fun ms key => valueOf key (map (fun v => (key, v) :: ms) r)) []))

/-- Where a fault of the record around `c` is noticed: behind its closing bracket, if it is next. -/
def closing (bracket : Char) (c : Cursor) : Position :=
  let d := c.skipBlank
  if d.rest.head? = some bracket then d.next.position else d.position

/-- The value of a field that may have been read before. -/
def once (name : String) (seen : Option α) (r : Reader α) : Reader (Option α) := fun c =>
  if seen.isSome then .error (misfit (closing '\x7d' c) (.duplicateField name))
  else valueOf name (map some r) c

/-- A record written as an object: `step` reads the fields, and `finish` makes the record of them,
or says which is missing. -/
def record (step : σ → String → Reader σ) (s : σ) (finish : σ → Except Mismatch α) : Reader α :=
  fun c =>
    match members step s c with
    | .error e => .error e
    | .ok t =>
      match finish t.value with
      | .ok x => .ok ⟨x, t.next, t.shorter⟩
      | .error m => .error (misfit t.next.position m)

/-- The field with the index `i` of a record written as an array; `missing` says what stands for
it when the array has ended. -/
def nextField (i : Nat) (r : Reader α) (missing : Except Mismatch α) (c : Cursor) :
    Except Failure (Part α c) :=
  match nextItem i c with
  | .error e => .error e
  | .ok none =>
    match missing with
    | .ok x => .ok (.here x c)
    | .error m => .error (misfit (closing ']' c) m)
  | .ok (some a) =>
    (within (.index i) r a.cursor).map fun s =>
      ⟨s.value, s.next, Nat.le_trans (Nat.le_of_lt s.shorter) a.notLonger⟩

/-- The end of an array all of whose fields have been read. -/
def endArray (c : Cursor) : Except Failure (Part Unit c) :=
  let d := c.skipBlank
  match d.rest with
  | [] => .error (d.failHere .endInList)
  | ch :: _ =>
    if ch = ']' then .ok ⟨(), pastClose c, size_pastClose_le c⟩
    else if ch = ',' then
      let e := d.next.skipBlank
      .error (e.failNext (if e.rest.head? = some ']' then .trailingComma else .trailingCharacters))
    else .error (d.failNext .trailingCharacters)

/-- A record written as an array: `fields` reads what stands behind the opening bracket, which is
next. -/
def arrayRecord (fields : (c : Cursor) → Except Failure (Part α c)) : Reader α := fun c =>
  match h : c.rest with
  | [] => .error (c.failHere .endInValue)
  | _ :: _ => (fields c.next).map fun p => p.scanned (c.size_next_lt h)

end VerbScript.Json.Reader
