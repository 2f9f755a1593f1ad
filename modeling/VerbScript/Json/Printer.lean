import VerbScript.Json.Basic

/-!
# Printing a document

`Json.compact` writes a value on one line without blanks. `Json.pretty` writes each item and
member on a line of its own, indented by two blanks for each level, and keeps an empty array or
object on one line. A string escapes the quote, the backslash and the controls, and nothing else.
-/

namespace VerbScript.Json

/-- A hexadecimal digit, lowercase. -/
def hexDigit (n : Nat) : Char := Nat.digitChar (n % 16)

/-- What stands for a character inside a string. -/
def escape (c : Char) : List Char :=
  if c = '"' then ['\\', '"']
  else if c = '\\' then ['\\', '\\']
  else if c = '\n' then ['\\', 'n']
  else if c = '\r' then ['\\', 'r']
  else if c = '\t' then ['\\', 't']
  else if c = '\x08' then ['\\', 'b']
  else if c = '\x0c' then ['\\', 'f']
  else if c.toNat < 0x20 then ['\\', 'u', '0', '0', hexDigit (c.toNat / 16), hexDigit c.toNat]
  else [c]

/-- A string between quotes. -/
def quote (s : String) : List Char := '"' :: s.toList.flatMap escape ++ ['"']

mutual

/-- A value on one line. -/
def compactChars : Json → List Char
  | null => "null".toList
  | bool b => (if b then "true" else "false").toList
  | number n => n.text.toList
  | string s => quote s
  | array items => '[' :: compactItems items ++ [']']
  | object members => '\x7b' :: compactMembers members ++ ['\x7d']

/-- Items with commas between them. -/
def compactItems : List Json → List Char
  | [] => []
  | v :: rest => compactChars v ++ compactItemsTail rest

/-- Items, each after a comma. -/
def compactItemsTail : List Json → List Char
  | [] => []
  | v :: rest => ',' :: compactChars v ++ compactItemsTail rest

/-- Members with commas between them. -/
def compactMembers : List (String × Json) → List Char
  | [] => []
  | (k, v) :: rest => quote k ++ ':' :: compactChars v ++ compactMembersTail rest

/-- Members, each after a comma. -/
def compactMembersTail : List (String × Json) → List Char
  | [] => []
  | (k, v) :: rest => ',' :: quote k ++ ':' :: compactChars v ++ compactMembersTail rest

end

/-- A line break and the indentation of a level. -/
def lineBreak (level : Nat) : List Char := '\n' :: List.replicate (2 * level) ' '

mutual

/-- A value whose first line is already indented to `level`. -/
def prettyChars (level : Nat) : Json → List Char
  | null => "null".toList
  | bool b => (if b then "true" else "false").toList
  | number n => n.text.toList
  | string s => quote s
  | array [] => ['[', ']']
  | array (v :: rest) =>
    '[' :: lineBreak (level + 1) ++ prettyChars (level + 1) v ++ prettyItemsTail level rest
  | object [] => ['\x7b', '\x7d']
  | object ((k, v) :: rest) =>
    '\x7b' :: lineBreak (level + 1) ++ quote k ++ ':' :: ' ' :: prettyChars (level + 1) v ++
      prettyMembersTail level rest

/-- The items after the first, and the closing bracket of an array at `level`. -/
def prettyItemsTail (level : Nat) : List Json → List Char
  | [] => lineBreak level ++ [']']
  | v :: rest =>
    ',' :: lineBreak (level + 1) ++ prettyChars (level + 1) v ++ prettyItemsTail level rest

/-- The members after the first, and the closing brace of an object at `level`. -/
def prettyMembersTail (level : Nat) : List (String × Json) → List Char
  | [] => lineBreak level ++ ['\x7d']
  | (k, v) :: rest =>
    ',' :: lineBreak (level + 1) ++ quote k ++ ':' :: ' ' :: prettyChars (level + 1) v ++
      prettyMembersTail level rest

end

/-- The one-line text of a value. -/
def compact (v : Json) : String := String.ofList (compactChars v)

/-- The indented text of a value. -/
def pretty (v : Json) : String := String.ofList (prettyChars 0 v)

end VerbScript.Json
