import VerbScript.Text.Invisible

/-!
# Quoted text

A text as a message shows it when its bounds matter: between double quotes, with the quote, the
backslash and the usual controls escaped, and every other invisible character written as
its code point in braces (`shownChar`).
-/

namespace VerbScript.Text

/-- The lowercase hexadecimal digits of `n`, without leading zeros. -/
def hexDigits (n : Nat) : List Char := Nat.toDigits 16 n

/-- The code point of `c`: a backslash, the letter `u` and the hexadecimal digits in braces. -/
def numbered (c : Char) : List Char :=
  ['\\', 'u', '\x7b'] ++ hexDigits c.toNat ++ ['\x7d']

/-- What stands for `c` between the quotes. -/
def shownChar (c : Char) : List Char :=
  if c = '"' then ['\\', '"']
  else if c = '\\' then ['\\', '\\']
  else if c = '\n' then ['\\', 'n']
  else if c = '\r' then ['\\', 'r']
  else if c = '\t' then ['\\', 't']
  else if c = '\x00' then ['\\', '0']
  else if isInvisible c then numbered c
  else [c]

/-- `s` between double quotes, its special characters escaped. -/
def quoted (s : String) : String :=
  String.ofList ('"' :: s.toList.flatMap shownChar ++ ['"'])

end VerbScript.Text
