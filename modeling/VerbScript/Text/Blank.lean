/-!
# Blank characters

The characters with the Unicode property `White_Space`, and the text that is left when they are
taken off both ends.
-/

namespace VerbScript.Text

/-- A character with the Unicode property `White_Space`. -/
def isBlank (c : Char) : Bool :=
  let n := c.toNat
  (9 ≤ n && n ≤ 13) || n == 0x20 || n == 0x85 || n == 0xA0 || n == 0x1680 ||
    (0x2000 ≤ n && n ≤ 0x200A) || n == 0x2028 || n == 0x2029 || n == 0x202F || n == 0x205F ||
    n == 0x3000

/-- The characters from the first to the last one that is not blank. -/
def trimBlank (cs : List Char) : List Char :=
  ((cs.dropWhile isBlank).reverse.dropWhile isBlank).reverse

/-- `s` without the blank characters at its ends. -/
def trim (s : String) : String :=
  String.ofList (trimBlank s.toList)

@[simp] theorem trimBlank_nil : trimBlank [] = [] := rfl

@[simp] theorem toList_trim (s : String) : (trim s).toList = trimBlank s.toList := by
  simp [trim]

end VerbScript.Text
