/-!
# Classes of characters

A class of characters is a table of ranges of code points, ends included, in ascending order.
-/

namespace VerbScript.Text

/-- The characters whose code points lie in one of the ranges, ends included. -/
abbrev Ranges := Array (Nat × Nat)

/-- Whether a character is in a class. -/
def Ranges.has (ranges : Ranges) (c : Char) : Bool :=
  ranges.any fun r => r.1 ≤ c.toNat && c.toNat ≤ r.2

end VerbScript.Text
