/-!
# Ranges of characters

A class of characters is given by the inclusive ranges of their code points, and a character is in
the class when one of the ranges covers it.
-/

namespace Tranquility.Text

/-- The characters from one code point to another, both included. -/
structure CharRange where
  /-- The least code point of the range. -/
  first : Nat
  /-- The greatest code point of the range. -/
  last : Nat
  deriving DecidableEq, Repr

namespace CharRange

/-- Ranges written as pairs of their ends. -/
def ofPairs (ends : List (Nat × Nat)) : List CharRange :=
  ends.map fun (first, last) => ⟨first, last⟩

/-- The character's code point lies in the range. -/
def contains (range : CharRange) (c : Char) : Bool :=
  decide (range.first ≤ c.toNat ∧ c.toNat ≤ range.last)

/-- One of the ranges contains the character. -/
def covers (ranges : List CharRange) (c : Char) : Bool :=
  ranges.any (·.contains c)

end CharRange

end Tranquility.Text
