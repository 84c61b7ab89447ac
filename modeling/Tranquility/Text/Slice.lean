/-!
# Parts of a text

A part of a text is given by two offsets in characters. An offset below zero counts back from the
end, and one outside the text means the nearer end of it, so that every two offsets give a part.
-/

namespace Tranquility.Text

/-- The number of characters before an offset of a text of the given length. -/
def offsetIn (length : Nat) (offset : Int) : Nat :=
  min length (if offset < 0 then offset + length else offset).toNat

/-- The characters between two offsets; there are none if the second does not come later. -/
def slice (text : List Char) (start stop : Int) : List Char :=
  (text.take (offsetIn text.length stop)).drop (offsetIn text.length start)

/-- From an offset that is not below zero a part goes on for as many characters as asked for, or to
the end of the text. -/
theorem slice_natCast (text : List Char) (start count : Nat) :
    slice text start (start + count) = (text.drop start).take count := by
  have hs : offsetIn text.length start = min text.length start := by
    rw [offsetIn, if_neg (by omega), Int.toNat_natCast]
  have ht : offsetIn text.length (start + count) = min text.length (start + count) := by
    rw [offsetIn, if_neg (by omega)]
    omega
  have htake : text.take (min text.length (start + count)) = text.take (start + count) := by
    rw [Nat.min_comm, ← List.take_take, List.take_length]
  rw [slice, hs, ht, htake]
  by_cases h : start ≤ text.length
  · rw [Nat.min_eq_right h, List.drop_take, Nat.add_sub_cancel_left]
  · have hl : text.length ≤ start := by omega
    rw [Nat.min_eq_left hl, List.drop_eq_nil_of_le hl, List.take_nil]
    exact List.drop_eq_nil_of_le (List.length_take_le' _ _)

end Tranquility.Text
