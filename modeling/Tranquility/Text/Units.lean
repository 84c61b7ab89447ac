/-!
# UTF-16 units

Editors count columns in units of UTF-16: a character above `U+FFFF` takes two units, every other
character one. The two counts of a text agree exactly when it has no character of two units.
-/

namespace Tranquility.Text

/-- The units of one character. -/
def charUnits (c : Char) : Nat :=
  if c.toNat > 0xFFFF then 2 else 1

/-- The units of a text. -/
def units : List Char → Nat
  | [] => 0
  | c :: rest => charUnits c + units rest

/-- The number of characters passed before the units reach a position, or all of them when the text
is shorter. -/
def charsBefore : (position : Nat) → List Char → Nat
  | 0, _ => 0
  | _, [] => 0
  | position + 1, c :: rest => charsBefore (position + 1 - charUnits c) rest + 1

/-- Units add up over the parts of a text. -/
@[simp] theorem units_append (left right : List Char) :
    units (left ++ right) = units left + units right := by
  induction left with
  | nil => simp [units]
  | cons c rest ih => simp [units, ih, Nat.add_assoc]

/-- An ASCII text has as many units as characters. -/
theorem units_eq_length {text : List Char} (h : ∀ c ∈ text, c.toNat < 128) :
    units text = text.length := by
  induction text with
  | nil => rfl
  | cons c rest ih =>
    have hc : c.toNat < 128 := h c (by simp)
    have hr := ih fun d hd => h d (by simp [hd])
    have hu : charUnits c = 1 := by
      rw [charUnits, if_neg (by omega)]
    simp only [units, List.length_cons]
    omega

end Tranquility.Text
