import Tranquility.Proofs.Tree.Legal

/-!
# Escapes in strings

A string has no fault exactly if it is made of characters and of escapes of the language. The walk
that looks for a fault takes a backslash and the character after it in one step, as the parts of a
text do.
-/

namespace Tranquility.Grammar

/-- A character other than the backslash stands for itself. -/
theorem escapeFault?_cons {c : Char} (h : c ≠ '\\') (rest : List Char) :
    escapeFault? (c :: rest) = escapeFault? rest := by
  rw [escapeFault?] <;> simp [h]

/-- The walk passes over a part of a string without a fault. -/
theorem escapeFault?_append {part : List Char} (h : IsEscapeUnit part) (rest : List Char) :
    escapeFault? (part ++ rest) = escapeFault? rest := by
  rcases h with ⟨c, hc, rfl⟩ | ⟨c, hc, rfl⟩
  · exact escapeFault?_cons hc rest
  · show escapeFault? ('\\' :: c :: rest) = _
    rw [escapeFault?, if_pos hc]

/-- No fault is found exactly in texts whose escapes the language has. -/
theorem escapeFault?_eq_none_iff {text : List Char} :
    escapeFault? text = none ↔ WellEscaped text := by
  constructor
  · intro h
    fun_induction escapeFault? text with
    | case1 => exact ⟨[], rfl, by simp⟩
    | case2 => simp at h
    | case3 c rest hc ih =>
      obtain ⟨parts, rfl, hparts⟩ := ih h
      refine ⟨['\\', c] :: parts, rfl, fun part hpart => ?_⟩
      rcases List.mem_cons.mp hpart with rfl | hpart
      · exact .inr ⟨c, hc, rfl⟩
      · exact hparts part hpart
    | case4 => simp at h
    | case5 c rest hend hescape ih =>
      obtain ⟨parts, rfl, hparts⟩ := ih h
      refine ⟨[c] :: parts, rfl, fun part hpart => ?_⟩
      rcases List.mem_cons.mp hpart with rfl | hpart
      · refine .inl ⟨c, ?_, rfl⟩
        rintro rfl
        cases hflat : parts.flatten with
        | nil => exact hend rfl hflat
        | cons d rest => exact hescape d rest rfl hflat
      · exact hparts part hpart
  · rintro ⟨parts, rfl, hparts⟩
    induction parts with
    | nil => rfl
    | cons part parts ih =>
      rw [List.flatten_cons, escapeFault?_append (hparts part List.mem_cons_self)]
      exact ih fun part hpart => hparts part (List.mem_cons_of_mem _ hpart)

end Tranquility.Grammar
