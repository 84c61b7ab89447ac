import Tranquility.Proofs.Token.Newlines

/-!
# Tokens on the lines of a source

The newlines of a source separate its lines. The text in front of a place ends with what its line
has in front of the place, and the line goes on with what comes after the place, up to the next
newline. So the text of a token that is no newline is what its line reads between its columns, and
a newline stands at the end of its line.
-/

namespace Tranquility

/-! ## The last line of a text -/

namespace Text

variable {text : List Char}

/-- What a text has behind its last newline. -/
def lastLine (text : List Char) : List Char :=
  (text.reverse.takeWhile (· != '\n')).reverse

/-- A text on one line belongs to the line that goes on behind it. -/
theorem takeWhile_append_of_inline (h : '\n' ∉ text) (rest : List Char) :
    (text ++ rest).takeWhile (· != '\n') = text ++ rest.takeWhile (· != '\n') :=
  List.takeWhile_append_of_pos fun _ hc => bne_iff_ne.mpr (ne_of_mem_of_not_mem hc h)

/-- A text goes on on its last line as long as no newline comes. -/
theorem lastLine_append (h : '\n' ∉ text) (above : List Char) :
    lastLine (above ++ text) = lastLine above ++ text := by
  have hreverse : '\n' ∉ text.reverse := by rwa [List.mem_reverse]
  simp [lastLine, takeWhile_append_of_inline hreverse]

/-- A newline starts a line. -/
theorem lastLine_append_newline (h : '\n' ∉ text) (above : List Char) :
    lastLine (above ++ '\n' :: text) = text := by
  rw [List.append_cons, lastLine_append h]
  simp [lastLine]

/-- A text is on one line or has a newline in front of its last line. -/
theorem eq_lastLine_or_exists (text : List Char) : '\n' ∉ text ∧ lastLine text = text ∨
    ∃ above, '\n' ∉ lastLine text ∧ text = above ++ '\n' :: lastLine text := by
  by_cases hmem : '\n' ∈ text
  · right
    obtain ⟨front, back, hsplit, hfront⟩ := List.eq_append_cons_of_mem (List.mem_reverse.mpr hmem)
    rw [← List.mem_reverse] at hfront
    have htext : text = back.reverse ++ '\n' :: front.reverse := by
      rw [← List.reverse_reverse text, hsplit]
      simp
    have hlast : lastLine text = front.reverse := by
      rw [htext, lastLine_append_newline hfront]
    rw [hlast]
    exact ⟨back.reverse, hfront, htext⟩
  · left
    exact ⟨hmem, lastLine_append hmem []⟩

/-- A text has one line more than newlines. -/
theorem length_splitOn_newline (text : List Char) :
    (text.splitOn '\n').length = text.count '\n' + 1 := by
  induction text with
  | nil => simp
  | cons c text ih =>
    rw [List.splitOn_cons_eq_if_modifyHead, List.count_cons]
    split
    · rw [List.length_cons, ih]
    · rw [List.length_modifyHead, ih]

/-- A text starts with the line that goes up to its first newline. -/
theorem getElem?_splitOn_zero (text : List Char) :
    (text.splitOn '\n')[0]? = some (text.takeWhile (· != '\n')) := by
  by_cases hmem : '\n' ∈ text
  · obtain ⟨line, below, rfl, hline⟩ := List.eq_append_cons_of_mem hmem
    rw [List.splitOn_append_cons_self_of_not_mem hline, takeWhile_append_of_inline hline]
    simp
  · have hwhole := takeWhile_append_of_inline hmem []
    rw [List.append_nil, List.takeWhile_nil, List.append_nil] at hwhole
    rw [List.splitOn_eq_singleton hmem, hwhole]
    rfl

/-- The line on which a text ends goes on with what comes after the text. -/
theorem getElem?_splitOn_append (text rest : List Char) :
    ((text ++ rest).splitOn '\n')[text.count '\n']? =
      some (lastLine text ++ rest.takeWhile (· != '\n')) := by
  rcases eq_lastLine_or_exists text with ⟨hinline, hlast⟩ | ⟨above, hinline, htext⟩
  · rw [List.count_eq_zero.mpr hinline, hlast, getElem?_splitOn_zero,
      takeWhile_append_of_inline hinline]
  · have hcount : text.count '\n' = above.count '\n' + 1 := by
      rw [htext, List.count_append, List.count_cons_self, List.count_eq_zero.mpr hinline]
    have hsplit : (text ++ rest).splitOn '\n' =
        above.splitOn '\n' ++ (lastLine text ++ rest).splitOn '\n' := by
      conv_lhs => rw [htext, List.append_assoc, List.cons_append, List.splitOn_append_cons_self]
    rw [hsplit, hcount, ← length_splitOn_newline, List.getElem?_append_right (le_refl _),
      Nat.sub_self, getElem?_splitOn_zero, takeWhile_append_of_inline hinline]

end Text

/-! ## The line of a token -/

/-- The lines of a source, without the newlines that separate them. -/
def sourceLines (source : String) : List (List Char) :=
  source.toList.splitOn '\n'

/-- The column of a place is the length of the line in front of it. -/
theorem Place.column_past (passed : List Char) :
    (past passed).column = (Text.lastLine passed).length := by
  simp [past, Text.lastLine]

namespace Token

/-- The line of a token has a text and the token starts in a column of it, or at its end. -/
structure OnLine (token : Token) (source : String) (line start : Nat) (text : List Char) :
    Prop where
  line_eq : token.line = line
  column_eq : token.column = start
  text_eq : (sourceLines source)[line]? = some text
  start_le : start ≤ text.length

/-- The text of a token is what its line reads from where the token starts. -/
def IsSlice (token : Token) (start : Nat) (text : List Char) : Prop :=
  start + token.text.length ≤ text.length ∧
    (text.take (start + token.text.length)).drop start = token.text.toList

variable {source : String} {tokens : List Token} {token : Token} {before after : List Char}

/-- A token is on the line that the text in front of it leads to. -/
theorem StandsBetween.onLine (h : token.StandsBetween source before after) :
    token.OnLine source (before.count '\n') (Text.lastLine before).length
      (Text.lastLine before ++ (token.text.toList ++ after).takeWhile (· != '\n')) where
  line_eq := h.2.1
  column_eq := by rw [h.2.2, Place.column_past]
  text_eq := by rw [sourceLines, h.1, Text.getElem?_splitOn_append]
  start_le := by simp

/-- A text without a newline is on its line. -/
theorem isSlice_of_inline (h : '\n' ∉ token.text.toList) (front after : List Char) :
    token.IsSlice front.length (front ++ (token.text.toList ++ after).takeWhile (· != '\n')) := by
  rw [Text.takeWhile_append_of_inline h, ← List.append_assoc, IsSlice, ← String.length_toList,
    ← List.length_append, List.take_left, List.drop_left]
  simp

end Token

end Tranquility
