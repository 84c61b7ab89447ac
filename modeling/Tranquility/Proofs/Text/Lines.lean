import Tranquility.Text.Line
import Mathlib.Data.List.Chain

/-!
# The lines of the language and those of an editor

The language ends a line at a newline only, so that an editor never counts fewer lines than the
language. Up to a place in front of which nothing but newlines ends a line, the two count alike: the
line of the place has the same number, and the same characters stand in front of the place.
-/

namespace Tranquility.Text

/-- The lines of a text as the language counts them, with their newlines; the last line may have
none, and no line is empty. -/
def lines : List Char → List (List Char)
  | [] => []
  | c :: rest => if c = '\n' then [c] :: lines rest else consFirst c (lines rest)

/-- A line of a text, or an empty one below its last line. -/
def lineAt (lines : List (List Char)) (line : Nat) : List Char :=
  lines[line]?.getD []

/-- The text in front of a column of a line, or up to the end of the line if that is shorter. -/
def inFront (text : List Char) (line column : Nat) : List Char :=
  ((lines text).take line).flatten ++ (lineAt (lines text) line).take column

/-- For an editor, too, no line ends in the text but after a newline, and perhaps after the last
character; a carriage return with a newline after it ends no line of its own. -/
def PlainEnds (text : List Char) : Prop :=
  text.IsChain fun c next => isLineEnd c = true → c = '\n' ∨ c = '\r' ∧ next = '\n'

instance (text : List Char) : Decidable (PlainEnds text) :=
  inferInstanceAs (Decidable (List.IsChain _ text))

variable {c : Char} {rest text : List Char}

/-! ## Putting a character in front -/

@[simp] theorem lineAt_nil (line : Nat) : lineAt [] line = [] := rfl

@[simp] theorem lineAt_cons_zero (first : List Char) (rest : List (List Char)) :
    lineAt (first :: rest) 0 = first := rfl

@[simp] theorem lineAt_cons_succ (first : List Char) (rest : List (List Char)) (line : Nat) :
    lineAt (first :: rest) (line + 1) = lineAt rest line := rfl

@[simp] theorem lineAt_consFirst_zero (c : Char) (rest : List (List Char)) :
    lineAt (consFirst c rest) 0 = c :: lineAt rest 0 := by
  cases rest <;> rfl

@[simp] theorem lineAt_consFirst_succ (c : Char) (rest : List (List Char)) (line : Nat) :
    lineAt (consFirst c rest) (line + 1) = lineAt rest (line + 1) := by
  cases rest <;> rfl

/-- A character in front of the first line is in front of all lines joined. -/
theorem flatten_take_consFirst (c : Char) (rest : List (List Char)) (line : Nat) :
    ((consFirst c rest).take (line + 1)).flatten = c :: (rest.take (line + 1)).flatten := by
  cases rest <;> simp [consFirst]

/-- A newline in front is a line of its own. -/
theorem lines_newline (rest : List Char) : lines ('\n' :: rest) = ['\n'] :: lines rest := rfl

/-- Any other character in front goes to the first line. -/
theorem lines_cons (h : c ≠ '\n') (rest : List Char) :
    lines (c :: rest) = consFirst c (lines rest) := by
  rw [lines, if_neg h]

@[simp] theorem inFront_zero_zero (text : List Char) : inFront text 0 0 = [] := rfl

/-- A newline in front moves what follows a line down. -/
theorem inFront_newline_succ (rest : List Char) (line column : Nat) :
    inFront ('\n' :: rest) (line + 1) column = '\n' :: inFront rest line column := by
  simp [inFront, lines_newline]

/-- On the first line a newline in front ends it. -/
theorem inFront_newline_zero (rest : List Char) (column : Nat) :
    inFront ('\n' :: rest) 0 (column + 1) = ['\n'] := by
  simp [inFront, lines_newline]

/-- On the first line any other character in front moves the columns by one. -/
theorem inFront_cons_zero (h : c ≠ '\n') (rest : List Char) (column : Nat) :
    inFront (c :: rest) 0 (column + 1) = c :: inFront rest 0 column := by
  simp [inFront, lines_cons h]

/-- Below the first line any other character in front moves nothing. -/
theorem inFront_cons_succ (h : c ≠ '\n') (rest : List Char) (line column : Nat) :
    inFront (c :: rest) (line + 1) column = c :: inFront rest (line + 1) column := by
  simp [inFront, lines_cons h, flatten_take_consFirst]

/-- What stands in front of a place is where the text starts. -/
theorem prefix_inFront (text : List Char) (line column : Nat) :
    inFront text line column <+: text := by
  induction text generalizing line column with
  | nil => simp [inFront, lines]
  | cons c rest ih =>
    by_cases hc : c = '\n'
    · subst hc
      cases line with
      | zero =>
        cases column with
        | zero => exact List.nil_prefix
        | succ column =>
          rw [inFront_newline_zero]
          exact List.prefix_append ['\n'] rest
      | succ line =>
        rw [inFront_newline_succ, List.cons_prefix_cons]
        exact ⟨rfl, ih line column⟩
    · cases line with
      | zero =>
        cases column with
        | zero => exact List.nil_prefix
        | succ column =>
          rw [inFront_cons_zero hc, List.cons_prefix_cons]
          exact ⟨rfl, ih 0 column⟩
      | succ line =>
        rw [inFront_cons_succ hc, List.cons_prefix_cons]
        exact ⟨rfl, ih (line + 1) column⟩

/-- Below the first line of a text there is something in front. -/
theorem eq_nil_of_inFront_eq_nil {line column : Nat} (h : inFront text (line + 1) column = []) :
    text = [] := by
  cases text with
  | nil => rfl
  | cons c rest =>
    by_cases hc : c = '\n'
    · rw [hc, inFront_newline_succ] at h
      cases h
    · rw [inFront_cons_succ hc] at h
      cases h

/-! ## How many lines there are -/

/-- A character in front takes away no line. -/
theorem length_consFirst (c : Char) (rest : List (List Char)) :
    rest.length ≤ (consFirst c rest).length := by
  cases rest <;> simp [consFirst]

/-- Every newline ends a line of its own. -/
theorem count_newline_le (text : List Char) : text.count '\n' ≤ (editorLines text).length := by
  fun_induction editorLines text with
  | case1 => exact Nat.zero_le _
  | case2 rest ih => simpa using ih
  | case3 c rest _ _ ih =>
    have hle : (c :: rest).count '\n' ≤ rest.count '\n' + 1 := by
      rw [List.count_cons]
      split <;> omega
    rw [List.length_cons]
    omega
  | case4 c rest _ hplain ih =>
    have hne : c ≠ '\n' := by
      rintro rfl
      exact hplain rfl
    rw [List.count_cons_of_ne hne]
    exact Nat.le_trans ih (length_consFirst c _)

/-! ## The same line -/

/-- What is behind a character has plain ends as well. -/
theorem PlainEnds.tail {front : List Char} (h : PlainEnds (c :: front)) : PlainEnds front :=
  List.IsChain.tail h

/-- Behind a character that ends a line for an editor alone nothing stands in front of a plain
place. -/
theorem PlainEnds.eq_nil {front : List Char} (h : PlainEnds (c :: front))
    (hend : isLineEnd c = true) (hc : c ≠ '\n') (hfront : front <+: rest)
    (hpair : ∀ later, c = '\r' → rest ≠ '\n' :: later) : front = [] := by
  cases front with
  | nil => rfl
  | cons next front =>
    rcases (List.isChain_cons_cons.mp h).1 hend with rfl | ⟨rfl, rfl⟩
    · exact absurd rfl hc
    · obtain ⟨later, rfl⟩ := hfront
      exact absurd rfl (hpair (front ++ later) rfl)

/-- In front of a plain place an editor sees what the language sees there. -/
theorem take_lineAt_editorLines {text : List Char} {line column : Nat}
    (h : PlainEnds (inFront text line column)) :
    (lineAt (editorLines text) line).take column = (lineAt (lines text) line).take column := by
  fun_induction editorLines text generalizing line column with
  | case1 => rfl
  | case2 rest ih =>
    have hlines : lines ('\r' :: '\n' :: rest) = ['\r', '\n'] :: lines rest := rfl
    rw [hlines]
    cases line with
    | zero => rfl
    | succ line =>
      rw [inFront_cons_succ (by decide), inFront_newline_succ] at h
      exact ih h.tail.tail
  | case3 c rest hpair hend ih =>
    by_cases hc : c = '\n'
    · subst hc
      rw [lines_newline]
      cases line with
      | zero => rfl
      | succ line =>
        rw [inFront_newline_succ] at h
        exact ih h.tail
    · rw [lines_cons hc]
      cases line with
      | zero =>
        cases column with
        | zero => rfl
        | succ column =>
          rw [inFront_cons_zero hc] at h
          have hnil := h.eq_nil hend hc (prefix_inFront rest 0 column) hpair
          have hempty : (lineAt (lines rest) 0).take column = [] := hnil
          simp [hempty]
      | succ line =>
        rw [inFront_cons_succ hc] at h
        have hnil := h.eq_nil hend hc (prefix_inFront rest (line + 1) column) hpair
        rw [eq_nil_of_inFront_eq_nil hnil]
        rfl
  | case4 c rest _ hplain ih =>
    have hc : c ≠ '\n' := by
      rintro rfl
      exact hplain rfl
    rw [lines_cons hc]
    cases line with
    | zero =>
      cases column with
      | zero => rfl
      | succ column =>
        rw [inFront_cons_zero hc] at h
        simp [ih h.tail]
    | succ line =>
      rw [inFront_cons_succ hc] at h
      simp [ih h.tail]

end Tranquility.Text
