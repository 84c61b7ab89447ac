/-!
# Lines of a text

Editors and the language count lines differently. The language knows the newline alone; an editor
also ends a line at a carriage return, with or without a newline after it, and at the other
terminators of Unicode. `editorLines` splits as editors do and keeps each terminator at the end of
its line, so that the lines of a text joined give the text back.
-/

namespace Tranquility.Text

/-- The characters that end a line for an editor; a carriage return and a newline after it count
as one terminator. -/
def isLineEnd (c : Char) : Bool :=
  c ∈ ['\n', '\r', '\x0b', '\x0c', '\x1c', '\x1d', '\x1e', '\u0085', '\u2028', '\u2029']

/-- Put a character in front of the first line. -/
def consFirst (c : Char) : List (List Char) → List (List Char)
  | [] => [[c]]
  | line :: lines => (c :: line) :: lines

/-- The lines of a text with their terminators; the last line may have none, and no line is
empty. -/
def editorLines : List Char → List (List Char)
  | [] => []
  | '\r' :: '\n' :: rest => ['\r', '\n'] :: editorLines rest
  | c :: rest => if isLineEnd c then [c] :: editorLines rest else consFirst c (editorLines rest)

/-- A text without its last character if that is a newline. -/
def dropFinalNewline (text : List Char) : List Char :=
  if text.getLast? = some '\n' then text.dropLast else text

/-- The lines of a text joined give the text back. -/
theorem flatten_editorLines (text : List Char) : (editorLines text).flatten = text := by
  fun_induction editorLines text with
  | case1 => rfl
  | case2 rest ih => simp [ih]
  | case3 c rest hcr hend ih => simp [ih]
  | case4 c rest hcr hend ih =>
    cases h : editorLines rest <;> simp_all [consFirst]

end Tranquility.Text
