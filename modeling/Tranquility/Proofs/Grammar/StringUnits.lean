import Tranquility.Proofs.Grammar.Escape
import Tranquility.Proofs.Token.Newlines
import Mathlib.Data.Set.List

/-!
# Units of strings

What a string holds between its quotes is read from the left in units: a backslash goes with the
character after it, whatever that is, and any other character stands alone. A text has one such
reading at most, and a string of a source has one, since it ends at the first quote that is in no
escape. The walk that looks for a fault goes from unit to unit, so it never comes to the end in the
middle of one, and the fault that it finds is in the first unit that has one.
-/

namespace Tranquility

/-- What is read at once of the text between the quotes of a string. -/
inductive StringUnit where
  /-- A character that stands for itself. -/
  | plain (c : Char) (ne_backslash : c ≠ '\\')
  /-- A backslash with the character after it. -/
  | escape (c : Char)
  deriving DecidableEq, Repr

namespace StringUnit

/-- The characters of a unit. -/
def chars : StringUnit → List Char
  | plain c _ => [c]
  | escape c => ['\\', c]

/-- The character after the backslash, if the language has no such escape. -/
def fault? : StringUnit → Option Char
  | plain _ _ => none
  | escape c => if c ∈ Grammar.escapable then none else some c

/-- A unit is at fault exactly if it is an escape that the language does not have. -/
theorem fault?_eq_some_iff {unit : StringUnit} {c : Char} :
    unit.fault? = some c ↔ unit = .escape c ∧ c ∉ Grammar.escapable := by
  cases unit with
  | plain d hd => simp [fault?]
  | escape d =>
    simp only [fault?, Option.ite_none_left_eq_some, Option.some.injEq, escape.injEq]
    exact ⟨fun ⟨hd, hdc⟩ => ⟨hdc, hdc ▸ hd⟩, fun ⟨hdc, hc⟩ => ⟨hdc ▸ hc, hdc⟩⟩

/-- There is a first fault where some unit has one. -/
theorem isSome_findSome?_fault?_iff {units : List StringUnit} :
    (units.findSome? fault?).isSome = true ↔ ∃ c, .escape c ∈ units ∧ c ∉ Grammar.escapable := by
  rw [List.findSome?_isSome_iff]
  constructor
  · rintro ⟨unit, hunit, hfault⟩
    obtain ⟨c, hfirst⟩ := Option.isSome_iff_exists.mp hfault
    obtain ⟨rfl, hc⟩ := fault?_eq_some_iff.mp hfirst
    exact ⟨c, hunit, hc⟩
  · rintro ⟨c, hunit, hc⟩
    exact ⟨_, hunit, Option.isSome_iff_exists.mpr ⟨c, fault?_eq_some_iff.mpr ⟨rfl, hc⟩⟩⟩

/-- The unit that a text starts with and the rest of the text can be told from the text. -/
theorem chars_append_inj {unit other : StringUnit} {rest rest' : List Char}
    (h : unit.chars ++ rest = other.chars ++ rest') : unit = other ∧ rest = rest' := by
  cases unit with
  | plain c hc =>
    cases other with
    | plain d hd =>
      obtain ⟨rfl, rfl⟩ := List.cons.inj h
      exact ⟨rfl, rfl⟩
    | escape d => exact absurd (List.cons.inj h).1 hc
  | escape c =>
    cases other with
    | plain d hd => exact absurd (List.cons.inj h).1.symm hd
    | escape d =>
      obtain ⟨_, h⟩ := List.cons.inj h
      obtain ⟨rfl, rfl⟩ := List.cons.inj h
      exact ⟨rfl, rfl⟩

/-- No unit is empty. -/
theorem chars_ne_nil (unit : StringUnit) : unit.chars ≠ [] := by
  cases unit <;> simp [chars]

/-- A text is read in units in one way. -/
theorem flatMap_chars_inj {units others : List StringUnit}
    (h : units.flatMap chars = others.flatMap chars) : units = others := by
  induction units generalizing others with
  | nil =>
    cases others with
    | nil => rfl
    | cons other others =>
      rw [List.flatMap_cons] at h
      exact absurd (List.append_eq_nil_iff.mp h.symm).1 other.chars_ne_nil
  | cons unit units ih =>
    cases others with
    | nil =>
      rw [List.flatMap_cons] at h
      exact absurd (List.append_eq_nil_iff.mp h).1 unit.chars_ne_nil
    | cons other others =>
      rw [List.flatMap_cons, List.flatMap_cons] at h
      obtain ⟨rfl, hrest⟩ := chars_append_inj h
      rw [ih hrest]

/-- The units between the quotes of a literal are units of a string. -/
theorem exists_chars_eq {quote : Char} {part : List Char} (h : IsLiteralUnit quote part) :
    ∃ unit : StringUnit, unit.chars = part := by
  rcases h with ⟨c, _, hc, _, rfl⟩ | ⟨c, _, rfl⟩
  · exact ⟨.plain c hc, rfl⟩
  · exact ⟨.escape c, rfl⟩

end StringUnit

namespace Grammar

open StringUnit

/-- The walk takes the units one by one, up to the first that has a fault. -/
theorem escapeFault?_flatMap_chars (units : List StringUnit) :
    escapeFault? (units.flatMap chars) = (units.findSome? fault?).map .invalid := by
  induction units with
  | nil => rfl
  | cons unit units ih =>
    rw [List.flatMap_cons, List.findSome?_cons]
    cases unit with
    | plain c hc => exact (escapeFault?_cons hc _).trans ih
    | escape c =>
      show escapeFault? ('\\' :: c :: units.flatMap chars) = _
      rw [escapeFault?, ih, fault?]
      split <;> rfl

/-- A token is refused for the first unit with a fault that it holds, if there is one. -/
theorem run_checkEscapes {token : Token} {units : List StringUnit}
    (h : inner token = units.flatMap chars) (s : State) :
    (checkEscapes token).run s = match units.findSome? fault? with
      | none => .ok () s
      | some c => .error (.violation ⟨token, .invalidEscape c, .error⟩) s := by
  rw [checkEscapes, h, escapeFault?_flatMap_chars]
  cases units.findSome? fault? <;> rfl

/-- A string of a source is made of units between two quotes. -/
theorem exists_units_of_mem_scan {source : String} {token : Token}
    (h : token ∈ (scan source).tokens) (hstring : token.kind = .string) :
    ∃ units : List StringUnit, token.text.toList = '"' :: (units.flatMap chars ++ ['"']) := by
  obtain ⟨_, hlanguage⟩ := language_of_mem_scan h
  rw [hstring] at hlanguage
  obtain ⟨parts, hparts, htext⟩ := hlanguage
  have hrange : parts ∈ Set.range (List.map chars) := by
    rw [Set.range_list_map]
    exact fun part hpart => exists_chars_eq (hparts part hpart)
  obtain ⟨units, rfl⟩ := hrange
  exact ⟨units, by rw [htext, List.flatMap_def]⟩

/-- What a string of a source holds between its quotes is read in units in one way. The string is
accepted, or it is refused with the character after the backslash of the first unit that is no
escape of the language, and nothing else comes of it; so it is refused where there is such a unit.
-/
theorem checkEscapes_scan {source : String} {token : Token} (h : token ∈ (scan source).tokens)
    (hstring : token.kind = .string) : ∃ units : List StringUnit,
      token.text.toList = '"' :: (inner token ++ ['"']) ∧
      (∀ others : List StringUnit, inner token = others.flatMap chars ↔ others = units) ∧
      ∀ s, ((checkEscapes token).run s = match units.findSome? fault? with
          | none => .ok () s
          | some c => .error (.violation ⟨token, .invalidEscape c, .error⟩) s) ∧
        ((∃ e s', (checkEscapes token).run s = .error e s') ↔
          ∃ c, .escape c ∈ units ∧ c ∉ escapable) := by
  obtain ⟨units, htext⟩ := exists_units_of_mem_scan h hstring
  have hinner : inner token = units.flatMap chars := by
    rw [inner, htext, List.drop_one, List.tail_cons, List.dropLast_concat]
  refine ⟨units, by rw [hinner, htext], fun others => ?_,
    fun s => ⟨run_checkEscapes hinner s, ?_⟩⟩
  · rw [hinner]
    exact ⟨fun h => (flatMap_chars_inj h).symm, fun h => h ▸ rfl⟩
  · rw [run_checkEscapes hinner, ← isSome_findSome?_fault?_iff]
    cases units.findSome? fault? with
    | none =>
      refine iff_of_false ?_ Bool.false_ne_true
      rintro ⟨_, _, h⟩
      cases h
    | some c => exact iff_of_true ⟨_, _, rfl⟩ rfl

/-- Behind a pair of backslashes another one goes with the quote after it: the string goes on, and
this escape is the first that is refused. A string of two pairs is accepted. -/
theorem checkEscapes_scan_backslashes :
    (∃ token ∈ (scan "\"\\\\\\\"\\q\"").tokens, token.kind = .string ∧
      inner token = [StringUnit.escape '\\', .escape '"', .escape 'q'].flatMap chars ∧ ∀ s,
        (checkEscapes token).run s = .error (.violation ⟨token, .invalidEscape '"', .error⟩) s) ∧
    ∃ token ∈ (scan "\"\\\\\\\\\"").tokens, token.kind = .string ∧
      inner token = [StringUnit.escape '\\', .escape '\\'].flatMap chars ∧
        ∀ s, (checkEscapes token).run s = .ok () s := by
  constructor
  · have hmem : ⟨.string, "\"\\\\\\\"\\q\"", 0, 0, -1⟩ ∈ (scan "\"\\\\\\\"\\q\"").tokens := by
      decide +kernel
    obtain ⟨units, _, hunits, hrun⟩ := checkEscapes_scan hmem rfl
    obtain rfl := (hunits [.escape '\\', .escape '"', .escape 'q']).mp rfl
    exact ⟨_, hmem, rfl, rfl, fun s => (hrun s).1⟩
  · have hmem : ⟨.string, "\"\\\\\\\\\"", 0, 0, -1⟩ ∈ (scan "\"\\\\\\\\\"").tokens := by
      decide +kernel
    obtain ⟨units, _, hunits, hrun⟩ := checkEscapes_scan hmem rfl
    obtain rfl := (hunits [.escape '\\', .escape '\\']).mp rfl
    exact ⟨_, hmem, rfl, rfl, fun s => (hrun s).1⟩

end Grammar

end Tranquility
