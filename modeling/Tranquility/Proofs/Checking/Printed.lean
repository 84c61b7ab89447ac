import Tranquility.CommandLine
import Tranquility.Proofs.Checking.Diagnostics
import Tranquility.Proofs.Token.LineFront
import Tranquility.Proofs.Token.SourceLine

/-!
# What the command line prints

A message repeats texts of the program only where these stay on their line: a violation fits its
token, so what it repeats is a name, a keyword or a character of a string, and where any token may
stand its line ends are spelled out. So every diagnostic is printed on one line. The exit code tells
whether there is a program, since a source without errors is one and no other is.
-/

namespace Tranquility

/-! ## Texts on one line -/

namespace Text

/-- The text has no newline. -/
def Inline (text : String) : Prop :=
  '\n' ∉ text.toList

/-- A text is on one line if its characters are; those of a literal can be looked through. -/
theorem inline_ofList {characters : List Char} (h : '\n' ∉ characters) :
    Inline (String.ofList characters) := by
  rw [Inline, String.toList_ofList]
  exact h

namespace Inline

variable {a b : String} {characters : List Char}

/-- Texts on one line make a text on one line. -/
theorem append (ha : Inline a) (hb : Inline b) : Inline (a ++ b) := by
  rw [Inline, String.toList_append, List.mem_append, not_or]
  exact ⟨ha, hb⟩

/-- Words come in front of a text. -/
theorem after (ha : Inline a) (h : '\n' ∉ characters) : Inline (String.ofList characters ++ a) :=
  (inline_ofList h).append ha

/-- Words come behind a text. -/
theorem before (ha : Inline a) (h : '\n' ∉ characters) : Inline (a ++ String.ofList characters) :=
  ha.append (inline_ofList h)

end Inline

/-- A character other than a newline is on one line. -/
theorem inline_char {c : Char} (h : c ≠ '\n') : Inline (toString c) := by
  show '\n' ∉ (String.singleton c).toList
  rw [String.toList_singleton, List.mem_singleton]
  exact h.symm

theorem inline_nat (n : Nat) : Inline (toString n) := by
  rw [Inline, Nat.toString_eq_repr, Nat.repr, String.toList_ofList]
  intro hmem
  have hdigit := Nat.isDigit_of_mem_toDigits (by decide) (by decide) hmem
  cases hdigit

theorem inline_int (n : Int) : Inline (toString n) := by
  cases n with
  | ofNat n => exact inline_nat n
  | negSucc n => exact (inline_nat (n + 1)).after (by decide)

end Text

open Text (Inline inline_ofList)

/-- The phrase for a kind that the language knows is on one line. -/
theorem Kind.inline_phrase {kind : Kind} (h : kind.isKnown = true) : Inline kind.phrase := by
  cases kind with
  | other name => cases h
  | _ => exact inline_ofList (by decide)

/-- The name of a type that the language knows is on one line. -/
theorem Ty.inline_name {type : Ty} (h : type.isKnown = true) : Inline type.name := by
  cases type with
  | other name => cases h
  | _ => exact inline_ofList (by decide)

theorem Ty.inline_withArticle {type : Ty} (h : type.isKnown = true) : Inline type.withArticle := by
  unfold withArticle
  split
  · exact inline_ofList (by decide)
  · split
    · exact (inline_name h).after (by decide)
    · exact (inline_name h).after (by decide)

/-- The label of a severity is on one line. -/
theorem Severity.inline_label (severity : Severity) : Inline severity.label := by
  cases severity with
  | _ => exact inline_ofList (by decide)

namespace Token

/-- A character is described on one line; for a newline there is an escape. -/
theorem newline_notMem_describeChar (c : Char) : '\n' ∉ describeChar c := by
  unfold describeChar
  split
  · decide
  · split
    · decide
    · exact fun hmem => absurd (List.mem_singleton.mp hmem).symm ‹_›

/-- Where messages show a token its line ends are spelled out. -/
theorem inline_describe (token : Token) : Inline token.describe := by
  unfold describe
  split
  · exact inline_ofList (by decide)
  · refine inline_ofList fun hmem => ?_
    obtain ⟨c, _, hc⟩ := List.mem_flatMap.mp hmem
    exact newline_notMem_describeChar c hc

/-- What messages may repeat of a token is on one line: the phrase for its kind, and its text unless
it is a newline. -/
structure Quotable (token : Token) : Prop where
  isKnown : token.kind.isKnown = true
  inline_text : token.kind ≠ .newline → Inline token.text

end Token

/-! ## Messages -/

namespace Violation

/-- A message about operands is on one line if the names of their types are. -/
theorem inline_operandMessage (operator : String) {left right : String} (hleft : Inline left)
    (hright : Inline right) : Inline (operandMessage operator left right) := by
  unfold operandMessage
  split
  -- What is subtracted is named first.
  case h_13 => exact ((hright.after (by decide)).before (by decide)).append hleft
  all_goals exact ((hleft.after (by decide)).before (by decide)).append hright

/-- What is shown and what was expected are told on one line. -/
theorem inline_unexpected {shown expected : String} (hshown : Inline shown)
    (hexpected : Inline expected) : Inline (unexpected shown expected) :=
  ((hshown.after (by decide)).before (by decide)).append hexpected

/-- A keyword is on one line. -/
theorem inline_keyword {text : String} (h : text ∈ Pattern.keywords) : Inline text := by
  have hkeywords : ∀ text ∈ Pattern.keywords, '\n' ∉ text.toList := by decide
  exact hkeywords text h

/-- The message of a violation that fits its token is on one line. -/
theorem inline_message {violation : Violation} {token : Token} (hfits : violation.Fits token)
    (htoken : token.Quotable) : Inline (violation.message token) := by
  have hdescribe := token.inline_describe
  have hfound := Kind.inline_phrase htoken.isKnown
  cases violation with
  | expectedKind kind =>
    exact (((Kind.inline_phrase hfits).after (by decide)).before (by decide)).append hfound
  | expectedText text =>
    exact ((((inline_keyword hfits).after (by decide)).before (by decide)).append
      hdescribe).before (by decide)
  | endOfInput | missingFunction | endlessLoop => exact inline_ofList (by decide)
  | expectedDeclarations | expectedFunction | expectedStatement | expectedExpression =>
    exact inline_unexpected hdescribe (inline_ofList (by decide))
  | misplacedKeyword =>
    have htext := htoken.inline_text (by rw [hfits]; decide)
    exact inline_unexpected htext (inline_ofList (by decide))
  | expectedLiteral => exact hfound.after (by decide)
  | duplicateFunction =>
    have htext := htoken.inline_text (by rw [hfits]; decide)
    exact ((htext.after (by decide)).before (by decide)).before (by decide)
  | duplicateVariable | undefinedVariable | undefinedFunction =>
    have htext := htoken.inline_text (by rw [hfits]; decide)
    exact (htext.after (by decide)).before (by decide)
  | argumentCount expected received =>
    have hnoun : Inline (if expected = 1 then "argument" else "arguments") := by
      split
      · exact inline_ofList (by decide)
      · exact inline_ofList (by decide)
    exact (((((Text.inline_int expected).after (by decide)).before (by decide)).append
      hnoun).before (by decide)).append (Text.inline_nat received)
  | operandTypes left right =>
    exact inline_operandMessage _ (Ty.inline_withArticle hfits.1) (Ty.inline_withArticle hfits.2)
  | invalidEscape escaped =>
    obtain ⟨hkind, hmem⟩ := hfits
    have htext := htoken.inline_text (by rw [hkind]; decide)
    have hne : escaped ≠ '\n' := by
      rintro rfl
      exact htext (List.mem_of_mem_drop ((List.dropLast_sublist _).mem hmem))
    exact (((Text.inline_char hne).after (by decide)).before (by decide)).before (by decide)
  | described text => exact hfits.elim

end Violation

/-- A token that the language does not know is shown on one line if its text is. -/
theorem inline_unrecognizedMessage {text : String} (h : Inline text) :
    Inline (unrecognizedMessage text) := by
  have hshown : Inline s!"Unrecognized token \"{text}\"" :=
    (h.after (by decide)).before (by decide)
  unfold unrecognizedMessage
  split
  · exact hshown
  · exact (inline_ofList (by decide)).before (by decide)
  · split
    · exact inline_ofList (by decide)
    · split
      · exact inline_ofList (by decide)
      · exact hshown

/-! ## Diagnostics -/

section

variable {source : String} {tokens : List Token} {token : Token}

/-- What messages may repeat of a token of a source, or of its end, is on one line. -/
theorem quotable_of_mem (h : tokenize source = .ok tokens)
    (htoken : token ∈ tokens ∨ token = .endOf tokens) : token.Quotable := by
  rcases htoken with hmem | rfl
  · have hscan := Token.unnumbered_mem_scan h hmem
    constructor
    · obtain ⟨_, hlanguage⟩ := language_of_mem_scan hscan
      rw [show token.unnumbered.kind = token.kind from rfl] at hlanguage
      cases hkind : token.kind with
      | other name =>
        rw [hkind] at hlanguage
        exact absurd hlanguage List.not_mem_nil
      | _ => rfl
    · exact fun hkind => (kind_eq_newline_iff hscan).not.mp hkind
  · constructor
    · rw [Token.kind_endOf]
      rfl
    · intro _
      rw [Token.text_endOf]
      exact inline_ofList (by decide)

/-- The violation that a parse of a source ends in fits its token. -/
theorem fits_of_parse (h : tokenize source = .ok tokens) {error : TokenError}
    {s' : Grammar.State} (hparse : Grammar.parse tokens = .error (.violation error) s') :
    error.violation.Fits error.token := by
  rcases Grammar.parse_outcome h (Reporter.empty.reportUnrecognized tokens) with
    ⟨_, _, hok, _⟩ | ⟨_, _, herror, hfailure⟩
  · rw [Grammar.parse, hok] at hparse
    cases hparse
  · rw [Grammar.parse, herror] at hparse
    cases hparse
    exact hfailure.fits

namespace Analysis

/-- Every message of an analysis is on one line, since what it quotes is. -/
theorem Shape.inline_message {analysis : Analysis} {operators : List Token}
    (hshape : analysis.Shape tokens operators) (h : tokenize source = .ok tokens)
    {diagnostic : Diagnostic} (hmem : diagnostic ∈ analysis.diagnostics) :
    Inline diagnostic.message := by
  rw [hshape.diagnostics_eq, List.mem_append, List.mem_append] at hmem
  rcases hmem with (hmem | hmem) | hmem
  · obtain ⟨token, htoken, rfl⟩ := List.mem_map.mp hmem
    obtain ⟨htoken, hkind⟩ := Token.mem_unrecognized.mp htoken
    have htext := (quotable_of_mem h (.inl htoken)).inline_text (by rw [hkind]; decide)
    exact inline_unrecognizedMessage htext
  · obtain ⟨operator, _, rfl⟩ := List.mem_map.mp hmem
    exact (inline_ofList (by decide) : Inline Grammar.unsafePointerArithmetic)
  · rcases hshape.ends with ⟨_, _, hparse, _⟩ | ⟨error, s', hparse, _, _, htoken⟩
    · rw [hparse] at hmem
      exact absurd hmem List.not_mem_nil
    · have hmessage := Violation.inline_message (fits_of_parse h hparse) (quotable_of_mem h htoken)
      rw [hparse, fatal] at hmem
      split at hmem
      case isTrue => exact absurd hmem List.not_mem_nil
      case isFalse => exact List.mem_singleton.mp hmem ▸ hmessage

end Analysis

end

/-! ## Output -/

namespace CommandLine

/-- The path, the place counted from one, the label and the message. -/
theorem diagnosticLine_eq (path : String) (diagnostic : Diagnostic) :
    diagnosticLine path diagnostic =
      s!"{path}:{diagnostic.range.startLine + 1}:{diagnostic.range.startColumn + 1}: " ++
        diagnostic.severity.label ++ diagnostic.message := by
  simp [diagnosticLine, Diagnostic.line, Diagnostic.labelled, String.append_assoc, toString]

/-- The line for a diagnostic is one line if the path is. -/
theorem inline_diagnosticLine {path : String} {diagnostic : Diagnostic} (hpath : Inline path)
    (hmessage : Inline diagnostic.message) : Inline (diagnosticLine path diagnostic) := by
  have hlabelled : Inline diagnostic.labelled := diagnostic.severity.inline_label.append hmessage
  have hline : Inline diagnostic.line :=
    ((((Text.inline_int _).before (by decide)).append (Text.inline_int _)).before
      (by decide)).append hlabelled
  exact (hpath.before (by decide)).append hline

/-- What a check of a file in UTF-8 comes to, unless the tokens and the program are listed too. -/
theorem run_check {environment : Environment} {path source : String} {bytes : ByteArray}
    {analysis : Analysis} (hdebug : environment.debug = false)
    (hlookup : environment.lookup path = .ok bytes) (hbytes : String.fromUTF8? bytes = some source)
    (hcheck : check source = .ok analysis) : run environment (.check path) =
      ⟨printed (analysis.diagnostics.map (diagnosticLine path)),
        .ok (if analysis.errors.isEmpty then 0 else 1)⟩ := by
  simp only [run, withSource, hlookup, hbytes, checkSource, hcheck, hdebug]
  rfl

/-- Lines that are printed can be read back: each ends at its newline, and nothing comes after the
last. -/
theorem splitOn_printed {lines : List String} (h : ∀ line ∈ lines, Inline line) :
    (printed lines).toList.splitOn '\n' = lines.map (·.toList) ++ [[]] := by
  induction lines with
  | nil => rfl
  | cons line lines ih =>
    obtain ⟨hline, hlines⟩ := List.forall_mem_cons.mp h
    have hprinted : (printed (line :: lines)).toList =
        line.toList ++ '\n' :: (printed lines).toList := by
      simp [printed]
    rw [hprinted, List.splitOn_append_cons_self_of_not_mem hline, ih hlines]
    rfl

/-- A check of a file in UTF-8 prints its diagnostics. No message of them has a newline, so where
the path has none, there is one line for each diagnostic, in their order, with the path, the place
counted from one, the label and the message, and the exit code is zero if there is a program and
one if there is none. -/
theorem check_prints_lines (source : String) : ∃ analysis, check source = .ok analysis ∧
    (∀ diagnostic ∈ analysis.diagnostics, '\n' ∉ diagnostic.message.toList) ∧
    ∀ (environment : Environment) (path : String) (bytes : ByteArray),
      environment.debug = false → '\n' ∉ path.toList → environment.lookup path = .ok bytes →
        String.fromUTF8? bytes = some source → ∃ lines : List String,
          lines = analysis.diagnostics.map (fun diagnostic =>
            s!"{path}:{diagnostic.range.startLine + 1}:{diagnostic.range.startColumn + 1}: " ++
              diagnostic.severity.label ++ diagnostic.message) ∧
          (run environment (.check path)).output = String.join (lines.map (· ++ "\n")) ∧
          (run environment (.check path)).output.toList.splitOn '\n' =
            lines.map (·.toList) ++ [[]] ∧
          (run environment (.check path)).exit =
            .ok (if analysis.program.isSome then 0 else 1) := by
  have htokens := tokenize_eq source
  obtain ⟨operators, analysis, hanalysis, hshape⟩ := Analysis.ofTokens_shape htokens
  have hcheck : check source = .ok analysis := by
    rw [check, htokens]
    exact hanalysis
  have hmessage (diagnostic : Diagnostic) (hmem : diagnostic ∈ analysis.diagnostics) :
      Inline diagnostic.message := hshape.inline_message htokens hmem
  refine ⟨analysis, hcheck, hmessage, ?_⟩
  intro environment path bytes hdebug hpath hlookup hbytes
  have hline (line : String) (hmem : line ∈ analysis.diagnostics.map (diagnosticLine path)) :
      Inline line := by
    obtain ⟨diagnostic, hdiagnostic, rfl⟩ := List.mem_map.mp hmem
    exact inline_diagnosticLine hpath (hmessage diagnostic hdiagnostic)
  rw [run_check hdebug hlookup hbytes hcheck]
  refine ⟨analysis.diagnostics.map (diagnosticLine path), ?_, rfl, splitOn_printed hline, ?_⟩
  · exact List.map_congr_left fun diagnostic _ => diagnosticLine_eq path diagnostic
  · have hexit : analysis.errors.isEmpty = analysis.program.isSome := by
      rw [Bool.eq_iff_iff, List.isEmpty_iff]
      exact hshape.errors_iff
    rw [hexit]

/-- A file with a warning and an error is printed on two lines. -/
theorem check_prints_lines_two :
    let source := "fun f(a) \x7b\na: a + 1\nlost\n\x7d\n"
    let path := "a.t"
    let outcome := run ⟨fun _ => .ok source.toUTF8, false⟩ (.check path)
    outcome.output = "a.t:2:6: ⚠️ Warning: " ++ Grammar.unsafePointerArithmetic ++ "\n" ++
        "a.t:3:1: ❌ Error: Variable \"lost\" is not defined.\n" ∧ outcome.exit = .ok 1 := by
  intro source path outcome
  obtain ⟨analysis, hcheck, _, hprints⟩ := check_prints_lines source
  obtain ⟨lines, rfl, houtput, -, hexit⟩ := hprints ⟨fun _ => .ok source.toUTF8, false⟩ path _
    rfl (by decide) rfl (dif_pos source.isValidUTF8)
  have hlines : (check source).toOption.map (fun analysis =>
      (analysis.program.isSome, analysis.diagnostics.map (fun diagnostic =>
        s!"{path}:{diagnostic.range.startLine + 1}:{diagnostic.range.startColumn + 1}: " ++
          diagnostic.severity.label ++ diagnostic.message))) =
      some (false, ["a.t:2:6: ⚠️ Warning: " ++ Grammar.unsafePointerArithmetic,
        "a.t:3:1: ❌ Error: Variable \"lost\" is not defined."]) := by
    decide +kernel
  rw [hcheck] at hlines
  obtain ⟨hprogram, hlines⟩ := Prod.mk.inj (Option.some.inj hlines)
  constructor
  · rw [houtput, hlines]
    decide +kernel
  · rw [hexit, hprogram]
    rfl

end CommandLine

end Tranquility
