import Tranquility.Proofs.Editor.Session
import Tranquility.Proofs.Text.Lines
import Tranquility.Proofs.Token.Cut

/-!
# What a server publishes

A diagnostic is published on the line where it stands, with its severity and its labelled message.
Its columns are units of the line that an editor has under that number. As long as nothing but
newlines has ended a line in front of a column, this is the line of the language, and the column is
right; a vertical tab in a comment is enough to make it wrong.
-/

namespace Tranquility.Editor

open Text

/-- The units in front of a column of a line, as the language counts lines. -/
def unitsInFront (text : String) (line column : Nat) : Nat :=
  units ((lineAt (lines text.toList) line).take column)

/-- A diagnostic is shown on its line, with its severity and its label. Wherever the text in front
of one of its columns is plain, the column shown is the number of units in front of it on that line.
-/
structure Shows (text : String) (diagnostic : Diagnostic) (shown : ClientDiagnostic) : Prop where
  severity_eq : shown.severity = diagnostic.severity
  message_eq : shown.message = diagnostic.severity.label ++ diagnostic.message
  range : ∃ line start stop startShown stopShown : Nat,
    diagnostic.range = ⟨line, start, line, stop⟩ ∧
    shown.range = ⟨line, startShown, line, stopShown⟩ ∧
    (PlainEnds (inFront text.toList line start) → startShown = unitsInFront text line start) ∧
    (PlainEnds (inFront text.toList line stop) → stopShown = unitsInFront text line stop)

variable {text : String} {tokens : List Token} {token : Token}

/-! ## Places -/

/-- A place on a line that there is, or on the one below, keeps its line. -/
theorem clientPlace_eq {lines : List (List Char)} {line : Nat} (h : line ≤ lines.length)
    (column : Nat) :
    clientPlace lines line column = (↑line, ↑(units ((lineAt lines line).take column))) := by
  unfold clientPlace
  rw [Int.toNat_natCast, Int.toNat_natCast]
  split
  case h_1 shown hshown => simp [lineAt, hshown]
  case h_2 hnone =>
    have hle : lines.length ≤ line := List.getElem?_eq_none_iff.mp hnone
    have heq : line = lines.length := Nat.le_antisymm h hle
    simp [lineAt, heq, units]

/-- Tokens and the end of the input stand on one line, which no more newlines are in front of than
the source has. -/
theorem exists_range (htokens : tokenize text = .ok tokens)
    (htoken : token ∈ tokens ∨ token = .endOf tokens) :
    ∃ line start stop : Nat, token.range = ⟨line, start, line, stop⟩ ∧
      line ≤ text.toList.count '\n' := by
  have hmem : ∀ token ∈ tokens, ∃ line start stop : Nat,
      token.range = ⟨line, start, line, stop⟩ ∧ line ≤ text.toList.count '\n' := by
    intro token hmem
    obtain ⟨kind, passed, piece, rest, hsource, hrange⟩ := exists_tokenOf htokens hmem
    refine ⟨(Place.past passed).line, (Place.past passed).column,
      (Place.past passed).column + (String.ofList piece).length, hrange, ?_⟩
    rw [hsource, List.count_append]
    exact Nat.le_add_right _ _
  rcases htoken with htoken | rfl
  · exact hmem token htoken
  · unfold Token.endOf
    split
    case h_1 => exact ⟨0, 0, 0, rfl, Nat.zero_le _⟩
    case h_2 last hlast =>
      obtain ⟨line, start, stop, hrange, hle⟩ := hmem last (List.mem_of_getLast? hlast)
      have hline : last.line = line := congrArg Range.startLine hrange
      have hstart : last.column = start := congrArg Range.startColumn hrange
      have hstop : last.endColumn = stop := congrArg Range.endColumn hrange
      rw [hline, hstart, hstop]
      by_cases hnewline : last.kind = .newline
      · rw [if_pos hnewline]
        exact ⟨line, start, start, by simp [Token.range, Token.endColumn], hle⟩
      · rw [if_neg hnewline]
        exact ⟨line, stop, stop, by simp [Token.range, Token.endColumn], hle⟩

/-! ## Diagnostics -/

/-- The diagnostic of a token, or of the end of the input, is shown. -/
theorem shows_atToken (htokens : tokenize text = .ok tokens)
    (htoken : token ∈ tokens ∨ token = .endOf tokens) (message : String) (severity : Severity) :
    Shows text (.atToken token message severity)
      { ClientDiagnostic.ofDiagnostic (.atToken token message severity) with
        range := clientRange (editorLines text.toList) token.range } where
  severity_eq := rfl
  message_eq := rfl
  range := by
    obtain ⟨line, start, stop, hrange, hle⟩ := exists_range htokens htoken
    have hline := Nat.le_trans hle (count_newline_le text.toList)
    refine ⟨line, start, stop, units ((lineAt (editorLines text.toList) line).take start),
      units ((lineAt (editorLines text.toList) line).take stop), hrange, ?_, fun hplain => ?_,
      fun hplain => ?_⟩
    · rw [hrange, clientRange, clientPlace_eq hline, clientPlace_eq hline]
    · rw [take_lineAt_editorLines hplain, unitsInFront]
    · rw [take_lineAt_editorLines hplain, unitsInFront]

/-- Whatever the text of a document of the language, a check publishes once. It shows one diagnostic
for each that it has found, in order, on the same lines and, where the text in front is plain, in
the columns that these have in units. -/
theorem refresh_shows (server : Server) {uri : String} (hsource : isSourcePath uri = true)
    (text : String) : ∃ analysis reaction shown, check text = .ok analysis ∧
      server.refresh uri text = .ok reaction ∧ reaction.published = [⟨uri, shown⟩] ∧
        List.Forall₂ (Shows text) analysis.diagnostics shown := by
  obtain ⟨tokens, found, htokens, hfound, hdiagnostics⟩ := exists_check text
  obtain ⟨analysis, reaction, hcheck, hrun, _, _, hpublished⟩ :=
    Server.refresh_source server hsource text
  rw [hfound, Except.ok.injEq] at hcheck
  subst hcheck
  refine ⟨found, reaction, _, hfound, hrun, hpublished, ?_⟩
  rw [clientDiagnostics, List.forall₂_map_right_iff, List.forall₂_same]
  intro diagnostic hmem
  obtain ⟨token, message, severity, htoken, rfl⟩ := hdiagnostics diagnostic hmem
  exact shows_atToken htokens htoken message severity

/-- A character of two units counts as two in the column behind it. -/
theorem refresh_shows_two_units : isSourcePath "a.t" = true ∧ ∃ analysis reaction shown,
    check "var 😀" = .ok analysis ∧ Server.initial.refresh "a.t" "var 😀" = .ok reaction ∧
      reaction.published = [⟨"a.t", [shown]⟩] ∧ shown.range = ⟨0, 4, 0, 6⟩ ∧
        analysis.diagnostics.map (·.range) = [⟨0, 4, 0, 5⟩] := by
  have hsource : isSourcePath "a.t" = true := by decide +kernel
  obtain ⟨analysis, reaction, shown, hcheck, hrun, hpublished, hshows⟩ :=
    refresh_shows .initial hsource "var 😀"
  have hranges : (check "var 😀").toOption.all
      (fun analysis => decide (analysis.diagnostics.map (·.range) = [⟨0, 4, 0, 5⟩])) = true := by
    decide +kernel
  rw [hcheck] at hranges
  replace hranges := of_decide_eq_true hranges
  obtain ⟨diagnostic, hdiagnostics, hrange⟩ := List.map_eq_singleton_iff.mp hranges
  rw [hdiagnostics] at hshows
  cases hshows with
  | @cons _ shown _ _ hshows hrest =>
    cases hrest
    obtain ⟨line, start, stop, startShown, stopShown, hplace, hshown, hstart, hstop⟩ := hshows.range
    rw [hrange, Range.mk.injEq] at hplace
    obtain ⟨rfl, rfl, rfl⟩ : line = 0 ∧ start = 4 ∧ stop = 5 := by omega
    have hfour : unitsInFront "var 😀" 0 4 = 4 := by decide +kernel
    have hsix : unitsInFront "var 😀" 0 5 = 6 := by decide +kernel
    rw [hstart (by decide +kernel), hstop (by decide +kernel), hfour, hsix] at hshown
    refine ⟨hsource, analysis, reaction, shown, hcheck, hrun, hpublished, hshown, ?_⟩
    rw [hdiagnostics, List.map_singleton, hrange]

/-- After a vertical tab in a comment the editor has one line more than the language, so that the
column of an error on the next line counts the units of another line. -/
theorem refresh_vertical_tab : ∃ analysis reaction,
    check "#\x0b😀\n@" = .ok analysis ∧
      Server.initial.refresh "a.t" "#\x0b😀\n@" = .ok reaction ∧
        analysis.diagnostics.map (·.range) = [⟨1, 0, 1, 1⟩] ∧
          reaction.published.map (fun publication => publication.diagnostics.map (·.range)) =
            [[⟨1, 0, 1, 2⟩]] ∧ unitsInFront "#\x0b😀\n@" 1 1 = 1 := by
  have hsource : isSourcePath "a.t" = true := by decide +kernel
  obtain ⟨analysis, reaction, hcheck, hrun, _, _, hpublished⟩ :=
    Server.refresh_source .initial hsource "#\x0b😀\n@"
  have hranges : (check "#\x0b😀\n@").toOption.all (fun analysis =>
      decide (analysis.diagnostics.map (·.range) = [⟨1, 0, 1, 1⟩] ∧
        (clientDiagnostics "#\x0b😀\n@" analysis).map (·.range) = [⟨1, 0, 1, 2⟩])) = true := by
    decide +kernel
  rw [hcheck] at hranges
  obtain ⟨hfound, hshown⟩ := of_decide_eq_true hranges
  refine ⟨analysis, reaction, hcheck, hrun, hfound, ?_, by decide +kernel⟩
  rw [hpublished, List.map_singleton, hshown]

end Tranquility.Editor
