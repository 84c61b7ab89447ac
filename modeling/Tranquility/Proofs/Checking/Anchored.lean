import Tranquility.Proofs.Checking.Diagnostics
import Tranquility.Proofs.Token.SourceLine

/-!
# Where diagnostics are anchored

Every diagnostic of a check has the range of a token of the source or of its end, and both lie on a
line that the source has. A token other than a newline is what the line reads within its range, a
newline starts at the end of its line, and the end of the tokens is behind the last of them, or
where that one is if it is a newline.
-/

namespace Tranquility

namespace Token

/-- The end of some tokens is at a place: at the start of the source if there are none, where the
last of them is if that is a newline, and behind the last of them otherwise. -/
inductive EndsAtPlace (tokens : List Token) (line start : Nat) : Prop where
  | empty (tokens_eq : tokens = []) (line_eq : line = 0) (start_eq : start = 0)
  | newline (last : Token) (last_eq : tokens.getLast? = some last) (kind_eq : last.kind = .newline)
      (line_eq : last.line = line) (column_eq : last.column = start)
  | behind (last : Token) (last_eq : tokens.getLast? = some last) (kind_ne : last.kind ≠ .newline)
      (line_eq : last.line = line) (column_eq : last.column + last.text.length = start)

/-- A range is anchored at a token, or at the end of the tokens: it goes from `start` to `stop` on a
line of the source that reads `text`. -/
structure AnchoredAt (source : String) (tokens : List Token) (range : Range) (token : Token)
    (line start stop : Nat) (text : List Char) : Prop where
  token_mem : token ∈ tokens ∨ token = .endOf tokens
  onLine : token.OnLine source line start text
  range_eq : range = ⟨line, start, line, stop⟩
  stop_eq : stop = start + token.text.length
  /-- A token other than a newline is what the line reads within the range. -/
  inline : token ∈ tokens → token.kind ≠ .newline →
    stop ≤ text.length ∧ (text.take stop).drop start = token.text.toList
  /-- A newline starts where its line ends. -/
  newline : token ∈ tokens → token.kind = .newline → start = text.length
  /-- The end of the tokens is an empty range behind the last of them. -/
  ends : token = .endOf tokens → stop = start ∧ EndsAtPlace tokens line start

variable {source : String} {tokens : List Token} {token : Token}

/-- A token of a list is on a line of the source, where it can be read off, or where the line ends
if it is a newline. -/
theorem exists_onLine (h : tokenize source = .ok tokens) (htoken : token ∈ tokens) :
    ∃ line start text, token.OnLine source line start text ∧
      (token.kind ≠ .newline → token.IsSlice start text) ∧
      (token.kind = .newline → start = text.length) := by
  obtain ⟨before, after, hsplit⟩ := List.append_of_mem htoken
  obtain ⟨front, back, hscan, _, _⟩ := exists_split (map_unnumbered_of_tokenize h) hsplit
  have hmem : token.unnumbered ∈ (scan source).tokens := by
    rw [hscan]
    exact List.mem_append_right _ List.mem_cons_self
  have hnewline : token.unnumbered.kind = .newline ↔ '\n' ∈ token.unnumbered.text.toList :=
    kind_eq_newline_iff hmem
  refine ⟨_, _, _, (standsBetween_of_scan hscan).onLine, ?_, ?_⟩
  · intro hkind
    exact isSlice_of_inline (hnewline.not.mp hkind) _ _
  · intro hkind
    obtain ⟨_, hlanguage⟩ := language_of_mem_scan hmem
    rw [show token.unnumbered.kind = .newline from hkind] at hlanguage
    obtain ⟨c, rest, hcons⟩ := List.exists_cons_of_ne_nil hlanguage.1
    have hc : c = '\n' := hlanguage.2 c (hcons ▸ List.mem_cons_self)
    have htext : token.text.toList = '\n' :: rest := hc ▸ hcons
    simp [htext]

/-- The end of the tokens is on a line of the source. -/
theorem exists_onLine_endOf (h : tokenize source = .ok tokens) :
    ∃ line start text, (endOf tokens).OnLine source line start text ∧
      EndsAtPlace tokens line start := by
  rcases List.eq_nil_or_concat tokens with rfl | ⟨front, last, rfl⟩
  · have hfirst := Text.getElem?_splitOn_zero source.toList
    exact ⟨0, 0, _, ⟨rfl, rfl, hfirst, Nat.zero_le _⟩, .empty rfl rfl rfl⟩
  · rw [List.concat_eq_append] at h ⊢
    have hlast : (front ++ [last]).getLast? = some last := List.getLast?_concat
    have hmem : last ∈ front ++ [last] := List.mem_append_right _ (List.mem_singleton_self last)
    obtain ⟨line, start, text, honLine, hinline, _⟩ := exists_onLine h hmem
    by_cases hkind : last.kind = .newline
    · refine ⟨line, start, text, ⟨?_, ?_, honLine.text_eq, honLine.start_le⟩,
        .newline last hlast hkind honLine.line_eq honLine.column_eq⟩
      · simp [endOf, honLine.line_eq]
      · simp [endOf, hkind, honLine.column_eq]
    · have hcolumn := honLine.column_eq
      refine ⟨line, start + last.text.length, text, ⟨?_, ?_, honLine.text_eq, (hinline hkind).1⟩,
        .behind last hlast hkind honLine.line_eq (by omega)⟩
      · simp [endOf, honLine.line_eq]
      · simp [endOf, hkind, endColumn, hcolumn]

/-- No token of a source is the end of its tokens. -/
theorem ne_endOf (h : tokenize source = .ok tokens) (htoken : token ∈ tokens) :
    token ≠ endOf tokens := by
  rintro rfl
  have hlength := (lexeme_of_mem_tokenize h htoken).length_pos
  rw [text_endOf] at hlength
  cases hlength

/-- The range of a token of a source, or of the end of its tokens, is anchored at it. -/
theorem exists_anchoredAt (h : tokenize source = .ok tokens)
    (htoken : token ∈ tokens ∨ token = .endOf tokens) :
    ∃ line start stop text, AnchoredAt source tokens token.range token line start stop text := by
  rcases htoken with hmem | rfl
  · obtain ⟨line, start, text, honLine, hinline, hnewline⟩ := exists_onLine h hmem
    refine ⟨line, start, start + token.text.length, text, ⟨.inl hmem, honLine, ?_, rfl,
      fun _ => hinline, fun _ => hnewline, fun hend => absurd hend (ne_endOf h hmem)⟩⟩
    simp [range, endColumn, honLine.line_eq, honLine.column_eq]
  · obtain ⟨line, start, text, honLine, hplace⟩ := exists_onLine_endOf h
    refine ⟨line, start, start, text, ⟨.inr rfl, honLine, ?_, by simp,
      fun hmem => absurd rfl (ne_endOf h hmem), fun hmem => absurd rfl (ne_endOf h hmem),
      fun _ => ⟨rfl, hplace⟩⟩⟩
    simp [range, endColumn, honLine.line_eq, honLine.column_eq]

end Token

/-- Every diagnostic is anchored in the source. Its range starts and ends on one line that the
source has, not beyond the end of that line. It is the range of a token, which the line reads there
unless it is a newline, at which the line ends, or the empty range at the end of the tokens. -/
theorem diagnostics_anchored (source : String) : ∃ tokens analysis,
    tokenize source = .ok tokens ∧ check source = .ok analysis ∧
      ∀ diagnostic ∈ analysis.diagnostics, ∃ token line start stop text, start ≤ stop ∧
        Token.AnchoredAt source tokens diagnostic.range token line start stop text := by
  obtain ⟨tokens, analysis, htokens, hcheck, hdiagnostics⟩ := exists_check source
  refine ⟨tokens, analysis, htokens, hcheck, ?_⟩
  intro diagnostic hmem
  obtain ⟨token, message, severity, htoken, rfl⟩ := hdiagnostics diagnostic hmem
  obtain ⟨line, start, stop, text, hanchored⟩ := Token.exists_anchoredAt htokens htoken
  have hle : start ≤ stop := by
    rw [hanchored.stop_eq]
    exact Nat.le_add_right _ _
  exact ⟨token, line, start, stop, text, hle, hanchored⟩

end Tranquility
