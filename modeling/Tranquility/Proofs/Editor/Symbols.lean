import Tranquility.Proofs.Editor.Session
import Tranquility.Proofs.Reading.Declarations
import Tranquility.Proofs.Token.LineFront

/-!
# The ranges of symbols

A symbol is shown by the range of the token that declares it, whose columns count characters. In
front of a name that a program declares its line has no token that could have characters beyond
ASCII, so that the columns of a symbol are the same in units, whatever else the document holds.
-/

namespace Tranquility

/-! ## The line of a name -/

/-- The line of a token reads `text`, in which the token goes from `start` to `stop`, and up to
there the line is ASCII. -/
structure Token.OnPlainLine (token : Token) (source : String) (line start stop : Nat)
    (text : List Char) : Prop where
  onLine : token.OnLine source line start text
  stop_eq : stop = start + token.text.length
  stop_le : stop ≤ text.length
  slice_eq : (text.take stop).drop start = token.text.toList
  areAscii : AreAscii (text.take stop)

/-- A name that tokens declare is on a line that is ASCII up to the end of the name. -/
theorem Token.Declare.exists_onPlainLine {source : String} {tokens : List Token} {name : Token}
    (h : Token.Declare tokens name) (htokens : tokenize source = .ok tokens) :
    ∃ line start stop text, name.OnPlainLine source line start stop text := by
  obtain ⟨above, line, rest, hsplit, hkind, habove, hline⟩ := h
  have hmem : name ∈ tokens := by
    rw [hsplit]
    simp
  have hforeign : ∀ token ∈ line, token.kind ∉ Kind.foreign := by
    intro token htoken
    have hplain := hline token htoken
    cases hcase : token.kind <;> simp_all [Kind.foreign]
  obtain ⟨before, after, hstands, hbefore⟩ :=
    areAscii_lastLine htokens hsplit habove hforeign (by simp [hkind])
  have hscan := unnumbered_mem_scan htokens hmem
  have hinline : '\n' ∉ name.text.toList := by
    intro hnewline
    have hnewline : name.unnumbered.kind = .newline := (kind_eq_newline_iff hscan).mpr hnewline
    rw [show name.unnumbered.kind = .identifier from hkind] at hnewline
    cases hnewline
  have hname : AreAscii name.text.toList := by
    obtain ⟨_, hlanguage⟩ := language_of_mem_scan hscan
    apply hlanguage.areAscii
    rw [show name.unnumbered.kind = .identifier from hkind]
    decide
  have htext := Text.takeWhile_append_of_inline hinline after
  have hslice := isSlice_of_inline hinline (Text.lastLine before) after
  refine ⟨_, _, _, _, hstands.onLine, rfl, hslice.1, hslice.2, ?_⟩
  rw [htext, ← List.append_assoc, ← String.length_toList, ← List.length_append, List.take_left]
  exact List.forall_mem_append.mpr ⟨hbefore, hname⟩

namespace Editor

/-- A symbol is shown in a source: its range selects its name on a line that is ASCII up to the end
of the name, and the columns of the range are the same in units. -/
structure Symbol.ShownIn (symbol : Symbol) (source : String) (line start stop : Nat)
    (text : List Char) : Prop where
  range_eq : symbol.range = ⟨line, start, line, stop⟩
  text_eq : (sourceLines source)[line]? = some text
  start_le : start ≤ stop
  stop_le : stop ≤ text.length
  slice_eq : (text.take stop).drop start = symbol.name.toList
  areAscii : AreAscii (text.take stop)
  units_start : Text.units (text.take start) = start
  units_stop : Text.units (text.take stop) = stop

/-- A symbol is shown where its token is on a line that is ASCII up to its end. -/
theorem Symbol.shownIn {symbol : Symbol} {source : String} {line start stop : Nat}
    {text : List Char} (hname : symbol.name = symbol.token.text)
    (h : symbol.token.OnPlainLine source line start stop text) :
    symbol.ShownIn source line start stop text where
  range_eq := by
    simp [Symbol.range, Token.range, Token.endColumn, h.onLine.line_eq, h.onLine.column_eq,
      h.stop_eq]
  text_eq := h.onLine.text_eq
  start_le := by
    rw [h.stop_eq]
    exact Nat.le_add_right _ _
  stop_le := h.stop_le
  slice_eq := by rw [hname, h.slice_eq]
  areAscii := h.areAscii
  units_start := by
    have hle : start ≤ stop := by
      rw [h.stop_eq]
      exact Nat.le_add_right _ _
    have hprefix : AreAscii (text.take start) := fun c hc =>
      h.areAscii c (List.take_subset_take_left text hle hc)
    rw [Text.units_eq_length hprefix, List.length_take_of_le h.onLine.start_le]
  units_stop := by rw [Text.units_eq_length h.areAscii, List.length_take_of_le h.stop_le]

/-- The symbols of a program are known by the tokens that it declares. -/
theorem Symbol.map_token_ofProgram (program : Program) :
    (ofProgram program).map (·.token) = program.declared := by
  simp [ofProgram, ofVariable, ofFunction, Program.declared, Function.comp_def]

/-- A symbol has the text of its token as its name. -/
theorem Symbol.name_of_mem_ofProgram {program : Program} {symbol : Symbol}
    (h : symbol ∈ ofProgram program) : symbol.name = symbol.token.text := by
  rcases List.mem_append.mp h with h | h
  · obtain ⟨token, _, rfl⟩ := List.mem_map.mp h
    rfl
  · obtain ⟨function, _, rfl⟩ := List.mem_map.mp h
    rfl

/-- After a check that finds a program the symbols of the document are those of the program. -/
theorem Server.symbolsOf_refresh (server : Server) {uri source : String} {analysis : Analysis}
    {program : Program} (hsource : isSourcePath uri = true) (hcheck : check source = .ok analysis)
    (hprogram : analysis.program = some program) : ∃ reaction,
      server.refresh uri source = .ok reaction ∧
        reaction.server.symbolsOf uri = Symbol.ofProgram program := by
  obtain ⟨found, reaction, hfound, hrun, hdocument, _, _⟩ := server.refresh_source hsource source
  rw [hcheck, Except.ok.injEq] at hfound
  subst hfound
  have hsymbols : reaction.server.symbols[uri]? = some (Symbol.ofProgram program) := by
    have hfield := congrArg Document.symbols hdocument
    simpa [hprogram, Server.document] using hfield
  exact ⟨reaction, hrun, by rw [Server.symbolsOf, hsymbols, Option.getD_some]⟩

/-- If a source is a program, then its symbols come in the order of the source, and each is shown
where its range selects its name on a line that is ASCII up to there, so that the columns of the
range are columns in units. These are the symbols of any document with that text, and a name leads
to one of them. -/
theorem symbols_shown {source : String} {analysis : Analysis} {program : Program}
    (hcheck : check source = .ok analysis) (hprogram : analysis.program = some program) :
    ((Symbol.ofProgram program).map (·.token)).Pairwise (·.spot < ·.spot) ∧
    (∀ symbol ∈ Symbol.ofProgram program, ∃ line start stop text,
      symbol.ShownIn source line start stop text) ∧
    ∀ (server : Server) (uri : String), isSourcePath uri = true → ∃ reaction,
      server.refresh uri source = .ok reaction ∧
        reaction.server.symbolsOf uri = Symbol.ofProgram program ∧
        ∀ line column symbol, reaction.server.definition? uri line column = some symbol →
          symbol ∈ Symbol.ofProgram program := by
  obtain ⟨tokens, s', htokens, hparse⟩ := exists_parse hcheck hprogram
  obtain ⟨hsublist, hdeclare⟩ := (Grammar.program_reads rfl hparse).declared
  refine ⟨?_, ?_, ?_⟩
  · rw [Symbol.map_token_ofProgram]
    exact (pairwise_tokenize htokens).sublist hsublist
  · intro symbol hsymbol
    have hmem : symbol.token ∈ program.declared := by
      rw [← Symbol.map_token_ofProgram]
      exact List.mem_map_of_mem hsymbol
    obtain ⟨line, start, stop, text, hplain⟩ :=
      (hdeclare symbol.token hmem).exists_onPlainLine htokens
    exact ⟨line, start, stop, text, Symbol.shownIn (Symbol.name_of_mem_ofProgram hsymbol) hplain⟩
  · intro server uri hsource
    obtain ⟨reaction, hrun, hsymbols⟩ := server.symbolsOf_refresh hsource hcheck hprogram
    refine ⟨reaction, hrun, hsymbols, ?_⟩
    intro line column symbol hsymbol
    obtain ⟨word, _, hfind⟩ := Option.bind_eq_some_iff.mp hsymbol
    rw [← hsymbols]
    exact List.mem_of_find?_eq_some hfind

/-- Characters of two units in comments and strings move no symbol. -/
theorem symbols_shown_two_units : ∃ analysis program,
    check "# 😀\nvar a, b # 😀\nfun init() \x7b\nsprint(\"😀\")\n\x7d" = .ok analysis ∧
      analysis.program = some program ∧
        (Symbol.ofProgram program).map (fun symbol => (symbol.name, symbol.range)) =
          [("a", ⟨1, 4, 1, 5⟩), ("b", ⟨1, 7, 1, 8⟩), ("init", ⟨2, 4, 2, 8⟩)] ∧
        ∀ symbol ∈ Symbol.ofProgram program, ∃ line start stop text, symbol.ShownIn
          "# 😀\nvar a, b # 😀\nfun init() \x7b\nsprint(\"😀\")\n\x7d" line start stop text := by
  have hfound : (programOf? "# 😀\nvar a, b # 😀\nfun init() \x7b\nsprint(\"😀\")\n\x7d").any
      (fun program => decide (
        (Symbol.ofProgram program).map (fun symbol => (symbol.name, symbol.range)) =
          [("a", ⟨1, 4, 1, 5⟩), ("b", ⟨1, 7, 1, 8⟩), ("init", ⟨2, 4, 2, 8⟩)])) = true := by
    decide +kernel
  obtain ⟨program, hprogram, hsymbols⟩ := (Option.any_eq_true _ _).mp hfound
  obtain ⟨analysis, hcheck, hprogram⟩ := programOf?_eq_some_iff.mp hprogram
  obtain ⟨_, hshown, _⟩ := symbols_shown hcheck hprogram
  exact ⟨analysis, program, hcheck, hprogram, of_decide_eq_true hsymbols, hshown⟩

end Editor

end Tranquility
