import Tranquility.Proofs.Accepting.Program
import Tranquility.Proofs.Reading.Program
import Tranquility.Proofs.Token.Core

/-!
# Programs between other newlines

What a parse reads between the newlines at either end is a written form of its program. So the same
program is read if other newlines stand there, and the same is reported about it.
-/

namespace Tranquility

/-! ## The pieces of a program -/

/-- A program starts with a keyword, that of its variables or of its first function. -/
theorem Program.pieces_eq_cons {program : Program} (hne : program.functions ≠ []) :
    ∃ word rest, program.pieces = Piece.keyword word :: rest := by
  rw [Program.pieces]
  cases program.globals with
  | cons line lines => exact ⟨"var", _, rfl⟩
  | nil =>
    obtain ⟨first, functions, hfunctions⟩ := List.exists_cons_of_ne_nil hne
    rw [hfunctions]
    exact ⟨"fun", _, rfl⟩

/-- A program ends with the right brace of its last function and a newline. -/
theorem Program.pieces_eq_concat {program : Program} (hne : program.functions ≠ []) :
    ∃ front, program.pieces = front ++ [Piece.mark .rightBrace] ++ [.mark .newline] := by
  obtain ⟨functions, last, hfunctions⟩ :=
    List.eq_nil_or_concat program.functions |>.resolve_left hne
  obtain ⟨inside, hinside⟩ : ∃ inside, last.pieces = inside ++ [Piece.mark .rightBrace] := ⟨_, rfl⟩
  refine ⟨program.globals.flatMap Piece.variableLine ++
    (FunctionDecl.piecesOfAll functions ++ inside), ?_⟩
  simp [Program.pieces, FunctionDecl.piecesOfAll, hfunctions, hinside]

/-- A program starts with a keyword and ends with the brace and the newline of its last function. -/
theorem Program.exists_pieces {program : Program} (hne : program.functions ≠ []) :
    ∃ word rest, program.pieces =
      Piece.keyword word :: (rest ++ [.mark .rightBrace]) ++ [.mark .newline] := by
  obtain ⟨word, rest, hhead⟩ := Program.pieces_eq_cons hne
  obtain ⟨front, hlast⟩ := Program.pieces_eq_concat hne
  cases front with
  | nil =>
    rw [hhead] at hlast
    cases hlast
  | cons first front =>
    rw [hhead] at hlast
    obtain ⟨rfl, hrest⟩ := List.cons.inj hlast
    exact ⟨word, front, by rw [hhead, hrest]; rfl⟩

namespace Piece

/-- What is written as a piece has the kind and the text that its place calls for. -/
theorem Writes.proper {piece : Piece} {token : Token} (h : piece.Writes token) : piece.Proper where
  kind kept hkept := h.kept kept hkept ▸ h.kind
  text kept hkept := h.kept kept hkept ▸ h.text

/-- Tokens that fit one piece again and again are all of its kind. -/
theorem kind_of_forall₂_replicate {piece : Piece} {count : Nat} {tokens : List Token}
    (h : List.Forall₂ Fits (List.replicate count piece) tokens) :
    ∀ token ∈ tokens, token.kind = piece.kind := by
  induction count generalizing tokens with
  | zero =>
    rw [List.forall₂_nil_left_iff.mp h]
    exact fun _ htoken => absurd htoken List.not_mem_nil
  | succ count ih =>
    obtain ⟨token, rest, hfits, hrest, rfl⟩ := List.forall₂_cons_left_iff.mp h
    exact List.forall_mem_cons.mpr ⟨hfits.kind, ih hrest⟩

/-- If tokens fit newlines, pieces from a keyword to a brace, and one newline more or none, their
core is what fits the pieces. -/
theorem forall₂_core {front : Nat} {ended : Bool} {word : String} {rest : List Piece}
    {tokens : List Token} (h : List.Forall₂ Fits
      (List.replicate front (.mark .newline) ++ (keyword word :: (rest ++ [.mark .rightBrace]) ++
        if ended then [.mark .newline] else [])) tokens) :
    List.Forall₂ Fits (keyword word :: (rest ++ [.mark .rightBrace])) (Token.core tokens) := by
  obtain ⟨newlines, others, rfl, hnewlines, hothers⟩ := exists_of_forall₂_append h
  obtain ⟨inner, back, rfl, hinner, hback⟩ := exists_of_forall₂_append hothers
  obtain ⟨first, later, hfirst, hlater, rfl⟩ := List.forall₂_cons_left_iff.mp hinner
  obtain ⟨middle, braces, rfl, _, hbraces⟩ := exists_of_forall₂_append hlater
  obtain ⟨brace, rfl, hbrace⟩ := exists_of_forall₂_singleton hbraces
  have hending : Token.IsEnding back := by
    cases ended with
    | true =>
      obtain ⟨newline, rfl, hnewline⟩ := exists_of_forall₂_singleton hback
      exact .inr ⟨newline, hnewline.kind, rfl⟩
    | false => exact .inl (List.forall₂_nil_left_iff.mp hback)
  have hkeyword : first.kind ≠ .newline := by
    rw [hfirst.kind]
    exact Kind.noConfusion
  have hclosing : brace.kind ≠ .newline := by
    rw [hbrace.kind]
    exact Kind.noConfusion
  rwa [Token.core_eq (kind_of_forall₂_replicate hnewlines) hkeyword hclosing hending]

end Piece

namespace Grammar

variable {source source' : String} {tokens tokens' front back : List Token} {reporter : Reporter}
  {program : Program} {s' : State}

/-! ## The same program between other newlines -/

/-- A program that has been read fits all tokens of the source. -/
theorem ReadsProgram.exists_fits (htokens : tokenize source = .ok tokens)
    (h : ReadsProgram (.ofTokens tokens reporter) program s') : ∃ front ended,
      Reads (.ofTokens tokens reporter) (program.trace front ended) s' ∧
        List.Forall₂ Piece.Fits (program.trace front ended).pieces tokens := by
  obtain ⟨⟨front, ended, hreads⟩, hatEnd, _, _, _⟩ := h
  refine ⟨front, ended, hreads, ?_⟩
  have hrest : tokens.drop (program.trace front ended).pieces.length = [] := by
    have hleft := State.rest_eq_nil_of_atEnd hatEnd
    rw [hreads.state_eq] at hleft
    refine hleft fun token htoken => ?_
    exact (lexeme_of_mem_tokenize htokens (List.mem_of_mem_drop htoken)).kind_ne_endOfInput
  have hfits := Piece.Lead.forall₂ hreads.lead
  rwa [State.ofTokens, List.take_of_length_le (List.drop_eq_nil_iff.mp hrest)] at hfits

/-- The pieces of a program are those of the core of its tokens, and a newline. -/
theorem ReadsProgram.core_writes (htokens : tokenize source = .ok tokens)
    (h : ReadsProgram (.ofTokens tokens reporter) program s') :
    List.Forall₂ Piece.Writes program.pieces.dropLast (Token.core tokens) := by
  obtain ⟨front, ended, _, hfits⟩ := h.exists_fits htokens
  obtain ⟨word, rest, hpieces⟩ := Program.exists_pieces h.functions_ne_nil
  have hlast : (if ended then program.pieces else program.pieces.dropLast) =
      Piece.keyword word :: (rest ++ [.mark .rightBrace]) ++
        if ended then [.mark .newline] else [] := by
    rw [hpieces, List.dropLast_concat]
    cases ended with
    | true => rfl
    | false => exact (List.append_nil _).symm
  rw [Program.pieces_trace program front ended h.functions_ne_nil, hlast] at hfits
  rw [hpieces, List.dropLast_concat]
  refine Piece.forall₂_writes (Piece.forall₂_core hfits) fun token htoken => ?_
  have hmem := (Token.core_sublist tokens).subset htoken
  exact (lexeme_of_mem_tokenize htokens hmem).text_of_spelling

/-- What has been read of a source is a program that the language allows. -/
theorem ReadsProgram.program_legal (htokens : tokenize source = .ok tokens)
    (h : ReadsProgram (.ofTokens tokens reporter) program s') : program.Legal where
  functions_ne_nil := h.functions_ne_nil
  lines_ne_nil := h.lines_ne_nil
  functions := h.functions
  proper := by
    obtain ⟨word, rest, hpieces⟩ := Program.exists_pieces h.functions_ne_nil
    have hwrites := h.core_writes htokens
    rw [hpieces, List.dropLast_concat] at hwrites
    rw [hpieces]
    intro piece hpiece
    rcases List.mem_append.mp hpiece with hpiece | hpiece
    · have hproper := hwrites.imp fun _ _ hwrite => And.intro hwrite.proper hwrite
      exact ((List.forall₂_and_left _ _).mp hproper).1 piece hpiece
    · rw [List.mem_singleton.mp hpiece]
      exact ⟨nofun, nofun⟩

/-- Where no token is left, the input ends. -/
theorem State.atEnd_of_rest_eq_nil {s : State} (h : s.rest = []) : s.atEnd = true := by
  simp [State.atEnd, State.sees, State.current, h, s.kind_endToken]

/-- A program that has been read from a source is read from the core of its tokens between any
newlines, and with the same warnings. -/
theorem program_relaid (htokens : tokenize source = .ok tokens)
    (h : Grammar.program.run (.ofTokens tokens .empty) = .ok program s')
    (hfront : ∀ token ∈ front, token.kind = .newline) (hback : Token.IsEnding back) :
    ∃ t', Grammar.program.run (.ofTokens (front ++ (Token.core tokens ++ back)) .empty) =
      .ok program t' ∧ t'.reporter = s'.reporter := by
  have hreads := program_reads rfl h
  have hne := hreads.functions_ne_nil
  obtain ⟨first, ended, htrace, _⟩ := hreads.exists_fits htokens
  have hwritten : program.Written (front ++ (Token.core tokens ++ back)) := by
    refine ⟨front, Token.core tokens ++ back, rfl, hfront, ?_⟩
    have hcore := hreads.core_writes htokens
    rcases hback with rfl | ⟨newline, hnewline, rfl⟩
    · exact .inr (by rwa [List.append_nil])
    · obtain ⟨word, rest, hpieces⟩ := Program.exists_pieces hne
      rw [hpieces, List.dropLast_concat] at hcore
      rw [hpieces]
      exact .inl (List.rel_append hcore (.cons ⟨hnewline, fun h => absurd rfl h, nofun⟩ .nil))
  obtain ⟨front', ended', hleads, hrest⟩ := leads_of_written hwritten hne .empty
  refine ⟨_, program_accepts (hreads.program_legal htokens) rfl hleads
    (State.atEnd_of_rest_eq_nil hrest), ?_⟩
  rw [htrace.state_eq]
  rfl

end Grammar

end Tranquility
