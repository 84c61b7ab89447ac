import Tranquility.Proofs.Reading.Statement
import Tranquility.Proofs.Token.Lexeme

/-!
# Reading programs

A program that the grammar yields is legal and written out it gives the tokens of the source, from
the first that is not a newline to the end. Between two functions the global scope is current and
holds what the tree declares, which is the invariant of the loop over the functions.
-/

namespace Tranquility

namespace Grammar

variable {s s' : State}

/-! ## Variables -/

/-- Names have been read with commas between them, at least one. -/
theorem identifiers_reads {names : List Token} (h : identifiers.run s = .ok names s') :
    names ≠ [] ∧ Reads s (.names names) s' := by
  obtain ⟨hne, hreads, _⟩ := reads_commaSeparated (fun token => .ofPiece (.keep .identifier token))
    (fun _ _ => True) (fun _ _ _ h => ⟨reads_expect rfl h, trivial⟩) (fun _ => rfl) h
  exact ⟨hne, hreads⟩

/-- Variables that are declared in the current scope have been free there. -/
theorem declareVariables_reads {tokens : List Token} {u : Unit} (hv : s.scopes.Valid)
    (h : (declareVariables tokens).run s = .ok u s') :
    Scopes.Fresh tokens s.scopes ∧ Reads s (.settled (Scopes.declared tokens)) s' := by
  obtain ⟨hfresh, rfl⟩ := (run_declareVariables_ok hv).mp h
  exact ⟨hfresh, .settled (Scopes.declared tokens)⟩

/-- A line of variables has been read, and its names were not in use. -/
theorem variableLine_reads {names : List Token} (hv : s.scopes.Valid)
    (h : variableLine.run s = .ok names s') :
    names ≠ [] ∧ Scopes.Fresh names s.scopes ∧ Reads s (.variableLine names) s' := by
  obtain ⟨_, s₁, hvar, h⟩ := run_bind_ok.mp h
  obtain ⟨names, s₂, hnames, h⟩ := run_bind_ok.mp h
  obtain ⟨_, s₃, hdeclare, h⟩ := run_bind_ok.mp h
  obtain ⟨_, s₄, hend, h⟩ := run_bind_ok.mp h
  obtain ⟨rfl, rfl⟩ := run_pure_ok.mp h
  have hvar := reads_skipKeyword hvar
  obtain ⟨hne, hnames⟩ := identifiers_reads hnames
  have hscopes : s₂.scopes = s.scopes := hnames.scopes_eq.trans hvar.scopes_eq
  obtain ⟨hfresh, hdeclare⟩ := declareVariables_reads (hscopes ▸ hv) hdeclare
  refine ⟨hne, hscopes ▸ hfresh, ?_⟩
  rw [Trace.variableLine_eq]
  exact hvar.append (hnames.append (hdeclare.append (reads_skip rfl rfl hend)))

/-- Each line declares names that are free after the lines in front of it. -/
theorem variableLines_reads {lines : List (List Token)} (hv : s.scopes.Valid)
    (h : variableLines.run s = .ok lines s') : (∀ line ∈ lines, line ≠ []) ∧
      Scopes.Fresh lines.flatten s.scopes ∧ Reads s (.variableLines lines) s' := by
  refine run_collect_ok (fun lines s' => (∀ line ∈ lines, line ≠ []) ∧
    Scopes.Fresh lines.flatten s.scopes ∧ Reads s (.variableLines lines) s') ?_ ?_ h
  · rintro lines s₁ line s₂ ⟨hne, hfresh, hlines⟩ _ hline
    have hscopes : s₁.scopes = s.scopes.declared lines.flatten := hlines.scopes_eq
    obtain ⟨hline_ne, hline_fresh, hline⟩ := variableLine_reads (hscopes ▸ hv.declared _) hline
    refine ⟨List.forall_mem_append.mpr ⟨hne, List.forall_mem_singleton.mpr hline_ne⟩, ?_, ?_⟩
    · rw [List.flatten_concat, Scopes.fresh_append hv]
      exact ⟨hfresh, hscopes ▸ hline_fresh⟩
    · rw [Trace.variableLines_concat]
      exact hlines.append hline
  · refine ⟨by simp, Scopes.fresh_nil _, ?_⟩
    rw [Trace.variableLines_nil]
    exact .settled id

/-! ## Functions -/

/-- The newline after a function is missing only at the end of the input. -/
theorem functionEnd_reads {u : Unit} (h : functionEnd.run s = .ok u s') :
    ∃ ended, Reads s (.ending ended) s' ∧ (ended = false → s'.atEnd = true) := by
  rw [functionEnd, run_observe_bind] at h
  split at h
  case isTrue hend =>
    obtain ⟨_, rfl⟩ := run_pure_ok.mp h
    exact ⟨false, .settled id, fun _ => hend⟩
  case isFalse => exact ⟨true, reads_skip rfl rfl h, by simp⟩

variable {globals : List (List Token)} {functions : List FunctionDecl}

theorem parameters_reads {names : List Token}
    (h : (unlessAt .rightParen identifiers).run s = .ok names s') : Reads s (.names names) s' :=
  (reads_unlessAt (fun token => .ofPiece (.keep .identifier token)) (fun _ _ => True)
    (fun _ _ _ h => ⟨reads_expect rfl h, trivial⟩) (fun _ => rfl) h).1

/-- A function has been declared with nothing read. -/
theorem declareFunction_reads {function : FunctionSymbol} {scope : Nat} {u : Unit}
    (h : (declareFunction function scope).run s = .ok u s') :
    Reads s (.settled (·.declareFunction function scope)) s' := by
  cases h
  exact .settled (·.declareFunction function scope)

/-- The head of a function is read in the global scope. Its name is new there, and its parameters
have other names than the global variables. -/
theorem functionHead_reads (decl : FunctionDecl) (htop : s.scopes.AtTop globals.flatten functions)
    (hnodup : (Token.names globals.flatten).Nodup)
    (h : functionHead.run s = .ok (decl.token, decl.parameters) s') :
    Reads s decl.headTrace s' ∧ (Token.names (globals.flatten ++ decl.parameters)).Nodup ∧
      (decl.name = Builtin.entryPoint ∨
        decl.name ∉ Builtin.functions.map (·.name) ∧ decl.name ∉ functions.map (·.name)) := by
  obtain ⟨_, s₁, hfun, h⟩ := run_bind_ok.mp h
  obtain ⟨name, s₂, hname, h⟩ := run_bind_ok.mp h
  rw [run_observe_bind] at h
  obtain ⟨_, s₃, hrequire, h⟩ := run_bind_ok.mp h
  obtain ⟨hallows, rfl⟩ := run_require_ok.mp hrequire
  obtain ⟨_, s₄, hopen, h⟩ := run_bind_ok.mp h
  obtain ⟨parameters, s₅, hparameters, h⟩ := run_bind_ok.mp h
  obtain ⟨_, s₆, hclose, h⟩ := run_bind_ok.mp h
  rw [run_observe_bind] at h
  obtain ⟨_, s₇, henter, h⟩ := run_bind_ok.mp h
  obtain ⟨_, s₈, hfunction, h⟩ := run_bind_ok.mp h
  obtain ⟨_, s₉, hdeclare, h⟩ := run_bind_ok.mp h
  obtain ⟨_, s₁₀, hnewline, h⟩ := run_bind_ok.mp h
  obtain ⟨hpair, rfl⟩ := run_pure_ok.mp h
  obtain ⟨rfl, rfl⟩ := Prod.mk.inj hpair
  have hfun := reads_skipKeyword hfun
  have hname := reads_expect rfl hname
  have hopen := reads_skip rfl rfl hopen
  have hparameters := parameters_reads hparameters
  have hclose := reads_skip rfl rfl hclose
  have henter := reads_openScope rfl henter
  have hglobal : s₂.scopes = s.scopes := hname.scopes_eq.trans hfun.scopes_eq
  have hscopes : s₆.scopes = s.scopes :=
    hclose.scopes_eq.trans (hparameters.scopes_eq.trans (hopen.scopes_eq.trans hglobal))
  have hcurrent : s₆.scopes.current = 0 := hscopes ▸ htop.current
  rw [hcurrent] at hfunction
  have hfunction : Reads s₇ (.settled (·.declareFunction decl.symbol 0)) s₈ :=
    declareFunction_reads hfunction
  -- The parameters are declared in the function's own scope.
  have hinside : s₈.scopes.InFunction globals.flatten (functions ++ [decl]) [] := by
    rw [hfunction.scopes_eq, henter.scopes_eq, hscopes]
    exact htop.opened.declareFunction decl
  obtain ⟨hfresh, hdeclare⟩ := declareVariables_reads hinside.valid hdeclare
  refine ⟨?_, ?_, ?_⟩
  · exact hfun.append (hname.append (hopen.append (hparameters.append (hclose.append
      (henter.append (hfunction.append (hdeclare.append (reads_skip rfl rfl hnewline))))))))
  · exact (Scopes.fresh_iff (fun _ => by simpa using hinside.hasVariable_iff) hnodup).mp hfresh
  · simp only [State.allowsFunction, hglobal, Bool.or_eq_true, decide_eq_true_eq,
      Bool.not_eq_true', ← Bool.not_eq_true, htop.hasFunction_iff, not_or] at hallows
    exact hallows

/-- After its head a function is in its own scope. -/
theorem Reads.inFunction {decl : FunctionDecl} (h : Reads s decl.headTrace s')
    (htop : s.scopes.AtTop globals.flatten functions) :
    s'.scopes.InFunction globals.flatten (functions ++ [decl]) decl.parameters := by
  rw [h.scopes_eq]
  exact (htop.opened.declareFunction decl).declared decl.parameters

/-- The variables of a function have other names than those visible in it so far, and its statements
are legal after them. -/
theorem functionInside_reads {vars : List Token} {locals : List (List Token)} {stmts : List Stmt}
    (hin : s.scopes.InFunction globals.flatten functions vars)
    (hnodup : (Token.names (globals.flatten ++ vars)).Nodup)
    (h : functionInside.run s = .ok (locals, stmts) s') :
    Reads s (FunctionDecl.insideTrace locals stmts) s' ∧ (∀ line ∈ locals, line ≠ []) ∧
      (Token.names (globals.flatten ++ vars ++ locals.flatten)).Nodup ∧
        ∃ scopes, Scopes.InFunction globals.flatten functions (vars ++ locals.flatten) scopes ∧
          Stmt.AllLegal scopes.seen stmts := by
  obtain ⟨locals, s₁, hlocals, h⟩ := run_bind_ok.mp h
  obtain ⟨stmts, s₂, hbody, h⟩ := run_bind_ok.mp h
  obtain ⟨_, s₃, hleave, h⟩ := run_bind_ok.mp h
  obtain ⟨hpair, rfl⟩ := run_pure_ok.mp h
  obtain ⟨rfl, rfl⟩ := Prod.mk.inj hpair
  obtain ⟨hlines, hfresh, hlocals⟩ := variableLines_reads hin.valid hlocals
  have hown : s₁.scopes.InFunction globals.flatten functions (vars ++ locals.flatten) := by
    rw [hlocals.scopes_eq]
    exact hin.declared locals.flatten
  have hbody := blockBody_reads statement_yields hown.valid hbody
  refine ⟨?_, hlines, ?_, s₁.scopes, hown, hbody.legal⟩
  · exact hlocals.append (hbody.reads.append (reads_closeScope hleave))
  · exact (Scopes.fresh_iff (fun _ => hin.hasVariable_iff) hnodup).mp hfresh

/-- A function has been read that is legal behind the functions in front of it. -/
theorem function_reads {decl : FunctionDecl} (htop : s.scopes.AtTop globals.flatten functions)
    (hnodup : (Token.names globals.flatten).Nodup) (h : function.run s = .ok decl s') :
    decl.Legal globals functions ∧
      ∃ ended, Reads s (decl.trace ++ .ending ended) s' ∧ (ended = false → s'.atEnd = true) := by
  rw [function_eq] at h
  obtain ⟨⟨name, parameters⟩, s₁, hhead, h⟩ := run_bind_ok.mp h
  obtain ⟨⟨locals, stmts⟩, s₂, hinside, h⟩ := run_bind_ok.mp h
  obtain ⟨_, s₃, hend, h⟩ := run_bind_ok.mp h
  obtain ⟨rfl, rfl⟩ := run_pure_ok.mp h
  obtain ⟨hhead, hnames, hname⟩ :=
    functionHead_reads ⟨name, parameters, locals, stmts⟩ htop hnodup hhead
  obtain ⟨hinside, hlines, hvariables, scopes, hin, hlegal⟩ :=
    functionInside_reads (hhead.inFunction htop) hnames hinside
  obtain ⟨ended, hend, hatEnd⟩ := functionEnd_reads hend
  refine ⟨⟨hname, hlines, hvariables, ?_⟩, ended, ?_, hatEnd⟩
  · have hvisible := hin.seen_eq
    rw [← List.append_assoc] at hvisible
    rw [hvisible] at hlegal
    exact hlegal
  · rw [FunctionDecl.trace_eq]
    exact (hhead.append hinside).append hend

/-- A rule has read some functions, the first of them in the state given. -/
structure ReadsFunctions (globals : List (List Token)) (s : State)
    (functions : List FunctionDecl) (s' : State) : Prop where
  ne_nil : functions ≠ []
  legal : FunctionDecl.AllLegal globals functions
  reads : ∃ ended, Reads s (FunctionDecl.traceTo ended functions) s' ∧
    (ended = false → s'.atEnd = true)

/-- A keyword does not end the input. -/
theorem State.atEnd_of_seesKeyword {text : String} (h : s.seesKeyword text = true) :
    s.atEnd = false := by
  rw [State.seesKeyword, Token.isKeyword, Bool.and_eq_true, decide_eq_true_eq] at h
  simp [State.atEnd, State.sees, h.1]

/-- The end of the input comes after the tokens, if none of them is of its kind. -/
theorem State.rest_eq_nil_of_atEnd (h : s.atEnd = true)
    (hrest : ∀ token ∈ s.rest, token.kind ≠ .endOfInput) : s.rest = [] := by
  cases heq : s.rest with
  | nil => rfl
  | cons token rest =>
    have hkind : s.current.kind = .endOfInput := of_decide_eq_true h
    rw [State.current, heq] at hkind
    exact absurd hkind (hrest token (heq ▸ List.mem_cons_self))

/-- Functions have been read, each legal behind those in front of it. -/
theorem functions_reads (htop : s.scopes.AtTop globals.flatten [])
    (hnodup : (Token.names globals.flatten).Nodup)
    (h : Grammar.functions.run s = .ok functions s') :
    ReadsFunctions globals s functions s' := by
  obtain ⟨first, s₁, hfirst, h⟩ := run_bind_ok.mp h
  refine run_collect_ok (ReadsFunctions globals s) ?_ ?_ h
  · rintro functions s₂ decl s₃ ⟨_, hlegal, ended, hreads, hatEnd⟩ hround hdecl
    -- Only the last function can do without a newline, and this is not the last one.
    obtain rfl : ended = true := by
      cases ended with
      | true => rfl
      | false =>
        have hcontinues := State.atEnd_of_seesKeyword hround
        rw [hatEnd rfl] at hcontinues
        cases hcontinues
    rw [FunctionDecl.traceTo_true] at hreads
    have hscopes : s₂.scopes.AtTop globals.flatten functions := by
      rw [hreads.scopes_eq]
      exact htop.settle_all functions
    obtain ⟨hlegal', ended, hdecl, hatEnd'⟩ := function_reads hscopes hnodup hdecl
    refine ⟨by simp, FunctionDecl.allLegal_concat.mpr ⟨hlegal, hlegal'⟩, ended, ?_, hatEnd'⟩
    rw [FunctionDecl.traceTo_concat]
    exact hreads.append hdecl
  · obtain ⟨hlegal, ended, hreads, hatEnd⟩ := function_reads htop hnodup hfirst
    refine ⟨by simp, ?_, ended, ?_, hatEnd⟩
    · have hnone : FunctionDecl.AllLegal globals [] := by
        intro earlier function later heq
        simp at heq
      exact FunctionDecl.allLegal_concat.mpr ⟨hnone, hlegal⟩
    · have hconcat := FunctionDecl.traceTo_concat ended [] first
      rw [List.nil_append] at hconcat
      rw [hconcat]
      exact (Reads.settled id).append hreads

/-! ## Programs -/

/-- Newlines in front of a program have been read. -/
theorem newlines_reads {u : Unit}
    (h : (whilst (·.sees .newline) (fun _ => skip .newline) ()).run s = .ok u s') :
    ∃ count, Reads s ⟨List.replicate count (.mark .newline), [], id⟩ s' := by
  refine run_whilst_ok (fun _ s' => ∃ count, Reads s ⟨List.replicate count (.mark .newline), [],
    id⟩ s') ?_ ⟨0, .settled id⟩ h
  rintro _ s₁ _ s₂ ⟨count, hreads⟩ _ hround
  refine ⟨count + 1, ?_⟩
  rw [List.replicate_succ']
  exact hreads.append (reads_skip rfl rfl hround)

/-- A rule has read a program up to the end of the input. -/
structure ReadsProgram (s : State) (program : Program) (s' : State) : Prop where
  reads : ∃ front ended, Reads s (program.trace front ended) s'
  atEnd : s'.atEnd = true
  functions_ne_nil : program.functions ≠ []
  lines_ne_nil : ∀ line ∈ program.globals, line ≠ []
  functions : FunctionDecl.AllLegal program.globals program.functions

/-- A program that is yielded has been read up to the end of the input. -/
theorem program_reads {program : Program} (hscopes : s.scopes = .initial)
    (h : Grammar.program.run s = .ok program s') : ReadsProgram s program s' := by
  obtain ⟨_, s₁, hnewlines, h⟩ := run_bind_ok.mp h
  obtain ⟨globals, s₂, hglobals, h⟩ := run_bind_ok.mp h
  rw [run_observe_bind, run_observe_bind] at h
  obtain ⟨_, s₃, hrequire, h⟩ := run_bind_ok.mp h
  obtain ⟨_, rfl⟩ := run_require_ok.mp hrequire
  obtain ⟨functions, s₄, hfunctions, h⟩ := run_bind_ok.mp h
  rw [run_observe_bind, run_observe_bind] at h
  obtain ⟨_, s₅, hrequire, h⟩ := run_bind_ok.mp h
  obtain ⟨hatEnd, rfl⟩ := run_require_ok.mp hrequire
  obtain ⟨rfl, rfl⟩ := run_pure_ok.mp h
  obtain ⟨front, hnewlines⟩ := newlines_reads hnewlines
  have htop : s₁.scopes.AtTop [] [] := by
    rw [hnewlines.scopes_eq, hscopes]
    exact Scopes.atTop_initial
  obtain ⟨hlines, hfresh, hglobals⟩ := variableLines_reads htop.valid hglobals
  have hdeclared : s₂.scopes.AtTop globals.flatten [] := by
    rw [hglobals.scopes_eq]
    exact htop.declared globals.flatten
  obtain ⟨hne, hlegal, ended, hfunctions, _⟩ := functions_reads hdeclared hfresh.nodup hfunctions
  exact ⟨⟨front, ended, hnewlines.append (hglobals.append hfunctions)⟩, hatEnd, hne, hlines, hlegal⟩

end Grammar

/-! ## Sources -/

open Grammar

/-- A program that the grammar reads from a source is written out in the tokens of the source: each
token stands for one piece of the tree, in order, every token that the tree keeps is the very one at
its place, and no token is left. -/
theorem written_of_parse {source : String} {tokens : List Token} {reporter : Reporter}
    {program : Program} {s' : State} (htokens : tokenize source = .ok tokens)
    (h : Grammar.program.run (.ofTokens tokens reporter) = .ok program s') :
    program.Written tokens ∧
      (∀ (i : Nat) (token : Token), tokens[i]? = some token → token.index = i) ∧
      s'.rest = [] ∧ s'.position = tokens.length := by
  obtain ⟨⟨front, ended, hreads⟩, hatEnd, hne, _, _⟩ := program_reads rfl h
  have hlexeme : ∀ token ∈ tokens, token.Lexeme := fun _ => lexeme_of_mem_tokenize htokens
  have hlead : Piece.Lead (program.trace front ended).pieces tokens := hreads.lead
  have hstate := hreads.state_eq
  have hrest : tokens.drop (program.trace front ended).pieces.length = [] := by
    have hleft := State.rest_eq_nil_of_atEnd hatEnd
    rw [hstate] at hleft
    exact hleft fun token htoken => (hlexeme token (List.mem_of_mem_drop htoken)).kind_ne_endOfInput
  have hlength : tokens.length = (program.trace front ended).pieces.length :=
    Nat.le_antisymm (List.drop_eq_nil_iff.mp hrest) hlead.length_le
  refine ⟨?_, fun i token hi => (getElem?_tokenize htokens hi).1, ?_, ?_⟩
  · rw [Program.pieces_trace program front ended hne] at hlead hlength
    obtain ⟨hnewlines, hbody⟩ := Piece.lead_append.mp hlead
    rw [List.length_replicate] at hbody
    rw [List.length_append, List.length_replicate] at hlength
    refine ⟨tokens.take front, tokens.drop front, (List.take_append_drop _ _).symm, ?_, ?_⟩
    · intro token htoken
      obtain ⟨piece, hpiece, hfits⟩ := hnewlines.exists_fits
        (by rwa [List.length_replicate] : token ∈ tokens.take (List.replicate front _).length)
      rw [hfits.kind, List.eq_of_mem_replicate hpiece]
      rfl
    · have hfits := hbody.forall₂
      rw [List.take_of_length_le (by rw [List.length_drop]; omega)] at hfits
      have hwrites := Piece.forall₂_writes hfits fun token htoken =>
        (hlexeme token (List.mem_of_mem_drop htoken)).text_of_spelling
      cases ended with
      | true => exact .inl hwrites
      | false => exact .inr hwrites
  · rw [hstate]
    exact hrest
  · rw [hstate, hlength]
    exact Nat.zero_add _

/-- A source with a loop is read and written out. -/
theorem written_of_parse_loop : ∃ tokens program s',
    tokenize "var a\nfun init() \x7b\nloop \x7b\na: .a + (1)\nuntil .a > 9\n\x7d\n\x7d" = .ok tokens ∧
      Grammar.program.run (.ofTokens tokens .empty) = .ok program s' ∧
        program.Written tokens ∧ s'.rest = [] ∧ s'.position = tokens.length := by
  have htokens := tokenize_eq
    "var a\nfun init() \x7b\nloop \x7b\na: .a + (1)\nuntil .a > 9\n\x7d\n\x7d"
  have hok : Grammar.reaches (fun _ _ => true) (Grammar.program.run (.ofTokens
      (Token.significant (scan
        "var a\nfun init() \x7b\nloop \x7b\na: .a + (1)\nuntil .a > 9\n\x7d\n\x7d").tokens)
      .empty)) = true := by decide +kernel
  obtain ⟨program, s', h, _⟩ := Grammar.exists_ok_of_reaches hok
  obtain ⟨hwritten, _, hrest, hposition⟩ := written_of_parse htokens h
  exact ⟨_, program, s', htokens, h, hwritten, hrest, hposition⟩

end Tranquility
