import Tranquility.Proofs.Failing.Statement
import Tranquility.Proofs.Reading.Program

/-!
# How programs fail

A program fails where it cannot go on, at a name that is taken, or in a statement. Between functions
the global scope is current and in a function its own is, so that the brace at the end of a function
closes the scope that the one at its start has opened.
-/

namespace Tranquility.Grammar

variable {s s₁ s' : State} {e : Error}

/-! ## Variables -/

/-- A list of names fails where a name is missing. -/
theorem identifiers_safe : Safe identifiers :=
  commaSeparated_safe (fun _ _ _ h => ⟨_, reads_expect rfl h⟩) (expect_safe rfl)

/-- A name that is taken is one of those that are to be declared. -/
theorem run_declareVariables_error {tokens : List Token}
    (h : (declareVariables tokens).run s = .error e s') : ∃ token ∈ tokens,
      e = .violation ⟨token, .duplicateVariable, .error⟩ ∧
        ∃ settle : Scopes → Scopes, s' = { s with scopes := settle s.scopes } := by
  induction tokens generalizing s with
  | nil => exact absurd h run_pure_error
  | cons token tokens ih =>
    rcases run_bind_error.mp h with h | ⟨_, s₁, hfirst, h⟩
    · rw [run_declareVariable] at h
      split at h
      case isTrue =>
        cases h
        exact ⟨token, List.mem_cons_self, rfl, id, rfl⟩
      case isFalse => cases h
    · rw [run_declareVariable] at hfirst
      split at hfirst
      case isTrue => cases hfirst
      case isFalse =>
        cases hfirst
        obtain ⟨other, hother, he, settle, rfl⟩ := ih h
        exact ⟨other, List.mem_cons_of_mem _ hother, he, settle ∘ Scopes.declared [token], rfl⟩

/-- Every name of a list is kept. -/
theorem Trace.mem_names {token : Token} {tokens : List Token} (h : token ∈ tokens) :
    .keep .identifier token ∈ (Trace.names tokens).pieces := by
  cases tokens with
  | nil => exact absurd h List.not_mem_nil
  | cons first tokens =>
    rw [Trace.names, List.map_cons, Trace.separated_cons rfl]
    rcases List.mem_cons.mp h with rfl | h
    · exact List.mem_append_left _ (List.mem_singleton_self _)
    · refine List.mem_append_right _ (List.mem_flatMap.mpr ⟨_, List.mem_map_of_mem h, ?_⟩)
      exact List.mem_cons_of_mem _ (List.mem_singleton_self _)

/-- Names are declared after they have been read, with other tokens behind them perhaps. -/
theorem declareVariables_fails {tokens : List Token} {last : Trace} {s₂ : State}
    (hnames : Reads s (.names tokens) s₁) (hlast : Reads s₁ last s₂)
    (h : (declareVariables tokens).run s₂ = .error e s') : Fails s e s' := by
  obtain ⟨token, htoken, rfl, settle, rfl⟩ := run_declareVariables_error h
  exact .atRead (.settled id) hnames (hlast.append (.settled settle)) (Trace.warnings_names tokens)
    ⟨_, Trace.mem_names htoken, rfl⟩ (hnames.kind_of_kept (Trace.mem_names htoken) rfl)

/-- A line of variables fails where a token is missing, or at a name that is in use. -/
theorem variableLine_fails (hv : s.scopes.Valid) (h : variableLine.run s = .error e s') :
    Fails s e s' := by
  rcases run_bind_error.mp h with h | ⟨_, s₁, hvar, h⟩
  · exact skipKeyword_safe (by decide) _ _ _ h
  have hvar := reads_skipKeyword hvar
  rcases run_bind_error.mp h with h | ⟨names, s₂, hnames, h⟩
  · exact (identifiers_safe _ _ _ h).after hvar
  obtain ⟨_, hnames⟩ := identifiers_reads hnames
  rcases run_bind_error.mp h with h | ⟨_, s₃, hdeclare, h⟩
  · exact (declareVariables_fails hnames (.settled id) h).after hvar
  have hscopes : s₂.scopes = s.scopes := hnames.scopes_eq.trans hvar.scopes_eq
  obtain ⟨_, hdeclare⟩ := declareVariables_reads (hscopes ▸ hv) hdeclare
  rcases run_bind_error.mp h with h | ⟨_, s₄, _, h⟩
  · exact (skip_safe rfl _ _ _ h).after (hvar.append (hnames.append hdeclare))
  · exact absurd h run_pure_error

theorem variableLines_fails (hv : s.scopes.Valid) (h : variableLines.run s = .error e s') :
    Fails s e s' := by
  refine collect_fails (·.scopes.Valid) ?_ (fun _ _ _ hv h => variableLine_fails hv h) hv h
  intro s names s' hv h
  obtain ⟨_, _, hreads⟩ := variableLine_reads hv h
  refine ⟨⟨_, hreads⟩, ?_⟩
  rw [hreads.scopes_eq]
  exact hv.declared names

/-! ## Functions -/

/-- A function fails behind its brace where neither a newline nor the end of the input is. -/
theorem functionEnd_safe : Safe functionEnd := by
  intro s e s' h
  rw [functionEnd, run_observe_bind] at h
  split at h
  case isTrue => exact absurd h run_pure_error
  case isFalse => exact skip_safe rfl _ _ _ h

variable {globals : List (List Token)} {functions : List FunctionDecl}

/-- The head of a function fails where a token is missing, or at a name that is in use. -/
theorem functionHead_fails (htop : s.scopes.AtTop globals.flatten functions)
    (h : functionHead.run s = .error e s') : Fails s e s' := by
  rcases run_bind_error.mp h with h | ⟨_, s₁, hfun, h⟩
  · exact skipKeyword_safe (by decide) _ _ _ h
  have hfun := reads_skipKeyword hfun
  rcases run_bind_error.mp h with h | ⟨name, s₂, hname, h⟩
  · exact (expect_safe rfl _ _ _ h).after hfun
  have hname := reads_expect rfl hname
  rw [run_observe_bind] at h
  rcases run_bind_error.mp h with h | ⟨_, s₃, hrequire, h⟩
  · obtain ⟨_, rfl, rfl⟩ := run_require_error.mp h
    refine Fails.after ?_ hfun
    exact .atPiece rfl hname (.settled id) (hname.kind_of_kept (List.mem_singleton_self _) rfl)
  obtain ⟨_, rfl⟩ := run_require_ok.mp hrequire
  have hfront := hfun.append hname
  rcases run_bind_error.mp h with h | ⟨_, s₄, hopen, h⟩
  · exact (skip_safe rfl _ _ _ h).after hfront
  have hfront := hfront.append (reads_skip rfl rfl hopen)
  rcases run_bind_error.mp h with h | ⟨parameters, s₅, hparameters, h⟩
  · exact (unlessAt_fails (fun _ => identifiers_safe _ _ _) h).after hfront
  have hparameters := parameters_reads hparameters
  rcases run_bind_error.mp h with h | ⟨_, s₆, hclose, h⟩
  · exact (skip_safe rfl _ _ _ h).after (hfront.append hparameters)
  have hclose := reads_skip rfl rfl hclose
  have hscopes : s₆.scopes = s.scopes :=
    hclose.scopes_eq.trans (hparameters.scopes_eq.trans hfront.scopes_eq)
  rw [run_observe_bind] at h
  rcases run_bind_error.mp h with h | ⟨_, s₇, henter, h⟩
  · exact (openScope_safe rfl _ _ _ h).after (hfront.append (hparameters.append hclose))
  have henter := reads_openScope rfl henter
  rcases run_bind_error.mp h with h | ⟨_, s₈, hfunction, h⟩
  · cases h
  have hfunction := declareFunction_reads hfunction
  have hlast := hclose.append (henter.append hfunction)
  rcases run_bind_error.mp h with h | ⟨_, s₉, hdeclare, h⟩
  · exact (declareVariables_fails hparameters hlast h).after hfront
  have hvalid : s₈.scopes.Valid := by
    rw [hfunction.scopes_eq, henter.scopes_eq, hscopes]
    exact (htop.valid.opened .function).modify
      (Scope.addFunction ⟨name.text, parameters.length, some name⟩) (fun _ => rfl) _
  obtain ⟨_, hdeclare⟩ := declareVariables_reads hvalid hdeclare
  rcases run_bind_error.mp h with h | ⟨_, s₁₀, _, h⟩
  · exact (skip_safe rfl _ _ _ h).after
      (hfront.append (hparameters.append (hlast.append hdeclare)))
  · exact absurd h run_pure_error

/-- What stands in a function fails in its variables, in its statements, or where the brace is
missing. -/
theorem functionInside_fails {vars : List Token}
    (hin : s.scopes.InFunction globals.flatten functions vars)
    (h : functionInside.run s = .error e s') : Fails s e s' := by
  rcases run_bind_error.mp h with h | ⟨locals, s₁, hlocals, h⟩
  · exact variableLines_fails hin.valid h
  obtain ⟨_, _, hlocals⟩ := variableLines_reads hin.valid hlocals
  have hown : s₁.scopes.InFunction globals.flatten functions (vars ++ locals.flatten) := by
    rw [hlocals.scopes_eq]
    exact hin.declared locals.flatten
  rcases run_bind_error.mp h with h | ⟨stmts, s₂, hbody, h⟩
  · exact (unlessAt_fails (fun _ => bodyOver_fails statement_yields statement_safe hown.valid)
      h).after hlocals
  have hbody := (blockBody_reads statement_yields hown.valid hbody).reads
  have hend : s₂.scopes.InFunction globals.flatten functions (vars ++ locals.flatten) := by
    rw [hbody.scopes_eq]
    exact hown.passes (Stmt.passes_all stmts hown.valid)
  rcases run_bind_error.mp h with h | ⟨_, s₃, _, h⟩
  · exact (closeScope_fails hend.outer_ne_nil h).after (hlocals.append hbody)
  · exact absurd h run_pure_error

/-- A function fails in its head, inside, or behind its brace. -/
theorem function_fails (htop : s.scopes.AtTop globals.flatten functions)
    (hnodup : (Token.names globals.flatten).Nodup) (h : function.run s = .error e s') :
    Fails s e s' := by
  rw [function_eq] at h
  rcases run_bind_error.mp h with h | ⟨⟨name, parameters⟩, s₁, hhead, h⟩
  · exact functionHead_fails htop h
  obtain ⟨hhead, hnames, _⟩ := functionHead_reads ⟨name, parameters, [], []⟩ htop hnodup hhead
  have hin := hhead.inFunction htop
  rcases run_bind_error.mp h with h | ⟨⟨locals, stmts⟩, s₂, hinside, h⟩
  · exact (functionInside_fails hin h).after hhead
  obtain ⟨hinside, _⟩ := functionInside_reads hin hnames hinside
  rcases run_bind_error.mp h with h | ⟨_, s₃, _, h⟩
  · exact (functionEnd_safe _ _ _ h).after (hhead.append hinside)
  · exact absurd h run_pure_error

/-- Between two functions the global scope is current. -/
theorem function_keepsTop (hnodup : (Token.names globals.flatten).Nodup) {decl : FunctionDecl}
    (htop : ∃ functions, s.scopes.AtTop globals.flatten functions)
    (h : function.run s = .ok decl s') :
    (∃ trace, Reads s trace s') ∧ ∃ functions, s'.scopes.AtTop globals.flatten functions := by
  obtain ⟨functions, htop⟩ := htop
  obtain ⟨_, ended, hreads, _⟩ := function_reads htop hnodup h
  refine ⟨⟨_, hreads⟩, functions ++ [decl], ?_⟩
  rw [hreads.scopes_eq]
  exact htop.settle decl

/-- Further functions fail in one of them. -/
theorem collect_functions_fails (hnodup : (Token.names globals.flatten).Nodup)
    (htop : ∃ functions, s.scopes.AtTop globals.flatten functions)
    (h : (collect (·.seesKeyword "fun") function functions).run s = .error e s') :
    Fails s e s' := by
  refine collect_fails _ (fun _ _ _ htop h => function_keepsTop hnodup htop h) ?_ htop h
  rintro s e s' ⟨functions, htop⟩ h
  exact function_fails htop hnodup h

/-- The functions of a program fail in one of them. -/
theorem functions_fails (htop : s.scopes.AtTop globals.flatten [])
    (hnodup : (Token.names globals.flatten).Nodup) (h : Grammar.functions.run s = .error e s') :
    Fails s e s' := by
  rcases run_bind_error.mp h with h | ⟨first, s₁, hfirst, h⟩
  · exact function_fails htop hnodup h
  obtain ⟨⟨_, hfirst⟩, hnext⟩ := function_keepsTop hnodup ⟨[], htop⟩ hfirst
  exact (collect_functions_fails hnodup hnext h).after hfirst

/-! ## Programs -/

/-- Even the newlines in front of a program fail no otherwise. -/
theorem newlines_fails
    (h : (whilst (·.sees .newline) (fun _ => skip .newline) ()).run s = .error e s') :
    Fails s e s' := by
  obtain ⟨_, s₁, ⟨_, hreads⟩, _, h⟩ := run_whilst_error (fun _ s₁ => ∃ trace, Reads s trace s₁)
    (fun _ _ _ _ ⟨_, hreads⟩ _ h => ⟨_, hreads.append (reads_skip rfl rfl h)⟩) ⟨_, .settled id⟩ h
  exact (skip_safe rfl _ _ _ h).after hreads

/-- What is said about the start of a program fits any token. -/
theorem fits_startFault (s : State) (token : Token) : s.startFault.Fits token := by
  unfold State.startFault
  split
  · trivial
  · trivial

/-- Whatever is wrong with a program is a violation of one of the forms. -/
theorem program_fails (hscopes : s.scopes = .initial) (h : Grammar.program.run s = .error e s') :
    Fails s e s' := by
  rcases run_bind_error.mp h with h | ⟨_, s₁, hnewlines, h⟩
  · exact newlines_fails h
  obtain ⟨_, hnewlines⟩ := newlines_reads hnewlines
  have htop : s₁.scopes.AtTop [] [] := by
    rw [hnewlines.scopes_eq, hscopes]
    exact Scopes.atTop_initial
  rcases run_bind_error.mp h with h | ⟨globals, s₂, hglobals, h⟩
  · exact (variableLines_fails htop.valid h).after hnewlines
  obtain ⟨_, hfresh, hglobals⟩ := variableLines_reads htop.valid hglobals
  have hdeclared : s₂.scopes.AtTop globals.flatten [] := by
    rw [hglobals.scopes_eq]
    exact htop.declared globals.flatten
  have hfront := hnewlines.append hglobals
  rw [run_observe_bind, run_observe_bind] at h
  rcases run_bind_error.mp h with h | ⟨_, s₃, hrequire, h⟩
  · obtain ⟨_, rfl, rfl⟩ := run_require_error.mp h
    exact .atCurrent hfront (fits_startFault s₂ _)
  obtain ⟨_, rfl⟩ := run_require_ok.mp hrequire
  rcases run_bind_error.mp h with h | ⟨functions, s₄, hfunctions, h⟩
  · exact (functions_fails hdeclared hfresh.nodup h).after hfront
  obtain ⟨_, _, _, hfunctions, _⟩ := functions_reads hdeclared hfresh.nodup hfunctions
  rw [run_observe_bind, run_observe_bind] at h
  rcases run_bind_error.mp h with h | ⟨_, s₅, _, h⟩
  · obtain ⟨_, rfl, rfl⟩ := run_require_error.mp h
    exact .atCurrent (hfront.append hfunctions) trivial
  · exact absurd h run_pure_error

end Tranquility.Grammar
