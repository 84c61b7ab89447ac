import Tranquility.Proofs.Resolving.Blocks
import Tranquility.Proofs.Steps.Lookahead

/-!
# Tokens after a program

What comes after a program that ends with a newline is read as further functions, in the scopes that
the program leaves, and changes nothing of the program. For this the run on the program alone is put
beside the run on all tokens. The end of the input is looked at in the one run where the other has
more tokens only after the last newline has been read, which shows that the function in front of it
is at its end.
-/

namespace Tranquility

/-- The tokens end with a newline, and the end of the input is none of them. -/
structure Token.EndsLine (tokens : List Token) : Prop where
  noEnd : ∀ token ∈ tokens, token.kind ≠ .endOfInput
  last : ∀ token ∈ tokens.getLast?, token.kind = .newline

/-- After the first of the tokens the others end with the same newline. -/
theorem Token.EndsLine.rest {read rest : List Token} (h : Token.EndsLine (read ++ rest)) :
    Token.EndsLine rest where
  noEnd token htoken := h.noEnd token (List.mem_append_right read htoken)
  last token htoken := h.last token (by rw [List.getLast?_append, htoken]; rfl)

/-- To warn about operators keeps the diagnostics that there are. -/
theorem Reporter.diagnostics_warnAll (reporter : Reporter) (operators : List Token) :
    reporter.diagnostics <+: (reporter.warnAll operators).diagnostics := by
  induction operators generalizing reporter with
  | nil => exact List.prefix_rfl
  | cons operator operators ih =>
    refine List.IsPrefix.trans ?_ (ih (reporter.report operator _ .warning))
    cases h : reporter.has operator with
    | true => exact ⟨[], by rw [report_of_has h, List.append_nil]⟩
    | false =>
      rw [diagnostics_report_of_not_has h]
      exact List.prefix_append _ _

namespace Grammar

variable {s s₁ s' t t' : State} {us : List Token}

/-! ## The run beside -/

/-- In tokens that end with a newline, what may be looked at stands in front of their end. -/
theorem clear_of_endsLine (hline : Token.EndsLine s.rest) (hne : s.rest ≠ []) : Clear [] s := by
  obtain ⟨first, rest, hrest⟩ := List.exists_cons_of_ne_nil hne
  refine ⟨first, rest, by rw [hrest, List.append_nil], ?_⟩
  rintro hname rfl
  have hlast := hline.last first (by rw [hrest]; rfl)
  rw [hlast] at hname
  cases hname

/-- What is left of whole lines ends with a newline. -/
theorem Consumes.endsLine {read : List Token} (h : Consumes s read s')
    (hline : Token.EndsLine s.rest) : Token.EndsLine s'.rest := by
  rw [h.rest] at hline
  exact hline.rest

section

variable {α : Type} {rule : Rule α} {a : α}

/-- A rule that is local leaves tokens that end with a newline if it has got such tokens. -/
theorem Local.endsLine (hlocal : Local Anything rule) (hline : Token.EndsLine s.rest)
    (hrun : rule.run s = .ok a s') : Token.EndsLine s'.rest := by
  obtain ⟨read, hread⟩ := hlocal.onward s trivial
  rw [hrun] at hread
  exact hread.endsLine hline

/-- Where a rule that is local leaves tokens, the run beside it goes on with the same value. -/
theorem Local.run_beside (hlocal : Local Anything rule) (hline : Token.EndsLine s.rest)
    (h : Beside [] us s t) (hrun : rule.run s = .ok a s') (hne : s'.rest ≠ []) :
    Token.EndsLine s'.rest ∧ ∃ t', rule.run t = .ok a t' ∧ Beside [] us s' t' := by
  have hline' := hlocal.endsLine hline hrun
  have hecho := hlocal.echoes [] us s t trivial h
  rw [hrun] at hecho
  exact ⟨hline', hecho (clear_of_endsLine hline' hne)⟩

end

/-- A function is read up to its right brace, so that a newline is left of tokens that end with
one. -/
theorem functionBlock_rest_ne_nil {decl : FunctionDecl} (hline : Token.EndsLine s.rest)
    (h : functionBlock.run s = .ok decl s') : s'.rest ≠ [] := by
  obtain ⟨⟨name, parameters, enclosing⟩, s₁, hfront, h⟩ := run_bind_ok.mp h
  obtain ⟨_, s₂, hopen, h⟩ := run_bind_ok.mp h
  obtain ⟨decl, s₃, hbody, h⟩ := run_bind_ok.mp h
  obtain ⟨_, s₄, hclose, h⟩ := run_bind_ok.mp h
  obtain ⟨rfl, rfl⟩ := run_pure_ok.mp h
  have hopenLocal : Local Anything (openScope .function) := (Local.advance _ _ _).discard
  have hline₁ := made_functionFront.isLocal.endsLine hline hfront
  have hline₂ := hopenLocal.endsLine hline₁ hopen
  have hline₃ := (made_functionBody _ _ _).isLocal.endsLine hline₂ hbody
  obtain ⟨token, hclose⟩ := run_discard_ok.mp hclose
  have hkind := kind_of_expect hclose
  obtain ⟨rfl, hrefusal, _, _, rfl⟩ := run_advance_ok.mp hclose
  have hrest := State.rest_eq_cons (Token.refusal?_eq_none_iff.mp hrefusal).2.2
  -- Without a token left the right brace would be the last one, where a newline stands.
  intro hnil
  have hnil : s₃.rest.tail = [] := hnil
  rw [hrest, hnil] at hline₃
  have hlast := hline₃.last s₃.current rfl
  rw [hkind] at hlast
  cases hlast

/-- With more tokens behind, a function still ends at its newline. -/
theorem functionEnd_beside (hline : Token.EndsLine s.rest) (hne : s.rest ≠ [])
    (h : Beside [] us s t) (hrun : functionEnd.run s = .ok () s') :
    Token.EndsLine s'.rest ∧ ∃ t', functionEnd.run t = .ok () t' ∧ Beside [] us s' t' := by
  have hclear := clear_of_endsLine hline hne
  have hend : s.atEnd = false :=
    Bool.eq_false_iff.mpr fun hend => hne (State.rest_eq_nil_of_atEnd hend hline.noEnd)
  have hend' : t.atEnd = false := by
    rw [State.atEnd, State.sees, h.current_eq hclear]
    exact hend
  rw [functionEnd, run_observe_bind, hend] at hrun
  rw [functionEnd, run_observe_bind, hend']
  have hskip : (skip .newline).run s = .ok () s' := hrun
  have hlocal : Local Anything (skip .newline) := (Local.advance _ _ _).discard
  have hecho : Echoes [] us ((skip .newline).run s) ((skip .newline).run t) :=
    (echoes_advance h hclear _ _ _).bind fun _ s₁ t₁ _ beside => ⟨t₁, rfl, beside⟩
  rw [hskip] at hecho
  exact ⟨hlocal.endsLine hline hskip, hecho⟩

/-- With more tokens behind it a function is the same. -/
theorem function_beside {decl : FunctionDecl} (hline : Token.EndsLine s.rest)
    (h : Beside [] us s t) (hrun : function.run s = .ok decl s') :
    Token.EndsLine s'.rest ∧ ∃ t', function.run t = .ok decl t' ∧ Beside [] us s' t' := by
  rw [function_eq_block] at hrun
  obtain ⟨decl, s₁, hblock, hrun⟩ := run_bind_ok.mp hrun
  obtain ⟨_, s₂, hend, hrun⟩ := run_bind_ok.mp hrun
  obtain ⟨rfl, rfl⟩ := run_pure_ok.mp hrun
  have hne := functionBlock_rest_ne_nil hline hblock
  obtain ⟨hline₁, t₁, hblock', beside₁⟩ :=
    made_functionBlock.isLocal.run_beside hline h hblock hne
  obtain ⟨hline₂, t₂, hend', beside₂⟩ := functionEnd_beside hline₁ hne beside₁ hend
  refine ⟨hline₂, t₂, ?_, beside₂⟩
  rw [function_eq_block, EStateM.run_bind, hblock']
  show (functionEnd >>= _).run t₁ = _
  rw [EStateM.run_bind, hend']
  rfl

/-- With more tokens behind them functions are the same, and others may be read after them. -/
theorem functions_beside {decls : List FunctionDecl} (hline : Token.EndsLine s.rest)
    (h : Beside [] us s t) (hrun : functions.run s = .ok decls s') :
    Token.EndsLine s'.rest ∧ ∃ t', Beside [] us s' t' ∧ functions.run t =
      (collect (·.seesKeyword "fun") function decls).run t' := by
  obtain ⟨first, s₁, hfirst, hrun⟩ := run_bind_ok.mp hrun
  obtain ⟨hline₁, t₁, hfirst', beside₁⟩ := function_beside hline h hfirst
  refine run_collect_ok (fun decls s' => Token.EndsLine s'.rest ∧ ∃ t', Beside [] us s' t' ∧
    functions.run t = (collect (·.seesKeyword "fun") function decls).run t') ?_ ?_ hrun
  · rintro decls s₂ decl s₃ ⟨hline₂, t₂, beside₂, hrun₂⟩ hmore hdecl
    obtain ⟨hline₃, t₃, hdecl', beside₃⟩ := function_beside hline₂ beside₂ hdecl
    refine ⟨hline₃, t₃, beside₃, ?_⟩
    have hne : s₂.rest ≠ [] := by
      rw [State.rest_eq_cons (of_decide_eq_false (State.atEnd_of_seesKeyword hmore))]
      exact List.cons_ne_nil _ _
    -- The keyword is there in both runs, so that neither loop is at its end.
    have hmore' : t₂.seesKeyword "fun" = true := by
      rw [State.seesKeyword, beside₂.current_eq (clear_of_endsLine hline₂ hne)]
      exact hmore
    rw [hrun₂, collect_eq eats_function, run_observe_bind, if_pos hmore', EStateM.run_bind, hdecl']
  · refine ⟨hline₁, t₁, beside₁, ?_⟩
    rw [functions, EStateM.run_bind, hfirst']

/-! ## What comes after a program -/

/-- A program behind its global variables and some of its functions. -/
def programRest (globals : List (List Token)) (decls : List FunctionDecl) : Rule Program := do
  let functions ← collect (·.seesKeyword "fun") function decls
  require (← observe State.atEnd) (← observe State.current) .expectedFunction
  return ⟨globals, functions⟩

/-- With more tokens behind it a program is read to its end, and then they are read as what comes
after its functions, in the scopes that it leaves. -/
theorem program_beside {tokens : List Token} {reporter : Reporter} {program : Program}
    (hline : Token.EndsLine tokens)
    (h : Grammar.program.run (.ofTokens tokens reporter) = .ok program s') (us : List Token) :
    s'.rest = [] ∧ ∃ t', t'.rest = us ∧ t'.position = s'.position ∧ t'.scopes = s'.scopes ∧
      t'.reporter = s'.reporter ∧ Grammar.program.run (.ofTokens (tokens ++ us) reporter) =
        (programRest program.globals program.functions).run t' := by
  rw [program_eq] at h
  obtain ⟨globals, s₁, hfront, h⟩ := run_bind_ok.mp h
  obtain ⟨decls, s₂, hdecls, h⟩ := run_bind_ok.mp h
  rw [run_observe_bind, run_observe_bind] at h
  obtain ⟨_, s₃, hrequire, h⟩ := run_bind_ok.mp h
  obtain ⟨hatEnd, rfl⟩ := run_require_ok.mp hrequire
  obtain ⟨rfl, rfl⟩ := run_pure_ok.mp h
  have hbeside : Beside [] us (.ofTokens tokens reporter) (.ofTokens (tokens ++ us) reporter) :=
    ⟨⟨tokens, (List.append_nil tokens).symm, rfl⟩, rfl, rfl, rfl⟩
  have hne : s₁.rest ≠ [] := by
    intro hnil
    have hlt := eats_functions _ _ _ hdecls
    rw [hnil] at hlt
    exact Nat.not_lt_zero _ hlt
  obtain ⟨hline₁, t₁, hfront', beside₁⟩ :=
    made_preamble.isLocal.run_beside hline hbeside hfront hne
  obtain ⟨hline₂, t₂, beside₂, hdecls'⟩ := functions_beside hline₁ beside₁ hdecls
  have hrest := State.rest_eq_nil_of_atEnd hatEnd hline₂.noEnd
  -- No token is left of the program, so that in the other run only those behind it are.
  obtain ⟨ahead, hahead, hahead'⟩ := beside₂.rest
  rw [hrest] at hahead
  obtain rfl : ahead = [] := (List.append_eq_nil_iff.mp hahead.symm).1
  refine ⟨hrest, t₂, hahead', beside₂.position, beside₂.scopes, beside₂.reporter, ?_⟩
  rw [program_eq, EStateM.run_bind, hfront']
  show (functions >>= _).run t₁ = _
  rw [EStateM.run_bind, hdecls', programRest, EStateM.run_bind]

section

variable {tokens : List Token} {reporter : Reporter} {globals : List (List Token)}
variable {decls : List FunctionDecl} {program : Program}

/-- After a program the global scope is current, and holds what the program declares in it. -/
theorem program_atTop (h : Grammar.program.run (.ofTokens tokens reporter) = .ok program s') :
    s'.scopes.AtTop program.globals.flatten program.functions ∧
      (Token.names program.globals.flatten).Nodup := by
  obtain ⟨⟨front, ended, hreads⟩, _, hne, _, hlegal⟩ := program_reads rfl h
  constructor
  · have htop := (Scopes.atTop_initial.declared program.globals.flatten).settle_all
      program.functions
    rw [← program.settle_trace front ended] at htop
    rw [hreads.scopes_eq]
    exact htop
  · obtain ⟨function, functions, hfunctions⟩ := List.exists_cons_of_ne_nil hne
    have hnodup := (hlegal [] function functions hfunctions).variables_nodup
    exact Token.nodup_names_append (Token.nodup_names_append hnodup)

/-- Further functions are read after those that there are. -/
theorem collect_functions_reads {functions : List FunctionDecl}
    (hnodup : (Token.names globals.flatten).Nodup)
    (htop : ∃ functions, t.scopes.AtTop globals.flatten functions)
    (h : (collect (·.seesKeyword "fun") function decls).run t = .ok functions t') :
    decls <+: functions ∧ ∃ trace, Reads t trace t' := by
  obtain ⟨hfront, hreads, _⟩ := run_collect_ok (fun functions t₁ => decls <+: functions ∧
      (∃ trace, Reads t trace t₁) ∧ ∃ functions, t₁.scopes.AtTop globals.flatten functions)
    (fun functions t₁ decl t₂ ⟨hfront, ⟨_, hreads⟩, htop⟩ _ hdecl =>
      have ⟨⟨_, hreads'⟩, htop'⟩ := function_keepsTop hnodup htop hdecl
      ⟨hfront.trans (List.prefix_append functions [decl]), ⟨_, hreads.append hreads'⟩, htop'⟩)
    ⟨List.prefix_rfl, ⟨_, .settled id⟩, htop⟩ h
  exact ⟨hfront, hreads⟩

/-- What comes after some functions of a program keeps them and the diagnostics. -/
theorem programRest_keeps (hnodup : (Token.names globals.flatten).Nodup)
    (htop : ∃ functions, t.scopes.AtTop globals.flatten functions)
    (h : (programRest globals decls).run t = .ok program t') :
    program.globals = globals ∧ decls <+: program.functions ∧
      t.reporter.diagnostics <+: t'.reporter.diagnostics := by
  obtain ⟨functions, t₁, hfunctions, h⟩ := run_bind_ok.mp h
  rw [run_observe_bind, run_observe_bind] at h
  obtain ⟨_, t₂, hrequire, h⟩ := run_bind_ok.mp h
  obtain ⟨_, rfl⟩ := run_require_ok.mp hrequire
  obtain ⟨rfl, rfl⟩ := run_pure_ok.mp h
  obtain ⟨hfront, _, hreads⟩ := collect_functions_reads hnodup htop hfunctions
  rw [hreads.state_eq]
  exact ⟨rfl, hfront, Reporter.diagnostics_warnAll _ _⟩

/-- A program fails behind its first functions as a program does. -/
theorem programRest_fails {e : Error} (hnodup : (Token.names globals.flatten).Nodup)
    (htop : ∃ functions, t.scopes.AtTop globals.flatten functions)
    (h : (programRest globals decls).run t = .error e t') : Fails t e t' := by
  rcases run_bind_error.mp h with h | ⟨functions, t₁, hfunctions, h⟩
  · exact collect_functions_fails hnodup htop h
  obtain ⟨_, _, hreads⟩ := collect_functions_reads hnodup htop hfunctions
  rw [run_observe_bind, run_observe_bind] at h
  rcases run_bind_error.mp h with h | ⟨_, t₂, _, h⟩
  · obtain ⟨_, rfl, rfl⟩ := run_require_error.mp h
    exact .atCurrent hreads trivial
  · exact absurd h run_pure_error

/-- A violation is at one of the tokens left or at the end of the input. -/
theorem Fails.token_mem_rest {error : TokenError} (h : Fails t (.violation error) t') :
    error.token ∈ t.rest ∨ error.token = t'.endToken := by
  cases h with
  | atCurrent reads =>
    have hrest : t'.rest = t.rest.drop _ := congrArg State.rest reads.state_eq
    show t'.current ∈ t.rest ∨ t'.current = t'.endToken
    rw [State.current]
    cases ht' : t'.rest with
    | nil => exact .inr rfl
    | cons token rest =>
      rw [ht'] at hrest
      exact .inl (List.mem_of_mem_drop (hrest ▸ List.mem_cons_self))
  | @atRead _ _ _ t₁ _ _ token before part _ _ keeps =>
    obtain ⟨piece, hpiece, hkept⟩ := keeps
    obtain ⟨i, _, other, hother, hfits⟩ := part.lead.exists_getElem? hpiece
    obtain rfl := hfits.kept token hkept
    have hrest : t₁.rest = t.rest.drop _ := congrArg State.rest before.state_eq
    rw [hrest] at hother
    exact .inl (List.mem_of_mem_drop (List.mem_of_getElem? hother))

end

/-- To append tokens to a program that ends with a newline never changes what it is. If they do not
start with `fun`, the first of them is refused. If they do, whatever is refused is one of them or
the end of the input, and a program that comes of all tokens has the same global variables, starts
with the same functions and starts with the same diagnostics. -/
theorem program_append (tokens : List Token) (first : Token) (others : List Token)
    (reporter : Reporter) (program : Program) (s' : State)
    (hend : ∀ token ∈ tokens ++ first :: others, token.kind ≠ .endOfInput)
    (hlast : tokens.getLast?.map (·.kind) = some .newline)
    (h : Grammar.program.run (.ofTokens tokens reporter) = .ok program s') :
    (first.isKeyword "fun" = false → ∃ t',
      Grammar.program.run (.ofTokens (tokens ++ first :: others) reporter) =
        .error (.violation ⟨first, .expectedFunction, .error⟩) t') ∧
    (first.isKeyword "fun" = true →
      (∀ error t', Grammar.program.run (.ofTokens (tokens ++ first :: others) reporter) =
        .error (.violation error) t' →
          error.token ∈ first :: others ∨ error.token = .endOf (tokens ++ first :: others)) ∧
      ∀ program' t', Grammar.program.run (.ofTokens (tokens ++ first :: others) reporter) =
        .ok program' t' → program'.globals = program.globals ∧
          program.functions <+: program'.functions ∧
            s'.reporter.diagnostics <+: t'.reporter.diagnostics) := by
  have hline : Token.EndsLine tokens := by
    refine ⟨fun token htoken => hend token (List.mem_append_left _ htoken), ?_⟩
    intro token htoken
    rw [htoken] at hlast
    exact Option.some.inj hlast
  obtain ⟨_, t₁, hrest, _, hscopes, hreporter, hrun⟩ := program_beside hline h (first :: others)
  obtain ⟨htop, hnodup⟩ := program_atTop h
  have htop' : ∃ functions, t₁.scopes.AtTop program.globals.flatten functions :=
    ⟨program.functions, hscopes ▸ htop⟩
  have hcurrent : t₁.current = first := by
    rw [State.current, hrest]
    rfl
  refine ⟨fun hfun => ⟨t₁, ?_⟩, fun _ => ⟨fun error t' h' => ?_, fun program' t' h' => ?_⟩⟩
  · have hmore : t₁.seesKeyword "fun" = false := by rw [State.seesKeyword, hcurrent, hfun]
    have hatEnd : t₁.atEnd = false := by
      rw [State.atEnd, State.sees, hcurrent]
      exact decide_eq_false (hend first (List.mem_append_right _ List.mem_cons_self))
    rw [hrun, programRest, collect_eq eats_function, bind_assoc, run_observe_bind, hmore,
      if_neg Bool.false_ne_true, pure_bind, run_observe_bind, run_observe_bind, hatEnd, hcurrent]
    rfl
  · have hfails := programRest_fails hnodup htop' (hrun ▸ h')
    have hlocal : Local Anything Grammar.program := made_program.isLocal
    obtain ⟨read, hread⟩ := hlocal.onward (.ofTokens (tokens ++ first :: others) reporter) trivial
    rw [h'] at hread
    have hendToken : t'.endToken = .endOf (tokens ++ first :: others) := hread.endToken
    have hmem := hfails.token_mem_rest
    rwa [hrest, hendToken] at hmem
  · rw [← hreporter]
    exact programRest_keeps hnodup htop' (hrun ▸ h')

/-- A second function that calls the first one is read after it. -/
theorem program_append_function : ∃ tokens first others program s' program' t',
    tokenize "var a\nfun f(b) \x7b\n\x7d\n" = .ok tokens ∧
      tokenize "fun g() \x7b\nf(a)\n\x7d" = .ok (first :: others) ∧
      (∀ token ∈ tokens ++ first :: others, token.kind ≠ .endOfInput) ∧
      tokens.getLast?.map (·.kind) = some .newline ∧
      Grammar.program.run (.ofTokens tokens .empty) = .ok program s' ∧
      first.isKeyword "fun" = true ∧
        Grammar.program.run (.ofTokens (tokens ++ first :: others) .empty) = .ok program' t' ∧
          program'.globals = program.globals ∧ program.functions <+: program'.functions ∧
            s'.reporter.diagnostics <+: t'.reporter.diagnostics := by
  have htokens := tokenize_eq "var a\nfun f(b) \x7b\n\x7d\n"
  have hothers := tokenize_eq "fun g() \x7b\nf(a)\n\x7d"
  obtain ⟨first, others, hsplit⟩ : ∃ first others,
      Token.significant (scan "fun g() \x7b\nf(a)\n\x7d").tokens = first :: others :=
    ⟨_, _, rfl⟩
  have hfirst : (Token.significant (scan "fun g() \x7b\nf(a)\n\x7d").tokens).head?.any
      (·.isKeyword "fun") = true := by decide +kernel
  have hend : ∀ token ∈ Token.significant (scan "var a\nfun f(b) \x7b\n\x7d\n").tokens ++
      Token.significant (scan "fun g() \x7b\nf(a)\n\x7d").tokens,
      token.kind ≠ .endOfInput := by decide +kernel
  have hlast : (Token.significant (scan "var a\nfun f(b) \x7b\n\x7d\n").tokens).getLast?.map
      (·.kind) = some .newline := by decide +kernel
  have hok : reaches (fun _ _ => true) (Grammar.program.run (.ofTokens (Token.significant (scan
      "var a\nfun f(b) \x7b\n\x7d\n").tokens) .empty)) = true := by decide +kernel
  have hok' : reaches (fun _ _ => true) (Grammar.program.run (.ofTokens (Token.significant (scan
      "var a\nfun f(b) \x7b\n\x7d\n").tokens ++ Token.significant (scan
        "fun g() \x7b\nf(a)\n\x7d").tokens) .empty)) = true := by decide +kernel
  rw [hsplit] at hothers hfirst hend hok'
  obtain ⟨program, s', h, _⟩ := exists_ok_of_reaches hok
  obtain ⟨program', t', h', _⟩ := exists_ok_of_reaches hok'
  have hkeeps := ((program_append _ first others .empty program s' hend hlast h).2 hfirst).2
    program' t' h'
  exact ⟨_, first, others, program, s', program', t', htokens, hothers, hend, hlast, h, hfirst, h',
    hkeeps⟩

end Grammar

end Tranquility
