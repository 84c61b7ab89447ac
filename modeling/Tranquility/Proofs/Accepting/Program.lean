import Tranquility.Proofs.Accepting.Statement

/-!
# Accepting programs

Every written form of a legal program is read, and the program read is the one that was written. The
names that a tree may use at a place are those that the scopes hold there, so that what the language
allows of names is what the rules ask of the scopes.
-/

namespace Tranquility

namespace Grammar

variable {s : State}

/-! ## Variables -/

/-- Names with commas between them are read up to where no comma comes. -/
theorem identifiers_accepts {tokens : List Token} (hne : tokens ≠ []) (h : Leads s (.names tokens))
    (hstop : ¬ (s.after (.names tokens)).sees .comma = true) :
    Accepts identifiers s tokens (.names tokens) :=
  accepts_commaSeparated (fun token => .ofPiece (.keep .identifier token)) (fun _ => True)
    (fun _ => rfl) (fun _ _ => trivial) hne
    (fun _ _ _ _ _ hleads _ => accepts_expect rfl hleads) h trivial (Bool.eq_false_iff.mpr hstop)

/-- Parameters are read up to the closing parenthesis. -/
theorem parameters_accepts {tokens : List Token} (h : Leads s (.names tokens))
    (hclose : (s.after (.names tokens)).sees .rightParen = true) :
    Accepts (unlessAt .rightParen identifiers) s tokens (.names tokens) := by
  rw [Accepts, unlessAt, run_observe_bind]
  cases tokens with
  | nil =>
    have hempty : s.sees .rightParen = true := hclose
    rw [if_pos hempty]
    rfl
  | cons token tokens =>
    have hsplit : Trace.names (token :: tokens) = .ofPiece (.keep .identifier token) ++
        .following (tokens.map fun token => .ofPiece (.keep .identifier token)) :=
      Trace.separated_cons rfl _
    have hnot : ¬ s.sees .rightParen = true := by
      rw [hsplit] at h
      exact h.not_sees rfl (by decide : Kind.identifier ≠ .rightParen)
    rw [if_neg hnot]
    refine identifiers_accepts (List.cons_ne_nil _ _) h ?_
    rw [State.sees, decide_eq_true_eq] at hclose ⊢
    rw [hclose]
    decide

/-- Names are declared that are not yet in use. -/
theorem declareVariables_accepts {tokens : List Token} (hv : s.scopes.Valid)
    (h : Scopes.Fresh tokens s.scopes) :
    Accepts (declareVariables tokens) s () (.settled (Scopes.declared tokens)) :=
  (run_declareVariables_ok hv).mpr ⟨h, rfl⟩

/-- A line of variables is read, and its names are declared. -/
theorem variableLine_accepts {line : List Token} (hne : line ≠ []) (hv : s.scopes.Valid)
    (hfresh : Scopes.Fresh line s.scopes) (h : Leads s (.variableLine line)) :
    Accepts variableLine s line (.variableLine line) := by
  rw [Trace.variableLine_eq] at h ⊢
  obtain ⟨hvar, h⟩ := leads_append.mp h
  obtain ⟨hnames, h⟩ := leads_append.mp h
  obtain ⟨_, hend⟩ := leads_append.mp h
  have hstop : ¬ ((s.after (.ofPiece (.keyword "var"))).after (.names line)).sees .comma = true :=
    h.not_sees rfl (by decide : Kind.newline ≠ .comma)
  have hdeclare : Accepts (declareVariables line)
      ((s.after (.ofPiece (.keyword "var"))).after (.names line)) ()
      (.settled (Scopes.declared line)) := declareVariables_accepts hv hfresh
  exact (accepts_skipKeyword hvar).bind ((identifiers_accepts hne hnames hstop).bind
    (hdeclare.bind ((accepts_skip rfl rfl hend).bind_pure fun _ => line)))

/-- Lines of variables are left to be read, up to a state where no other comes. -/
structure PendingLines (final : State) (todo : List (List Token)) (s : State) : Prop where
  valid : s.scopes.Valid
  leads : Leads s (.variableLines todo)
  lines_ne_nil : ∀ line ∈ todo, line ≠ []
  fresh : Scopes.Fresh todo.flatten s.scopes
  after : s.after (.variableLines todo) = final
  not_var : final.seesKeyword "var" = false

/-- Lines of variables are read up to where no other comes. -/
theorem variableLines_accepts {final : State} {lines : List (List Token)}
    (h : PendingLines final lines s) :
    Accepts variableLines s lines (.variableLines lines) := by
  have hround : ∀ line todo s, PendingLines final (line :: todo) s →
      s.seesKeyword "var" = true ∧ ∃ s₁, variableLine.run s = .ok line s₁ ∧
        s₁.rest.length < s.rest.length ∧ PendingLines final todo s₁ := by
    rintro line todo s ⟨hv, hleads, hne, hfresh, hafter, hnot⟩
    obtain ⟨hne_line, hne⟩ := List.forall_mem_cons.mp hne
    rw [Trace.variableLines_cons] at hleads hafter
    obtain ⟨hline, htodo⟩ := leads_append.mp hleads
    rw [List.flatten_cons, Scopes.fresh_append hv] at hfresh
    rw [State.after_append] at hafter
    have hsees : s.seesKeyword "var" = true := hline.seesKeyword rfl rfl
    have hlt := hline.length_lt (by simp [Trace.variableLine, Piece.variableLine])
    exact ⟨hsees, _, variableLine_accepts hne_line hv hfresh.1 hline, hlt,
      hv.declared line, htodo, hne, hfresh.2, hafter, hnot⟩
  have hlast : ∀ s, PendingLines final [] s → s = final ∧ s.seesKeyword "var" = false := by
    intro s hpending
    have hafter := hpending.after
    rw [Trace.variableLines_nil] at hafter
    have heq : s = final := hafter
    exact ⟨heq, heq ▸ hpending.not_var⟩
  obtain ⟨s', hrun, hend⟩ := run_collect_of_good _ hround (fun s hs => (hlast s hs).2) h
  rw [Accepts, h.after, ← (hlast s' hend).1]
  exact hrun

/-! ## Functions -/

/-- The newline after a function is read, and it may be missing at the end of the input. -/
theorem functionEnd_accepts {ended : Bool} (h : Leads s (.ending ended))
    (hatEnd : ended = false → s.atEnd = true) : Accepts functionEnd s () (.ending ended) := by
  rw [Accepts, functionEnd, run_observe_bind]
  cases ended with
  | true =>
    have hnot : ¬ s.atEnd = true := h.not_sees rfl (by decide : Kind.newline ≠ .endOfInput)
    rw [if_neg hnot]
    exact accepts_skip rfl rfl h
  | false =>
    rw [if_pos (hatEnd rfl)]
    rfl

variable {globals : List (List Token)} {functions : List FunctionDecl}

/-- The head of a function is read in the global scope if its name and its parameters are free. -/
theorem functionHead_accepts {decl : FunctionDecl}
    (htop : s.scopes.AtTop globals.flatten functions) (hlegal : decl.Legal globals functions)
    (h : Leads s decl.headTrace) :
    Accepts functionHead s (decl.token, decl.parameters) decl.headTrace := by
  obtain ⟨hfun, h⟩ := leads_append.mp h
  obtain ⟨hname, h⟩ := leads_append.mp h
  obtain ⟨hopen, h⟩ := leads_append.mp h
  obtain ⟨hparameters, h⟩ := leads_append.mp h
  obtain ⟨hclose, h⟩ := leads_append.mp h
  obtain ⟨henter, h⟩ := leads_append.mp h
  obtain ⟨_, h⟩ := leads_append.mp h
  obtain ⟨_, hnewline⟩ := leads_append.mp h
  have hallows : s.allowsFunction decl.token.text = true := by
    simp only [State.allowsFunction, Bool.or_eq_true, decide_eq_true_eq, Bool.not_eq_true',
      ← Bool.not_eq_true, htop.hasFunction_iff, not_or]
    exact hlegal.name_new
  have hdeclared := htop.opened.declareFunction decl
  have hseen : ∀ name, Scopes.hasVariable _ name _ = true ↔ name ∈ Token.names globals.flatten :=
    fun name => by simpa using hdeclared.hasVariable_iff
  have hnames := Token.nodup_names_append hlegal.variables_nodup
  have hfresh := (Scopes.fresh_iff hseen (Token.nodup_names_append hnames)).mpr hnames
  have hfunction : ∀ s₁ : State, Accepts (declareFunction decl.symbol s.scopes.current) s₁ ()
      (.settled (·.declareFunction decl.symbol 0)) := by
    intro s₁
    rw [htop.current]
    rfl
  refine (accepts_skipKeyword hfun).bind ((accepts_expect rfl hname).bind ?_)
  rw [Accepts, run_observe_bind]
  refine run_bind_ok.mpr ⟨(), _, run_require_ok.mpr ⟨hallows, rfl⟩, ?_⟩
  refine (accepts_skip rfl rfl hopen).bind ((parameters_accepts hparameters
    (hclose.sees rfl rfl)).bind ((accepts_skip rfl rfl hclose).bind ?_))
  rw [Accepts, run_observe_bind]
  refine (accepts_openScope rfl henter).bind ((hfunction _).bind ?_)
  refine Accepts.bind (a := ()) ?_ ?_
  · exact declareVariables_accepts hdeclared.valid hfresh
  · exact (accepts_skip rfl rfl hnewline).bind_pure fun _ => (decl.token, decl.parameters)

/-- What stands between the braces of a function is read, and its scope is closed. -/
theorem functionInside_accepts {vars : List Token} {locals : List (List Token)} {stmts : List Stmt}
    (hinside : s.scopes.InFunction globals.flatten functions vars)
    (hlines : ∀ line ∈ locals, line ≠ [])
    (hnodup : (Token.names (globals.flatten ++ vars ++ locals.flatten)).Nodup)
    (hlegal : Stmt.AllLegal
      ⟨fun name => (Token.names (globals.flatten ++ vars ++ locals.flatten)).contains name,
        FunctionDecl.arityAmong? functions⟩ stmts)
    (h : Leads s (FunctionDecl.insideTrace locals stmts)) :
    Accepts functionInside s (locals, stmts) (FunctionDecl.insideTrace locals stmts) := by
  obtain ⟨hlocals, h⟩ := leads_append.mp h
  obtain ⟨hstmts, hclose⟩ := leads_append.mp h
  have hfresh : Scopes.Fresh locals.flatten s.scopes :=
    (Scopes.fresh_iff (fun _ => hinside.hasVariable_iff)
      (Token.nodup_names_append hnodup)).mpr hnodup
  have hwith : (s.after (.variableLines locals)).scopes.InFunction globals.flatten functions
      (vars ++ locals.flatten) := hinside.declared locals.flatten
  have hseen := hwith.seen_eq
  rw [← List.append_assoc] at hseen
  have hbody : PendingBody ((s.after (.variableLines locals)).rest.length + 1)
      ((s.after (.variableLines locals)).after (Stmt.traceAll stmts)) stmts
      (s.after (.variableLines locals)) :=
    ⟨Nat.lt_succ_self _, hwith.valid, hstmts, hseen ▸ hlegal, rfl, hclose.sees rfl rfl⟩
  have hpending : PendingLines (s.after (.variableLines locals)) locals s :=
    ⟨hinside.valid, hlocals, hlines, hfresh, rfl, hbody.not_seesKeyword (by decide)⟩
  have hpasses := Stmt.passes_all stmts hwith.valid
  have houter := (hwith.passes hpasses).outer_ne_nil
  refine (variableLines_accepts hpending).bind ((unlessAt_bodyOver_accepts (statement_accepts _)
    hbody).bind ?_)
  exact (accepts_closeScope houter hclose).bind_pure fun _ => (locals, stmts)

/-- A function is read that is legal behind the functions in the global scope. -/
theorem function_accepts {decl : FunctionDecl} (htop : s.scopes.AtTop globals.flatten functions)
    (hlegal : decl.Legal globals functions) {ended : Bool}
    (h : Leads s (decl.trace ++ .ending ended))
    (hatEnd : ended = false → (s.after decl.trace).atEnd = true) :
    Accepts function s decl (decl.trace ++ .ending ended) := by
  obtain ⟨h, hending⟩ := leads_append.mp h
  have hend := functionEnd_accepts hending hatEnd
  rw [FunctionDecl.trace_eq] at h hend ⊢
  rw [State.after_append] at hend
  obtain ⟨hhead, hinside⟩ := leads_append.mp h
  have hin : (s.after decl.headTrace).scopes.InFunction globals.flatten (functions ++ [decl])
      decl.parameters := (htop.opened.declareFunction decl).declared decl.parameters
  rw [function_eq, Trace.append_assoc]
  refine (functionHead_accepts htop hlegal hhead).bind (Accepts.bind (a := (decl.locals, decl.body))
    ?_ (hend.bind_pure fun _ => decl))
  exact functionInside_accepts hin hlegal.lines_ne_nil hlegal.variables_nodup hlegal.body hinside

/-! ## Programs -/

/-- Functions are left to be read, after others that are in the global scope, up to the end of the
input. -/
structure PendingFunctions (globals : List (List Token)) (ended : Bool) (final : State)
    (todo : List FunctionDecl) (s : State) : Prop where
  legal : ∃ earlier, s.scopes.AtTop globals.flatten earlier ∧
    FunctionDecl.AllLegal globals (earlier ++ todo)
  leads : Leads s (FunctionDecl.traceTo ended todo)
  after : s.after (FunctionDecl.traceTo ended todo) = final
  atEnd : final.atEnd = true

namespace PendingFunctions

variable {ended : Bool} {final : State} {decl : FunctionDecl} {todo : List FunctionDecl}

/-- Where no function is left to be read, the functions end. -/
theorem eq_final (h : PendingFunctions globals ended final [] s) : s = final := by
  have hafter := h.after
  rw [FunctionDecl.traceTo_nil] at hafter
  exact hafter

/-- The keyword of the first function left comes next. -/
theorem seesKeyword (h : PendingFunctions globals ended final (decl :: todo) s) :
    s.seesKeyword "fun" = true := by
  have hleads := h.leads
  rw [FunctionDecl.traceTo_cons] at hleads
  exact hleads.seesKeyword rfl rfl

/-- The first of the functions left is read, and then the others are left. -/
theorem step (h : PendingFunctions globals ended final (decl :: todo) s) :
    ∃ s₁, function.run s = .ok decl s₁ ∧ s₁.rest.length < s.rest.length ∧
      PendingFunctions globals ended final todo s₁ := by
  obtain ⟨⟨earlier, htop, hlegal⟩, hleads, hafter, hatEnd⟩ := h
  rw [FunctionDecl.traceTo_cons] at hleads hafter
  rw [State.after_append] at hafter
  obtain ⟨hdecl, htodo⟩ := leads_append.mp hleads
  have hlast : (ended || !todo.isEmpty) = false → (s.after decl.trace).atEnd = true := by
    intro hended
    obtain ⟨rfl, hempty⟩ := Bool.or_eq_false_iff.mp hended
    obtain rfl : todo = [] := by simpa using hempty
    rw [FunctionDecl.traceTo_nil, State.after_append] at hafter
    have hfinal : s.after decl.trace = final := hafter
    rw [hfinal, hatEnd]
  refine ⟨_, function_accepts htop (hlegal earlier decl todo rfl) hdecl hlast,
    hdecl.length_lt (by simp [FunctionDecl.trace, FunctionDecl.pieces]), ?_, htodo, hafter, hatEnd⟩
  refine ⟨earlier ++ [decl], htop.settle decl, ?_⟩
  rw [List.append_assoc]
  exact hlegal

end PendingFunctions

/-- Functions are read up to the end of the input. -/
theorem functions_accepts {ended : Bool} {final : State} {decls : List FunctionDecl}
    (hne : decls ≠ []) (h : PendingFunctions globals ended final decls s) :
    Accepts Grammar.functions s decls (FunctionDecl.traceTo ended decls) := by
  obtain ⟨first, todo, rfl⟩ := List.exists_cons_of_ne_nil hne
  obtain ⟨s₁, hfirst, _, hpending⟩ := h.step
  have hlast : ∀ s, PendingFunctions globals ended final [] s → s.seesKeyword "fun" = false := by
    intro s hs
    rw [hs.eq_final]
    exact not_seesKeyword_of_sees hs.atEnd (by decide) "fun"
  obtain ⟨s', hrun, hend⟩ := run_collect_of_good _ (fun _ _ _ hs => ⟨hs.seesKeyword, hs.step⟩)
    hlast hpending
  rw [Accepts, h.after, ← hend.eq_final]
  exact run_bind_ok.mpr ⟨first, s₁, hfirst, hrun⟩

/-- Newlines in front of a program are passed over. -/
theorem newlines_accepts {count : Nat}
    (h : Leads s ⟨List.replicate count (.mark .newline), [], id⟩)
    (hstop : ¬ (s.after ⟨List.replicate count (.mark .newline), [], id⟩).sees .newline = true) :
    Accepts (whilst (·.sees .newline) (fun _ => skip .newline) ()) s ()
      ⟨List.replicate count (.mark .newline), [], id⟩ := by
  refine run_whilst_of_loops ?_
  induction count generalizing s with
  | zero => exact .done (Bool.eq_false_iff.mpr hstop)
  | succ count ih =>
    have hsplit : (⟨List.replicate (count + 1) (.mark .newline), [], id⟩ : Trace) =
        .ofPiece (.mark .newline) ++ ⟨List.replicate count (.mark .newline), [], id⟩ := rfl
    rw [hsplit] at h hstop ⊢
    rw [State.after_append] at hstop ⊢
    obtain ⟨hnewline, hrest⟩ := leads_append.mp h
    exact .round (hnewline.sees rfl rfl) (accepts_skip rfl rfl hnewline)
      (hnewline.length_lt (by simp [Trace.ofPiece])) (ih hrest hstop)

/-- A program has no two global variables of one name, since no function sees two. -/
theorem nodup_globals {program : Program} (h : program.Legal) :
    (Token.names program.globals.flatten).Nodup := by
  obtain ⟨first, rest, hfunctions⟩ := List.exists_cons_of_ne_nil h.functions_ne_nil
  have hfirst := h.functions [] first rest hfunctions
  exact Token.nodup_names_append (Token.nodup_names_append hfirst.variables_nodup)

/-- A keyword is no other keyword, and no token of another kind. -/
theorem not_seesKeyword_of_seesKeyword {text text' : String} (h : s.seesKeyword text = true)
    (hne : text ≠ text') : s.seesKeyword text' = false := by
  simp only [State.seesKeyword, Token.isKeyword, Bool.and_eq_true, decide_eq_true_eq] at h
  simp [State.seesKeyword, Token.isKeyword, h.2, hne]

/-- A keyword is of no other kind. -/
theorem not_sees_of_seesKeyword {text : String} (h : s.seesKeyword text = true) {kind : Kind}
    (hne : kind ≠ .keyword) : ¬ s.sees kind = true := by
  simp only [State.seesKeyword, Token.isKeyword, Bool.and_eq_true, decide_eq_true_eq] at h
  simp [State.sees, h.1, hne.symm]

/-- The declarations of a legal program are read up to the end of the input. -/
theorem declarations_accepts {program : Program} (hlegal : program.Legal) {ended : Bool}
    (htop : s.scopes.AtTop [] [])
    (h : Leads s (.variableLines program.globals ++ FunctionDecl.traceTo ended program.functions))
    (hatEnd : ((s.after (.variableLines program.globals)).after
      (FunctionDecl.traceTo ended program.functions)).atEnd = true) :
    PendingLines (s.after (.variableLines program.globals)) program.globals s ∧
      (s.after (.variableLines program.globals)).seesKeyword "fun" = true ∧
      Accepts Grammar.functions (s.after (.variableLines program.globals)) program.functions
        (FunctionDecl.traceTo ended program.functions) := by
  obtain ⟨hglobals, hfunctions⟩ := leads_append.mp h
  have hnodup := nodup_globals hlegal
  have hfresh := (Scopes.fresh_iff (fun _ => htop.hasVariable_iff) List.nodup_nil).mpr hnodup
  have hpending : PendingFunctions program.globals ended _ program.functions
      (s.after (.variableLines program.globals)) :=
    ⟨⟨[], htop.declared program.globals.flatten, hlegal.functions⟩, hfunctions, rfl, hatEnd⟩
  have hfun : (s.after (.variableLines program.globals)).seesKeyword "fun" = true := by
    obtain ⟨first, rest, heq⟩ := List.exists_cons_of_ne_nil hlegal.functions_ne_nil
    rw [heq] at hpending
    exact hpending.seesKeyword
  exact ⟨⟨htop.valid, hglobals, hlegal.lines_ne_nil, hfresh, rfl,
    not_seesKeyword_of_seesKeyword hfun (by decide)⟩, hfun,
    functions_accepts hlegal.functions_ne_nil hpending⟩

/-- A legal program is read after newlines and up to the end of the input. -/
theorem program_accepts {program : Program} (hlegal : program.Legal) {front : Nat} {ended : Bool}
    (hscopes : s.scopes = .initial) (h : Leads s (program.trace front ended))
    (hatEnd : (s.after (program.trace front ended)).atEnd = true) :
    Accepts Grammar.program s program (program.trace front ended) := by
  rw [Program.trace] at h hatEnd ⊢
  rw [State.after_append, State.after_append] at hatEnd
  obtain ⟨hnewlines, hrest⟩ := leads_append.mp h
  have htop : (s.after ⟨List.replicate front (.mark .newline), [], id⟩).scopes.AtTop [] [] :=
    hscopes ▸ Scopes.atTop_initial
  obtain ⟨hlines, hfun, hfunctions⟩ := declarations_accepts hlegal htop hrest hatEnd
  have hstop :
      ¬ (s.after ⟨List.replicate front (.mark .newline), [], id⟩).sees .newline = true := by
    cases hglobals : program.globals with
    | nil =>
      rw [hglobals, Trace.variableLines_nil] at hfun
      exact not_sees_of_seesKeyword hfun (by decide : Kind.newline ≠ .keyword)
    | cons line lines =>
      have hleads := hlines.leads
      rw [hglobals] at hleads
      exact hleads.not_sees rfl (by decide : Kind.keyword ≠ .newline)
  refine (newlines_accepts hnewlines hstop).bind ((variableLines_accepts hlines).bind ?_)
  rw [Accepts, run_observe_bind, run_observe_bind]
  refine run_bind_ok.mpr ⟨(), _, run_require_ok.mpr ⟨hfun, rfl⟩, ?_⟩
  refine run_bind_ok.mpr ⟨program.functions, _, hfunctions, ?_⟩
  rw [run_observe_bind, run_observe_bind]
  exact run_bind_ok.mpr ⟨(), _, run_require_ok.mpr ⟨hatEnd, rfl⟩, rfl⟩

/-- Tokens that are a written form of a program start with its pieces and end with them. -/
theorem leads_of_written {program : Program} {tokens : List Token} (h : program.Written tokens)
    (hne : program.functions ≠ []) (reporter : Reporter) : ∃ front ended,
      Leads (.ofTokens tokens reporter) (program.trace front ended) ∧
        ((State.ofTokens tokens reporter).after (program.trace front ended)).rest = [] := by
  obtain ⟨newlines, body, rfl, hnewlines, hbody⟩ := h
  obtain ⟨ended, hbody⟩ : ∃ ended : Bool, List.Forall₂ Piece.Writes
      (if ended then program.pieces else program.pieces.dropLast) body :=
    hbody.elim (fun hall => ⟨true, hall⟩) fun hbut => ⟨false, hbut⟩
  have hfront : List.Forall₂ Piece.Fits (List.replicate newlines.length (.mark .newline))
      newlines := by
    induction newlines with
    | nil => exact .nil
    | cons token newlines ih =>
      obtain ⟨hkind, hkinds⟩ := List.forall_mem_cons.mp hnewlines
      exact .cons ⟨hkind, by simp [Piece.mark], by simp [Piece.mark]⟩ (ih hkinds)
  have hfits : List.Forall₂ Piece.Fits (program.trace newlines.length ended).pieces
      (newlines ++ body) := by
    rw [Program.pieces_trace program newlines.length ended hne]
    exact List.rel_append hfront (hbody.imp fun _ _ hwrites => hwrites.fits)
  refine ⟨newlines.length, ended, ?_, ?_⟩
  · have hlead := Piece.lead_of_forall₂ hfits []
    rwa [List.append_nil] at hlead
  · show List.drop _ (newlines ++ body) = []
    exact List.drop_eq_nil_of_le (Nat.le_of_eq hfits.length_eq.symm)

end Grammar

/-! ## Sources -/

open Grammar

/-- The pieces of a legal program are written out in tokens of their own. -/
theorem Program.Legal.written_tokens {program : Program} (h : program.Legal) :
    program.Written (program.pieces.map Piece.token) := by
  refine ⟨[], _, rfl, by simp, .inl (List.forall₂_map_right_iff.mpr (List.forall₂_same.mpr ?_))⟩
  intro piece hpiece
  exact (h.proper piece hpiece).writes_token

/-- A legal program can be written out, and whatever its written form, the grammar reads it back
from there: every token is read, and the tree is the same. -/
theorem parse_of_written {program : Program} (h : program.Legal) :
    program.Written (program.pieces.map Piece.token) ∧
      ∀ tokens reporter, program.Written tokens →
        ∃ s', Grammar.program.run (.ofTokens tokens reporter) = .ok program s' ∧ s'.rest = [] := by
  refine ⟨h.written_tokens, fun tokens reporter hwritten => ?_⟩
  obtain ⟨front, ended, hleads, hrest⟩ := leads_of_written hwritten h.functions_ne_nil reporter
  refine ⟨_, program_accepts h rfl hleads ?_, hrest⟩
  have hcurrent : ((State.ofTokens tokens reporter).after (program.trace front ended)).current =
      .endOf tokens := by
    rw [State.current, hrest]
    rfl
  simp [State.atEnd, State.sees, hcurrent]

/-- A program that adds one to a global variable. -/
def countingProgram : Program where
  globals := [[⟨.identifier, "a", 0, 4, 1⟩]]
  functions := [{
    token := ⟨.identifier, "init", 1, 4, 4⟩
    parameters := []
    locals := []
    body := [.assignment ⟨.colon, ":", 2, 1, 10⟩ (.reference ⟨.identifier, "a", 2, 0, 9⟩)
      (.binary ⟨.additive, "+", 2, 6, 13⟩
        (.dereference ⟨.dot, ".", 2, 3, 11⟩ (.reference ⟨.identifier, "a", 2, 4, 12⟩))
        (.group ⟨.leftParen, "(", 2, 8, 14⟩ (.literal ⟨.integer, "1", 2, 9, 15⟩ .integer) .integer)
        .integer)] }]

/-- The program keeps the rules of the language. -/
theorem legal_countingProgram : countingProgram.Legal := by
  refine ⟨?_, List.cons_ne_nil _ _, by simp [countingProgram], ?_⟩
  · have hproper : ∀ piece ∈ countingProgram.pieces,
        (∀ kept ∈ piece.kept, kept.kind = piece.kind) ∧
          ∀ kept ∈ piece.kept, piece.kind ≠ .newline → kept.text = piece.text := by decide
    exact fun piece hpiece => ⟨(hproper piece hpiece).1, (hproper piece hpiece).2⟩
  · intro earlier function later heq
    obtain ⟨rfl, rfl⟩ : earlier = [] ∧ function = countingProgram.functions[0] := by
      cases earlier with
      | nil => exact ⟨rfl, (List.cons.inj heq).1.symm⟩
      | cons first earlier => simp [countingProgram] at heq
    refine ⟨.inl rfl, by simp [countingProgram], by decide, ?_, trivial, trivial⟩
    have hvariable : (countingProgram.functions[0].visible countingProgram.globals []).hasVariable
        "a" = true := by decide
    simp only [countingProgram, List.getElem_cons_zero, Stmt.nodesOfAll, Stmt.nodes, Expr.nodes,
      List.append_nil, List.forall_mem_append, List.forall_mem_singleton]
    refine ⟨?_, ⟨⟨?_, ?_⟩, ?_, ?_⟩, ?_⟩
    · exact ⟨trivial, trivial, trivial, hvariable⟩
    · exact ⟨trivial, trivial, trivial, hvariable⟩
    · exact ⟨trivial, rfl, trivial, trivial⟩
    · exact ⟨rfl, trivial, fun h => absurd h (by decide), trivial⟩
    · exact ⟨rfl, rfl, trivial, trivial⟩
    · exact ⟨⟨rfl, rfl⟩, ⟨.additive, rfl, by decide, by decide⟩, trivial, trivial⟩

/-- The program that adds one is read back from its tokens. -/
theorem parse_of_written_counting : countingProgram.Legal ∧
    countingProgram.Written (countingProgram.pieces.map Piece.token) ∧
      ∃ s', Grammar.program.run (.ofTokens (countingProgram.pieces.map Piece.token) .empty) =
        .ok countingProgram s' ∧ s'.rest = [] := by
  obtain ⟨hwritten, hparse⟩ := parse_of_written legal_countingProgram
  exact ⟨legal_countingProgram, hwritten, hparse _ .empty hwritten⟩

end Tranquility
