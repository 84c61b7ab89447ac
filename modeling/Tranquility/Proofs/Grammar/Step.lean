import Tranquility.Proofs.Grammar.TreeTrace

/-!
# What single steps read

The trace of each step that a rule is made of, and of items with commas between them. Only a brace
moves between scopes, so every other token is read by one law.
-/

namespace Tranquility

/-- A token of a plain kind moves between no scopes. -/
theorem Scopes.pass_of_isPlain {token : Token} (h : token.kind.isPlain = true) (scopes : Scopes)
    (opens : Option ScopeKind) : scopes.pass token opens = .ok scopes := by
  obtain ⟨hleft, hright, _⟩ := Kind.isPlain_iff.mp h
  unfold pass
  split
  · exact absurd ‹_› hleft
  · exact absurd ‹_› hright
  · rfl

namespace Grammar

variable {α : Type} {s s' : State} {token : Token} {kind : Kind}

/-! ## Tokens -/

/-- A token that fits a piece is read and moves between no scopes. -/
theorem reads_advance {expected : Option Kind} {text : Option String} {opens : Option ScopeKind}
    {piece : Piece} (h : (advance expected text opens).run s = .ok token s')
    (hplain : token.kind.isPlain = true) (hfits : piece.Fits token) :
    Reads s (.ofPiece piece) s' := by
  obtain ⟨rfl, hrefusal, scopes, hpass, rfl⟩ := run_advance_ok.mp h
  have hend := (Token.refusal?_eq_none_iff.mp hrefusal).2.2
  rw [Scopes.pass_of_isPlain hplain, Except.ok.injEq] at hpass
  subst hpass
  constructor
  · rw [State.rest_eq_cons hend]
    exact ⟨hfits, trivial⟩
  · simp [State.read, State.after, Trace.ofPiece, Reporter.warnAll]
  · intro piece' hpiece
    rw [List.mem_singleton.mp hpiece, ← hfits.kind]
    exact (Kind.isPlain_iff.mp hplain).2.2.1
  · intro token htoken
    exact absurd htoken List.not_mem_nil
  · intro token htoken
    exact absurd htoken List.not_mem_nil

/-- The token is of the kind that has been asked for. -/
theorem kind_of_expect (h : (expect kind).run s = .ok token s') : token.kind = kind := by
  obtain ⟨_, hrefusal, _⟩ := run_advance_ok.mp h
  exact (Token.refusal?_eq_none_iff.mp hrefusal).1 kind rfl

/-- A token that is asked for by its kind is one that the tree keeps. -/
theorem reads_expect (hplain : kind.isPlain = true) (h : (expect kind).run s = .ok token s') :
    Reads s (.ofPiece (.keep kind token)) s' := by
  have hkind := kind_of_expect h
  refine reads_advance h (hkind ▸ hplain) ⟨hkind, ?_, ?_⟩
  · simp [Piece.keep]
  · simp [Piece.keep]

/-- A token that is skipped is a mark, which the tree does not keep. -/
theorem reads_skip {u : Unit} (hmark : kind.isMark = true) (hplain : kind.isPlain = true)
    (h : (skip kind).run s = .ok u s') : Reads s (.ofPiece (.mark kind hmark)) s' := by
  obtain ⟨token, h⟩ := run_discard_ok.mp h
  have hkind := kind_of_expect h
  refine reads_advance h (hkind ▸ hplain) ⟨hkind, ?_, ?_⟩
  · simp [Piece.mark]
  · simp [Piece.mark]

/-- The token is the keyword that has been asked for. -/
theorem keyword_of_expectKeyword {text : String} (h : (expectKeyword text).run s = .ok token s') :
    token.kind = .keyword ∧ token.text = text := by
  obtain ⟨_, hrefusal, _⟩ := run_advance_ok.mp h
  obtain ⟨hkind, htext, _⟩ := Token.refusal?_eq_none_iff.mp hrefusal
  exact ⟨hkind _ rfl, htext _ rfl⟩

/-- A keyword that is asked for is one that the tree keeps. -/
theorem reads_expectKeyword {text : String} (h : (expectKeyword text).run s = .ok token s') :
    Reads s (.ofPiece (.keepKeyword text token)) s' := by
  obtain ⟨hkind, htext⟩ := keyword_of_expectKeyword h
  refine reads_advance h (by rw [hkind]; rfl) ⟨hkind, ?_, ?_⟩
  · simp [Piece.keepKeyword, htext]
  · simp [Piece.keepKeyword]

/-- A keyword that is skipped is not kept in the tree. -/
theorem reads_skipKeyword {text : String} {u : Unit}
    (h : (skipKeyword text).run s = .ok u s') : Reads s (.ofPiece (.keyword text)) s' := by
  obtain ⟨token, h⟩ := run_discard_ok.mp h
  obtain ⟨hkind, htext⟩ := keyword_of_expectKeyword h
  refine reads_advance h (by rw [hkind]; rfl) ⟨hkind, ?_, ?_⟩
  · simp [Piece.keyword, htext]
  · simp [Piece.keyword]

/-- Any token but a brace is read as what it is. -/
theorem reads_take (h : take.run s = .ok token s') (hplain : s.current.kind.isPlain = true) :
    s.current = token ∧ Reads s (.ofPiece (.keep token.kind token)) s' := by
  obtain ⟨rfl, _⟩ := run_advance_ok.mp h
  exact ⟨rfl, reads_advance h hplain ⟨rfl, by simp [Piece.keep], by simp [Piece.keep]⟩⟩

/-- Literals are tokens of plain kinds. -/
theorem isPlain_of_literalType? {type : Ty} (h : literalType? kind = some type) :
    kind.isPlain = true := by
  cases kind <;> simp_all [literalType?, Kind.isPlain, Kind.isKnown]

/-- A round of a chain: an operator, the operand after it, and the node of both. -/
def chainRound (level : Level) (operand : Rule Expr) (left : Expr) : Rule Expr := do
  let operator ← take
  let right ← operand
  combine level operator left right

/-- Operators are tokens of plain kinds. -/
theorem Level.isPlain_of_mem {level : Level} (h : kind ∈ level.operators) :
    kind.isPlain = true := by
  have hlevel := Level.mem_operators_iff.mp h
  cases kind <;> simp_all [Level.ofKind?, Kind.isPlain, Kind.isKnown]

/-- The operator that a chain goes on with is read as what it is. -/
theorem reads_operator {level : Level} (hc : s.seesOperator level = true)
    (h : take.run s = .ok token s') :
    token.kind ∈ level.operators ∧ Reads s (.ofPiece (.keep token.kind token)) s' := by
  have hkind : s.current.kind ∈ level.operators := List.contains_iff_mem.mp hc
  obtain ⟨rfl, hread⟩ := reads_take h (Level.isPlain_of_mem hkind)
  exact ⟨hkind, hread⟩

/-- Operands are combined if their types go together, with a warning if one of them is an address.
-/
theorem run_combine (level : Level) (operator : Token) (left right : Expr) (s : State) :
    (combine level operator left right).run s =
      if Ty.operandsMatch left.type right.type = true then
        .ok (.binary operator left right level.result)
          { s with
            reporter := s.reporter.warnAll
              (Expr.unsafeOperators [.binary operator left right level.result]) }
      else .error (.violation ⟨operator, .operandTypes left.type right.type, .error⟩) s := by
  unfold combine warnOfAddresses
  rw [Expr.unsafeOperators_singleton]
  cases Ty.operandsMatch left.type right.type with
  | false => rfl
  | true =>
    rw [if_pos rfl]
    by_cases haddress : left.type = .address ∨ right.type = .address
    · rw [if_pos haddress, if_pos (by simpa [Expr.isUnsafe] using haddress)]
      rfl
    · rw [if_neg haddress, if_neg (by simpa [Expr.isUnsafe] using haddress)]
      rfl

/-- Operands are combined where their types go together, with a warning about addresses. -/
theorem run_combine_ok {level : Level} {operator : Token} {left right expr : Expr} :
    (combine level operator left right).run s = .ok expr s' ↔
      Ty.operandsMatch left.type right.type = true ∧
        .binary operator left right level.result = expr ∧
          { s with
            reporter := s.reporter.warnAll
              (Expr.unsafeOperators [.binary operator left right level.result]) } = s' := by
  rw [run_combine]
  cases Ty.operandsMatch left.type right.type <;> simp

/-- Operands are refused where their types do not go together. -/
theorem run_combine_error {level : Level} {operator : Token} {left right : Expr} {e : Error} :
    (combine level operator left right).run s = .error e s' ↔
      Ty.operandsMatch left.type right.type = false ∧
        .violation ⟨operator, .operandTypes left.type right.type, .error⟩ = e ∧ s = s' := by
  rw [run_combine]
  cases Ty.operandsMatch left.type right.type <;> simp

/-! ## Braces -/

/-- A left brace that is read opens the scope. -/
theorem reads_openScope {opened : ScopeKind} {u : Unit} (hopens : opened.opens = true)
    (h : (openScope opened).run s = .ok u s') : Reads s (.opened opened) s' := by
  obtain ⟨token, h⟩ := run_discard_ok.mp h
  obtain ⟨rfl, hrefusal, scopes, hpass, rfl⟩ := run_advance_ok.mp h
  obtain ⟨hkind, _, hend⟩ := Token.refusal?_eq_none_iff.mp hrefusal
  replace hkind : s.current.kind = .leftBrace := hkind _ rfl
  rw [Scopes.pass, hkind, Scopes.enter_some hopens, Except.ok.injEq] at hpass
  subst hpass
  constructor
  · rw [State.rest_eq_cons hend]
    exact ⟨⟨hkind, by simp [Piece.mark], by simp [Piece.mark]⟩, trivial⟩
  · simp [State.read, State.after, Trace.opened, Reporter.warnAll]
  · simp [Trace.opened, Piece.mark]
  · simp [Trace.opened]
  · simp [Trace.opened]

/-- A right brace that is read closes the current scope. -/
theorem reads_closeScope {u : Unit} (h : (skip .rightBrace).run s = .ok u s') :
    Reads s .closed s' := by
  obtain ⟨token, h⟩ := run_discard_ok.mp h
  obtain ⟨rfl, hrefusal, scopes, hpass, rfl⟩ := run_advance_ok.mp h
  obtain ⟨hkind, _, hend⟩ := Token.refusal?_eq_none_iff.mp hrefusal
  replace hkind : s.current.kind = .rightBrace := hkind _ rfl
  rw [Scopes.pass, hkind] at hpass
  obtain ⟨_, rfl⟩ := Scopes.leave_eq_ok_iff.mp hpass
  constructor
  · rw [State.rest_eq_cons hend]
    exact ⟨⟨hkind, by simp [Piece.mark], by simp [Piece.mark]⟩, trivial⟩
  · simp [State.read, State.after, Trace.closed, Reporter.warnAll]
  · simp [Trace.closed, Piece.mark]
  · simp [Trace.closed]
  · simp [Trace.closed]

/-! ## Declarations -/

/-- A name is declared unless it is in use. -/
theorem run_declareVariable (token : Token) : (declareVariable token .any).run s =
    if s.scopes.hasVariable token.text s.scopes.current then
      .error (.violation ⟨token, .duplicateVariable, .error⟩) s
    else .ok () { s with scopes := s.scopes.declared [token] } := by
  simp only [declareVariable, Scopes.declareVariable, EStateM.run_bind, EStateM.run_get]
  cases s.scopes.hasVariable token.text s.scopes.current <;> rfl

/-- Variables are declared if no two of them have one name and none is visible already. -/
theorem run_declareVariables_ok {tokens : List Token} {u : Unit} (hv : s.scopes.Valid) :
    (declareVariables tokens).run s = .ok u s' ↔
      Scopes.Fresh tokens s.scopes ∧ { s with scopes := s.scopes.declared tokens } = s' := by
  induction tokens generalizing s with
  | nil =>
    rw [declareVariables, run_pure_ok, Scopes.declared_nil]
    exact and_congr_left fun _ => ⟨fun _ => Scopes.fresh_nil _, fun _ => rfl⟩
  | cons token tokens ih =>
    have hfirst : ∀ {u s₁}, (declareVariable token .any).run s = .ok u s₁ ↔
        Scopes.Fresh [token] s.scopes ∧ { s with scopes := s.scopes.declared [token] } = s₁ := by
      intro u s₁
      have hfresh : Scopes.Fresh [token] s.scopes ↔
          s.scopes.hasVariable token.text s.scopes.current = false :=
        ⟨fun h => h.unseen _ List.mem_cons_self,
          fun h => ⟨List.nodup_singleton _, List.forall_mem_singleton.mpr h⟩⟩
      rw [hfresh, run_declareVariable]
      cases s.scopes.hasVariable token.text s.scopes.current <;> simp
    rw [declareVariables, run_bind_ok, show token :: tokens = [token] ++ tokens from rfl,
      Scopes.fresh_append hv, Scopes.declared_append]
    constructor
    · rintro ⟨_, s₁, hs₁, h⟩
      obtain ⟨hfresh, rfl⟩ := hfirst.mp hs₁
      obtain ⟨hrest, rfl⟩ := (ih (hv.declared [token])).mp h
      exact ⟨⟨hfresh, hrest⟩, rfl⟩
    · rintro ⟨⟨hfresh, hrest⟩, rfl⟩
      exact ⟨(), _, hfirst.mpr ⟨hfresh, rfl⟩, (ih (hv.declared [token])).mpr ⟨hrest, rfl⟩⟩

/-! ## Items with commas between them -/

/-- Items with commas between them are read one by one, in the same scopes. -/
theorem reads_commaSeparated {item : Rule α} (trace : α → Trace) (good : Scopes → α → Prop)
    (hitem : ∀ s a s', item.run s = .ok a s' → Reads s (trace a) s' ∧ good s.scopes a)
    (hsettle : ∀ a, (trace a).settle = id) {items : List α}
    (h : (commaSeparated item).run s = .ok items s') :
    items ≠ [] ∧ Reads s (.separated (items.map trace)) s' ∧ ∀ a ∈ items, good s.scopes a := by
  obtain ⟨first, s₁, hfirst, h⟩ := run_bind_ok.mp h
  refine run_collect_ok (fun items s' =>
    items ≠ [] ∧ Reads s (.separated (items.map trace)) s' ∧ ∀ a ∈ items, good s.scopes a)
    ?_ ?_ h
  · rintro items s₂ a s₃ ⟨hne, hreads, hgood⟩ _ hround
    obtain ⟨_, s₄, hcomma, hround⟩ := run_bind_ok.mp hround
    have hcomma := reads_skip rfl rfl hcomma
    obtain ⟨ha, hgood'⟩ := hitem _ _ _ hround
    have hscopes : s₄.scopes = s.scopes := hcomma.scopes_eq.trans hreads.scopes_eq
    refine ⟨by simp, ?_, ?_⟩
    · rw [List.map_append, List.map_singleton,
        Trace.separated_concat (by simpa using hne) (hsettle a)]
      exact hreads.append (hcomma.append ha)
    · intro b hb
      rcases List.mem_append.mp hb with hb | hb
      · exact hgood b hb
      · rw [List.mem_singleton.mp hb, ← hscopes]
        exact hgood'
  · obtain ⟨hreads, hgood⟩ := hitem _ _ _ hfirst
    refine ⟨by simp, ?_, by simpa using hgood⟩
    have htrace : Trace.separated [trace first] = trace first := by
      refine Trace.ext ?_ ?_ (hsettle first).symm
      · simp [Trace.separated, Piece.separated, List.intercalate_singleton]
      · simp [Trace.separated]
    simpa [htrace] using hreads

/-- Items with commas between them may be missing before the token that ends them. -/
theorem reads_unlessAt {item : Rule α} (trace : α → Trace) (good : Scopes → α → Prop)
    (hitem : ∀ s a s', item.run s = .ok a s' → Reads s (trace a) s' ∧ good s.scopes a)
    (hsettle : ∀ a, (trace a).settle = id) {items : List α}
    (h : (unlessAt kind (commaSeparated item)).run s = .ok items s') :
    Reads s (.separated (items.map trace)) s' ∧ ∀ a ∈ items, good s.scopes a := by
  rw [unlessAt, run_observe_bind] at h
  split at h
  case isTrue =>
    obtain ⟨rfl, rfl⟩ := run_pure_ok.mp h
    exact ⟨.settled id, by simp⟩
  case isFalse => exact (reads_commaSeparated trace good hitem hsettle h).2

/-! ## Conditionals -/

/-- The head of a conditional: its keyword, its condition and its first body. -/
def conditionalHead (statement : Rule Stmt) : Rule (Token × Expr × List Stmt) := do
  let token ← expectKeyword "if"
  let condition ← expression
  let body ← braced .ifBranch statement
  return (token, condition, body)

/-- A conditional, where `next` reads what is chained to it. -/
def conditionalStep (statement : Rule Stmt) (next : Rule Conditional) : Rule Conditional := do
  let token ← expectKeyword "if"
  let condition ← expression
  let body ← braced .ifBranch statement
  if ← observe (·.seesKeyword "else") then
    skipKeyword "else"
    if ← observe (·.seesKeyword "if") then
      return .chained token condition body (← next)
    else
      return .otherwise token condition body (← braced .elseBranch statement)
  else
    return .only token condition body

/-- A conditional within a depth is its head and what is chained to it within a smaller one. -/
theorem conditionalWithin_succ (statement : Rule Stmt) (depth : Nat) :
    conditionalWithin statement (depth + 1) =
      conditionalStep statement (conditionalWithin statement depth) := rfl

/-- A conditional is its head and what may follow after `else`. -/
theorem conditionalStep_eq (statement : Rule Stmt) (next : Rule Conditional) :
    conditionalStep statement next = (do
      let (token, condition, body) ← conditionalHead statement
      if ← observe (·.seesKeyword "else") then
        skipKeyword "else"
        if ← observe (·.seesKeyword "if") then
          return .chained token condition body (← next)
        else
          return .otherwise token condition body (← braced .elseBranch statement)
      else
        return .only token condition body) := by
  simp only [conditionalStep, conditionalHead, bind_assoc, pure_bind]

/-! ## Functions -/

/-- The head of a function, up to the newline after its left brace: its name and parameters. -/
def functionHead : Rule (Token × List Token) := do
  skipKeyword "fun"
  let name ← expect .identifier
  require (← observe (·.allowsFunction name.text)) name .duplicateFunction
  skip .leftParen
  let parameters ← unlessAt .rightParen identifiers
  skip .rightParen
  let enclosing ← observe (·.scopes.current)
  openScope .function
  declareFunction ⟨name.text, parameters.length, some name⟩ enclosing
  declareVariables parameters
  skip .newline
  return (name, parameters)

/-- What stands in a function after its head, up to its right brace. -/
def functionInside : Rule (List (List Token) × List Stmt) := do
  let locals ← variableLines
  let body ← unlessAt .rightBrace body
  skip .rightBrace
  return (locals, body)

/-- A function is its head, what stands in it, and the newline after it. -/
theorem function_eq : function = (do
    let (name, parameters) ← functionHead
    let (locals, body) ← functionInside
    functionEnd
    return ⟨name, parameters, locals, body⟩) := by
  simp only [function, functionHead, functionInside, bind_assoc, pure_bind]

end Grammar

end Tranquility
