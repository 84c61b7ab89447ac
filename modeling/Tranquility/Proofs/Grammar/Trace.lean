import Tranquility.Proofs.Grammar.Outcome
import Tranquility.Proofs.Scope.Declared

/-!
# What a successful reading leaves

What a rule reads is told by the tree that it yields: the pieces that the tree writes, the operators
that are worth a warning, and the scopes that it leaves. These three make a trace, and the state
after a reading is the state before it moved on by the trace. Traces of readings one after the other
are joined, so that the trace of a tree comes from those of its parts.
-/

namespace Tranquility

/-! ## Tokens that start with pieces -/

/-- The tokens start with ones that fit the pieces. -/
def Piece.Lead : List Piece → List Token → Prop
  | [], _ => True
  | _ :: _, [] => False
  | piece :: pieces, token :: tokens => piece.Fits token ∧ Piece.Lead pieces tokens

/-- Tokens start with two lists of pieces if the second comes behind the first. -/
theorem Piece.lead_append {pieces pieces' : List Piece} {tokens : List Token} :
    Piece.Lead (pieces ++ pieces') tokens ↔
      Piece.Lead pieces tokens ∧ Piece.Lead pieces' (tokens.drop pieces.length) := by
  induction pieces generalizing tokens with
  | nil => simp [Piece.Lead]
  | cons piece pieces ih =>
    cases tokens with
    | nil => simp [Piece.Lead]
    | cons token tokens => simp [Piece.Lead, ih, and_assoc]

/-- Pieces that the tokens start with fit as many tokens in front. -/
theorem Piece.Lead.forall₂ {pieces : List Piece} {tokens : List Token}
    (h : Piece.Lead pieces tokens) :
    List.Forall₂ Piece.Fits pieces (tokens.take pieces.length) := by
  induction pieces generalizing tokens with
  | nil => simp
  | cons piece pieces ih =>
    cases tokens with
    | nil => exact h.elim
    | cons token tokens => exact .cons h.1 (ih h.2)

/-- Each of these tokens fits a piece. -/
theorem Piece.Lead.exists_fits {pieces : List Piece} {tokens : List Token}
    (h : Piece.Lead pieces tokens) {token : Token} (htoken : token ∈ tokens.take pieces.length) :
    ∃ piece ∈ pieces, piece.Fits token := by
  induction pieces generalizing tokens with
  | nil => simp at htoken
  | cons piece pieces ih =>
    cases tokens with
    | nil => exact h.elim
    | cons first tokens =>
      rcases List.mem_cons.mp htoken with rfl | htoken
      · exact ⟨piece, List.mem_cons_self, h.1⟩
      · obtain ⟨other, hother, hfits⟩ := ih h.2 htoken
        exact ⟨other, List.mem_cons_of_mem _ hother, hfits⟩

/-- Each of the pieces fits one of these tokens. -/
theorem Piece.Lead.exists_getElem? {pieces : List Piece} {tokens : List Token}
    (h : Piece.Lead pieces tokens) {piece : Piece} (hpiece : piece ∈ pieces) :
    ∃ i < pieces.length, ∃ token, tokens[i]? = some token ∧ piece.Fits token := by
  induction pieces generalizing tokens with
  | nil => exact absurd hpiece List.not_mem_nil
  | cons first pieces ih =>
    cases tokens with
    | nil => exact h.elim
    | cons token tokens =>
      rcases List.mem_cons.mp hpiece with rfl | hpiece
      · exact ⟨0, Nat.succ_pos _, token, rfl, h.1⟩
      · obtain ⟨i, hi, other, hother, hfits⟩ := ih h.2 hpiece
        exact ⟨i + 1, Nat.succ_lt_succ hi, other, hother, hfits⟩

/-- There are at least as many tokens as pieces in front. -/
theorem Piece.Lead.length_le {pieces : List Piece} {tokens : List Token}
    (h : Piece.Lead pieces tokens) : pieces.length ≤ tokens.length := by
  rw [h.forall₂.length_eq]
  exact List.length_take_le' _ _

/-- Tokens that fit pieces do so whatever comes behind them. -/
theorem Piece.lead_of_forall₂ {pieces : List Piece} {tokens : List Token}
    (h : List.Forall₂ Piece.Fits pieces tokens) (rest : List Token) :
    Piece.Lead pieces (tokens ++ rest) := by
  induction h with
  | nil => trivial
  | cons hfits _ ih => exact ⟨hfits, ih⟩

/-! ## Warnings -/

/-- A binary expression with an address as an operand. -/
def Expr.isUnsafe : Expr → Bool
  | .binary _ left right _ => left.type = .address || right.type = .address
  | _ => false

/-- The operators among some nodes that an address is an operand of. -/
def Expr.unsafeOperators (nodes : List Expr) : List Token :=
  (nodes.filter (·.isUnsafe)).map (·.token)

@[simp] theorem Expr.unsafeOperators_append (nodes nodes' : List Expr) :
    unsafeOperators (nodes ++ nodes') = unsafeOperators nodes ++ unsafeOperators nodes' := by
  simp [unsafeOperators]

/-- A node has no more than its own operator. -/
theorem Expr.unsafeOperators_singleton (node : Expr) :
    unsafeOperators [node] = if node.isUnsafe then [node.token] else [] := by
  cases h : node.isUnsafe <;> simp [unsafeOperators, h]

/-- Only about its own token a node is warned about. -/
theorem Expr.eq_of_mem_unsafeOperators {node : Expr} {token : Token}
    (h : token ∈ unsafeOperators [node]) : token = node.token := by
  rw [unsafeOperators_singleton] at h
  split at h
  case isTrue => exact List.mem_singleton.mp h
  case isFalse => exact absurd h List.not_mem_nil

/-- Record the warning about addresses at some operators, one after the other. -/
def Reporter.warnAll (reporter : Reporter) (operators : List Token) : Reporter :=
  operators.foldl
    (fun reporter token => reporter.report token Grammar.unsafePointerArithmetic .warning) reporter

/-- Warnings are recorded one after the other. -/
theorem Reporter.warnAll_append (reporter : Reporter) (operators operators' : List Token) :
    reporter.warnAll (operators ++ operators') = (reporter.warnAll operators).warnAll operators' :=
  List.foldl_append

namespace Grammar

/-! ## Traces -/

/-- What a reading tells of itself. -/
@[ext]
structure Trace where
  /-- The pieces read. -/
  pieces : List Piece
  /-- The operators warned about. -/
  warnings : List Token
  /-- What happens to the scopes. -/
  settle : Scopes → Scopes

namespace Trace

/-- Readings one after the other. -/
instance : Append Trace where
  append first second :=
    ⟨first.pieces ++ second.pieces, first.warnings ++ second.warnings,
      second.settle ∘ first.settle⟩

/-- One token is read. -/
def ofPiece (piece : Piece) : Trace := ⟨[piece], [], id⟩

/-- A left brace is read that opens a scope. -/
def opened (kind : ScopeKind) : Trace :=
  ⟨[.mark .leftBrace Kind.isMark_leftBrace], [], Scopes.opened kind⟩

/-- A right brace is read that closes the current scope. -/
def closed : Trace := ⟨[.mark .rightBrace Kind.isMark_rightBrace], [], Scopes.closed⟩

/-- Nothing is read. -/
def settled (settle : Scopes → Scopes) : Trace := ⟨[], [], settle⟩

/-- Operators are warned about after the others. -/
def warned (trace : Trace) (operators : List Token) : Trace :=
  { trace with warnings := trace.warnings ++ operators }

/-- The token is one of those that a tree keeps of a reading. -/
def Keeps (trace : Trace) (token : Token) : Prop :=
  ∃ piece ∈ trace.pieces, piece.kept = some token

@[simp] theorem pieces_append (first second : Trace) :
    (first ++ second).pieces = first.pieces ++ second.pieces := rfl

@[simp] theorem warnings_append (first second : Trace) :
    (first ++ second).warnings = first.warnings ++ second.warnings := rfl

@[simp] theorem settle_append (first second : Trace) (scopes : Scopes) :
    (first ++ second).settle scopes = second.settle (first.settle scopes) := rfl

/-- What is kept of the second trace is kept of both. -/
theorem Keeps.append_left {trace : Trace} {token : Token} (h : trace.Keeps token)
    (first : Trace) : (first ++ trace).Keeps token :=
  have ⟨piece, hpiece, hkept⟩ := h
  ⟨piece, List.mem_append_right _ hpiece, hkept⟩

/-- What is kept of the first trace is kept of both. -/
theorem Keeps.append_right {trace : Trace} {token : Token} (h : trace.Keeps token)
    (second : Trace) : (trace ++ second).Keeps token :=
  have ⟨piece, hpiece, hkept⟩ := h
  ⟨piece, List.mem_append_left _ hpiece, hkept⟩

theorem append_assoc (first second third : Trace) :
    first ++ second ++ third = first ++ (second ++ third) :=
  Trace.ext (List.append_assoc ..) (List.append_assoc ..) rfl

theorem append_settled (trace : Trace) : trace ++ settled id = trace :=
  Trace.ext (List.append_nil _) (List.append_nil _) rfl

end Trace

/-- The state after a reading of the trace. -/
def State.after (s : State) (trace : Trace) : State :=
  { s with
    rest := s.rest.drop trace.pieces.length
    position := s.position + trace.pieces.length
    scopes := trace.settle s.scopes
    reporter := s.reporter.warnAll trace.warnings }

/-- After two readings a state is where the second leads from the first. -/
theorem State.after_append (s : State) (first second : Trace) :
    s.after (first ++ second) = (s.after first).after second := by
  simp [State.after, Nat.add_assoc, Reporter.warnAll_append]

/-- A reading leaves no more tokens. -/
theorem State.length_after_le (s : State) (trace : Trace) :
    (s.after trace).rest.length ≤ s.rest.length := by
  rw [State.after, List.length_drop]
  exact Nat.sub_le _ _

/-- A warning changes nothing but the reports. -/
theorem State.after_warned (s : State) (trace : Trace) (operators : List Token) :
    s.after (trace.warned operators) =
      { s.after trace with reporter := (s.after trace).reporter.warnAll operators } := by
  simp [State.after, Trace.warned, Reporter.warnAll_append]

/-- A reading of a trace has taken the state to another: the tokens fit the pieces, no token has
been read that the language does not know, and the tokens warned about are binary operators that
have been read. -/
structure Reads (s : State) (trace : Trace) (s' : State) : Prop where
  lead : Piece.Lead trace.pieces s.rest
  state_eq : s' = s.after trace
  known : ∀ piece ∈ trace.pieces, piece.kind ≠ .unrecognized
  operators : ∀ token ∈ trace.warnings, Level.ofKind? token.kind ≠ none
  kept : ∀ token ∈ trace.warnings, trace.Keeps token

namespace Reads

variable {s s₁ s' : State} {first second trace : Trace}

/-- Readings one after the other are one reading. -/
theorem append (h : Reads s first s₁) (h' : Reads s₁ second s') : Reads s (first ++ second) s' where
  lead := by
    have hlead := h'.lead
    rw [h.state_eq] at hlead
    exact Piece.lead_append.mpr ⟨h.lead, hlead⟩
  state_eq := by rw [State.after_append, ← h.state_eq, ← h'.state_eq]
  known piece hpiece := (List.mem_append.mp hpiece).elim (h.known piece) (h'.known piece)
  operators token htoken :=
    (List.mem_append.mp htoken).elim (h.operators token) (h'.operators token)
  kept token htoken :=
    (List.mem_append.mp htoken).elim
      (fun htoken => (h.kept token htoken).append_right second)
      (fun htoken => (h'.kept token htoken).append_left first)

/-- The scopes after a reading are told by its trace. -/
theorem scopes_eq (h : Reads s trace s') : s'.scopes = trace.settle s.scopes := by
  rw [h.state_eq]
  rfl

/-- A token that is kept of a reading is of the kind that its place calls for. -/
theorem kind_of_kept (h : Reads s trace s') {piece : Piece} (hpiece : piece ∈ trace.pieces)
    {token : Token} (hkept : piece.kept = some token) : token.kind = piece.kind := by
  obtain ⟨_, _, other, _, hfits⟩ := h.lead.exists_getElem? hpiece
  exact hfits.kept token hkept ▸ hfits.kind

/-- To change the scopes reads nothing. -/
theorem settled (settle : Scopes → Scopes) :
    Reads s (.settled settle) { s with scopes := settle s.scopes } where
  lead := trivial
  state_eq := rfl
  known _ h := absurd h List.not_mem_nil
  operators _ h := absurd h List.not_mem_nil
  kept _ h := absurd h List.not_mem_nil

/-- Warnings about operators that have been read come after the others. -/
theorem warned (h : Reads s trace s') {operators : List Token}
    (hoperators : ∀ token ∈ operators, Level.ofKind? token.kind ≠ none)
    (hkept : ∀ token ∈ operators, trace.Keeps token) :
    Reads s (trace.warned operators) { s' with reporter := s'.reporter.warnAll operators } where
  lead := h.lead
  state_eq := by rw [State.after_warned, h.state_eq]
  known := h.known
  operators token htoken :=
    (List.mem_append.mp htoken).elim (h.operators token) (hoperators token)
  kept token htoken := (List.mem_append.mp htoken).elim (h.kept token) (hkept token)

end Reads

end Grammar

end Tranquility
