import Tranquility.Proofs.Accepting.Step
import Tranquility.Proofs.Grammar.Escape
import Tranquility.Proofs.Tree.Shape

/-!
# Accepting expressions

Where the tokens left start with a legal expression, the rules of expressions read it, provided that
what follows does not go on with it: no parenthesis opens, since that would make a call of a name,
and no operator binds so tightly that the rule would take it in. Each rule has one law, from the
same law for the rules it is made of; nesting is one induction over the depth.
-/

namespace Tranquility

open Grammar

/-- The parts of a legal binary expression: its operator stands on a level, which the left operand
binds at least as tightly as, and the right one more tightly. -/
theorem Expr.Legal.binary {visible : Visible} {operator : Token} {left right : Expr} {type : Ty}
    (h : (Expr.binary operator left right type).Legal visible) : ∃ level,
      Level.ofKind? operator.kind = some level ∧ level.result = type ∧
        Ty.operandsMatch left.type right.type = true ∧
        (Expr.binary operator left right type).rank = level.rank ∧
        (left.Legal visible ∧ level.rank ≤ left.rank) ∧
        right.Legal visible ∧ level.rank < right.rank := by
  obtain ⟨hparts, hself⟩ := List.forall_mem_append.mp h
  obtain ⟨hleft, hright⟩ := List.forall_mem_append.mp hparts
  obtain ⟨⟨htype, hmatch⟩, ⟨level, hlevel, hle, hlt⟩, _, _⟩ := hself _ List.mem_cons_self
  rw [hlevel] at htype
  refine ⟨level, hlevel, Option.some.inj htype, hmatch, ?_, ⟨hleft, hle⟩, hright, hlt⟩
  simp [rank, hlevel]

/-- A binary expression is no operand. -/
theorem Expr.Legal.rank_lt_of_binary {visible : Visible} {operator : Token} {left right : Expr}
    {type : Ty} (h : (Expr.binary operator left right type).Legal visible) :
    (Expr.binary operator left right type).rank < operandRank := by
  obtain ⟨level, _, _, _, hrank, _⟩ := h.binary
  rw [hrank]
  exact level.rank_lt

/-- An expression starts with a token that an operand may start with. -/
theorem Expr.exists_head {visible : Visible} {expr : Expr} (h : expr.Legal visible) :
    ∃ piece pieces, expr.pieces = piece :: pieces ∧ piece.kind.startsOperand = true := by
  obtain ⟨piece, pieces, hpieces, hkind⟩ := expr.exists_piece
  exact ⟨piece, pieces, hpieces, hkind ▸ h.shaped.start⟩

namespace Grammar

variable {s : State}

/-- Where an expression starts, no other token comes next than one that an operand may start with.
-/
theorem Leads.not_sees_of_legal {expr : Expr} (h : Leads s expr.trace) {visible : Visible}
    (hlegal : expr.Legal visible) {kind : Kind} (hkind : kind.startsOperand = false) :
    ¬ s.sees kind = true := by
  obtain ⟨piece, pieces, hpieces, hstart⟩ := Expr.exists_head hlegal
  apply h.not_sees hpieces
  rintro rfl
  rw [hstart] at hkind
  cases hkind

/-- What comes next does not go on with an expression that binds at least as tightly as a rank. -/
structure Follows (rank : Nat) (s : State) : Prop where
  not_leftParen : s.current.kind ≠ .leftParen
  rank_lt : ∀ level, Level.ofKind? s.current.kind = some level → level.rank < rank

/-- A rule reads every legal expression that binds at least as tightly as a rank, in states with
fewer tokens left than a bound. -/
def AcceptsExpr (bound rank : Nat) (rule : Rule Expr) : Prop :=
  ∀ s expr, s.rest.length < bound → rank ≤ expr.rank → Leads s expr.trace →
    expr.Legal s.scopes.seen → Follows rank (s.after expr.trace) → Accepts rule s expr expr.trace

theorem Follows.mono {rank rank' : Nat} (h : Follows rank s) (hle : rank ≤ rank') :
    Follows rank' s :=
  ⟨h.not_leftParen, fun level hlevel => Nat.lt_of_lt_of_le (h.rank_lt level hlevel) hle⟩

/-- A token that is neither a parenthesis nor an operator follows any expression. -/
theorem follows_of_sees {kind : Kind} (h : s.sees kind = true) (hparen : kind ≠ .leftParen)
    (hlevel : Level.ofKind? kind = none) (rank : Nat) : Follows rank s := by
  have hkind : s.current.kind = kind := of_decide_eq_true h
  refine ⟨hkind ▸ hparen, fun level hsome => ?_⟩
  rw [hkind, hlevel] at hsome
  cases hsome

/-- The token after the current one comes next after the current one has been read. -/
theorem seesNext_eq (piece : Piece) (kind : Kind) :
    s.seesNext kind = (s.after (.ofPiece piece)).sees kind := by
  rw [State.seesNext, State.next, ← List.drop_one]
  rfl

/-! ## Operands -/

/-- A literal is read where it is legal: its text, if it is a string, has only escapes of the
language. -/
theorem literal_accepts {token : Token} {type : Ty} (h : Leads s (Expr.literal token type).trace)
    (hlegal : (Expr.literal token type).Legal s.scopes.seen) :
    Accepts literal s (.literal token type) (Expr.literal token type).trace := by
  have hsound := hlegal _ List.mem_cons_self
  have htyped : literalType? token.kind = some type := hsound.typed
  have hcurrent : s.current = token := (h.fits rfl).kept token rfl
  have hplain : token.kind.isPlain = true := isPlain_of_literalType? htyped
  have hcheck : Accepts (checkText token) (s.after (.ofPiece (.keep token.kind token))) ()
      (.settled id) := by
    unfold checkText
    by_cases hstring : token.kind = .string
    · have hnone := escapeFault?_eq_none_iff.mpr (hsound.escaped hstring)
      rw [if_pos hstring, checkEscapes, hnone]
      rfl
    · rw [if_neg hstring]
      rfl
  rw [Accepts, literal, run_observe_bind, hcurrent, htyped]
  refine run_bind_ok.mpr ⟨token, _, accepts_take hplain h, ?_⟩
  exact hcheck.bind_pure fun _ => Expr.literal token type

/-- The name of a variable that is visible is read. -/
theorem reference_accepts {token : Token} (h : Leads s (Expr.reference token).trace)
    (hlegal : (Expr.reference token).Legal s.scopes.seen) :
    Accepts reference s (.reference token) (Expr.reference token).trace := by
  have hvariable : s.scopes.seen.hasVariable token.text = true :=
    (hlegal _ List.mem_cons_self).named
  refine run_bind_ok.mpr ⟨token, _, accepts_expect rfl h, ?_⟩
  rw [run_observe_bind]
  exact run_bind_ok.mpr ⟨(), _, run_require_ok.mpr ⟨hvariable, rfl⟩, rfl⟩

section

variable {operand : Rule Expr} {bound : Nat}

/-- An operator in front is read with its operand, and nothing that follows belongs to the operand.
-/
theorem prefixed_accepts {kind : Kind} {node : Token → Expr → Expr} (hnode : PrefixNode kind node)
    (hop : AcceptsExpr bound operandRank operand) {token : Token} {content : Expr}
    (hbound : s.rest.length < bound + 1) (h : Leads s (node token content).trace)
    (hlegal : (node token content).Legal s.scopes.seen)
    (hfollow : Follows operandRank (s.after (node token content).trace)) :
    Accepts (prefixed kind node operand) s (node token content) (node token content).trace := by
  rw [Expr.Legal, hnode.nodes] at hlegal
  obtain ⟨hcontent, hself⟩ := List.forall_mem_append.mp hlegal
  have hrank := (hnode.sound _ _ _).mp (hself _ List.mem_cons_self)
  rw [hnode.trace] at h hfollow ⊢
  obtain ⟨htoken, hleads⟩ := leads_append.mp h
  rw [State.after_append] at hfollow
  have hlt := htoken.length_lt (by simp [Trace.ofPiece])
  have hoperand := hop _ content (by omega) (Nat.le_of_eq hrank.symm) hleads hcontent hfollow
  exact (accepts_expect hnode.isPlain htoken).bind (hoperand.bind_pure (node token))

/-- A pair of parentheses with nothing in between is read as a unit. -/
theorem parenthesised_accepts_unit {token : Token} (h : Leads s (Expr.unit token).trace) :
    Accepts (parenthesised operand) s (.unit token) (Expr.unit token).trace := by
  have htrace : (Expr.unit token).trace =
      .ofPiece (.keep .leftParen token) ++ .ofPiece (.mark .rightParen) := rfl
  rw [htrace] at h ⊢
  obtain ⟨htoken, hclose⟩ := leads_append.mp h
  have hsees : (s.after (.ofPiece (.keep .leftParen token))).sees .rightParen = true :=
    hclose.sees rfl rfl
  refine (accepts_expect rfl htoken).bind ?_
  rw [Accepts, run_observe_bind, if_pos hsees]
  exact (accepts_skip rfl rfl hclose).bind_pure fun _ => Expr.unit token

/-- What stands in parentheses is read up to the right one, whatever its operators are. -/
theorem parenthesised_accepts_group (hop : AcceptsExpr bound operandRank operand) {token : Token}
    {content : Expr} {type : Ty} (hbound : s.rest.length < bound + 1)
    (h : Leads s (Expr.group token content type).trace)
    (hlegal : (Expr.group token content type).Legal s.scopes.seen) :
    Accepts (parenthesised operand) s (.group token content type)
      (Expr.group token content type).trace := by
  obtain ⟨hcontent, hself⟩ := List.forall_mem_append.mp hlegal
  obtain ⟨htyped, hcanonical, _, _⟩ := hself _ List.mem_cons_self
  rw [Expr.trace_group] at h ⊢
  obtain ⟨htoken, hleads⟩ := leads_append.mp h
  obtain ⟨hleads, hclose⟩ := leads_append.mp hleads
  have hlt := htoken.length_lt (by simp [Trace.ofPiece])
  have hfollow :=
    follows_of_sees (hclose.sees rfl rfl) (by decide : Kind.rightParen ≠ _) rfl operandRank
  have hoperand := hop _ content (by omega) (Nat.le_of_eq hcanonical.symm) hleads hcontent hfollow
  refine (accepts_expect rfl htoken).bind ?_
  rw [Accepts, run_observe_bind, if_neg (hleads.not_sees_of_legal hcontent rfl)]
  obtain rfl : type = content.type := htyped
  exact hoperand.bind ((accepts_skip rfl rfl hclose).bind_pure fun _ =>
    Expr.group token content content.type)

/-- The arguments of a call are read up to the closing parenthesis. -/
theorem arguments_accepts {argument : Rule Expr} (hop : AcceptsExpr bound 0 argument)
    {arguments : List Expr} (hbound : s.rest.length < bound)
    (h : Leads s (.separated (arguments.map Expr.trace)))
    (hlegal : ∀ expr ∈ arguments, expr.Legal s.scopes.seen)
    (hclose : (s.after (.separated (arguments.map Expr.trace))).sees .rightParen = true) :
    Accepts (unlessAt .rightParen (commaSeparated argument)) s arguments
      (.separated (arguments.map Expr.trace)) := by
  rw [Accepts, unlessAt, run_observe_bind]
  cases arguments with
  | nil =>
    have hempty : s.sees .rightParen = true := hclose
    rw [if_pos hempty]
    rfl
  | cons first arguments =>
    have hfirst : Leads s first.trace := by
      rw [List.map_cons, Trace.separated_cons rfl] at h
      exact (leads_append.mp h).1
    rw [if_neg (hfirst.not_sees_of_legal (hlegal first List.mem_cons_self) rfl)]
    refine accepts_commaSeparated Expr.trace (Follows 0) (fun _ => rfl) ?_ (List.cons_ne_nil _ _)
      ?_ h (follows_of_sees hclose (by decide) rfl 0) ?_
    · exact fun s hcomma => follows_of_sees hcomma (by decide) rfl 0
    · intro expr hexpr s₁ hscopes hlength hleads hfollow
      exact hop s₁ expr (by omega) (Nat.zero_le _) hleads (hscopes ▸ hlegal expr hexpr) hfollow
    · rw [State.sees, decide_eq_true_eq] at hclose
      rw [State.sees, hclose]
      rfl

/-- A call is read with its arguments, since the function is visible and takes as many. -/
theorem call_accepts {argument : Rule Expr} (hop : AcceptsExpr bound 0 argument) {name : Token}
    {arguments : List Expr} (hbound : s.rest.length < bound + 1)
    (h : Leads s (Expr.call name arguments).trace)
    (hlegal : (Expr.call name arguments).Legal s.scopes.seen) :
    Accepts (call argument) s (.call name arguments) (Expr.call name arguments).trace := by
  obtain ⟨harguments, hself⟩ := List.forall_mem_append.mp hlegal
  have hnamed : s.scopes.seen.arity? name.text = some ↑arguments.length :=
    (hself _ List.mem_cons_self).named
  obtain ⟨function, hfunction, harity⟩ := Option.map_eq_some_iff.mp hnamed
  rw [Expr.trace_call] at h ⊢
  obtain ⟨hname, h⟩ := leads_append.mp h
  obtain ⟨hopen, h⟩ := leads_append.mp h
  obtain ⟨hleads, hclose⟩ := leads_append.mp h
  have hlt := hname.length_lt (by simp [Trace.ofPiece])
  have hlt' := hopen.length_lt (by simp [Trace.ofPiece])
  have hall : ∀ expr ∈ arguments, expr.Legal s.scopes.seen := fun expr hexpr node hnode =>
    harguments node (Expr.mem_nodesOfAll.mpr ⟨expr, hexpr, hnode⟩)
  have hread := arguments_accepts hop (by omega) hleads hall (hclose.sees rfl rfl)
  have hsame : (s.after (.ofPiece (.keep .identifier name))).findFunction? name.text =
      some function := hfunction
  refine (accepts_expect rfl hname).bind ?_
  rw [Accepts, run_observe_bind, hsame]
  refine (accepts_skip rfl rfl hopen).bind (hread.bind ?_)
  refine run_bind_ok.mpr ⟨(), _, run_require_ok.mpr ⟨?_, rfl⟩, ?_⟩
  · rw [harity]
    exact beq_self_eq_true _
  · exact (accepts_skip rfl rfl hclose).bind_pure fun _ => Expr.call name arguments

/-- The law of operands, for a rule that reads the operands inside them. -/
theorem operandOver_accepts (hop : AcceptsExpr bound operandRank operand)
    (hargument : AcceptsExpr bound 0 (climb operand Level.all)) :
    AcceptsExpr (bound + 1) operandRank (operandOver operand) := by
  intro s expr hbound hrank h hlegal hfollow
  rw [Accepts, operandOver, run_observe_bind]
  cases expr with
  | literal token type =>
    have hkind : s.current.kind = token.kind := (h.fits rfl).kind
    have htyped : literalType? token.kind = some type := (hlegal _ List.mem_cons_self).typed
    have haccepts := literal_accepts h hlegal
    rw [hkind]
    cases htoken : token.kind <;> simp_all [literalType?, Accepts]
  | reference token =>
    have hkind : s.current.kind = .identifier := (h.fits rfl).kind
    -- With a parenthesis behind it the name would be that of a call.
    have hnext : ¬ s.seesNext .leftParen = true := by
      rw [seesNext_eq (.keep .identifier token), State.sees, decide_eq_true_eq]
      exact hfollow.not_leftParen
    rw [hkind]
    simp only
    rw [run_observe_bind, if_neg hnext]
    exact reference_accepts h hlegal
  | call name arguments =>
    have hkind : s.current.kind = .identifier := (h.fits rfl).kind
    have hnext : s.seesNext .leftParen = true := by
      rw [Expr.trace_call] at h
      rw [seesNext_eq (.keep .identifier name)]
      exact (leads_append.mp h).2.sees rfl rfl
    rw [hkind]
    simp only
    rw [run_observe_bind, if_pos hnext]
    exact call_accepts hargument hbound h hlegal
  | unit token =>
    have hkind : s.current.kind = .leftParen := (h.fits rfl).kind
    rw [hkind]
    exact parenthesised_accepts_unit h
  | group token content type =>
    have hkind : s.current.kind = .leftParen := (h.fits rfl).kind
    rw [hkind]
    exact parenthesised_accepts_group hop hbound h hlegal
  | dereference token content =>
    have hkind : s.current.kind = .dot := (h.fits rfl).kind
    rw [hkind]
    exact prefixed_accepts prefixNode_dereference hop hbound h hlegal hfollow
  | negation token content =>
    have hkind : s.current.kind = .minus := (h.fits rfl).kind
    rw [hkind]
    exact prefixed_accepts prefixNode_negation hop hbound h hlegal hfollow
  | complement token content =>
    have hkind : s.current.kind = .bitwiseNot := (h.fits rfl).kind
    rw [hkind]
    exact prefixed_accepts prefixNode_complement hop hbound h hlegal hfollow
  | binary operator left right type =>
    exact absurd hrank (Nat.not_le_of_lt (hlegal.rank_lt_of_binary))

/-! ## Binary operators -/

/-- A round combines what is in front of it with the operand behind its operator if their types go
together. -/
theorem run_chainRound (level : Level) {operator : Token} {left right : Expr} {s₁ s₂ : State}
    (htake : take.run s = .ok operator s₁) (hright : operand.run s₁ = .ok right s₂)
    (h : Ty.operandsMatch left.type right.type = true) :
    let node := Expr.binary operator left right level.result
    (chainRound level operand left).run s =
      .ok node { s₂ with reporter := s₂.reporter.warnAll (Expr.unsafeOperators [node]) } :=
  run_bind_ok.mpr ⟨operator, s₁, htake, run_bind_ok.mpr ⟨right, s₂, hright,
    run_combine_ok.mpr ⟨h, rfl, rfl⟩⟩⟩

/-- An operator is a token that can be read. -/
theorem isPlain_of_ofKind? {kind : Kind} {level : Level} (h : Level.ofKind? kind = some level) :
    kind.isPlain = true := by
  cases kind <;> simp_all [Level.ofKind?, Kind.isPlain, Kind.isKnown]

/-- An operator of a level follows an operand of the level. -/
theorem follows_of_ofKind? {level : Level} (h : Level.ofKind? s.current.kind = some level) :
    Follows (level.rank + 1) s :=
  have ⟨hparen, hrank⟩ := Level.not_tighter_of_ofKind? h
  ⟨hparen, hrank⟩

/-- The rounds of a chain lead from its first operand to any expression on the level: the first
operand stands at the left end of the tree, and each round goes up to the node above. -/
theorem chain_loops {level : Level} (hop : AcceptsExpr bound (level.rank + 1) operand) :
    ∀ (expr : Expr) {s : State}, s.rest.length < bound → level.rank ≤ expr.rank →
      Leads s expr.trace → expr.Legal s.scopes.seen →
      Follows (level.rank + 1) (s.after expr.trace) →
      ∃ first s₁, operand.run s = .ok first s₁ ∧ ∀ last s',
        Loops (·.seesOperator level) (chainRound level operand) expr (s.after expr.trace) last s' →
          Loops (·.seesOperator level) (chainRound level operand) first s₁ last s' := by
  intro expr
  match expr with
  | .binary operator left right type =>
    intro s hbound hrank h hlegal hfollow
    by_cases htight : level.rank < (Expr.binary operator left right type).rank
    · exact ⟨_, _, hop s _ hbound htight h hlegal hfollow, fun _ _ hloops => hloops⟩
    · obtain ⟨level', hlevel, rfl, hmatch, hrank', ⟨hleft, hle⟩, hright, hlt⟩ := hlegal.binary
      obtain rfl : level = level' := Level.rank_injective (by omega)
      rw [Expr.trace_binary] at h hfollow ⊢
      obtain ⟨hleads, hrest⟩ := leads_append.mp h
      obtain ⟨hoperator, hleads'⟩ := leads_append.mp hrest
      rw [State.after_warned] at hfollow ⊢
      rw [State.after_append, State.after_append] at hfollow ⊢
      have hcurrent : Level.ofKind? (s.after left.trace).current.kind = some level := by
        rw [(hrest.fits rfl).kind]
        exact hlevel
      obtain ⟨first, s₁, hfirst, hfrom⟩ := chain_loops hop left hbound hle hleads hleft
        (follows_of_ofKind? hcurrent)
      have hsees : (s.after left.trace).seesOperator level = true :=
        List.contains_iff_mem.mpr (Level.mem_operators_iff.mpr hcurrent)
      have htake := accepts_take (isPlain_of_ofKind? hlevel) hoperator
      have hshorter := hoperator.length_lt (by simp [Trace.ofPiece])
      have hbound' := s.length_after_le left.trace
      have hoperand := hop _ right (by omega) hlt hleads' hright
        ⟨hfollow.not_leftParen, hfollow.rank_lt⟩
      have hround := run_chainRound level htake hoperand hmatch
      have hlt := hrest.length_lt (by simp [Trace.ofPiece])
      rw [State.after_append] at hlt
      exact ⟨first, s₁, hfirst, fun last s' hloops =>
        hfrom last s' (.round hsees hround hlt hloops)⟩
  | .literal _ _ | .reference _ | .call _ _ | .unit _ | .group _ _ _ | .dereference _ _
  | .negation _ _ | .complement _ _ =>
    intro s hbound _ h hlegal hfollow
    refine ⟨_, _, hop s _ hbound ?_ h hlegal hfollow, fun _ _ hloops => hloops⟩
    exact level.rank_lt

/-- Operands of a level are read one after the other, each with the operator in front of it. -/
theorem chain_accepts {level : Level} (hop : AcceptsExpr bound (level.rank + 1) operand) :
    AcceptsExpr bound level.rank (chain level operand) := by
  intro s expr hbound hrank h hlegal hfollow
  obtain ⟨first, s₁, hfirst, hfrom⟩ := chain_loops hop expr hbound hrank h hlegal
    (hfollow.mono (Nat.le_succ _))
  have hdone : (s.after expr.trace).seesOperator level = false := by
    rw [← Bool.not_eq_true]
    intro hsees
    have hlevel := Level.mem_operators_iff.mp (List.contains_iff_mem.mp hsees)
    exact Nat.lt_irrefl _ (hfollow.rank_lt level hlevel)
  exact run_bind_ok.mpr ⟨first, s₁, hfirst, run_whilst_of_loops (hfrom _ _ (.done hdone))⟩

/-- All six levels, one over the other. -/
theorem climb_accepts (hop : AcceptsExpr bound operandRank operand) (level : Level) :
    AcceptsExpr bound level.rank (climb operand level.andTighter) := by
  have hmultiplicative : AcceptsExpr bound Level.multiplicative.rank _ := chain_accepts hop
  have hadditive : AcceptsExpr bound Level.additive.rank _ := chain_accepts hmultiplicative
  have hshift : AcceptsExpr bound Level.shift.rank _ := chain_accepts hadditive
  have hcomparison : AcceptsExpr bound Level.comparison.rank _ := chain_accepts hshift
  have hbitwise : AcceptsExpr bound Level.bitwiseComparison.rank _ := chain_accepts hcomparison
  cases level with
  | xor => exact chain_accepts hbitwise
  | bitwiseComparison => exact hbitwise
  | comparison => exact hcomparison
  | shift => exact hshift
  | additive => exact hadditive
  | multiplicative => exact hmultiplicative

end

/-! ## Expressions -/

/-- Operands that are nested no deeper than a bound are read within it. -/
theorem operandWithin_accepts (depth : Nat) :
    AcceptsExpr depth operandRank (operandWithin depth) := by
  induction depth with
  | zero => exact fun s expr hbound => absurd hbound (Nat.not_lt_zero _)
  | succ depth ih => exact operandOver_accepts ih (climb_accepts ih .xor)

/-- Every legal operand is read, however deep others are nested in it. -/
theorem operand_accepts (bound : Nat) : AcceptsExpr bound operandRank operand := by
  intro s expr _ hrank h hlegal hfollow
  rw [Accepts, operand, run_observe_bind]
  exact operandWithin_accepts _ s expr (Nat.lt_succ_self _) hrank h hlegal hfollow

/-- A legal expression is read if what follows does not go on with it. -/
theorem expression_accepts {expr : Expr} (h : Leads s expr.trace)
    (hlegal : expr.Legal s.scopes.seen) (hfollow : Follows 0 (s.after expr.trace)) :
    Accepts expression s expr expr.trace :=
  climb_accepts (operand_accepts (s.rest.length + 1)) .xor s expr (Nat.lt_succ_self _)
    (Nat.zero_le _) h hlegal hfollow

end Grammar

end Tranquility
