import Tranquility.Proofs.Grammar.Escape
import Tranquility.Proofs.Grammar.Step

/-!
# Reading expressions

An expression that a rule yields is legal, binds as tightly as the rule asks for, and written out it
gives the tokens that have been read. Each rule of the grammar has one law, from the same law for
the rules it is made of; nesting is then one induction over the depth.
-/

namespace Tranquility.Grammar

variable {s s' : State}

/-- A rule has read an expression: the trace of the expression has been read, every node keeps the
rules of the language, and the expression binds at least as tightly as a rank. -/
structure ReadsExpr (rank : Nat) (s : State) (expr : Expr) (s' : State) : Prop where
  reads : Reads s expr.trace s'
  legal : expr.Legal s.scopes.seen
  rank_le : rank ≤ expr.rank

/-- Whatever the rule yields it has read, and it binds at least as tightly as a rank. -/
def Yields (rank : Nat) (rule : Rule Expr) : Prop :=
  ∀ s expr s', rule.run s = .ok expr s' → ReadsExpr rank s expr s'

/-- Reading an expression leaves the scopes alone. -/
theorem ReadsExpr.scopes_eq {rank : Nat} {expr : Expr} (h : ReadsExpr rank s expr s') :
    s'.scopes = s.scopes :=
  h.reads.scopes_eq

/-! ## Operands -/

/-- A literal that is yielded has been read, and its escapes are those of the language. -/
theorem literal_yields : Yields operandRank literal := by
  intro s expr s' h
  rw [literal, run_observe_bind] at h
  split at h
  case h_1 => exact absurd h run_reject_ok
  case h_2 type htype =>
    obtain ⟨token, s₁, htake, h⟩ := run_bind_ok.mp h
    obtain ⟨_, s₂, hcheck, h⟩ := run_bind_ok.mp h
    obtain ⟨rfl, rfl⟩ := run_pure_ok.mp h
    obtain ⟨rfl, hreads⟩ := reads_take htake (isPlain_of_literalType? htype)
    have htext : s₁ = s₂ ∧ (s.current.kind = .string → WellEscaped (inner s.current)) := by
      unfold checkText at hcheck
      split at hcheck
      case isTrue =>
        unfold checkEscapes at hcheck
        split at hcheck
        case h_1 hnone =>
          exact ⟨(run_pure_ok.mp hcheck).2, fun _ => escapeFault?_eq_none_iff.mp hnone⟩
        case h_2 => exact absurd hcheck run_reject_ok
        case h_3 => cases hcheck
      case isFalse hstring => exact ⟨(run_pure_ok.mp hcheck).2, fun hk => absurd hk hstring⟩
    obtain ⟨rfl, hescaped⟩ := htext
    refine ⟨hreads, ?_, Nat.le_refl _⟩
    intro node hnode
    rw [List.mem_singleton.mp hnode]
    exact ⟨htype, trivial, hescaped, trivial⟩

/-- A name that is yielded has been read, and it is visible. -/
theorem reference_yields : Yields operandRank reference := by
  intro s expr s' h
  obtain ⟨token, s₁, htoken, h⟩ := run_bind_ok.mp h
  rw [run_observe_bind] at h
  obtain ⟨_, s₂, hrequire, h⟩ := run_bind_ok.mp h
  obtain ⟨hvariable, rfl⟩ := run_require_ok.mp hrequire
  obtain ⟨rfl, rfl⟩ := run_pure_ok.mp h
  have hreads := reads_expect rfl htoken
  refine ⟨hreads, ?_, Nat.le_refl _⟩
  intro node hnode
  rw [List.mem_singleton.mp hnode]
  refine ⟨trivial, trivial, trivial, ?_⟩
  rw [State.hasVariable, hreads.scopes_eq] at hvariable
  exact hvariable

section

variable {operand : Rule Expr}

/-- An operator in front has been read with its operand, which is not binary. -/
theorem prefixed_yields {kind : Kind} {node : Token → Expr → Expr} (hnode : PrefixNode kind node)
    (hop : Yields operandRank operand) : Yields operandRank (prefixed kind node operand) := by
  intro s expr s' h
  obtain ⟨token, s₁, htoken, h⟩ := run_bind_ok.mp h
  obtain ⟨content, s₂, hcontent, h⟩ := run_bind_ok.mp h
  obtain ⟨rfl, rfl⟩ := run_pure_ok.mp h
  have htoken := reads_expect hnode.isPlain htoken
  have hcontent := hop _ _ _ hcontent
  refine ⟨?_, ?_, Nat.le_of_eq (hnode.rank token content).symm⟩
  · rw [hnode.trace]
    exact htoken.append hcontent.reads
  · rw [Expr.Legal, hnode.nodes]
    have hlegal := hcontent.legal
    rw [htoken.scopes_eq] at hlegal
    refine List.forall_mem_append.mpr ⟨hlegal, List.forall_mem_singleton.mpr ?_⟩
    exact (hnode.sound _ _ _).mpr (Nat.le_antisymm content.rank_le hcontent.rank_le)

/-- Parentheses have been read with what stands in them. -/
theorem parenthesised_yields (hop : Yields operandRank operand) :
    Yields operandRank (parenthesised operand) := by
  intro s expr s' h
  obtain ⟨token, s₁, htoken, h⟩ := run_bind_ok.mp h
  have htoken := reads_expect rfl htoken
  rw [run_observe_bind] at h
  split at h
  case isTrue =>
    obtain ⟨_, s₂, hclose, h⟩ := run_bind_ok.mp h
    obtain ⟨rfl, rfl⟩ := run_pure_ok.mp h
    refine ⟨htoken.append (reads_skip rfl rfl hclose), ?_, Nat.le_refl _⟩
    exact List.forall_mem_singleton.mpr ⟨trivial, trivial, trivial, trivial⟩
  case isFalse =>
    obtain ⟨content, s₂, hcontent, h⟩ := run_bind_ok.mp h
    obtain ⟨_, s₃, hclose, h⟩ := run_bind_ok.mp h
    obtain ⟨rfl, rfl⟩ := run_pure_ok.mp h
    have hcontent := hop _ _ _ hcontent
    have hlegal := hcontent.legal
    rw [htoken.scopes_eq] at hlegal
    have hrank := Nat.le_antisymm content.rank_le hcontent.rank_le
    refine ⟨?_, ?_, Nat.le_refl _⟩
    · rw [Expr.trace_group]
      exact htoken.append (hcontent.reads.append (reads_skip rfl rfl hclose))
    · exact List.forall_mem_append.mpr
        ⟨hlegal, List.forall_mem_singleton.mpr ⟨rfl, hrank, trivial, trivial⟩⟩

/-- A call has been read with as many arguments as its function takes. -/
theorem call_yields {argument : Rule Expr} (hargument : Yields 0 argument) :
    Yields operandRank (call argument) := by
  intro s expr s' h
  obtain ⟨name, s₁, hname, h⟩ := run_bind_ok.mp h
  have hname := reads_expect rfl hname
  rw [run_observe_bind] at h
  split at h
  case h_1 => exact absurd h run_reject_ok
  case h_2 function hfunction =>
    obtain ⟨_, s₂, hopen, h⟩ := run_bind_ok.mp h
    obtain ⟨arguments, s₃, harguments, h⟩ := run_bind_ok.mp h
    obtain ⟨_, s₄, hrequire, h⟩ := run_bind_ok.mp h
    obtain ⟨hcount, rfl⟩ := run_require_ok.mp hrequire
    obtain ⟨_, s₅, hclose, h⟩ := run_bind_ok.mp h
    obtain ⟨rfl, rfl⟩ := run_pure_ok.mp h
    have hopen := reads_skip rfl rfl hopen
    obtain ⟨hread, hlegal⟩ := reads_unlessAt Expr.trace (fun scopes expr => expr.Legal scopes.seen)
      (fun _ _ _ h => ⟨(hargument _ _ _ h).reads, (hargument _ _ _ h).legal⟩) (fun _ => rfl)
      harguments
    refine ⟨?_, ?_, Nat.le_refl _⟩
    · rw [Expr.trace_call]
      exact hname.append (hopen.append (hread.append (reads_skip rfl rfl hclose)))
    · refine List.forall_mem_append.mpr ⟨fun node hnode => ?_, List.forall_mem_singleton.mpr ?_⟩
      · obtain ⟨argument, hargument, hnode⟩ := Expr.mem_nodesOfAll.mp hnode
        have hsound := hlegal argument hargument node hnode
        rwa [hopen.scopes_eq, hname.scopes_eq] at hsound
      · refine ⟨trivial, trivial, trivial, ?_⟩
        rw [State.findFunction?, hname.scopes_eq] at hfunction
        show (s.scopes.findFunction? name.text s.scopes.current).map (·.arity) = _
        rw [show s.scopes.findFunction? name.text s.scopes.current = some function from hfunction]
        exact congrArg some (eq_of_beq hcount)

/-- The law of operands, for a rule that reads the operands inside them. -/
theorem operandOver_yields (hop : Yields operandRank operand)
    (hargument : Yields 0 (climb operand Level.all)) :
    Yields operandRank (operandOver operand) := by
  intro s expr s' h
  rw [operandOver, run_observe_bind] at h
  split at h
  case h_1 =>
    rw [run_observe_bind] at h
    split at h
    case isTrue => exact call_yields hargument _ _ _ h
    case isFalse => exact reference_yields _ _ _ h
  case h_2 => exact literal_yields _ _ _ h
  case h_3 => exact literal_yields _ _ _ h
  case h_4 => exact literal_yields _ _ _ h
  case h_5 => exact parenthesised_yields hop _ _ _ h
  case h_6 => exact prefixed_yields prefixNode_dereference hop _ _ _ h
  case h_7 => exact prefixed_yields prefixNode_negation hop _ _ _ h
  case h_8 => exact prefixed_yields prefixNode_complement hop _ _ _ h
  case h_9 => exact absurd h run_reject_ok

/-! ## Binary operators -/

/-- An operator of a level with its operands, which bind as the level asks for. -/
theorem combine_reads {level : Level} {operator : Token} {left right expr : Expr}
    (hoperator : operator.kind ∈ level.operators) {s₀ s₁ : State}
    (hleft : ReadsExpr level.rank s₀ left s₁) {s₂ : State}
    (hread : Reads s₁ (.ofPiece (.keep operator.kind operator)) s₂)
    (hright : ReadsExpr (level.rank + 1) s₂ right s)
    (h : (combine level operator left right).run s = .ok expr s') :
    ReadsExpr level.rank s₀ expr s' := by
  obtain ⟨hmatch, rfl, rfl⟩ := run_combine_ok.mp h
  have hlevel := Level.mem_operators_iff.mp hoperator
  have hreads := hleft.reads.append (hread.append hright.reads)
  have hrank : (Expr.binary operator left right level.result).rank = level.rank := by
    simp [Expr.rank, hlevel]
  refine ⟨?_, ?_, Nat.le_of_eq hrank.symm⟩
  · -- The operator is warned about after what its operands are warned about.
    have hkeeps : (Trace.ofPiece (.keep operator.kind operator)).Keeps operator :=
      ⟨_, List.mem_singleton_self _, rfl⟩
    rw [Expr.trace_binary]
    refine hreads.warned (fun token htoken => ?_) (fun token htoken => ?_)
    · rw [Expr.eq_of_mem_unsafeOperators htoken, Expr.token, hlevel]
      exact Option.some_ne_none level
    · rw [Expr.eq_of_mem_unsafeOperators htoken]
      exact (hkeeps.append_right right.trace).append_left left.trace
  · refine List.forall_mem_append.mpr ⟨List.forall_mem_append.mpr ⟨hleft.legal, ?_⟩,
      List.forall_mem_singleton.mpr ⟨?_, ?_, trivial, trivial⟩⟩
    · have hlegal := hright.legal
      rwa [hread.scopes_eq, hleft.scopes_eq] at hlegal
    · exact ⟨by rw [hlevel]; rfl, hmatch⟩
    · exact ⟨level, hlevel, hleft.rank_le, hright.rank_le⟩

/-- A round of a chain puts an operator and an operand after what has been read. -/
theorem chainRound_reads {level : Level} (hop : Yields (level.rank + 1) operand) {s₀ : State}
    {left expr : Expr} (hleft : ReadsExpr level.rank s₀ left s) (hc : s.seesOperator level = true)
    (h : (chainRound level operand left).run s = .ok expr s') :
    ReadsExpr level.rank s₀ expr s' := by
  obtain ⟨operator, s₁, htake, h⟩ := run_bind_ok.mp h
  obtain ⟨right, s₂, hright, h⟩ := run_bind_ok.mp h
  obtain ⟨hkind, hread⟩ := reads_operator hc htake
  exact combine_reads hkind hleft hread (hop _ _ _ hright) h

/-- Operands of a level have been read with the operators between them. -/
theorem chain_yields (level : Level) (hop : Yields (level.rank + 1) operand) :
    Yields level.rank (chain level operand) := by
  intro s expr s' h
  obtain ⟨first, s₁, hfirst, h⟩ := run_bind_ok.mp h
  have hfirst := hop _ _ _ hfirst
  refine run_whilst_ok (ReadsExpr level.rank s) ?_
    ⟨hfirst.reads, hfirst.legal, Nat.le_of_succ_le hfirst.rank_le⟩ h
  intro left s₂ expr s₃ hleft hc hround
  exact chainRound_reads hop hleft hc hround

/-- All six levels, one over the other. -/
theorem climb_yields (hop : Yields operandRank operand) (level : Level) :
    Yields level.rank (climb operand level.andTighter) := by
  have hmultiplicative := chain_yields .multiplicative hop
  have hadditive := chain_yields .additive hmultiplicative
  have hshift := chain_yields .shift hadditive
  have hcomparison := chain_yields .comparison hshift
  have hbitwise := chain_yields .bitwiseComparison hcomparison
  cases level with
  | xor => exact chain_yields .xor hbitwise
  | bitwiseComparison => exact hbitwise
  | comparison => exact hcomparison
  | shift => exact hshift
  | additive => exact hadditive
  | multiplicative => exact hmultiplicative

end

/-! ## Expressions -/

/-- Operands within any depth have been read. -/
theorem operandWithin_yields (depth : Nat) : Yields operandRank (operandWithin depth) := by
  induction depth with
  | zero =>
    intro s expr s' h
    rw [operandWithin, run_observe_bind] at h
    exact absurd h run_reject_ok
  | succ depth ih => exact operandOver_yields ih (climb_yields ih .xor)

/-- An operand that is yielded has been read. -/
theorem operand_yields : Yields operandRank operand := by
  intro s expr s' h
  rw [operand, run_observe_bind] at h
  exact operandWithin_yields _ _ _ _ h

/-- An expression on any level is read in full, is legal, and binds as its level asks for. -/
theorem expressionFrom_yields (level : Level) : Yields level.rank (expressionFrom level) :=
  climb_yields operand_yields level

/-- An expression that is yielded has been read. -/
theorem expression_yields : Yields 0 expression :=
  expressionFrom_yields .xor

end Tranquility.Grammar
