import Tranquility.Proofs.Failing.Step
import Tranquility.Proofs.Reading.Expression

/-!
# How expressions fail

An expression fails where it cannot go on, at a name that is not visible, at a call or an operator
that does not go with its operands, or at a string. A call and an operator are found at fault only
after what belongs to them has been read, and with it other operators may have been warned about.
-/

namespace Tranquility.Grammar

variable {s s₁ s' : State} {e : Error} {operand : Rule Expr}

/-- What a rule has read of an expression. -/
theorem Yields.reads {rank : Nat} {rule : Rule Expr} (h : Yields rank rule) (s : State)
    (expr : Expr) (s' : State) (hrun : rule.run s = .ok expr s') : ∃ trace, Reads s trace s' :=
  ⟨expr.trace, (h s expr s' hrun).reads⟩

/-! ## Operands -/

/-- A bad escape is at the string that has been read last. -/
theorem checkText_fails {token : Token} (hread : Reads s (.ofPiece (.keep token.kind token)) s₁)
    (h : (checkText token).run s₁ = .error e s') : Fails s e s' := by
  unfold checkText at h
  split at h
  case isTrue hstring =>
    unfold checkEscapes at h
    split at h
    case h_1 => exact absurd h run_pure_error
    case h_2 escaped hfault =>
      obtain ⟨rfl, rfl⟩ := run_reject_error.mp h
      exact .atPiece rfl hread (.settled id) ⟨hstring, mem_of_escapeFault? hfault⟩
    case h_3 hfault =>
      cases h
      exact .truncated hread ⟨_, List.mem_singleton_self _, rfl⟩ hstring hfault
  case isFalse => exact absurd h run_pure_error

/-- A literal fails at the current token, or at its escapes. -/
theorem literal_safe : Safe literal := by
  intro s e s' h
  rw [literal, run_observe_bind] at h
  split at h
  case h_1 => exact reject_current_fails h trivial
  case h_2 type htype =>
    have hplain : s.current.kind.isPlain = true := isPlain_of_literalType? htype
    rcases run_bind_error.mp h with h | ⟨token, s₁, htake, h⟩
    · exact take_fails hplain h
    obtain ⟨rfl, hread⟩ := reads_take htake hplain
    rcases run_bind_error.mp h with h | ⟨_, s₂, _, h⟩
    · exact checkText_fails hread h
    · exact absurd h run_pure_error

/-- A variable fails at its name: no name is there, or it is not visible. -/
theorem reference_safe : Safe reference := by
  intro s e s' h
  rcases run_bind_error.mp h with h | ⟨token, s₁, htoken, h⟩
  · exact expect_safe rfl _ _ _ h
  rw [run_observe_bind] at h
  rcases run_bind_error.mp h with h | ⟨_, s₂, _, h⟩
  · obtain ⟨_, rfl, rfl⟩ := run_require_error.mp h
    exact .atPiece rfl (reads_expect rfl htoken) (.settled id) (kind_of_expect htoken)
  · exact absurd h run_pure_error

/-- An operator in front fails where its operand does. -/
theorem prefixed_safe {kind : Kind} (node : Token → Expr → Expr) (hplain : kind.isPlain = true)
    (hop : Safe operand) : Safe (prefixed kind node operand) := by
  intro s e s' h
  rcases run_bind_error.mp h with h | ⟨token, s₁, htoken, h⟩
  · exact expect_safe hplain _ _ _ h
  rcases run_bind_error.mp h with h | ⟨content, s₂, _, h⟩
  · exact (hop _ _ _ h).after (reads_expect hplain htoken)
  · exact absurd h run_pure_error

/-- A group fails inside or where its right parenthesis is missing. -/
theorem parenthesised_safe (hyields : Yields operandRank operand) (hop : Safe operand) :
    Safe (parenthesised operand) := by
  intro s e s' h
  rcases run_bind_error.mp h with h | ⟨token, s₁, htoken, h⟩
  · exact expect_safe rfl _ _ _ h
  have htoken := reads_expect rfl htoken
  rw [run_observe_bind] at h
  split at h
  case isTrue =>
    rcases run_bind_error.mp h with h | ⟨_, s₂, _, h⟩
    · exact (skip_safe rfl _ _ _ h).after htoken
    · exact absurd h run_pure_error
  case isFalse =>
    rcases run_bind_error.mp h with h | ⟨content, s₂, hcontent, h⟩
    · exact (hop _ _ _ h).after htoken
    have hcontent := htoken.append (hyields _ _ _ hcontent).reads
    rcases run_bind_error.mp h with h | ⟨_, s₃, _, h⟩
    · exact (skip_safe rfl _ _ _ h).after hcontent
    · exact absurd h run_pure_error

/-- A call fails at its name, in an argument, or where a token is missing. -/
theorem call_safe {argument : Rule Expr} (hyields : Yields 0 argument) (hargument : Safe argument) :
    Safe (call argument) := by
  intro s e s' h
  rcases run_bind_error.mp h with h | ⟨name, s₁, hname, h⟩
  · exact expect_safe rfl _ _ _ h
  have hkind := kind_of_expect hname
  have hname := reads_expect rfl hname
  rw [run_observe_bind] at h
  split at h
  case h_1 =>
    obtain ⟨rfl, rfl⟩ := run_reject_error.mp h
    exact .atPiece rfl hname (.settled id) hkind
  case h_2 =>
    rcases run_bind_error.mp h with h | ⟨_, s₂, hopen, h⟩
    · exact (skip_safe rfl _ _ _ h).after hname
    have hopen := reads_skip rfl rfl hopen
    rcases run_bind_error.mp h with h | ⟨arguments, s₃, harguments, h⟩
    · have harguments :=
        unlessAt_fails (fun _ => commaSeparated_safe hyields.reads hargument _ _ _) h
      exact harguments.after (hname.append hopen)
    obtain ⟨harguments, _⟩ := reads_unlessAt Expr.trace (fun _ _ => True)
      (fun _ _ _ h => ⟨(hyields _ _ _ h).reads, trivial⟩) (fun _ => rfl) harguments
    have hlast := hopen.append harguments
    rcases run_bind_error.mp h with h | ⟨_, s₄, hrequire, h⟩
    · obtain ⟨_, rfl, rfl⟩ := run_require_error.mp h
      exact .atPiece rfl hname hlast hkind
    obtain ⟨_, rfl⟩ := run_require_ok.mp hrequire
    rcases run_bind_error.mp h with h | ⟨_, s₅, _, h⟩
    · exact (skip_safe rfl _ _ _ h).after (hname.append hlast)
    · exact absurd h run_pure_error

/-- Operands are safe if the operands inside them are. -/
theorem operandOver_safe (hyields : Yields operandRank operand) (hop : Safe operand)
    (hargument : Safe (climb operand Level.all)) : Safe (operandOver operand) := by
  intro s e s' h
  rw [operandOver, run_observe_bind] at h
  split at h
  case h_1 =>
    rw [run_observe_bind] at h
    split at h
    case isTrue => exact call_safe (climb_yields hyields .xor) hargument _ _ _ h
    case isFalse => exact reference_safe _ _ _ h
  case h_2 => exact literal_safe _ _ _ h
  case h_3 => exact literal_safe _ _ _ h
  case h_4 => exact literal_safe _ _ _ h
  case h_5 => exact parenthesised_safe hyields hop _ _ _ h
  case h_6 => exact prefixed_safe .dereference rfl hop _ _ _ h
  case h_7 => exact prefixed_safe .negation rfl hop _ _ _ h
  case h_8 => exact prefixed_safe .complement rfl hop _ _ _ h
  case h_9 => exact reject_current_fails h trivial

/-! ## Binary operators -/

/-- An operator whose operands do not go together is not warned about, but others may be: in the
operand on its left before it, in the one on its right after it. -/
theorem chainRound_fails {level : Level} (hyields : Yields (level.rank + 1) operand)
    (hop : Safe operand) {left : Expr} (hleft : left.type.isKnown = true)
    (hc : s.seesOperator level = true)
    (h : (chainRound level operand left).run s = .error e s') : Fails s e s' := by
  have hkind : s.current.kind ∈ level.operators := List.contains_iff_mem.mp hc
  rcases run_bind_error.mp h with h | ⟨operator, s₁, htake, h⟩
  · exact take_fails (Level.isPlain_of_mem hkind) h
  obtain ⟨_, hread⟩ := reads_operator hc htake
  rcases run_bind_error.mp h with h | ⟨right, s₂, hright, h⟩
  · exact (hop _ _ _ h).after hread
  obtain ⟨_, rfl, rfl⟩ := run_combine_error.mp h
  have hright := hyields _ _ _ hright
  exact .atPiece rfl hread hright.reads ⟨hleft, hright.legal.isKnown⟩

/-- Operands of a level fail in one of them, or at an operator whose operands do not go together. -/
theorem chain_safe (level : Level) (hyields : Yields (level.rank + 1) operand)
    (hop : Safe operand) : Safe (chain level operand) := by
  intro s e s' h
  rcases run_bind_error.mp h with h | ⟨first, s₁, hfirst, h⟩
  · exact hop _ _ _ h
  have hfirst := hyields _ _ _ hfirst
  obtain ⟨left, s₂, hleft, hc, h⟩ := run_whilst_error (ReadsExpr level.rank s)
    (fun _ _ _ _ hleft hc hround => chainRound_reads hyields hleft hc hround)
    ⟨hfirst.reads, hfirst.legal, Nat.le_of_succ_le hfirst.rank_le⟩ h
  exact (chainRound_fails hyields hop hleft.legal.isKnown hc h).after hleft.reads

/-- All six levels, one over the other. -/
theorem climb_safe (hyields : Yields operandRank operand) (hop : Safe operand) (level : Level) :
    Safe (climb operand level.andTighter) := by
  have hmultiplicative := chain_safe .multiplicative hyields hop
  have hadditive := chain_safe .additive (climb_yields hyields .multiplicative) hmultiplicative
  have hshift := chain_safe .shift (climb_yields hyields .additive) hadditive
  have hcomparison := chain_safe .comparison (climb_yields hyields .shift) hshift
  have hbitwise := chain_safe .bitwiseComparison (climb_yields hyields .comparison) hcomparison
  cases level with
  | xor => exact chain_safe .xor (climb_yields hyields .bitwiseComparison) hbitwise
  | bitwiseComparison => exact hbitwise
  | comparison => exact hcomparison
  | shift => exact hshift
  | additive => exact hadditive
  | multiplicative => exact hmultiplicative

/-! ## Expressions -/

/-- However deep operands are nested, their errors are such. -/
theorem operandWithin_safe (depth : Nat) : Safe (operandWithin depth) := by
  induction depth with
  | zero =>
    intro s e s' h
    rw [operandWithin, run_observe_bind] at h
    exact reject_current_fails h trivial
  | succ depth ih =>
    have hyields := operandWithin_yields depth
    exact operandOver_safe hyields ih (climb_safe hyields ih .xor)

/-- Every error of an operand is such. -/
theorem operand_safe : Safe Grammar.operand := by
  intro s e s' h
  rw [Grammar.operand, run_observe_bind] at h
  exact operandWithin_safe _ _ _ _ h

/-- Whatever is wrong with an expression is a violation of one of these forms. -/
theorem expression_safe : Safe expression :=
  climb_safe operand_yields operand_safe .xor

end Tranquility.Grammar
