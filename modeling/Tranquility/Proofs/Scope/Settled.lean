import Tranquility.Proofs.Scope.Block

/-!
# Scopes that a statement leaves

A walk of a statement in the order of the source opens and closes the scopes of its blocks and marks
the loops that have an `until` statement. By the laws of blocks a statement keeps what is visible
and which scope is current, and marks nothing but the loop in whose body it stands.
-/

namespace Tranquility

mutual

/-- The scopes that a statement leaves. -/
def Stmt.settle : Stmt → Scopes → Scopes
  | .conditional conditional, scopes => conditional.settle scopes
  | .until _ _, scopes => scopes.markLoop
  | .loop _ body, scopes => (Stmt.settleAll body (scopes.opened .loop)).closed
  | .result _ _, scopes => scopes
  | .assignment _ _ _, scopes => scopes
  | .expression _, scopes => scopes

/-- The scopes that a conditional and what is chained to it leave. -/
def Conditional.settle : Conditional → Scopes → Scopes
  | .only _ _ body, scopes => (Stmt.settleAll body (scopes.opened .ifBranch)).closed
  | .otherwise _ _ body alternative, scopes =>
    (Stmt.settleAll alternative
      ((Stmt.settleAll body (scopes.opened .ifBranch)).closed.opened .elseBranch)).closed
  | .chained _ _ body next, scopes =>
    next.settle (Stmt.settleAll body (scopes.opened .ifBranch)).closed

/-- The scopes that some statements leave, one after the other. -/
def Stmt.settleAll : List Stmt → Scopes → Scopes
  | [], scopes => scopes
  | stmt :: stmts, scopes => Stmt.settleAll stmts (stmt.settle scopes)

end

mutual

/-- A statement marks the loop around it if it is an `until` statement, and changes nothing else of
the scopes that there are. -/
theorem Stmt.passes : ∀ (stmt : Stmt) {scopes : Scopes}, scopes.Valid →
    Scopes.Passes stmt.isUntil scopes (stmt.settle scopes)
  | .conditional conditional, _, h => conditional.passes h
  | .until _ _, _, h => .markLoop h
  | .loop _ body, _, h => (Stmt.passes_all body (h.opened .loop)).block h
  | .result _ _, _, h => .refl h
  | .assignment _ _ _, _, h => .refl h
  | .expression _, _, h => .refl h

/-- A conditional leaves the scopes as statements do that have no `until` among them. -/
theorem Conditional.passes : ∀ (conditional : Conditional) {scopes : Scopes}, scopes.Valid →
    Scopes.Passes false scopes (conditional.settle scopes)
  | .only _ _ body, _, h => (Stmt.passes_all body (h.opened .ifBranch)).block h
  | .otherwise _ _ body alternative, _, h =>
    have hfirst := (Stmt.passes_all body (h.opened .ifBranch)).block h
    hfirst.trans h ((Stmt.passes_all alternative (hfirst.valid.opened .elseBranch)).block
      hfirst.valid)
  | .chained _ _ body next, _, h =>
    have hfirst := (Stmt.passes_all body (h.opened .ifBranch)).block h
    hfirst.trans h (next.passes hfirst.valid)

/-- Statements mark the loop around them if an `until` statement is among them. -/
theorem Stmt.passes_all : ∀ (stmts : List Stmt) {scopes : Scopes}, scopes.Valid →
    Scopes.Passes (stmts.any Stmt.isUntil) scopes (Stmt.settleAll stmts scopes)
  | [], _, h => .refl h
  | stmt :: stmts, _, h =>
    have hfirst := stmt.passes h
    hfirst.trans h (Stmt.passes_all stmts hfirst.valid)

end

/-- Statements one after the other leave what the last of them leave. -/
theorem Stmt.settleAll_append (stmts stmts' : List Stmt) (scopes : Scopes) :
    Stmt.settleAll (stmts ++ stmts') scopes =
      Stmt.settleAll stmts' (Stmt.settleAll stmts scopes) := by
  induction stmts generalizing scopes with
  | nil => rfl
  | cons stmt stmts ih => exact ih (stmt.settle scopes)

end Tranquility
