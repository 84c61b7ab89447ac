import Tranquility.Proofs.Grammar.TreeTrace
import Tranquility.Proofs.Tree.Types

/-!
# Violations and their tokens

Most violations can be found at tokens of one kind only: a name that is not visible is a name, and a
loop without an `until` statement is found at its keyword. The other ones say what was expected, in
the words of the language. So what a message repeats of the program is known by kind.
-/

namespace Tranquility

open Grammar
open Pattern (keywords)

/-- The type is one of those that the language names. -/
def Ty.isKnown : Ty → Bool
  | .other _ => false
  | _ => true

/-- The types that literals have and that operators yield are known. -/
theorem Expr.isKnown_of_derivedType? {type : Ty} :
    ∀ {expr : Expr}, expr.derivedType? = some type → type.isKnown = true
  | .literal token given, h => by
    rw [derivedType?_literal] at h
    unfold literalType? at h
    split at h <;> cases h <;> rfl
  | .reference _, h | .call _ _, h | .unit _, h | .dereference _ _, h | .negation _ _, h
  | .complement _ _, h => by
    cases h
    rfl
  | .group _ content _, h => @isKnown_of_derivedType? type content h
  | .binary operator left right given, h => by
    rw [derivedType?_binary] at h
    obtain ⟨level, _, rfl⟩ := Option.map_eq_some_iff.mp h
    cases level <;> rfl

/-- An expression that may stand in a program has a known type. -/
theorem Expr.Legal.isKnown {visible : Visible} {expr : Expr} (h : expr.Legal visible) :
    expr.type.isKnown = true :=
  isKnown_of_derivedType? h.derivedType?

namespace Violation

/-- The violation may be found at the token: the token is of the kind that the violation is about,
and what the violation adds is taken from the token or from the language. -/
def Fits (token : Token) : Violation → Prop
  | expectedKind kind => kind.isKnown = true
  | expectedText text => text ∈ keywords
  | misplacedKeyword | endlessLoop => token.kind = .keyword
  | duplicateFunction | duplicateVariable | undefinedVariable | undefinedFunction
  | argumentCount _ _ => token.kind = .identifier
  | operandTypes left right => left.isKnown = true ∧ right.isKnown = true
  | invalidEscape escaped => token.kind = .string ∧ escaped ∈ inner token
  | described _ => False
  | endOfInput | missingFunction | expectedDeclarations | expectedFunction | expectedStatement
  | expectedExpression | expectedLiteral => True

end Violation

/-- A token is refused in words of the language if these were asked for. -/
theorem Token.fits_of_refusal? {token : Token} {kind : Option Kind} {text : Option String}
    {violation : Violation} (hkind : ∀ k ∈ kind, k.isKnown = true)
    (htext : ∀ t ∈ text, t ∈ keywords)
    (h : token.refusal? kind text = some violation) : violation.Fits token := by
  unfold refusal? at h
  split at h
  case h_1 k hk =>
    cases h
    exact hkind k (Option.filter_eq_some_iff.mp hk).1
  case h_2 t _ ht =>
    cases h
    exact htext t (Option.filter_eq_some_iff.mp ht).1
  case h_3 =>
    split at h
    · cases h
      trivial
    · cases h

/-- The character that is refused after a backslash is one of the text. -/
theorem Grammar.mem_of_escapeFault? {text : List Char} {c : Char}
    (h : escapeFault? text = some (.invalid c)) : c ∈ text := by
  fun_induction escapeFault? text with
  | case1 => cases h
  | case2 => cases h
  | case3 d rest _ ih => exact List.mem_cons_of_mem _ (List.mem_cons_of_mem _ (ih h))
  | case4 d rest =>
    cases h
    exact List.mem_cons_of_mem _ List.mem_cons_self
  | case5 d rest _ _ ih => exact List.mem_cons_of_mem _ (ih h)

end Tranquility
