import Tranquility.Proofs.Parallel.Program
import Tranquility.Proofs.Reading.Program
import Tranquility.Proofs.Scope.Distinct

/-!
# The variables that names mean

A name in the body of a function means one variable: a global one, a parameter or a variable of that
function. No other function's variables are visible there, and no two variables of one name are. The
latter holds of every scope, be it closed or not, and of what a parse leaves when it fails.
-/

namespace Tranquility

namespace Grammar

open Scopes

/-! ## Rules that keep names distinct -/

/-- A run ends in scopes of a kind, or in an error and in scopes that have their names distinct. -/
inductive Ended {α : Type} (after : Scopes → Prop) : EStateM.Result Error State α → Prop where
  | ok {a : α} {s : State} (reached : after s.scopes) : Ended after (.ok a s)
  | error {e : Error} {s : State} (tidy : s.scopes.Tidy) : Ended after (.error e s)

/-- The rule leads from scopes of one kind to scopes of another, and where it fails the names are
distinct. -/
def Turns {α : Type} (before after : Scopes → Prop) (rule : Rule α) : Prop :=
  ∀ s : State, before s.scopes → Ended after (rule.run s)

variable {α β : Type} {s : State} {before between after keeps : Scopes → Prop}

namespace Turns

/-- What is kept beside itself is kept. -/
theorem of_parallel {values : α → α → Prop} {rule : Rule α}
    (h : Parallel .same keeps values rule rule)
    (htidy : ∀ scopes : Scopes, keeps scopes → scopes.Tidy) : Turns keeps keeps rule := by
  intro s hs
  obtain ⟨hok, herror⟩ := h.kept hs
  cases hrun : rule.run s with
  | ok a s' => exact .ok (hok a s' hrun)
  | error e s' => exact .error (htidy _ (herror e s' hrun))

theorem bind {rule : Rule α} {next : α → Rule β} (h : Turns before between rule)
    (hnext : ∀ a, Turns between after (next a)) : Turns before after (rule >>= next) := by
  intro s hs
  have hended := h s hs
  rw [EStateM.run_bind]
  generalize rule.run s = result at hended ⊢
  cases hended with
  | ok reached => exact hnext _ _ reached
  | error tidy => exact .error tidy

theorem mono {rule : Rule α} {before' after' : Scopes → Prop} (h : Turns before after rule)
    (hbefore : ∀ scopes, before' scopes → before scopes)
    (hafter : ∀ scopes, after scopes → after' scopes) : Turns before' after' rule := by
  intro s hs
  have hended := h s (hbefore _ hs)
  generalize rule.run s = result at hended ⊢
  cases hended with
  | ok reached => exact .ok (hafter _ reached)
  | error tidy => exact .error tidy

theorem pure (a : α) : Turns after after (pure a : Rule α) :=
  fun _ hs => .ok hs

theorem observe {view : State → α} {next : α → Rule β} (h : ∀ a, Turns before after (next a)) :
    Turns before after (Grammar.observe view >>= next) :=
  fun s hs => h (view s) s hs

theorem require (htidy : ∀ scopes : Scopes, before scopes → scopes.Tidy) (condition : Bool)
    (token : Token) (violation : Violation) :
    Turns before before (require condition token violation) := by
  intro s hs
  cases condition with
  | false => exact .error (htidy _ hs)
  | true => exact .ok hs

/-- Items that keep the scopes of a kind can be collected. -/
theorem collect {continues : State → Bool} {item : Rule α} (h : Turns keeps keeps item)
    (items : List α) : Turns keeps keeps (collect continues item items) := by
  have hok : ∀ (items : List α) s a s', keeps s.scopes → continues s = true →
      item.run s = .ok a s' → keeps s'.scopes := by
    intro items s a s' hs _ hrun
    have hended := h s hs
    rw [hrun] at hended
    cases hended with
    | ok reached => exact reached
  intro s hs
  cases hrun : (Grammar.collect continues item items).run s with
  | ok items' s' =>
    exact .ok (run_collect_ok (fun _ s => keeps s.scopes) hok hs hrun)
  | error e s' =>
    obtain ⟨_, s₁, hs₁, _, hitem⟩ := run_collect_error (fun _ s => keeps s.scopes) hok hs hrun
    have hended := h s₁ hs₁
    rw [hitem] at hended
    cases hended with
    | error tidy => exact .error tidy

end Turns

/-- Names stay distinct where blocks open and close and where a loop is marked. -/
theorem lasting_tidy : Lasting Tidy where
  opened h := h.opened
  closed h := h.closed
  markLoop h := h.markLoop

/-- A rule that reads no brace leaves a scope innermost. -/
theorem Turns.of_plain {values : α → α → Prop} {rule : Rule α}
    (h : Parallel .same Innermost values rule rule) : Turns Innermost Innermost rule :=
  .of_parallel h fun _ hs => hs.tidy

/-- A rule that runs beside itself with names distinct keeps them so. -/
theorem Turns.of_tidy {values : α → α → Prop} {rule : Rule α}
    (h : Parallel .same Tidy values rule rule) : Turns Tidy Tidy rule :=
  .of_parallel h fun _ hs => hs

/-! ## Declarations -/

/-- Inside a scope that has just been opened there is no other. -/
theorem openScope_turns (kind : ScopeKind) : Turns Tidy Innermost (openScope kind) := by
  intro s hs
  cases hrun : (openScope kind).run s with
  | ok u s' =>
    obtain ⟨token, h⟩ := run_discard_ok.mp hrun
    obtain ⟨rfl, hrefusal, scopes, hpass, rfl⟩ := run_advance_ok.mp h
    have hkind := (Token.refusal?_eq_none_iff.mp hrefusal).1 .leftBrace rfl
    rw [Scopes.pass, hkind] at hpass
    obtain ⟨_, rfl⟩ := enter_eq_ok_iff.mp hpass
    exact .ok (hs.innermost_opened kind)
  | error e s' =>
    obtain ⟨rfl, _⟩ := run_advance_error (run_discard_error.mp hrun)
    exact .error hs

/-- Names are declared in the innermost scope, if no scope it sees has them. -/
theorem declareVariables_turns (tokens : List Token) :
    Turns Innermost Innermost (declareVariables tokens) := by
  induction tokens with
  | nil => exact .pure ()
  | cons token tokens ih =>
    refine Turns.bind (fun s hs => ?_) fun _ => ih
    rw [run_declareVariable]
    cases hvisible : s.scopes.hasVariable token.text s.scopes.current with
    | true => exact .error hs.tidy
    | false => exact .ok (hs.declared hvisible)

/-- The names of a line are declared in the innermost scope. -/
theorem variableLine_turns : Turns Innermost Innermost variableLine := by
  refine (Turns.of_plain (skipKeyword_parallel "var")).bind fun _ => ?_
  refine (Turns.of_plain identifiers_parallel).bind fun names => ?_
  refine (declareVariables_turns names).bind fun _ => ?_
  exact (Turns.of_plain (skip_parallel rfl)).bind fun _ => .pure names

theorem variableLines_turns : Turns Innermost Innermost variableLines :=
  .collect variableLine_turns []

/-! ## Programs -/

/-- The head of a function opens its scope, and declares its parameters there. -/
theorem functionHead_turns : Turns Tidy Innermost functionHead := by
  refine (Turns.of_tidy (skipKeyword_parallel "fun")).bind fun _ => ?_
  refine (Turns.of_tidy (expect_parallel rfl)).bind fun name => ?_
  refine .observe fun allowed => ?_
  refine (Turns.require (fun _ hs => hs) allowed name .duplicateFunction).bind fun _ => ?_
  refine (Turns.of_tidy (skip_parallel rfl)).bind fun _ => ?_
  refine (Turns.of_tidy (unlessAt_parallel .rightParen identifiers_parallel)).bind
    fun parameters => ?_
  refine (Turns.of_tidy (skip_parallel rfl)).bind fun _ => ?_
  refine .observe fun enclosing => ?_
  refine (openScope_turns .function).bind fun _ => ?_
  refine Turns.bind (fun s hs => .ok (hs.declareFunction _ enclosing)) fun _ => ?_
  refine (declareVariables_turns parameters).bind fun _ => ?_
  exact (Turns.of_plain (skip_parallel rfl)).bind fun _ => .pure _

/-- Statements open more scopes, with names as distinct as before. -/
theorem functionInside_turns : Turns Innermost Tidy functionInside := by
  refine variableLines_turns.bind fun locals => ?_
  have hbody : Turns Tidy Tidy (unlessAt .rightBrace body) :=
    .of_tidy (unlessAt_parallel .rightBrace (body_parallel lasting_tidy))
  refine (hbody.mono (fun _ hs => hs.tidy) fun _ hs => hs).bind fun body => ?_
  exact (Turns.of_tidy (closeScope_parallel lasting_tidy)).bind fun _ => .pure _

/-- A function leaves the names distinct. -/
theorem function_turns : Turns Tidy Tidy function := by
  rw [function_eq]
  refine functionHead_turns.bind fun ⟨name, parameters⟩ => ?_
  refine functionInside_turns.bind fun ⟨locals, body⟩ => ?_
  exact (Turns.of_tidy functionEnd_parallel).bind fun _ => .pure _

theorem functions_turns : Turns Tidy Tidy functions :=
  function_turns.bind fun first => .collect function_turns [first]

/-- Names are distinct wherever a program ends or fails. -/
theorem program_turns : Turns Innermost Tidy program := by
  refine (Turns.of_plain newlines_parallel).bind fun _ => ?_
  refine variableLines_turns.bind fun globals => ?_
  refine .observe fun first => .observe fun fault => ?_
  refine (Turns.require (fun _ hs => hs.tidy) _ first fault).bind fun _ => ?_
  refine (functions_turns.mono (fun _ hs => hs.tidy) fun _ hs => hs).bind fun functions => ?_
  refine .observe fun ended => .observe fun last => ?_
  exact (Turns.require (fun _ hs => hs) ended last .expectedFunction).bind fun _ => .pure _

end Grammar

/-- A reference in a function means one variable of those that the function sees. -/
theorem FunctionDecl.Legal.existsUnique_variable {globals : List (List Token)}
    {earlier : List FunctionDecl} {function : FunctionDecl} (h : function.Legal globals earlier)
    {token : Token} (hreference : Expr.reference token ∈ Stmt.nodesOfAll function.body) :
    ∃! declared, declared ∈ function.variablesSeen globals ∧ declared.text = token.text := by
  have hnamed : (Token.names (function.variablesSeen globals)).contains token.text = true :=
    (h.body.nodes _ hreference).named
  obtain ⟨declared, hdeclared, htext⟩ := List.mem_map.mp (List.contains_iff_mem.mp hnamed)
  refine ⟨declared, ⟨hdeclared, htext⟩, fun other ⟨hother, htext'⟩ => ?_⟩
  exact List.inj_on_of_nodup_map h.variables_nodup hother hdeclared (htext'.trans htext.symm)

/-- In a program that the grammar reads, the global variables, the parameters and the variables of a
function have names that are all different, and each reference in its body means one of them. In the
scopes that a parse leaves, whether it reads a program or fails, no two variables of one name are
visible from any scope. -/
theorem names_of_parse (tokens : List Token) (reporter : Reporter) :
    (∀ program s', Grammar.program.run (.ofTokens tokens reporter) = .ok program s' →
      ∀ function ∈ program.functions,
        (Token.names (function.variablesSeen program.globals)).Nodup ∧
          ∀ token, Expr.reference token ∈ Stmt.nodesOfAll function.body →
            ∃! declared, declared ∈ function.variablesSeen program.globals ∧
              declared.text = token.text) ∧
      match Grammar.program.run (.ofTokens tokens reporter) with
      | .ok _ s' => s'.scopes.Distinct
      | .error _ s' => s'.scopes.Distinct := by
  constructor
  · intro program s' h function hfunction
    obtain ⟨_, _, _, _, hlegal⟩ := Grammar.program_reads rfl h
    obtain ⟨place, hplace⟩ := List.mem_iff_getElem?.mp hfunction
    have hfunction := hlegal.legal hplace
    exact ⟨hfunction.variables_nodup, fun _ => hfunction.existsUnique_variable⟩
  · have hended := Grammar.program_turns (.ofTokens tokens reporter) Scopes.innermost_initial
    generalize Grammar.program.run (.ofTokens tokens reporter) = result at hended ⊢
    cases hended with
    | ok reached => exact reached.distinct
    | error tidy => exact tidy.distinct

/-- Two functions have variables of one name, and each refers to its own. -/
theorem names_of_parse_shared : ∃ tokens program s',
    tokenize "var a\nfun f(b) \x7b\nvar c\n.b + .c\n\x7d\nfun g(c) \x7b\n.a + .c\n\x7d" =
      .ok tokens ∧
      Grammar.program.run (.ofTokens tokens .empty) = .ok program s' ∧
        (∀ function ∈ program.functions,
          (Token.names (function.variablesSeen program.globals)).Nodup ∧
            ∀ token, Expr.reference token ∈ Stmt.nodesOfAll function.body →
              ∃! declared, declared ∈ function.variablesSeen program.globals ∧
                declared.text = token.text) ∧ s'.scopes.Distinct := by
  have htokens := tokenize_eq
    "var a\nfun f(b) \x7b\nvar c\n.b + .c\n\x7d\nfun g(c) \x7b\n.a + .c\n\x7d"
  have hok : Grammar.reaches (fun _ _ => true) (Grammar.program.run (.ofTokens
      (Token.significant (scan
        "var a\nfun f(b) \x7b\nvar c\n.b + .c\n\x7d\nfun g(c) \x7b\n.a + .c\n\x7d").tokens)
      .empty)) = true := by decide +kernel
  generalize Token.significant (scan
    "var a\nfun f(b) \x7b\nvar c\n.b + .c\n\x7d\nfun g(c) \x7b\n.a + .c\n\x7d").tokens = tokens
      at htokens hok
  obtain ⟨hnames, hdistinct⟩ := names_of_parse tokens .empty
  obtain ⟨program, s', h, _⟩ := Grammar.exists_ok_of_reaches hok
  rw [h] at hdistinct
  exact ⟨tokens, program, s', htokens, h, hnames program s' h, hdistinct⟩

end Tranquility
