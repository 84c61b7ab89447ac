import Tranquility.Proofs.Descent.Nodes

/-!
# What names mean down a descent

In the body of a function nothing is declared after the variables of the function. Whatever a parse
reads there and wherever it descends to, a name means the function that it means at the start of the
body: the last one of the name among the functions read so far and the one around the body.
-/

namespace Tranquility

namespace Scopes

variable {before middle after : Scopes}

/-- In both scopes each name means the same function, and the second hold together. -/
structure SameFunctions (before after : Scopes) : Prop where
  valid : after.Valid
  findFunction?_eq : ∀ name, after.findFunction? name after.current =
    before.findFunction? name before.current

namespace SameFunctions

theorem refl (h : before.Valid) : SameFunctions before before :=
  ⟨h, fun _ => rfl⟩

/-- Equal scopes have equal names. -/
theorem of_eq (h : before.Valid) (heq : after = before) : SameFunctions before after := by
  rw [heq]
  exact refl h

theorem trans (h : SameFunctions before middle) (h' : SameFunctions middle after) :
    SameFunctions before after :=
  ⟨h'.valid, fun name => (h'.findFunction?_eq name).trans (h.findFunction?_eq name)⟩

/-- An opened scope is empty, so that names mean what they meant. -/
theorem opened (h : before.Valid) (kind : ScopeKind) :
    SameFunctions before (before.opened kind) :=
  ⟨h.opened kind, findFunction?_opened h kind⟩

/-- Names mean the same once all scopes have been closed again. -/
theorem of_passes {marks : Bool} (h : before.Valid) (hpasses : Passes marks before after) :
    SameFunctions before after :=
  ⟨hpasses.valid, fun name => hpasses.current ▸ hpasses.findFunction? h name⟩

end SameFunctions

end Scopes

namespace Grammar

open Scopes

variable {s s₁ s' t : State}

/-! ## Lists of items -/

/-- The statements in front of one of a body leave the scopes that statements leave. -/
theorem StatementAt.passes (h : StatementAt s t) (hv : s.scopes.Valid) :
    ∃ marks, Passes marks s.scopes t.scopes := by
  induction h with
  | first => exact ⟨false, .refl hv⟩
  | @next t t₁ t₂ stmt _ read _ gap ih =>
    obtain ⟨marks, hpasses⟩ := ih
    obtain ⟨_, rfl⟩ := run_pure_ok.mp gap
    have hscopes := (statement_yields _ _ _ hpasses.valid read).reads.scopes_eq
    rw [hscopes]
    exact ⟨_, hpasses.trans hv (stmt.passes hpasses.valid)⟩

/-- Every statement of a body sees the same functions. -/
theorem StatementAt.sameFunctions (h : StatementAt s t) (hv : s.scopes.Valid) :
    SameFunctions s.scopes t.scopes := by
  obtain ⟨marks, hpasses⟩ := h.passes hv
  exact .of_passes hv hpasses

/-- Arguments leave the scopes alone. -/
theorem ArgumentAt.scopes_eq (h : ArgumentAt s t) : t.scopes = s.scopes := by
  induction h with
  | first => rfl
  | next _ read _ gap ih =>
    have hread := (expression_yields _ _ _ read).scopes_eq
    exact (reads_skip rfl rfl gap).scopes_eq.trans (hread.trans ih)

/-- The statements in braces see the functions that are seen in front of the braces. -/
theorem BlockAt.sameFunctions {kind : ScopeKind} (hopens : kind.opens = true)
    (h : BlockAt kind s t) (hv : s.scopes.Valid) : SameFunctions s.scopes t.scopes := by
  obtain ⟨brace, newline, item⟩ := h
  have hinside := (reads_openScope hopens brace).append (reads_skip rfl rfl newline)
  have hopened := SameFunctions.opened hv kind
  rw [← show _ = s.scopes.opened kind from hinside.scopes_eq] at hopened
  exact hopened.trans (item.sameFunctions hopened.valid)

/-! ## Parts of a body -/

/-- The part stands in the body of a function. -/
def Part.inBody : Part → Bool
  | .program | .function => false
  | _ => true

/-- What is entered from the body of a function is in the body. -/
theorem Enters.inBody {p q : Part} (h : Enters p s q t) (hp : p.inBody = true) :
    q.inBody = true := by
  cases h with
  | function => cases hp
  | first level => cases level <;> rfl
  | @right _ _ _ level => cases level <;> rfl
  | _ => rfl

/-- After the head of a conditional the same functions are seen. -/
theorem conditionalHead_sameFunctions {head : Token × Expr × List Stmt}
    (h : (conditionalHead statement).run s = .ok head s₁) (hv : s.scopes.Valid) :
    SameFunctions s.scopes s₁.scopes := by
  obtain ⟨token, condition, stmts⟩ := head
  have hreads := (conditionalHead_reads statement_yields hv h).1
  rw [hreads.scopes_eq]
  exact .of_passes hv (Conditional.passes_head hv token condition stmts)

/-- A part of a body enters others where each name means the same function. -/
theorem Enters.sameFunctions {p q : Part} (h : Enters p s q t) (hp : p.inBody = true)
    (hv : s.scopes.Valid) : SameFunctions s.scopes t.scopes := by
  cases h with
  | function | body => cases hp
  | conditional | target | first => exact .refl hv
  | untilCondition keyword mark =>
    have hkeyword : _ = s.scopes := (reads_expectKeyword keyword).scopes_eq
    have hmark : t.scopes = _ := (markLoop_reads mark).scopes_eq
    rw [hkeyword] at hmark
    rw [hmark]
    exact .of_passes hv (.markLoop hv)
  | @loopBody _ s₁ _ head front more item =>
    obtain ⟨_, s₀, hscopes, _, hopened⟩ := loopHead_reads front
    have hinside : s₁.scopes = s₀.scopes.opened .loop := hopened.scopes_eq
    rw [hscopes] at hinside
    have hsame := SameFunctions.opened hv .loop
    rw [← hinside] at hsame
    exact hsame.trans (item.sameFunctions hsame.valid)
  | result keyword | condition keyword =>
    exact .of_eq hv (reads_expectKeyword keyword).scopes_eq
  | stored plain front colon =>
    have hfront := (expression_yields _ _ _ front).scopes_eq
    exact .of_eq hv ((reads_expect rfl colon).scopes_eq.trans hfront)
  | branch keyword front item =>
    have hkeyword := (reads_expectKeyword keyword).scopes_eq
    have hfront := SameFunctions.of_eq hv ((expression_yields _ _ _ front).scopes_eq.trans hkeyword)
    exact hfront.trans (item.sameFunctions rfl hfront.valid)
  | alternative front keyword last item =>
    have hfront := conditionalHead_sameFunctions front hv
    have hkeyword := SameFunctions.of_eq hfront.valid (reads_skipKeyword keyword).scopes_eq
    exact hfront.trans (hkeyword.trans (item.sameFunctions rfl hkeyword.valid))
  | chained front keyword more =>
    have hfront := conditionalHead_sameFunctions front hv
    exact hfront.trans (.of_eq hfront.valid (reads_skipKeyword keyword).scopes_eq)
  | right front more operator =>
    have hfront := front.reads.scopes_eq
    exact .of_eq hv ((reads_operator more operator).2.scopes_eq.trans hfront)
  | prefixed unary operator =>
    refine .of_eq hv (reads_expect ?_ operator).scopes_eq
    simp only [List.mem_cons, List.not_mem_nil, or_false] at unary
    rcases unary with rfl | rfl | rfl <;> rfl
  | content paren => exact .of_eq hv (reads_expect rfl paren).scopes_eq
  | argument called front visible paren more item =>
    have hfront := (reads_expect rfl front).scopes_eq
    have hparen := (reads_skip rfl rfl paren).scopes_eq
    exact .of_eq hv ((ArgumentAt.scopes_eq item).trans (hparen.trans hfront))

/-- In a body each name means the same function wherever the parse descends to. -/
theorem Descends.sameFunctions {p q : Part} (h : Descends p s q t) (hp : p.inBody = true)
    (hv : s.scopes.Valid) : SameFunctions s.scopes t.scopes := by
  induction h with
  | here => exact .refl hv
  | enter first _ ih =>
    have hfirst := first.sameFunctions hp hv
    exact hfirst.trans (ih (first.inBody hp) hfirst.valid)

/-! ## Functions -/

/-- The functions of a program between its first one and one that starts at a state. -/
abbrev FunctionsTo : State → List FunctionDecl → State → Prop :=
  ItemsTo (·.seesKeyword "fun") (pure ()) function

variable {globals : List (List Token)} {earlier : List FunctionDecl} {decl : FunctionDecl}

/-- Where a function starts, the global scope is current and holds the functions in front. -/
theorem FunctionsTo.atTop (h : FunctionsTo s earlier t) (htop : s.scopes.AtTop globals.flatten [])
    (hnodup : (Token.names globals.flatten).Nodup) : t.scopes.AtTop globals.flatten earlier := by
  induction h with
  | first => exact htop
  | @next earlier t t₁ t₂ decl _ read _ gap ih =>
    obtain ⟨_, rfl⟩ := run_pure_ok.mp gap
    obtain ⟨_, ended, hreads, _⟩ := function_reads ih hnodup read
    rw [hreads.scopes_eq]
    exact ih.settle decl

/-- At a statement of its body, a function is the last of those that names can mean. -/
theorem Enters.findFunction?_eq {q : Part} (h : Enters .function s q t)
    (hread : Grammar.function.run s = .ok decl s') (htop : s.scopes.AtTop globals.flatten earlier)
    (hnodup : (Token.names globals.flatten).Nodup) : q.inBody = true ∧ t.scopes.Valid ∧
      ∀ name, t.findFunction? name = FunctionDecl.symbolAmong? (earlier ++ [decl]) name := by
  cases h with
  | @body _ s₁ s₂ _ _ locals front lines more item =>
    obtain ⟨s₀, hhead⟩ := functionHead_of_function hread
    rw [hhead] at front
    cases front
    obtain ⟨hhead, _⟩ := functionHead_reads decl htop hnodup hhead
    have hin := hhead.inFunction htop
    obtain ⟨_, _, hlines⟩ := variableLines_reads hin.valid lines
    have hstart := hin.declared locals.flatten
    rw [← show s₂.scopes = s₁.scopes.declared locals.flatten from hlines.scopes_eq] at hstart
    obtain ⟨marks, hpasses⟩ := StatementAt.passes item hstart.valid
    have hitem := hstart.passes hpasses
    exact ⟨rfl, hitem.valid, hitem.findFunction?_eq⟩

end Grammar

end Tranquility
