import Tranquility.Proofs.Descent.Enters
import Tranquility.Proofs.Tree.Shape

/-!
# Where the nodes of a tree are read

A tree is put together from what is read where a parse descends to. A part that yields a tree has a
node of it from a part that it enters, and a binary node from two operands that it combines. Any
other node is what an operand yields, at a place that the part descends to.
-/

namespace Tranquility.Grammar

/-! ## Items of a list -/

section

variable {α : Type} {continues : State → Bool} {separator : Rule Unit} {item : Rule α}
variable {s s' t : State} {items : List α}

/-- In a list of items that starts at a state, the items given are in front of a state where
another one starts. -/
inductive ItemsTo (continues : State → Bool) (separator : Rule Unit) (item : Rule α) (s : State) :
    List α → State → Prop where
  | first : ItemsTo continues separator item s [] s
  | next {items : List α} {t t₁ t₂ : State} {a : α}
    (before : ItemsTo continues separator item s items t) (read : item.run t = .ok a t₁)
    (more : continues t₁ = true) (gap : separator.run t₁ = .ok () t₂) :
    ItemsTo continues separator item s (items ++ [a]) t₂

/-- Behind the items given there starts an item. -/
theorem ItemsTo.itemAt (h : ItemsTo continues separator item s items t) :
    ItemAt continues separator item s t := by
  induction h with
  | first => exact .first
  | next _ read more gap ih => exact ih.next read more gap

/-- In front of an item are those that have been read. -/
theorem ItemAt.exists_itemsTo (h : ItemAt continues separator item s t) :
    ∃ items, ItemsTo continues separator item s items t := by
  induction h with
  | first => exact ⟨[], .first⟩
  | next _ read more gap ih =>
    obtain ⟨items, h⟩ := ih
    exact ⟨_, h.next read more gap⟩

/-- The list goes on from each of its items, after those in front of it. -/
theorem ItemsTo.run_eq (h : ItemsTo continues separator item s items t)
    (heats : Eats (do separator; item)) :
    (listOf continues separator item).run s =
      (item >>= fun a => collect continues (do separator; item) (items ++ [a])).run t := by
  induction h with
  | first => rfl
  | @next items t t₁ t₂ a _ read more gap ih =>
    rw [ih, EStateM.run_bind, read]
    show (collect continues _ (items ++ [a])).run t₁ = _
    rw [collect_eq heats, run_observe_bind, if_pos more, bind_assoc, EStateM.run_bind, gap]

/-- An element of a list is the last one, or it is among those in front of the last one. -/
theorem split_concat {front earlier later : List α} {a last : α}
    (h : front ++ [last] = earlier ++ a :: later) :
    (front = earlier ∧ last = a) ∨ ∃ rest, front = earlier ++ a :: rest := by
  rcases List.eq_nil_or_concat later with rfl | ⟨rest, c, rfl⟩
  · obtain ⟨hfront, hlast⟩ := List.append_inj' h rfl
    exact .inl ⟨hfront, List.singleton_inj.mp hlast⟩
  · rw [List.concat_eq_append, ← List.cons_append, ← List.append_assoc] at h
    exact .inr ⟨rest, (List.append_inj' h rfl).1⟩

/-- Each of the items in front has been read where those in front of it end. -/
theorem ItemsTo.exists_read (h : ItemsTo continues separator item s items t)
    {earlier later : List α} {a : α} (hsplit : items = earlier ++ a :: later) :
    ∃ u u', ItemsTo continues separator item s earlier u ∧ item.run u = .ok a u' := by
  induction h generalizing later with
  | first => simp at hsplit
  | next before read _ _ ih =>
    obtain ⟨rfl, rfl⟩ | ⟨rest, hfront⟩ := split_concat hsplit
    · exact ⟨_, _, before, read⟩
    · exact ih hfront

/-- A list that has been read ends with an item, and those in front of it have been read. -/
theorem run_listOf_ok (h : (listOf continues separator item).run s = .ok items s') :
    ∃ earlier last t, items = earlier ++ [last] ∧ ItemsTo continues separator item s earlier t ∧
      item.run t = .ok last s' := by
  obtain ⟨first, s₁, hfirst, h⟩ := run_bind_ok.mp h
  refine run_collect_ok (fun items s' => ∃ earlier last t, items = earlier ++ [last] ∧
    ItemsTo continues separator item s earlier t ∧ item.run t = .ok last s') ?_ ?_ h
  · rintro _ s₂ a s₃ ⟨earlier, last, t, rfl, hearlier, hlast⟩ hmore hround
    obtain ⟨_, s₄, hgap, ha⟩ := run_bind_ok.mp hround
    exact ⟨_, a, s₄, rfl, hearlier.next hlast hmore hgap, ha⟩
  · exact ⟨[], first, s, rfl, .first, hfirst⟩

/-- Every item of a list that has been read has been read where those in front of it end. -/
theorem exists_read_of_listOf (h : (listOf continues separator item).run s = .ok items s')
    {earlier later : List α} {a : α} (hsplit : items = earlier ++ a :: later) :
    ∃ t t', ItemsTo continues separator item s earlier t ∧ item.run t = .ok a t' := by
  obtain ⟨front, last, t, rfl, hfront, hlast⟩ := run_listOf_ok h
  obtain ⟨rfl, rfl⟩ | ⟨rest, hsplit⟩ := split_concat hsplit
  · exact ⟨t, s', hfront, hlast⟩
  · exact hfront.exists_read hsplit

/-- Each item of a list has been read where an item starts. -/
theorem exists_itemAt_of_mem (h : (listOf continues separator item).run s = .ok items s') {a : α}
    (ha : a ∈ items) : ∃ t t', ItemAt continues separator item s t ∧ item.run t = .ok a t' := by
  obtain ⟨earlier, later, hsplit⟩ := List.append_of_mem ha
  obtain ⟨t, t', hitems, hread⟩ := exists_read_of_listOf h hsplit
  exact ⟨t, t', hitems.itemAt, hread⟩

end

/-! ## Parts that yield a tree -/

/-- A part, run from a state, yields a tree with these nodes. -/
inductive Part.Gives : Part → State → List Expr → Prop where
  | statement {s s' : State} {stmt : Stmt} (read : Grammar.statement.run s = .ok stmt s') :
    Gives .statement s stmt.nodes
  | conditional {s s' : State} {conditional : Conditional}
    (read : Grammar.conditional.run s = .ok conditional s') :
    Gives .conditional s conditional.nodes
  | expression {s s' : State} {level : Level} {expr : Expr}
    (read : (expressionFrom level).run s = .ok expr s') : Gives (.expression level) s expr.nodes
  | operand {s s' : State} {expr : Expr} (read : Grammar.operand.run s = .ok expr s') :
    Gives .operand s expr.nodes

/-- A node is what an operand yields at the state itself, or it is in a tree that a part yields
which is entered. -/
inductive ReadBy : Part → State → Expr → Prop where
  | here {s s' : State} {node : Expr} (read : operand.run s = .ok node s') : ReadBy .operand s node
  | entered {p q : Part} {s t : State} {nodes : List Expr} {node : Expr} (enters : Enters p s q t)
    (gives : q.Gives t nodes) (mem : node ∈ nodes) : ReadBy p s node

/-- An operand of a level is given by the part inside the level. -/
theorem Level.gives_inside {level : Level} {s s' : State} {expr : Expr}
    (h : level.operandRule.run s = .ok expr s') : level.inside.Gives s expr.nodes := by
  cases level with
  | multiplicative => exact .operand h
  | _ => exact .expression h

variable {s s' : State} {node : Expr}

/-! ## Statements -/

/-- A node of some statements is a node of one of them. -/
theorem exists_of_mem_nodesOfAll {stmts : List Stmt} (h : node ∈ Stmt.nodesOfAll stmts) :
    ∃ stmt ∈ stmts, node ∈ stmt.nodes := by
  induction stmts with
  | nil => exact absurd h List.not_mem_nil
  | cons stmt stmts ih =>
    rcases List.mem_append.mp h with h | h
    · exact ⟨stmt, List.mem_cons_self, h⟩
    · obtain ⟨other, hother, h⟩ := ih h
      exact ⟨other, List.mem_cons_of_mem stmt hother, h⟩

/-- A node of a body is in one of its statements. -/
theorem exists_statementAt {stmts : List Stmt} (h : body.run s = .ok stmts s')
    (hnode : node ∈ Stmt.nodesOfAll stmts) :
    ∃ t nodes, StatementAt s t ∧ Part.Gives .statement t nodes ∧ node ∈ nodes := by
  obtain ⟨stmt, hstmt, hnode⟩ := exists_of_mem_nodesOfAll hnode
  rw [body_eq] at h
  obtain ⟨t, t', hat, hread⟩ := exists_itemAt_of_mem h hstmt
  exact ⟨t, _, hat, .statement hread, hnode⟩

/-- A body that may be empty is not empty if it has a node. -/
theorem exists_statementAt_of_unlessAt {stmts : List Stmt}
    (h : (unlessAt .rightBrace body).run s = .ok stmts s')
    (hnode : node ∈ Stmt.nodesOfAll stmts) : s.sees .rightBrace = false ∧
      ∃ t nodes, StatementAt s t ∧ Part.Gives .statement t nodes ∧ node ∈ nodes := by
  rw [unlessAt, run_observe_bind] at h
  split at h
  case isTrue =>
    obtain ⟨rfl, _⟩ := run_pure_ok.mp h
    exact absurd hnode List.not_mem_nil
  case isFalse hmore => exact ⟨Bool.eq_false_iff.mpr hmore, exists_statementAt h hnode⟩

/-- A node of a braced body is in one of its statements. -/
theorem exists_blockAt {kind : ScopeKind} {stmts : List Stmt}
    (h : (braced kind statement).run s = .ok stmts s') (hnode : node ∈ Stmt.nodesOfAll stmts) :
    ∃ t nodes, BlockAt kind s t ∧ Part.Gives .statement t nodes ∧ node ∈ nodes := by
  obtain ⟨_, s₁, brace, h⟩ := run_bind_ok.mp h
  obtain ⟨_, s₂, newline, h⟩ := run_bind_ok.mp h
  obtain ⟨stmts, s₃, hbody, h⟩ := run_bind_ok.mp h
  obtain ⟨_, s₄, _, h⟩ := run_bind_ok.mp h
  obtain ⟨_, s₅, _, h⟩ := run_bind_ok.mp h
  obtain ⟨rfl, _⟩ := run_pure_ok.mp h
  obtain ⟨t, nodes, item, hgives, hnode⟩ := exists_statementAt hbody hnode
  exact ⟨t, nodes, ⟨brace, newline, item⟩, hgives, hnode⟩

/-- A node of an `until` statement is in its condition. -/
theorem untilStatement_readBy {stmt : Stmt} (h : untilStatement.run s = .ok stmt s')
    (hnode : node ∈ stmt.nodes) : ReadBy .statement s node := by
  obtain ⟨token, s₁, keyword, h⟩ := run_bind_ok.mp h
  obtain ⟨_, s₂, mark, h⟩ := run_bind_ok.mp h
  obtain ⟨condition, s₃, hcondition, h⟩ := run_bind_ok.mp h
  obtain ⟨_, s₄, _, h⟩ := run_bind_ok.mp h
  obtain ⟨rfl, _⟩ := run_pure_ok.mp h
  exact .entered (.untilCondition keyword mark) (.expression hcondition) hnode

/-- A node of a loop is in a statement of its body. -/
theorem loop_readBy {stmt : Stmt} (h : loop.run s = .ok stmt s') (hnode : node ∈ stmt.nodes) :
    ReadBy .statement s node := by
  rw [loop_eq] at h
  obtain ⟨⟨token, scope⟩, s₁, front, h⟩ := run_bind_ok.mp h
  obtain ⟨stmts, s₂, hbody, h⟩ := run_bind_ok.mp h
  rw [loopEnd, run_observe_bind] at h
  obtain ⟨_, s₃, _, h⟩ := run_bind_ok.mp h
  obtain ⟨_, s₄, _, h⟩ := run_bind_ok.mp h
  obtain ⟨_, s₅, _, h⟩ := run_bind_ok.mp h
  obtain ⟨rfl, _⟩ := run_pure_ok.mp h
  obtain ⟨more, t, nodes, item, hgives, hnode⟩ := exists_statementAt_of_unlessAt hbody hnode
  exact .entered (.loopBody front more item) hgives hnode

/-- A node of a `return` statement is in its value. -/
theorem resultStatement_readBy {stmt : Stmt} (h : resultStatement.run s = .ok stmt s')
    (hnode : node ∈ stmt.nodes) : ReadBy .statement s node := by
  obtain ⟨token, s₁, keyword, h⟩ := run_bind_ok.mp h
  rw [run_observe_bind] at h
  split at h
  case isTrue =>
    obtain ⟨_, s₂, _, h⟩ := run_bind_ok.mp h
    obtain ⟨rfl, _⟩ := run_pure_ok.mp h
    exact absurd hnode List.not_mem_nil
  case isFalse more =>
    obtain ⟨value, s₂, hvalue, h⟩ := run_bind_ok.mp h
    obtain ⟨_, s₃, _, h⟩ := run_bind_ok.mp h
    obtain ⟨rfl, _⟩ := run_pure_ok.mp h
    exact .entered (.result keyword (Bool.eq_false_iff.mpr more)) (.expression hvalue) hnode

/-- A node of an assignment is on one side of it, and one of an expression is in it. -/
theorem simpleStatement_readBy {stmt : Stmt} (plain : s.current.kind ≠ .keyword)
    (h : simpleStatement.run s = .ok stmt s') (hnode : node ∈ stmt.nodes) :
    ReadBy .statement s node := by
  obtain ⟨value, s₁, front, h⟩ := run_bind_ok.mp h
  rw [run_observe_bind] at h
  split at h
  case isTrue =>
    obtain ⟨token, s₂, colon, h⟩ := run_bind_ok.mp h
    obtain ⟨stored, s₃, hstored, h⟩ := run_bind_ok.mp h
    obtain ⟨_, s₄, _, h⟩ := run_bind_ok.mp h
    obtain ⟨rfl, _⟩ := run_pure_ok.mp h
    rcases List.mem_append.mp hnode with hnode | hnode
    · exact .entered (.target plain) (.expression front) hnode
    · exact .entered (.stored plain front colon) (.expression hstored) hnode
  case isFalse =>
    rw [run_observe_bind] at h
    split at h
    case isTrue =>
      obtain ⟨_, s₂, _, h⟩ := run_bind_ok.mp h
      obtain ⟨rfl, _⟩ := run_pure_ok.mp h
      exact .entered (.target plain) (.expression front) hnode
    case isFalse =>
      rw [run_observe_bind] at h
      exact absurd h run_reject_ok

/-- A node of a statement is in a part that the statement enters. -/
theorem statement_readBy {stmt : Stmt} (h : statement.run s = .ok stmt s')
    (hnode : node ∈ stmt.nodes) : ReadBy .statement s node := by
  rw [statement_eq, statementOver, run_observe_bind] at h
  split at h
  case isTrue hkind =>
    split at h
    case h_1 htext =>
      have keyword : s.seesKeyword "if" = true := by
        simp [State.seesKeyword, Token.isKeyword, hkind, htext]
      obtain ⟨conditional, hconditional, rfl⟩ := run_map_ok.mp h
      exact .entered (.conditional keyword) (.conditional hconditional) hnode
    case h_2 => exact untilStatement_readBy h hnode
    case h_3 => exact loop_readBy h hnode
    case h_4 => exact resultStatement_readBy h hnode
    case h_5 => exact absurd h run_reject_ok
  case isFalse plain => exact simpleStatement_readBy plain h hnode

/-! ## Conditionals -/

/-- A node of the head of a conditional is in the condition or in a statement of the first body. -/
theorem conditionalHead_readBy {token : Token} {condition : Expr} {stmts : List Stmt}
    (h : (conditionalHead statement).run s = .ok (token, condition, stmts) s')
    (hnode : node ∈ condition.nodes ++ Stmt.nodesOfAll stmts) : ReadBy .conditional s node := by
  obtain ⟨_, s₁, keyword, h⟩ := run_bind_ok.mp h
  obtain ⟨_, s₂, front, h⟩ := run_bind_ok.mp h
  obtain ⟨_, s₃, hbody, h⟩ := run_bind_ok.mp h
  obtain ⟨heq, _⟩ := run_pure_ok.mp h
  cases heq
  rcases List.mem_append.mp hnode with hnode | hnode
  · exact .entered (.condition keyword) (.expression front) hnode
  · obtain ⟨t, nodes, item, hgives, hnode⟩ := exists_blockAt hbody hnode
    exact .entered (.branch keyword front item) hgives hnode

/-- A node of a conditional is in its head, behind its `else`, or in what is chained to it. -/
theorem conditional_readBy {conditional : Conditional}
    (h : Grammar.conditional.run s = .ok conditional s') (hnode : node ∈ conditional.nodes) :
    ReadBy .conditional s node := by
  rw [conditional_eq, conditionalStep_eq] at h
  obtain ⟨⟨token, condition, stmts⟩, s₁, front, h⟩ := run_bind_ok.mp h
  rw [run_observe_bind] at h
  split at h
  case isFalse =>
    obtain ⟨rfl, _⟩ := run_pure_ok.mp h
    exact conditionalHead_readBy front hnode
  case isTrue =>
    obtain ⟨_, s₂, keyword, h⟩ := run_bind_ok.mp h
    rw [run_observe_bind] at h
    split at h
    case isTrue more =>
      obtain ⟨next, s₃, hnext, h⟩ := run_bind_ok.mp h
      obtain ⟨rfl, _⟩ := run_pure_ok.mp h
      rcases List.mem_append.mp hnode with hnode | hnode
      · exact conditionalHead_readBy front hnode
      · exact .entered (.chained front keyword more) (.conditional hnext) hnode
    case isFalse last =>
      obtain ⟨alternative, s₃, halternative, h⟩ := run_bind_ok.mp h
      obtain ⟨rfl, _⟩ := run_pure_ok.mp h
      rcases List.mem_append.mp hnode with hnode | hnode
      · exact conditionalHead_readBy front hnode
      · obtain ⟨t, nodes, item, hgives, hnode⟩ := exists_blockAt halternative hnode
        exact .entered (.alternative front keyword (Bool.eq_false_iff.mpr last) item) hgives hnode

/-! ## Functions -/

/-- What a function is known by comes from its head. -/
theorem functionHead_of_function {decl : FunctionDecl} (h : function.run s = .ok decl s') :
    ∃ s₁, functionHead.run s = .ok (decl.token, decl.parameters) s₁ := by
  rw [function_eq] at h
  obtain ⟨⟨name, parameters⟩, s₁, hhead, h⟩ := run_bind_ok.mp h
  obtain ⟨⟨locals, stmts⟩, s₂, _, h⟩ := run_bind_ok.mp h
  obtain ⟨_, s₃, _, h⟩ := run_bind_ok.mp h
  obtain ⟨rfl, _⟩ := run_pure_ok.mp h
  exact ⟨s₁, hhead⟩

/-- A node of the body of a function is in one of the statements that the function enters. -/
theorem exists_enters_of_function {decl : FunctionDecl} (h : function.run s = .ok decl s')
    (hnode : node ∈ Stmt.nodesOfAll decl.body) : ∃ t nodes, Enters .function s .statement t ∧
      Part.Gives .statement t nodes ∧ node ∈ nodes := by
  rw [function_eq] at h
  obtain ⟨⟨name, parameters⟩, s₁, front, h⟩ := run_bind_ok.mp h
  obtain ⟨⟨locals, stmts⟩, s₂, hinside, h⟩ := run_bind_ok.mp h
  obtain ⟨_, s₃, _, h⟩ := run_bind_ok.mp h
  obtain ⟨rfl, _⟩ := run_pure_ok.mp h
  obtain ⟨locals, s₄, lines, hinside⟩ := run_bind_ok.mp hinside
  obtain ⟨stmts, s₅, hbody, hinside⟩ := run_bind_ok.mp hinside
  obtain ⟨_, s₆, _, hinside⟩ := run_bind_ok.mp hinside
  obtain ⟨hpair, _⟩ := run_pure_ok.mp hinside
  obtain ⟨rfl, rfl⟩ := Prod.mk.inj hpair
  obtain ⟨more, t, nodes, item, hgives, hnode⟩ := exists_statementAt_of_unlessAt hbody hnode
  exact ⟨t, nodes, .body front lines more item, hgives, hnode⟩

/-! ## Expressions -/

/-- Operands of a level that have been read have been combined up to their end. -/
theorem builds_of_expressionFrom {level : Level} {expr : Expr}
    (h : (expressionFrom level).run s = .ok expr s') : Builds level s expr s' := by
  rw [expressionFrom_eq] at h
  obtain ⟨first, s₁, hfirst, h⟩ := run_bind_ok.mp h
  exact run_whilst_ok (Builds level s) (fun _ _ _ _ before more round => before.next more round)
    (.first hfirst) h

/-- A node that is not binary is in one of the operands that have been combined. -/
theorem Builds.readBy {level : Level} {expr : Expr} {t : State} (h : Builds level s expr t)
    (hplain : node.isBinary = false) (hnode : node ∈ expr.nodes) :
    ReadBy (.expression level) s node := by
  induction h with
  | first read => exact .entered (.first level) (Level.gives_inside read) hnode
  | next before more round ih =>
    obtain ⟨operator, s₁, operator_read, h⟩ := run_bind_ok.mp round
    obtain ⟨right, s₂, right_read, h⟩ := run_bind_ok.mp h
    obtain ⟨_, rfl, _⟩ := run_combine_ok.mp h
    rcases List.mem_append.mp hnode with hnode | hnode
    · rcases List.mem_append.mp hnode with hnode | hnode
      · exact ih hnode
      · exact .entered (.right before more operator_read) (Level.gives_inside right_read) hnode
    · rw [List.mem_singleton.mp hnode] at hplain
      cases hplain

section

variable {expr : Expr}

/-- An operator in front is a node itself, and the others are in its operand. -/
theorem prefixed_readBy {kind : Kind} {node' : Token → Expr → Expr}
    (unary : kind ∈ [.dot, .minus, .bitwiseNot]) (hshape : PrefixNode kind node')
    (h : (prefixed kind node' operand).run s = .ok expr s') (hnode : node ∈ expr.nodes) :
    node = expr ∨ ReadBy .operand s node := by
  obtain ⟨token, s₁, operator, h⟩ := run_bind_ok.mp h
  obtain ⟨content, s₂, hcontent, h⟩ := run_bind_ok.mp h
  obtain ⟨rfl, _⟩ := run_pure_ok.mp h
  rw [hshape.nodes] at hnode
  rcases List.mem_append.mp hnode with hnode | hnode
  · exact .inr (.entered (.prefixed unary operator) (.operand hcontent) hnode)
  · exact .inl (List.mem_singleton.mp hnode)

/-- A group is a node itself, and the others are in its content. -/
theorem parenthesised_readBy (h : (parenthesised operand).run s = .ok expr s')
    (hnode : node ∈ expr.nodes) : node = expr ∨ ReadBy .operand s node := by
  obtain ⟨token, s₁, paren, h⟩ := run_bind_ok.mp h
  rw [run_observe_bind] at h
  split at h
  case isTrue =>
    obtain ⟨_, s₂, _, h⟩ := run_bind_ok.mp h
    obtain ⟨rfl, _⟩ := run_pure_ok.mp h
    exact .inl (List.mem_singleton.mp hnode)
  case isFalse more =>
    obtain ⟨content, s₂, hcontent, h⟩ := run_bind_ok.mp h
    obtain ⟨_, s₃, _, h⟩ := run_bind_ok.mp h
    obtain ⟨rfl, _⟩ := run_pure_ok.mp h
    rcases List.mem_append.mp hnode with hnode | hnode
    · exact .inr (.entered (.content paren (Bool.eq_false_iff.mpr more)) (.operand hcontent) hnode)
    · exact .inl (List.mem_singleton.mp hnode)

/-- A call is a node itself, and the others are in its arguments. -/
theorem call_readBy (called : s.seesNext .leftParen = true)
    (h : (call expression).run s = .ok expr s') (hnode : node ∈ expr.nodes) :
    node = expr ∨ ReadBy .operand s node := by
  obtain ⟨name, s₁, front, h⟩ := run_bind_ok.mp h
  rw [run_observe_bind] at h
  split at h
  case h_1 => exact absurd h run_reject_ok
  case h_2 function visible =>
    obtain ⟨_, s₂, paren, h⟩ := run_bind_ok.mp h
    obtain ⟨arguments, s₃, harguments, h⟩ := run_bind_ok.mp h
    obtain ⟨_, s₄, _, h⟩ := run_bind_ok.mp h
    obtain ⟨_, s₅, _, h⟩ := run_bind_ok.mp h
    obtain ⟨rfl, _⟩ := run_pure_ok.mp h
    rcases List.mem_append.mp hnode with hnode | hnode
    · obtain ⟨argument, hargument, hnode⟩ := Expr.mem_nodesOfAll.mp hnode
      rw [unlessAt, run_observe_bind] at harguments
      split at harguments
      case isTrue =>
        obtain ⟨rfl, _⟩ := run_pure_ok.mp harguments
        exact absurd hargument List.not_mem_nil
      case isFalse more =>
        have hmore : s₂.sees .rightParen = false := Bool.eq_false_iff.mpr more
        obtain ⟨t, t', item, hread⟩ := exists_itemAt_of_mem harguments hargument
        exact .inr (.entered (.argument called front visible paren hmore item) (.expression hread)
          hnode)
    · exact .inl (List.mem_singleton.mp hnode)

/-- The name of a variable is a node by itself. -/
theorem reference_readBy (h : reference.run s = .ok expr s') (hnode : node ∈ expr.nodes) :
    node = expr := by
  obtain ⟨token, s₁, _, h⟩ := run_bind_ok.mp h
  rw [run_observe_bind] at h
  obtain ⟨_, s₂, _, h⟩ := run_bind_ok.mp h
  obtain ⟨rfl, _⟩ := run_pure_ok.mp h
  exact List.mem_singleton.mp hnode

/-- A literal is a node by itself. -/
theorem literal_readBy (h : literal.run s = .ok expr s') (hnode : node ∈ expr.nodes) :
    node = expr := by
  rw [literal, run_observe_bind] at h
  split at h
  case h_1 => exact absurd h run_reject_ok
  case h_2 =>
    obtain ⟨token, s₁, _, h⟩ := run_bind_ok.mp h
    obtain ⟨_, s₂, _, h⟩ := run_bind_ok.mp h
    obtain ⟨rfl, _⟩ := run_pure_ok.mp h
    exact List.mem_singleton.mp hnode

/-- A node of an operand is the operand itself or in a part that it enters. -/
theorem operand_readBy (h : operand.run s = .ok expr s') (hnode : node ∈ expr.nodes) :
    ReadBy .operand s node := by
  have hcases : node = expr ∨ ReadBy .operand s node := by
    rw [operand_eq, operandOver, run_observe_bind] at h
    split at h
    case h_1 =>
      rw [run_observe_bind] at h
      split at h
      case isTrue called => exact call_readBy called h hnode
      case isFalse => exact .inl (reference_readBy h hnode)
    case h_2 => exact .inl (literal_readBy h hnode)
    case h_3 => exact .inl (literal_readBy h hnode)
    case h_4 => exact .inl (literal_readBy h hnode)
    case h_5 => exact parenthesised_readBy h hnode
    case h_6 => exact prefixed_readBy (by decide) prefixNode_dereference h hnode
    case h_7 => exact prefixed_readBy (by decide) prefixNode_negation h hnode
    case h_8 => exact prefixed_readBy (by decide) prefixNode_complement h hnode
    case h_9 => exact absurd h run_reject_ok
  rcases hcases with rfl | hbelow
  · exact .here h
  · exact hbelow

end

/-! ## Descents -/

/-- A node that is not binary is an operand where the part is, or in a part that it enters. -/
theorem Part.Gives.readBy {p : Part} {nodes : List Expr} (h : p.Gives s nodes)
    (hplain : node.isBinary = false) (hnode : node ∈ nodes) : ReadBy p s node := by
  cases h with
  | statement read => exact statement_readBy read hnode
  | conditional read => exact conditional_readBy read hnode
  | expression read => exact (builds_of_expressionFrom read).readBy hplain hnode
  | operand read => exact operand_readBy read hnode

/-- A node of a tree that is not binary is what an operand yields, where the part that yields the
tree descends to. -/
theorem Part.Gives.exists_operand {p : Part} {nodes : List Expr} (h : p.Gives s nodes)
    (hplain : node.isBinary = false) (hnode : node ∈ nodes) :
    ∃ t t', Descends p s .operand t ∧ Grammar.operand.run t = .ok node t' := by
  -- A part that is entered has the node in its own tree, and it is further down.
  induction hplace : (p, s) using wellFounded_enters.induction generalizing p s nodes with
  | h place ih =>
    subst hplace
    cases h.readBy hplain hnode with
    | here read => exact ⟨s, _, .here _ s, read⟩
    | entered enters gives mem =>
      obtain ⟨t, t', hdescends, hread⟩ := ih _ enters gives mem rfl
      exact ⟨t, t', .enter enters hdescends, hread⟩

end Tranquility.Grammar
