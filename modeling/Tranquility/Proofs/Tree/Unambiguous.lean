import Tranquility.Proofs.Grammar.TreeTrace
import Tranquility.Proofs.Tree.Shape

/-!
# Expressions are unambiguous

Tokens that start with an expression of the shape that the grammar gives start with no other one,
types aside, if in both cases what is left does not go on with the expression. For operands this is
read off their first tokens. On a level both expressions are chains, and chains are compared round
by round: an operator of the level after one of them is an operator after the other. Nesting is one
induction over a bound on the tokens, as in the grammar itself.
-/

namespace Tranquility

open Grammar Piece

/-! ## Expressions in front of tokens -/

/-- Tokens do not go on with an expression that binds at least as tightly as a rank: no parenthesis
opens, and no operator comes that binds as tightly. -/
def Ends (rank : Nat) (tokens : List Token) : Prop :=
  ∀ token ∈ tokens.head?, token.kind ≠ .leftParen ∧
    ∀ level, Level.ofKind? token.kind = some level → level.rank < rank

theorem Ends.mono {rank rank' : Nat} {tokens : List Token} (h : Ends rank tokens)
    (hle : rank ≤ rank') : Ends rank' tokens := fun token htoken =>
  ⟨(h token htoken).1, fun level hlevel => Nat.lt_of_lt_of_le ((h token htoken).2 level hlevel) hle⟩

/-- An expression that binds at least as tightly as a rank stands in front of tokens and ends there.
-/
structure Stands (rank : Nat) (expr : Expr) (tokens : List Token) : Prop where
  shaped : expr.Shaped
  rank_le : rank ≤ expr.rank
  lead : Lead expr.pieces tokens
  ends : Ends rank (tokens.drop expr.pieces.length)

/-- No two expressions that bind at least as tightly as a rank stand in front of the same tokens, if
these are fewer than a bound. -/
def Determined (bound rank : Nat) : Prop :=
  ∀ tokens expr expr', tokens.length < bound → Stands rank expr tokens → Stands rank expr' tokens →
    expr.untyped = expr'.untyped

/-- The first token is of the kind that the expression starts with. -/
theorem Stands.kind_eq {rank : Nat} {expr : Expr} {token : Token} {rest : List Token}
    (h : Stands rank expr (token :: rest)) : token.kind = expr.start := by
  obtain ⟨piece, pieces, hpieces, hkind⟩ := expr.exists_piece
  have hlead := h.lead
  rw [hpieces] at hlead
  exact hlead.1.kind.trans hkind

/-! ## Items in front of tokens -/

/-- Expressions with a piece in front of each, written out. -/
def Piece.items (items : List (Piece × Expr)) : List Piece :=
  items.flatMap fun item => item.1 :: item.2.pieces

/-- Expressions that bind at least as tightly as a rank stand in front of tokens, each after a token
of one of the kinds that go on with them, and end where no such token comes. -/
structure ItemsStand (goes : Kind → Prop) (rank : Nat) (items : List (Piece × Expr))
    (tokens : List Token) : Prop where
  kinds : ∀ item ∈ items, goes item.1.kind
  shaped : ∀ item ∈ items, item.2.Shaped
  rank_le : ∀ item ∈ items, rank ≤ item.2.rank
  lead : Lead (Piece.items items) tokens
  ends : Ends rank (tokens.drop (Piece.items items).length)
  stops : ∀ token ∈ (tokens.drop (Piece.items items).length).head?, ¬ goes token.kind

section

variable {goes : Kind → Prop} {bound rank : Nat} {items items' : List (Piece × Expr)}
  {tokens : List Token}

/-- In front of items an expression ends, for these kinds do not go on with it. -/
theorem ItemsStand.ends_front (hgoes : ∀ token rest, goes token.kind → Ends rank (token :: rest))
    (h : ItemsStand goes rank items tokens) : Ends rank tokens := by
  cases items with
  | nil => exact h.ends
  | cons item items =>
    cases tokens with
    | nil => exact h.lead.elim
    | cons token rest =>
      refine hgoes token rest ?_
      rw [h.lead.1.kind]
      exact h.kinds item List.mem_cons_self

/-- The first of the items stands after the first token, and the others stand after it. -/
theorem ItemsStand.step (hgoes : ∀ token rest, goes token.kind → Ends rank (token :: rest))
    {item : Piece × Expr} {token : Token} {rest : List Token}
    (h : ItemsStand goes rank (item :: items) (token :: rest)) :
    item.1.Fits token ∧ Stands rank item.2 rest ∧
      ItemsStand goes rank items (rest.drop item.2.pieces.length) := by
  obtain ⟨hfits, hlead⟩ := h.lead
  obtain ⟨hlead, hitems⟩ := lead_append.mp hlead
  have hdrop : (token :: rest).drop (Piece.items (item :: items)).length =
      (rest.drop item.2.pieces.length).drop (Piece.items items).length := by
    rw [List.drop_drop, ← List.length_append]
    rfl
  have hends := h.ends
  have hstops := h.stops
  rw [hdrop] at hends hstops
  have hrest : ItemsStand goes rank items (rest.drop item.2.pieces.length) :=
    ⟨fun other hother => h.kinds other (List.mem_cons_of_mem _ hother),
      fun other hother => h.shaped other (List.mem_cons_of_mem _ hother),
      fun other hother => h.rank_le other (List.mem_cons_of_mem _ hother), hitems, hends, hstops⟩
  exact ⟨hfits, ⟨h.shaped item List.mem_cons_self, h.rank_le item List.mem_cons_self, hlead,
    hrest.ends_front hgoes⟩, hrest⟩

/-- Items that stand in front of the same tokens are the same ones: where one list goes on the other
one does, and the expressions between are determined. -/
theorem Determined.forall₂ (h : Determined bound rank)
    (hgoes : ∀ token rest, goes token.kind → Ends rank (token :: rest))
    (hlt : tokens.length < bound) (hitems : ItemsStand goes rank items tokens)
    (hitems' : ItemsStand goes rank items' tokens) :
    List.Forall₂ (fun item item' => (∃ token, item.1.Fits token ∧ item'.1.Fits token) ∧
      item.2.untyped = item'.2.untyped) items items' := by
  induction items generalizing items' tokens with
  | nil =>
    cases items' with
    | nil => exact .nil
    | cons item' items' =>
      cases tokens with
      | nil => exact hitems'.lead.elim
      | cons token rest =>
        refine absurd ?_ (hitems.stops token rfl)
        rw [hitems'.lead.1.kind]
        exact hitems'.kinds item' List.mem_cons_self
  | cons item items ih =>
    cases tokens with
    | nil => exact hitems.lead.elim
    | cons token rest =>
      obtain ⟨hfits, hstands, hrest⟩ := hitems.step hgoes
      cases items' with
      | nil =>
        refine absurd ?_ (hitems'.stops token rfl)
        rw [hfits.kind]
        exact hitems.kinds item List.mem_cons_self
      | cons item' items' =>
        obtain ⟨hfits', hstands', hrest'⟩ := hitems'.step hgoes
        have hlt' : rest.length < bound := Nat.lt_of_succ_lt hlt
        have huntyped := h rest _ _ hlt' hstands hstands'
        rw [← Expr.pieces_eq huntyped] at hrest'
        have hdrop : (rest.drop item.2.pieces.length).length < bound := by
          rw [List.length_drop]
          omega
        exact .cons ⟨⟨token, hfits, hfits'⟩, huntyped⟩ (ih hdrop hrest hrest')

end

/-! ## Levels -/

section

variable {bound : Nat} {tokens : List Token}

/-- The rounds of a chain, each with the piece that its operator writes. -/
def roundItems (rounds : List (Token × Expr)) : List (Piece × Expr) :=
  rounds.map fun round => (keep round.1.kind round.1, round.2)

/-- An operator of a level ends an operand of the level. -/
theorem ends_of_ofKind? {level : Level} (token : Token) (rest : List Token)
    (h : Level.ofKind? token.kind = some level) : Ends (level.rank + 1) (token :: rest) := by
  rintro _ ⟨⟩
  exact Level.not_tighter_of_ofKind? h

/-- The first operand of a chain stands in front of its rounds. -/
theorem Stands.of_chain {level : Level} {expr first : Expr} {rounds : List (Token × Expr)}
    (h : Stands level.rank expr tokens) (hchain : Expr.Chain level expr first rounds) :
    Stands (level.rank + 1) first tokens ∧
      ItemsStand (fun kind => Level.ofKind? kind = some level) (level.rank + 1) (roundItems rounds)
        (tokens.drop first.pieces.length) := by
  have hpieces : expr.pieces = first.pieces ++ Piece.items (roundItems rounds) := by
    rw [hchain.pieces_eq, Piece.items, roundItems, List.flatMap_map]
  have hlead := h.lead
  have hends := h.ends
  rw [hpieces] at hlead hends
  obtain ⟨hfirst, hrounds⟩ := lead_append.mp hlead
  rw [List.length_append, ← List.drop_drop] at hends
  have hitems : ItemsStand (fun kind => Level.ofKind? kind = some level) (level.rank + 1)
      (roundItems rounds) (tokens.drop first.pieces.length) := by
    refine ⟨?_, ?_, ?_, hrounds, hends.mono (Nat.le_succ _), fun token htoken hlevel => ?_⟩
    · exact List.forall_mem_map.mpr fun round hround => (hchain.rounds round hround).1
    · exact List.forall_mem_map.mpr fun round hround => (hchain.rounds round hround).2.1
    · exact List.forall_mem_map.mpr fun round hround => (hchain.rounds round hround).2.2
    · exact Nat.lt_irrefl _ ((hends token htoken).2 level hlevel)
  exact ⟨⟨hchain.shaped, hchain.rank_lt, hfirst, hitems.ends_front ends_of_ofKind?⟩, hitems⟩

/-- On a level expressions are determined, if they are on the tighter ones. -/
theorem Determined.chain {level : Level} (h : Determined bound (level.rank + 1)) :
    Determined bound level.rank := by
  intro tokens expr expr' hlt hstands hstands'
  obtain ⟨first, rounds, hchain⟩ := hstands.shaped.exists_chain hstands.rank_le
  obtain ⟨first', rounds', hchain'⟩ := hstands'.shaped.exists_chain hstands'.rank_le
  obtain ⟨hfirst, hrounds⟩ := hstands.of_chain hchain
  obtain ⟨hfirst', hrounds'⟩ := hstands'.of_chain hchain'
  have huntyped := h tokens _ _ hlt hfirst hfirst'
  rw [← Expr.pieces_eq huntyped] at hrounds'
  have hdrop : (tokens.drop first.pieces.length).length < bound := by
    rw [List.length_drop]
    omega
  have hitems := h.forall₂ ends_of_ofKind? hdrop hrounds hrounds'
  rw [roundItems, roundItems, List.forall₂_map_left_iff, List.forall₂_map_right_iff] at hitems
  have heq : rounds.map (fun round => (round.1, round.2.untyped)) =
      rounds'.map (fun round => (round.1, round.2.untyped)) := by
    rw [← List.forall₂_eq_eq_eq, List.forall₂_map_left_iff, List.forall₂_map_right_iff]
    refine hitems.imp fun round round' ⟨⟨token, hfits, hfits'⟩, hright⟩ => ?_
    have hoperator : round.1 = round'.1 := by
      rw [← hfits.kept _ rfl, ← hfits'.kept _ rfl]
    rw [hoperator, hright]
  rw [hchain.untyped_eq, hchain'.untyped_eq, huntyped, heq]

/-- All six levels, one over the other. -/
theorem Determined.climb (h : Determined bound operandRank) (level : Level) :
    Determined bound level.rank := by
  have hmultiplicative : Determined bound Level.multiplicative.rank := h.chain
  have hadditive : Determined bound Level.additive.rank := hmultiplicative.chain
  have hshift : Determined bound Level.shift.rank := hadditive.chain
  have hcomparison : Determined bound Level.comparison.rank := hshift.chain
  have hbitwise : Determined bound Level.bitwiseComparison.rank := hcomparison.chain
  cases level with
  | xor => exact hbitwise.chain
  | bitwiseComparison => exact hbitwise
  | comparison => exact hcomparison
  | shift => exact hshift
  | additive => exact hadditive
  | multiplicative => exact hmultiplicative

end

/-! ## Operands -/

section

variable {bound rank : Nat} {first : Token} {rest : List Token}

/-- A token that is neither a parenthesis nor an operator ends any expression. -/
theorem ends_of_lead {piece : Piece} {pieces : List Piece} {tokens : List Token}
    (h : Lead (piece :: pieces) tokens) (hparen : piece.kind ≠ .leftParen)
    (hlevel : Level.ofKind? piece.kind = none) : Ends rank tokens := by
  cases tokens with
  | nil => exact h.elim
  | cons token rest =>
    rintro _ ⟨⟩
    rw [h.1.kind]
    refine ⟨hparen, fun level hsome => ?_⟩
    rw [hlevel] at hsome
    cases hsome

/-- An operand with an operator in front stands after its token. -/
theorem Stands.of_prefixed {kind : Kind} {node : Token → Expr → Expr} (hnode : PrefixNode kind node)
    {token : Token} {operand : Expr} (henclosed : (node token operand).enclosed? = some operand)
    (h : Stands operandRank (node token operand) (first :: rest)) :
    first = token ∧ Stands operandRank operand rest := by
  have hlead := h.lead
  have hends := h.ends
  rw [hnode.pieces] at hlead hends
  obtain ⟨hshaped, hrank⟩ := h.shaped.operand henclosed
  exact ⟨hlead.1.kept token rfl, hshaped, Nat.le_of_eq hrank.symm, hlead.2, hends⟩

/-- What is in parentheses stands after the opening one. -/
theorem Stands.of_group {token : Token} {content : Expr} {type : Ty}
    (h : Stands operandRank (.group token content type) (first :: rest)) :
    first = token ∧ Stands operandRank content rest := by
  obtain ⟨hshaped, hrank⟩ := h.shaped.operand rfl
  obtain ⟨hfits, hlead⟩ := h.lead
  obtain ⟨hcontent, hclose⟩ := lead_append.mp hlead
  exact ⟨hfits.kept token rfl, hshaped, Nat.le_of_eq hrank.symm, hcontent,
    ends_of_lead hclose (by decide) rfl⟩

/-- No expression starts with a closing parenthesis. -/
theorem Stands.not_close {expr : Expr} {tokens : List Token} (h : Stands rank expr tokens)
    {pieces : List Piece} : ¬ Lead (mark .rightParen :: pieces) tokens := by
  intro hclose
  cases tokens with
  | nil => exact hclose.elim
  | cons close after =>
    have hkind : close.kind = .rightParen := hclose.1.kind
    have hstart := h.shaped.start
    rw [← h.kind_eq, hkind] at hstart
    cases hstart

/-- The arguments of a call stand after its opening parenthesis. -/
theorem Stands.of_call {token : Token} {arguments : List Expr}
    (h : Stands rank (.call token arguments) (first :: rest)) :
    first = token ∧ (∀ argument ∈ arguments, argument.Shaped) ∧ ∃ opening inside,
      rest = opening :: inside ∧ opening.kind = .leftParen ∧
        Lead (separated (Expr.piecesOfEach arguments) ++ [mark .rightParen]) inside := by
  obtain ⟨hfits, hlead⟩ := h.lead
  refine ⟨hfits.kept token rfl, fun argument hargument => h.shaped.part ?_, ?_⟩
  · exact fun node hnode =>
      List.mem_append_left _ (Expr.mem_nodesOfAll.mpr ⟨argument, hargument, hnode⟩)
  · cases rest with
    | nil => exact hlead.elim
    | cons opening inside => exact ⟨opening, inside, rfl, hlead.1.kind, hlead.2⟩

/-- A comma ends any expression. -/
theorem ends_of_comma (token : Token) (rest : List Token) (h : token.kind = .comma) :
    Ends 0 (token :: rest) := by
  rintro _ ⟨⟩
  rw [h]
  exact ⟨by decide, nofun⟩

/-- The first argument stands in front of the others, which come after commas. -/
theorem stands_of_arguments {argument : Expr} {arguments : List Expr} {tokens : List Token}
    (hshaped : ∀ other ∈ argument :: arguments, other.Shaped)
    (h : Lead (separated (Expr.piecesOfEach (argument :: arguments)) ++ [mark .rightParen])
      tokens) :
    Stands 0 argument tokens ∧
      ItemsStand (· = .comma) 0 (arguments.map fun other => (mark .comma, other))
        (tokens.drop argument.pieces.length) := by
  have hpieces : separated (Expr.piecesOfEach (argument :: arguments)) = argument.pieces ++
      Piece.items (arguments.map fun other => (mark .comma, other)) := by
    rw [Expr.piecesOfEach, separated_cons, Piece.items, List.flatMap_map, ← Expr.map_pieces,
      List.map_map, List.flatMap_map]
    rfl
  rw [hpieces, List.append_assoc] at h
  obtain ⟨hargument, hrest⟩ := lead_append.mp h
  obtain ⟨hitems, hclose⟩ := lead_append.mp hrest
  obtain ⟨hfirst, hothers⟩ := List.forall_mem_cons.mp hshaped
  have hstand : ItemsStand (· = .comma) 0 (arguments.map fun other => (mark .comma, other))
      (tokens.drop argument.pieces.length) := by
    refine ⟨?_, List.forall_mem_map.mpr hothers, fun _ _ => Nat.zero_le _, hitems,
      ends_of_lead hclose (by decide) rfl, ?_⟩
    · exact List.forall_mem_map.mpr fun _ _ => rfl
    · generalize (tokens.drop argument.pieces.length).drop _ = after at hclose
      cases after with
      | nil => exact hclose.elim
      | cons close after =>
        rintro _ ⟨⟩
        rw [hclose.1.kind]
        decide
  exact ⟨⟨hfirst, Nat.zero_le _, hargument, hstand.ends_front ends_of_comma⟩, hstand⟩

/-- Arguments between parentheses are determined. -/
theorem Determined.arguments (h : Determined bound 0) {arguments arguments' : List Expr}
    {tokens : List Token} (hlt : tokens.length < bound)
    (hshaped : ∀ argument ∈ arguments, argument.Shaped)
    (hshaped' : ∀ argument ∈ arguments', argument.Shaped)
    (hlead : Lead (separated (Expr.piecesOfEach arguments) ++ [mark .rightParen]) tokens)
    (hlead' : Lead (separated (Expr.piecesOfEach arguments') ++ [mark .rightParen]) tokens) :
    Expr.untypedAll arguments = Expr.untypedAll arguments' := by
  cases arguments with
  | nil =>
    cases arguments' with
    | nil => rfl
    | cons argument' arguments' =>
      exact absurd hlead (stands_of_arguments hshaped' hlead').1.not_close
  | cons argument arguments =>
    obtain ⟨hstands, hitems⟩ := stands_of_arguments hshaped hlead
    cases arguments' with
    | nil => exact absurd hlead' hstands.not_close
    | cons argument' arguments' =>
      obtain ⟨hstands', hitems'⟩ := stands_of_arguments hshaped' hlead'
      have huntyped := h tokens _ _ hlt hstands hstands'
      rw [← Expr.pieces_eq huntyped] at hitems'
      have hdrop : (tokens.drop argument.pieces.length).length < bound := by
        rw [List.length_drop]
        omega
      have hothers := h.forall₂ ends_of_comma hdrop hitems hitems'
      rw [List.forall₂_map_left_iff, List.forall₂_map_right_iff] at hothers
      have heq : arguments.map Expr.untyped = arguments'.map Expr.untyped := by
        rw [← List.forall₂_eq_eq_eq, List.forall₂_map_left_iff, List.forall₂_map_right_iff]
        exact hothers.imp fun _ _ hother => hother.2
      rw [Expr.untypedAll, Expr.untypedAll, huntyped, Expr.untypedAll_eq_map,
        Expr.untypedAll_eq_map, heq]

/-- A name with a parenthesis after it is no variable. -/
theorem Stands.not_call {token token' : Token} {arguments : List Expr}
    (h : Stands rank (.reference token) (first :: rest)) :
    ¬ Stands rank (.call token' arguments) (first :: rest) := by
  intro hcall
  obtain ⟨_, _, opening, inside, rfl, hkind, _⟩ := hcall.of_call
  exact (h.ends opening rfl).1 hkind

/-- Empty parentheses are no group. -/
theorem Stands.not_group {token token' : Token} {content : Expr} {type : Ty}
    (h : Stands operandRank (.unit token) (first :: rest)) :
    ¬ Stands operandRank (.group token' content type) (first :: rest) := fun hgroup =>
  hgroup.of_group.2.not_close h.lead.2

/-- A call is determined if its arguments are. -/
theorem Determined.call (h : Determined bound 0) (hlt : rest.length < bound)
    {token token' : Token} {arguments arguments' : List Expr}
    (hstands : Stands rank (.call token arguments) (first :: rest))
    (hstands' : Stands rank (.call token' arguments') (first :: rest)) :
    (Expr.call token arguments).untyped = (Expr.call token' arguments').untyped := by
  obtain ⟨rfl, hshaped, opening, inside, rfl, _, hlead⟩ := hstands.of_call
  obtain ⟨rfl, hshaped', _, _, heq, _, hlead'⟩ := hstands'.of_call
  obtain ⟨rfl, rfl⟩ := List.cons.inj heq
  have hinside : inside.length < bound := Nat.lt_of_succ_lt hlt
  rw [Expr.untyped, Expr.untyped, h.arguments hinside hshaped hshaped' hlead hlead']

/-- A group is determined if its content is. -/
theorem Determined.group (h : Determined bound operandRank) (hlt : rest.length < bound)
    {token token' : Token} {content content' : Expr} {type type' : Ty}
    (hstands : Stands operandRank (.group token content type) (first :: rest))
    (hstands' : Stands operandRank (.group token' content' type') (first :: rest)) :
    (Expr.group token content type).untyped = (Expr.group token' content' type').untyped := by
  obtain ⟨rfl, hcontent⟩ := hstands.of_group
  obtain ⟨rfl, hcontent'⟩ := hstands'.of_group
  rw [Expr.untyped, Expr.untyped, h rest _ _ hlt hcontent hcontent']

/-- An operator in front is the first token, and its operand is determined if operands are. -/
theorem Determined.prefixed (h : Determined bound operandRank) (hlt : rest.length < bound)
    {kind : Kind} {node : Token → Expr → Expr} (hnode : PrefixNode kind node)
    {token token' : Token} {operand operand' : Expr}
    (henclosed : (node token operand).enclosed? = some operand)
    (henclosed' : (node token' operand').enclosed? = some operand')
    (hstands : Stands operandRank (node token operand) (first :: rest))
    (hstands' : Stands operandRank (node token' operand') (first :: rest)) :
    token = token' ∧ operand.untyped = operand'.untyped := by
  obtain ⟨rfl, hoperand⟩ := hstands.of_prefixed hnode henclosed
  obtain ⟨rfl, hoperand'⟩ := hstands'.of_prefixed hnode henclosed'
  exact ⟨rfl, h rest _ _ hlt hoperand hoperand'⟩

/-- Operands are determined by their first tokens, if what is inside them is determined. -/
theorem Determined.operand (h : Determined bound operandRank) (hargument : Determined bound 0) :
    Determined (bound + 1) operandRank := by
  intro tokens expr expr' hlt hstands hstands'
  cases tokens with
  | nil =>
    obtain ⟨piece, pieces, hpieces, _⟩ := expr.exists_piece
    have hlead := hstands.lead
    rw [hpieces] at hlead
    exact hlead.elim
  | cons first rest =>
    replace hlt : rest.length < bound := Nat.lt_of_succ_lt_succ hlt
    have hbinary : expr.isBinary = false :=
      Expr.rank_eq_operandRank_iff.mp (Nat.le_antisymm expr.rank_le hstands.rank_le)
    have hbinary' : expr'.isBinary = false :=
      Expr.rank_eq_operandRank_iff.mp (Nat.le_antisymm expr'.rank_le hstands'.rank_le)
    -- Both start with the first token, so that its kind leaves one or two forms for the second.
    have hexpr' := hstands'.shaped.operandFrom hbinary'
    rw [← hstands'.kind_eq, hstands.kind_eq] at hexpr'
    cases expr with
    | literal token type =>
      have hliteral := hstands.shaped.literal token type List.mem_cons_self
      obtain ⟨token', type', rfl⟩ := (Expr.operandFrom_of_literal hliteral _).mp hexpr'
      obtain rfl : first = token := hstands.lead.1.kept token rfl
      obtain rfl : first = token' := hstands'.lead.1.kept token' rfl
      rfl
    | reference token =>
      rcases hexpr' with ⟨token', rfl⟩ | ⟨token', arguments', rfl⟩
      · obtain rfl : first = token := hstands.lead.1.kept token rfl
        obtain rfl : first = token' := hstands'.lead.1.kept token' rfl
        rfl
      · exact absurd hstands' hstands.not_call
    | call token arguments =>
      rcases hexpr' with ⟨token', rfl⟩ | ⟨token', arguments', rfl⟩
      · exact absurd hstands hstands'.not_call
      · exact hargument.call hlt hstands hstands'
    | unit token =>
      rcases hexpr' with ⟨token', rfl⟩ | ⟨token', content', type', rfl⟩
      · obtain rfl : first = token := hstands.lead.1.kept token rfl
        obtain rfl : first = token' := hstands'.lead.1.kept token' rfl
        rfl
      · exact absurd hstands' hstands.not_group
    | group token content type =>
      rcases hexpr' with ⟨token', rfl⟩ | ⟨token', content', type', rfl⟩
      · exact absurd hstands hstands'.not_group
      · exact h.group hlt hstands hstands'
    | dereference token operand =>
      obtain ⟨token', operand', rfl⟩ := hexpr'
      obtain ⟨rfl, heq⟩ := h.prefixed hlt prefixNode_dereference rfl rfl hstands hstands'
      rw [Expr.untyped, Expr.untyped, heq]
    | negation token operand =>
      obtain ⟨token', operand', rfl⟩ := hexpr'
      obtain ⟨rfl, heq⟩ := h.prefixed hlt prefixNode_negation rfl rfl hstands hstands'
      rw [Expr.untyped, Expr.untyped, heq]
    | complement token operand =>
      obtain ⟨token', operand', rfl⟩ := hexpr'
      obtain ⟨rfl, heq⟩ := h.prefixed hlt prefixNode_complement rfl rfl hstands hstands'
      rw [Expr.untyped, Expr.untyped, heq]
    | binary operator left right type => cases hbinary

end

/-! ## Expressions -/

/-- No two operands stand in front of the same tokens. -/
theorem determined_operand (bound : Nat) : Determined bound operandRank := by
  induction bound with
  | zero => exact fun _ _ _ hlt => absurd hlt (Nat.not_lt_zero _)
  | succ bound ih => exact ih.operand (ih.climb .xor)

/-- Tokens are written by one expression at most that has the shape that the grammar gives it, types
aside. -/
theorem Expr.untyped_eq_of_forall₂ {expr expr' : Expr} {tokens : List Token} (hshaped : expr.Shaped)
    (hshaped' : expr'.Shaped) (h : List.Forall₂ Fits expr.pieces tokens)
    (h' : List.Forall₂ Fits expr'.pieces tokens) : expr.untyped = expr'.untyped := by
  have hstands : ∀ {expr : Expr}, expr.Shaped → List.Forall₂ Fits expr.pieces tokens →
      Stands 0 expr tokens := by
    intro expr hshaped hfits
    have hlead := lead_of_forall₂ hfits []
    rw [List.append_nil] at hlead
    refine ⟨hshaped, Nat.zero_le _, hlead, ?_⟩
    rw [hfits.length_eq, List.drop_length]
    exact nofun
  exact (determined_operand (tokens.length + 1)).climb .xor tokens _ _ (Nat.lt_succ_self _)
    (hstands hshaped h) (hstands hshaped' h')

end Tranquility
