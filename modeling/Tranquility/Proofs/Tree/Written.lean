import Tranquility.Tree.Program
import Mathlib.Data.List.Forall2

/-!
# Trees written out

A tree holds what is needed to write it out in the order of the grammar: names, operators and
literals from the tokens that it keeps, and between them the keywords, braces, commas and newlines
that its places call for. No parentheses are added. What is written is a list of pieces, and a list
of tokens is a written form of a program when its tokens are those pieces one by one.
-/

namespace Tranquility

/-- The spelling of a kind that has only one. -/
def Kind.spelling? : Kind → Option String
  | leftBrace => some "\x7b"
  | rightBrace => some "\x7d"
  | leftParen => some "("
  | rightParen => some ")"
  | colon => some ":"
  | comma => some ","
  | dot => some "."
  | minus => some "-"
  | additive => some "+"
  | xor => some "^"
  | bitwiseNot => some "~"
  | _ => none

/-- A token of the kind can be written without more being known of it: there is one spelling, or,
for newlines, the spelling does not matter. -/
def Kind.isMark (kind : Kind) : Bool :=
  kind = .newline || kind.spelling?.isSome

theorem Kind.isMark_newline : newline.isMark = true := rfl

theorem Kind.isMark_leftBrace : leftBrace.isMark = true := rfl

theorem Kind.isMark_rightBrace : rightBrace.isMark = true := rfl

theorem Kind.isMark_leftParen : leftParen.isMark = true := rfl

theorem Kind.isMark_rightParen : rightParen.isMark = true := rfl

theorem Kind.isMark_comma : comma.isMark = true := rfl

/-- What a tree writes at one place. -/
structure Piece where
  /-- The kind that the place calls for. -/
  kind : Kind
  /-- The keyword that the place calls for, if it calls for one. -/
  word : Option String
  /-- The token that the tree keeps for the place, if it keeps one. -/
  kept : Option Token
  /-- Only a place for a keyword calls for one. -/
  kind_of_word : ∀ w ∈ word, kind = .keyword
  /-- The tree keeps what could not be written otherwise. -/
  isMark_of_none : word = none → kept = none → kind.isMark = true
  deriving DecidableEq, Repr

namespace Piece

/-- A mark of a kind, which the tree does not keep. -/
def mark (kind : Kind) (h : kind.isMark = true := by rfl) : Piece :=
  ⟨kind, none, none, nofun, fun _ _ => h⟩

/-- A keyword that the tree does not keep. -/
def keyword (word : String) : Piece :=
  ⟨.keyword, some word, none, fun _ _ => rfl, nofun⟩

/-- A token of the tree where a kind is called for. -/
def keep (kind : Kind) (token : Token) : Piece :=
  ⟨kind, none, some token, nofun, nofun⟩

/-- A token of the tree where a keyword is called for. -/
def keepKeyword (word : String) (token : Token) : Piece :=
  ⟨.keyword, some word, some token, fun _ _ => rfl, nofun⟩

/-- The text of a piece: the keyword, or the spelling of the kind, or that of the token kept. -/
def text (piece : Piece) : String :=
  (piece.word <|> piece.kind.spelling? <|> piece.kept.map (·.text)).getD ""

/-- A token can stand for the piece in a parse, which looks at kinds, and at texts of keywords
alone. -/
structure Fits (piece : Piece) (token : Token) : Prop where
  kind : token.kind = piece.kind
  word : ∀ word ∈ piece.word, token.text = word
  kept : ∀ kept ∈ piece.kept, token = kept

/-- A token is the piece written out: it has the kind and, newlines apart, the text of the piece,
and it is the token of the tree where the tree keeps one. -/
structure Writes (piece : Piece) (token : Token) : Prop where
  kind : token.kind = piece.kind
  text : piece.kind ≠ .newline → token.text = piece.text
  kept : ∀ kept ∈ piece.kept, token = kept

/-- The token kept is of the kind, and is the keyword, that its place calls for. -/
structure Proper (piece : Piece) : Prop where
  kind : ∀ kept ∈ piece.kept, kept.kind = piece.kind
  text : ∀ kept ∈ piece.kept, piece.kind ≠ .newline → kept.text = piece.text

/-- What fits a piece writes it, if kinds with one spelling are spelled so. -/
theorem Fits.writes {piece : Piece} {token : Token} (h : piece.Fits token)
    (hspelling : ∀ word ∈ token.kind.spelling?, token.text = word) : piece.Writes token where
  kind := h.kind
  kept := h.kept
  text := by
    intro hnewline
    unfold text
    cases hword : piece.word with
    | some word => exact h.word word hword
    | none =>
      cases hkind : piece.kind.spelling? with
      | some word => exact hspelling word (h.kind.symm ▸ hkind)
      | none =>
        cases hkept : piece.kept with
        | some kept =>
          rw [h.kept kept hkept]
          rfl
        | none =>
          have hmark := piece.isMark_of_none hword hkept
          simp [Kind.isMark, hnewline, hkind] at hmark

/-- Tokens that fit pieces write them if their spelling is that of their kinds. -/
theorem forall₂_writes {pieces : List Piece} {tokens : List Token}
    (h : List.Forall₂ Fits pieces tokens)
    (hspelling : ∀ token ∈ tokens, ∀ word ∈ token.kind.spelling?, token.text = word) :
    List.Forall₂ Writes pieces tokens := by
  induction h with
  | nil => exact .nil
  | cons hfits _ ih =>
    obtain ⟨hfirst, hrest⟩ := List.forall_mem_cons.mp hspelling
    exact .cons (hfits.writes hfirst) (ih hrest)

/-- What writes a piece fits it. -/
theorem Writes.fits {piece : Piece} {token : Token} (h : piece.Writes token) :
    piece.Fits token where
  kind := h.kind
  kept := h.kept
  word := by
    intro word hword
    have hkeyword := piece.kind_of_word word hword
    rw [h.text (by simp [hkeyword]), Piece.text, Option.mem_def.mp hword]
    rfl

/-- Tokens that fit pieces one after the other fall apart as the pieces do. -/
theorem exists_of_forall₂_append {pieces pieces' : List Piece} {tokens : List Token}
    (h : List.Forall₂ Fits (pieces ++ pieces') tokens) :
    ∃ first second, tokens = first ++ second ∧ List.Forall₂ Fits pieces first ∧
      List.Forall₂ Fits pieces' second := by
  induction pieces generalizing tokens with
  | nil => exact ⟨[], tokens, rfl, .nil, h⟩
  | cons piece pieces ih =>
    obtain ⟨token, rest, hfirst, hrest, rfl⟩ := List.forall₂_cons_left_iff.mp h
    obtain ⟨first, second, rfl, hpieces, hpieces'⟩ := ih hrest
    exact ⟨token :: first, second, rfl, .cons hfirst hpieces, hpieces'⟩

/-- A single piece is for a single token. -/
theorem exists_of_forall₂_singleton {piece : Piece} {tokens : List Token}
    (h : List.Forall₂ Fits [piece] tokens) : ∃ token, tokens = [token] ∧ piece.Fits token := by
  obtain ⟨token, rest, hfits, hrest, rfl⟩ := List.forall₂_cons_left_iff.mp h
  exact ⟨token, by rw [List.forall₂_nil_left_iff.mp hrest], hfits⟩

/-- A token for the piece: the one that the tree keeps, or a new one. -/
def token (piece : Piece) : Token :=
  piece.kept.getD ⟨piece.kind, piece.text, 0, 0, -1⟩

/-- A proper piece is written by its own token. -/
theorem Proper.writes_token {piece : Piece} (h : piece.Proper) : piece.Writes piece.token := by
  unfold token
  cases hkept : piece.kept with
  | none => exact ⟨rfl, fun _ => rfl, by simp [hkept]⟩
  | some kept => exact ⟨h.kind kept hkept, h.text kept hkept, by simp [hkept]⟩

/-- Lists of pieces with commas between them. -/
def separated (items : List (List Piece)) : List Piece :=
  List.intercalate [mark .comma] items

/-- Names with commas between them. -/
def names (tokens : List Token) : List Piece :=
  separated (tokens.map fun token => [keep .identifier token])

/-- Statements in braces, on lines of their own. -/
def block (body : List Piece) : List Piece :=
  mark .leftBrace :: mark .newline :: body ++ [mark .rightBrace, mark .newline]

/-- A line that declares variables. -/
def variableLine (tokens : List Token) : List Piece :=
  keyword "var" :: names tokens ++ [mark .newline]

end Piece

open Piece

mutual

/-- An expression written out. -/
def Expr.pieces : Expr → List Piece
  | .literal token _ => [keep token.kind token]
  | .reference token => [keep .identifier token]
  | .call token arguments =>
    keep .identifier token :: mark .leftParen ::
      separated (Expr.piecesOfEach arguments) ++ [mark .rightParen]
  | .unit token => [keep .leftParen token, mark .rightParen]
  | .group token content _ => keep .leftParen token :: content.pieces ++ [mark .rightParen]
  | .dereference token operand => keep .dot token :: operand.pieces
  | .negation token operand => keep .minus token :: operand.pieces
  | .complement token operand => keep .bitwiseNot token :: operand.pieces
  | .binary operator left right _ => left.pieces ++ keep operator.kind operator :: right.pieces

/-- Each of some expressions written out. -/
def Expr.piecesOfEach : List Expr → List (List Piece)
  | [] => []
  | expr :: exprs => expr.pieces :: Expr.piecesOfEach exprs

end

mutual

/-- A statement written out. -/
def Stmt.pieces : Stmt → List Piece
  | .conditional conditional => conditional.pieces
  | .until token condition =>
    keepKeyword "until" token :: condition.pieces ++ [mark .newline]
  | .loop token body => keepKeyword "loop" token :: block (Stmt.piecesOfAll body)
  | .result token none => [keepKeyword "return" token, mark .newline]
  | .result token (some value) =>
    keepKeyword "return" token :: value.pieces ++ [mark .newline]
  | .assignment colon target value =>
    target.pieces ++ keep .colon colon :: value.pieces ++ [mark .newline]
  | .expression value => value.pieces ++ [mark .newline]

/-- A conditional written out, with what is chained to it. -/
def Conditional.pieces : Conditional → List Piece
  | .only token condition body =>
    keepKeyword "if" token :: condition.pieces ++ block (Stmt.piecesOfAll body)
  | .otherwise token condition body alternative =>
    keepKeyword "if" token :: condition.pieces ++ block (Stmt.piecesOfAll body) ++
      keyword "else" :: block (Stmt.piecesOfAll alternative)
  | .chained token condition body next =>
    keepKeyword "if" token :: condition.pieces ++ block (Stmt.piecesOfAll body) ++
      keyword "else" :: next.pieces

/-- Statements written out one after the other. -/
def Stmt.piecesOfAll : List Stmt → List Piece
  | [] => []
  | stmt :: stmts => stmt.pieces ++ Stmt.piecesOfAll stmts

end

/-- A function written out, up to its closing brace. -/
def FunctionDecl.pieces (function : FunctionDecl) : List Piece :=
  keyword "fun" :: keep .identifier function.token :: mark .leftParen ::
    names function.parameters ++ mark .rightParen :: mark .leftBrace :: mark .newline ::
    function.locals.flatMap variableLine ++ Stmt.piecesOfAll function.body ++ [mark .rightBrace]

/-- Functions written out, each with a newline after it. -/
def FunctionDecl.piecesOfAll (functions : List FunctionDecl) : List Piece :=
  functions.flatMap fun function => function.pieces ++ [mark .newline]

/-- A program written out. -/
def Program.pieces (program : Program) : List Piece :=
  program.globals.flatMap variableLine ++ FunctionDecl.piecesOfAll program.functions

/-- Tokens are a written form of a program: after any newlines in front they are its pieces one by
one, and the newline at the end may be missing. -/
def Program.Written (program : Program) (tokens : List Token) : Prop :=
  ∃ front body, tokens = front ++ body ∧ (∀ token ∈ front, token.kind = .newline) ∧
    (List.Forall₂ Piece.Writes program.pieces body ∨
      List.Forall₂ Piece.Writes program.pieces.dropLast body)

end Tranquility
