import Tranquility.Proofs.Checking.Warnings
import Tranquility.Proofs.Token.Newlines

/-!
# Where names are declared

A program declares its global variables and its functions in the order in which it is written, each
at the start of a line: the grammar asks for a newline in front of every declaration, and on the
line of a name only keywords, names and commas stand in front of it.
-/

namespace Tranquility

open Grammar

/-! ## Declarations among pieces -/

namespace Piece

/-- What comes after the pieces is at the start of a line. -/
def StartsLine (pieces : List Piece) : Prop :=
  pieces = [] ∨ ∃ earlier, pieces = earlier ++ [mark .newline Kind.isMark_newline]

/-- The pieces declare a token: only keywords, names and commas stand in front of it on its line. -/
def Declares (pieces : List Piece) (token : Token) : Prop :=
  ∃ above line rest, pieces = above ++ (line ++ keep .identifier token :: rest) ∧
    StartsLine above ∧ ∀ piece ∈ line, piece.kind ∈ [.keyword, .identifier, .comma]

variable {pieces front : List Piece} {token : Token} {tokens : List Token}

theorem startsLine_nil : StartsLine [] := .inl rfl

/-- After a newline a line starts. -/
theorem startsLine_concat (pieces : List Piece) : StartsLine (pieces ++ [mark .newline]) :=
  .inr ⟨pieces, rfl⟩

/-- Pieces up to the start of a line may have others in front that go up to one. -/
theorem StartsLine.append (hfront : StartsLine front) (h : StartsLine pieces) :
    StartsLine (front ++ pieces) := by
  rcases h with rfl | ⟨earlier, rfl⟩
  · rwa [List.append_nil]
  · rw [← List.append_assoc]
    exact startsLine_concat _

/-- After newlines a line starts. -/
theorem startsLine_replicate (count : Nat) :
    StartsLine (List.replicate count (mark .newline)) := by
  cases count with
  | zero => exact startsLine_nil
  | succ count =>
    rw [List.replicate_succ']
    exact startsLine_concat _

/-- After lines of variables a line starts. -/
theorem startsLine_variableLines (lines : List (List Token)) :
    StartsLine (lines.flatMap variableLine) := by
  induction lines with
  | nil => exact startsLine_nil
  | cons line lines ih =>
    rw [List.flatMap_cons]
    exact StartsLine.append (startsLine_concat _) ih

/-- What is declared stays so whatever comes behind. -/
theorem Declares.append_right (h : Declares pieces token) (back : List Piece) :
    Declares (pieces ++ back) token := by
  obtain ⟨above, line, rest, rfl, habove, hline⟩ := h
  exact ⟨above, line, rest ++ back, by simp, habove, hline⟩

/-- What is declared stays so with whole lines in front. -/
theorem Declares.append_left (h : Declares pieces token) (hfront : StartsLine front) :
    Declares (front ++ pieces) token := by
  obtain ⟨above, line, rest, rfl, habove, hline⟩ := h
  exact ⟨front ++ above, line, rest, by simp, hfront.append habove, hline⟩

/-- In front of a name of a list only names and commas stand. -/
theorem exists_names (h : token ∈ tokens) : ∃ line rest,
    names tokens = line ++ keep .identifier token :: rest ∧
      ∀ piece ∈ line, piece.kind ∈ [.identifier, .comma] := by
  cases tokens with
  | nil => cases h
  | cons first tokens =>
    rw [names, List.map_cons, separated_cons, List.flatMap_map]
    rcases List.mem_cons.mp h with rfl | h
    · exact ⟨[], _, rfl, by simp⟩
    · obtain ⟨before, after, rfl⟩ := List.append_of_mem h
      refine ⟨keep .identifier first :: (before.flatMap fun token =>
        [mark .comma, keep .identifier token]) ++ [mark .comma], _, by simp; rfl, ?_⟩
      intro piece hpiece
      simp only [List.mem_append, List.mem_cons, List.mem_flatMap, List.not_mem_nil,
        or_false] at hpiece
      rcases hpiece with (rfl | ⟨_, _, rfl | rfl⟩) | rfl <;> simp [keep, mark]

/-- A line of variables declares its names. -/
theorem declares_variableLine (h : token ∈ tokens) : Declares (variableLine tokens) token := by
  obtain ⟨line, rest, hnames, hline⟩ := exists_names h
  refine ⟨[], keyword "var" :: line, rest ++ [mark .newline], ?_, startsLine_nil, ?_⟩
  · simp [variableLine, hnames]
  · intro piece hpiece
    rcases List.mem_cons.mp hpiece with rfl | hpiece
    · simp [keyword]
    · exact List.mem_cons_of_mem _ (hline piece hpiece)

/-- Lines of variables declare the names of each. -/
theorem declares_variableLines {lines : List (List Token)} (h : token ∈ lines.flatten) :
    Declares (lines.flatMap variableLine) token := by
  induction lines with
  | nil => cases h
  | cons line lines ih =>
    rw [List.flatMap_cons]
    rcases List.mem_append.mp h with h | h
    · exact (declares_variableLine h).append_right _
    · exact (ih h).append_left (startsLine_concat _)

end Piece

open Piece

/-! ## Declarations of a program -/

/-- A function declares its name in its first line. -/
theorem FunctionDecl.declares (function : FunctionDecl) :
    Declares function.pieces function.token := by
  refine ⟨[], [keyword "fun"], _, by rw [pieces]; rfl, startsLine_nil, ?_⟩
  simp [keyword]

/-- Functions declare their names, each at the start of its line. -/
theorem FunctionDecl.declares_traceTo (ended : Bool) {functions : List FunctionDecl}
    {function : FunctionDecl} (h : function ∈ functions) :
    Declares (traceTo ended functions).pieces function.token := by
  induction functions with
  | nil => cases h
  | cons first functions ih =>
    rw [traceTo_cons, Trace.pieces_append, Trace.pieces_append]
    rcases List.mem_cons.mp h with rfl | h
    · exact (function.declares.append_right _).append_right _
    · obtain ⟨next, later, rfl⟩ := List.exists_cons_of_ne_nil (List.ne_nil_of_mem h)
      have hnewline : (Trace.ending (ended || !(next :: later).isEmpty)).pieces =
          [mark .newline] := by simp [Trace.ending]
      rw [hnewline]
      exact (ih h).append_left (startsLine_concat _)

/-- The tokens that a program declares at its top level. -/
def Program.declared (program : Program) : List Token :=
  program.globals.flatten ++ program.functions.map (·.token)

/-- A program declares its global variables and its functions at the start of their lines. -/
theorem Program.declares_trace (program : Program) (front : Nat) (ended : Bool) {token : Token}
    (h : token ∈ program.declared) : Declares (program.trace front ended).pieces token := by
  rw [trace, Trace.pieces_append, Trace.pieces_append]
  apply Declares.append_left _ (startsLine_replicate front)
  rcases List.mem_append.mp h with h | h
  · exact (declares_variableLines h).append_right _
  · obtain ⟨function, hfunction, rfl⟩ := List.mem_map.mp h
    exact (FunctionDecl.declares_traceTo ended hfunction).append_left
      (startsLine_variableLines program.globals)

/-- The names of a list are kept in order. -/
theorem Piece.keptOf_variableLines (lines : List (List Token)) :
    keptOf (lines.flatMap variableLine) = lines.flatten := by
  induction lines with
  | nil => rfl
  | cons line lines ih =>
    have hnames : keptOf (names line) = line := by
      rw [names, keptOf_separated, List.flatMap_map]
      simp [keep]
    rw [List.flatMap_cons, keptOf_append, ih, List.flatten_cons, variableLine, List.cons_append,
      keptOf_cons, keptOf_append, hnames]
    simp [keyword, mark]

/-- The tokens that a program declares are kept in the order in which it is written. -/
theorem Program.declared_sublist (program : Program) (front : Nat) (ended : Bool) :
    program.declared.Sublist (keptOf (program.trace front ended).pieces) := by
  have hfunctions : ∀ functions : List FunctionDecl, (functions.map (·.token)).Sublist
      (keptOf (FunctionDecl.traceTo ended functions).pieces) := by
    intro functions
    induction functions with
    | nil => exact List.nil_sublist _
    | cons function functions ih =>
      have hfirst : [function.token].Sublist (keptOf function.pieces) := by
        rw [FunctionDecl.pieces]
        simp [keyword, keep]
      rw [FunctionDecl.traceTo_cons, Trace.pieces_append, Trace.pieces_append,
        keptOf_append, keptOf_append, List.append_assoc]
      exact hfirst.append (ih.trans (List.sublist_append_right _ _))
  have hglobals : keptOf (Trace.variableLines program.globals).pieces =
      program.globals.flatten := keptOf_variableLines program.globals
  rw [trace, Trace.pieces_append, Trace.pieces_append, keptOf_append,
    keptOf_append, hglobals, declared]
  exact ((List.Sublist.refl _).append (hfunctions _)).trans (List.sublist_append_right _ _)

/-! ## Declarations among tokens -/

/-- The tokens declare a name: only keywords, names and commas stand in front of it on its line. -/
def Token.Declare (tokens : List Token) (name : Token) : Prop :=
  ∃ above line rest, tokens = above ++ line ++ name :: rest ∧ name.kind = .identifier ∧
    (above = [] ∨ Token.EndsWithNewline above) ∧
      ∀ token ∈ line, token.kind ∈ [.keyword, .identifier, .comma]

/-- Tokens that start with pieces declare what the pieces declare. -/
theorem Piece.Declares.declare {pieces : List Piece} {token : Token} {tokens : List Token}
    (h : Declares pieces token) (hlead : Lead pieces tokens) : Token.Declare tokens token := by
  obtain ⟨above, line, rest, rfl, habove, hline⟩ := h
  obtain ⟨first, others, hfirst, hfits, hothers⟩ := exists_of_forall₂_append hlead.forall₂
  obtain ⟨second, others, rfl, hfits', hothers⟩ := exists_of_forall₂_append hothers
  obtain ⟨name, others, hname, _, rfl⟩ := List.forall₂_cons_left_iff.mp hothers
  obtain rfl : name = token := hname.kept token rfl
  have hsplit := List.take_append_drop
    (above ++ (line ++ keep .identifier name :: rest)).length tokens
  rw [hfirst] at hsplit
  refine ⟨first, second, _, by rw [← hsplit]; simp; rfl, hname.kind, ?_, ?_⟩
  · rcases habove with rfl | ⟨earlier, rfl⟩
    · exact .inl (List.forall₂_nil_left_iff.mp hfits)
    · right
      obtain ⟨front, last, rfl, _, hlast⟩ := exists_of_forall₂_append hfits
      obtain ⟨newline, rfl, hnewline⟩ := exists_of_forall₂_singleton hlast
      exact ⟨newline, by rw [List.getLast?_concat]; rfl, hnewline.kind⟩
  · intro other hother
    obtain ⟨piece, hpiece, hfit⟩ := (Piece.lead_of_forall₂ hfits' []).exists_fits
      (by rwa [hfits'.length_eq, List.append_nil, List.take_length] :
        other ∈ (second ++ []).take line.length)
    rw [hfit.kind]
    exact hline piece hpiece

/-- A program that is read from some tokens declares its names there in order, and all of them at
the start of their lines. -/
theorem Grammar.ReadsProgram.declared {tokens : List Token} {reporter : Reporter}
    {program : Program} {s' : State} (h : ReadsProgram (.ofTokens tokens reporter) program s') :
    program.declared.Sublist tokens ∧ ∀ token ∈ program.declared, Token.Declare tokens token := by
  obtain ⟨front, ended, hreads⟩ := h.reads
  have hlead : Lead (program.trace front ended).pieces tokens := hreads.lead
  constructor
  · exact (program.declared_sublist front ended).trans hlead.keptOf_sublist
  · intro token htoken
    exact (program.declares_trace front ended htoken).declare hlead

end Tranquility
