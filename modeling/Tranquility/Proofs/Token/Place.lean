import Tranquility.Proofs.Token.Lexeme
import Mathlib.Data.List.Nodup
import Mathlib.Data.Prod.Lex

/-!
# Where the tokens of a source start

Places are ordered by line and then by column. A scan moves on with every token, so that the tokens
of a source start at places one after the other. The token for the end of the input follows all of
them, except that it shares the place of a newline at the very end.
-/

namespace Tranquility

/-- The line and the column of a place, in the order of places. -/
def Place.spot (place : Place) : ℤ ×ₗ ℤ :=
  toLex (↑place.line, ↑place.column)

/-- The line and the column where a token starts. -/
def Token.start (token : Token) : Int × Int :=
  (token.line, token.column)

/-- Where a token starts, in the order of places. -/
def Token.spot (token : Token) : ℤ ×ₗ ℤ :=
  toLex token.start

/-- A token that is not empty ends after the place where it starts. -/
theorem Place.spot_lt_after (place : Place) (kind : Kind) {length : Nat} (h : 0 < length) :
    place.spot < (place.after kind length).spot := by
  rw [spot, spot, Prod.Lex.toLex_lt_toLex, after]
  split
  case isTrue =>
    left
    show (place.line : ℤ) < ((place.line + length : ℕ) : ℤ)
    omega
  case isFalse =>
    right
    refine ⟨rfl, ?_⟩
    show (place.column : ℤ) < ((place.column + length : ℕ) : ℤ)
    omega

namespace Scan

variable {patterns : List Pattern}

/-- No token from a place on starts before it. -/
theorem spot_le_of_mem {place : Place} {pending : Nat} {text : List Char} {token : Token}
    (h : token ∈ (onward patterns place pending text).tokens) : place.spot ≤ token.spot := by
  fun_induction onward patterns place pending text with
  | case1 => exact absurd h List.not_mem_nil
  | case2 place pending c rest ih => exact ih h
  | case3 => exact absurd h List.not_mem_nil
  | case4 place c rest kind length hfront ih =>
    rcases List.mem_cons.mp h with rfl | h
    · exact le_refl _
    · obtain ⟨_, _, _, _, hpos⟩ := front?_eq_some hfront
      exact le_trans (le_of_lt (place.spot_lt_after kind hpos)) (ih h)

/-- The tokens of a scan start one after the other. -/
theorem pairwise_onward (place : Place) (pending : Nat) (text : List Char) :
    (onward patterns place pending text).tokens.Pairwise (·.spot < ·.spot) := by
  fun_induction onward patterns place pending text with
  | case1 => exact .nil
  | case2 place pending c rest ih => exact ih
  | case3 => exact .nil
  | case4 place c rest kind length hfront ih =>
    obtain ⟨_, _, _, _, hpos⟩ := front?_eq_some hfront
    refine List.pairwise_cons.mpr ⟨fun token htoken => ?_, ih⟩
    exact lt_of_lt_of_le (place.spot_lt_after kind hpos) (spot_le_of_mem htoken)

end Scan

/-! ## Tokens -/

/-- Numbering moves no token. -/
theorem Token.map_spot_number (first : Nat) (tokens : List Token) :
    (number first tokens).map spot = tokens.map spot := by
  induction tokens generalizing first with
  | nil => rfl
  | cons token tokens ih => exact congrArg (token.spot :: ·) (ih (first + 1))

variable {source : String} {tokens : List Token}

/-- The tokens of a source start one after the other. -/
theorem pairwise_tokenize (h : tokenize source = .ok tokens) :
    tokens.Pairwise (·.spot < ·.spot) := by
  rw [tokenize_eq, Except.ok.injEq] at h
  subst h
  rw [← List.pairwise_map, Token.significant, Token.map_spot_number, List.pairwise_map]
  have hscan : (scan source).tokens.Pairwise (·.spot < ·.spot) :=
    Scan.pairwise_onward .start 0 source.toList
  exact (hscan.sublist List.filter_sublist).sublist (Token.mergeNewlines_sublist _ _)

/-- Two tokens of a source that start at one place are one token. -/
theorem eq_of_spot_eq (h : tokenize source = .ok tokens) {token other : Token}
    (htoken : token ∈ tokens) (hother : other ∈ tokens) (heq : token.spot = other.spot) :
    token = other := by
  have hnodup : (tokens.map Token.spot).Nodup :=
    (List.pairwise_map.mpr (pairwise_tokenize h)).imp ne_of_lt
  exact List.inj_on_of_nodup_map hnodup htoken hother heq

/-- Only a newline at the end of a source shares its place with the end of the input. -/
theorem spot_lt_endOf (h : tokenize source = .ok tokens) {token : Token} (htoken : token ∈ tokens)
    (hnewline : token.kind ≠ .newline) : token.spot < (Token.endOf tokens).spot := by
  obtain ⟨front, last, rfl⟩ :=
    (List.eq_nil_or_concat tokens).resolve_left (List.ne_nil_of_mem htoken)
  rw [List.concat_eq_append] at h htoken ⊢
  have hend : (Token.endOf (front ++ [last])).spot = toLex (last.line,
      if last.kind = .newline then last.column else last.endColumn) := by
    simp [Token.endOf, Token.spot, Token.start]
  rw [hend]
  rcases List.mem_append.mp htoken with hfront | hlast
  · -- The last token starts later, and the end of the input does not start before it.
    have hlt : token.spot < last.spot :=
      (List.pairwise_append.mp (pairwise_tokenize h)).2.2 token hfront last
        (List.mem_singleton_self last)
    refine lt_of_lt_of_le hlt (Prod.Lex.toLex_le_toLex.mpr (.inr ⟨rfl, ?_⟩))
    split
    · exact le_refl _
    · exact Int.le_add_of_nonneg_right (Int.natCast_nonneg _)
  · obtain rfl := List.mem_singleton.mp hlast
    have hpos := (lexeme_of_mem_tokenize h htoken).length_pos
    rw [if_neg hnewline]
    refine Prod.Lex.toLex_lt_toLex.mpr (.inr ⟨rfl, ?_⟩)
    exact Int.lt_add_of_pos_right _ (Int.natCast_pos.mpr hpos)

end Tranquility
