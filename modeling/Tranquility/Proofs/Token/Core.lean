import Tranquility.Token.Basic
import Mathlib.Data.List.Forall2
import Mathlib.Data.List.TakeWhile

/-!
# What the layout leaves of tokens

Blanks and comments are no tokens, and several newlines in a row are one. Of the newlines that are
left those in front of everything and the one at the end do not count either, and of the others only
that they are there. What remains is the same for two sources that are laid out in different ways.
-/

namespace Tranquility.Token

/-- The tokens without a newline at the end. -/
def dropFinalNewline (tokens : List Token) : List Token :=
  if tokens.getLast?.any (·.kind = .newline) then tokens.dropLast else tokens

/-- The tokens without the newlines in front and without one at the end. -/
def core (tokens : List Token) : List Token :=
  dropFinalNewline (tokens.dropWhile (·.kind = .newline))

/-- The kind and the text of a token. -/
def spelled (token : Token) : Kind × String :=
  (token.kind, token.text)

/-- The kind of a token, and its text if it is no newline. -/
def worded (token : Token) : Kind × String :=
  (token.kind, if token.kind = .newline then "" else token.text)

/-- Two tokens have one kind and, newlines apart, one text. -/
structure Agrees (token token' : Token) : Prop where
  kind_eq : token.kind = token'.kind
  text_eq : token.kind ≠ .newline → token.text = token'.text

/-- Tokens with the same words agree. -/
theorem agrees_of_worded_eq {token token' : Token} (h : token.worded = token'.worded) :
    token.Agrees token' := by
  obtain ⟨hkind, htext⟩ := Prod.mk.inj h
  refine ⟨hkind, fun hnewline => ?_⟩
  rwa [if_neg hnewline, if_neg (hkind ▸ hnewline)] at htext

/-- Lists of tokens with the same words agree one by one. -/
theorem forall₂_agrees {tokens tokens' : List Token}
    (h : tokens.map worded = tokens'.map worded) : List.Forall₂ Agrees tokens tokens' := by
  have hworded :
      List.Forall₂ (fun token token' => worded token = worded token') tokens tokens' := by
    have heq : List.Forall₂ Eq (tokens.map worded) (tokens'.map worded) :=
      h ▸ List.forall₂_same.mpr fun _ _ => rfl
    exact List.forall₂_map_right_iff.mp (List.forall₂_map_left_iff.mp heq)
  exact hworded.imp fun _ _ => agrees_of_worded_eq

variable {front inner back : List Token} {first last : Token}

/-- At the end of a list there is one newline or none. -/
def IsEnding (back : List Token) : Prop :=
  back = [] ∨ ∃ newline : Token, newline.kind = .newline ∧ back = [newline]

/-- What ends a list is dropped behind a last token that is no newline. -/
theorem dropFinalNewline_append (hlast : last.kind ≠ .newline) (hback : IsEnding back) :
    dropFinalNewline (inner ++ [last] ++ back) = inner ++ [last] := by
  rcases hback with rfl | ⟨newline, hnewline, rfl⟩
  · simp [dropFinalNewline, hlast]
  · simp [dropFinalNewline, hnewline]

/-- The core of tokens is what stands between the newlines. -/
theorem core_eq (hfront : ∀ token ∈ front, token.kind = .newline) (hfirst : first.kind ≠ .newline)
    (hlast : last.kind ≠ .newline) (hback : IsEnding back) :
    core (front ++ (first :: (inner ++ [last]) ++ back)) = first :: (inner ++ [last]) := by
  have hdrop : (front ++ (first :: (inner ++ [last]) ++ back)).dropWhile (·.kind = .newline) =
      first :: inner ++ [last] ++ back := by
    rw [List.dropWhile_append_of_pos (by simpa using hfront)]
    simp [hfirst]
  rw [core, hdrop, dropFinalNewline_append hlast hback]
  rfl

/-- Around the core of tokens there are newlines alone. -/
theorem exists_core (tokens : List Token) : ∃ front back, tokens = front ++ (core tokens ++ back) ∧
    (∀ token ∈ front, token.kind = .newline) ∧ IsEnding back := by
  have hfront : ∀ token ∈ tokens.takeWhile (·.kind = .newline), token.kind = .newline := by
    intro token htoken
    simpa using List.mem_takeWhile_imp htoken
  have hsplit := List.takeWhile_append_dropWhile (p := (·.kind = .newline)) (l := tokens)
  refine ⟨tokens.takeWhile (·.kind = .newline), ?_⟩
  rw [core, dropFinalNewline]
  cases hlast : (tokens.dropWhile (·.kind = .newline)).getLast? with
  | none =>
    refine ⟨[], ?_, hfront, .inl rfl⟩
    simp
  | some last =>
    by_cases hnewline : last.kind = .newline
    · refine ⟨[last], ?_, hfront, .inr ⟨last, hnewline, rfl⟩⟩
      rw [if_pos (by simpa using hnewline), List.dropLast_append_getLast? last hlast, hsplit]
    · refine ⟨[], ?_, hfront, .inl rfl⟩
      simp [hnewline]

/-- The core leaves tokens out and changes none. -/
theorem core_sublist (tokens : List Token) : (core tokens).Sublist tokens := by
  obtain ⟨front, back, hsplit, _, _⟩ := exists_core tokens
  have hinner : (core tokens).Sublist (front ++ (core tokens ++ back)) :=
    (List.sublist_append_left _ back).trans (List.sublist_append_right front _)
  rwa [← hsplit] at hinner

end Tranquility.Token
