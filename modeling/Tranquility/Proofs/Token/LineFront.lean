import Tranquility.Proofs.Token.Respaced
import Tranquility.Proofs.Token.SourceLine

/-!
# The front of a line

Only comments, strings, characters and what the language does not know have characters beyond ASCII.
A comment goes on to the end of its line, so that no token comes after it there. If none of the
other three is in the list between a token and the newline in front of it, then the line of the
token is ASCII up to the token, whatever stands on other lines or further on.
-/

namespace Tranquility

/-- The characters are those of ASCII. -/
def AreAscii (text : List Char) : Prop :=
  ∀ c ∈ text, c.toNat < 128

/-- The kinds of tokens that may have characters beyond ASCII. -/
def Kind.foreign : List Kind :=
  [comment, string, character, unrecognized]

/-- The texts of all other kinds are ASCII. -/
theorem Kind.Language.areAscii {kind : Kind} {text rest : List Char}
    (h : kind.Language text rest) (hkind : kind ∉ foreign) : AreAscii text := by
  have hword : String.ofList text ∈ words kind → AreAscii text := fun hmem c hc =>
    (words_plain kind _ hmem c (String.toList_ofList.symm ▸ hc)).1
  have hstart : ∀ c, IsNameStart c → c.toNat < 128 := fun c hc =>
    @lt_of_opens .identifier c ((Pattern.startsName_iff c).mpr hc) (by decide)
  have hdigit : ∀ c, IsDigit c → c.toNat < 128 := fun c hc =>
    @lt_of_opens .integer c ((Pattern.isDigit_iff c).mpr hc) (by decide)
  cases kind with
  | comment | string | character | unrecognized => simp [foreign] at hkind
  | newline =>
    intro c hc
    rw [h.2 c hc]
    decide
  | whitespace =>
    intro c hc
    rcases h.2 c hc with rfl | rfl <;> decide
  | integer => exact fun c hc => hdigit c (h.2 c hc)
  | identifier =>
    obtain ⟨first, body, rfl, hfirst, hbody⟩ := h
    intro c hc
    rcases List.mem_cons.mp hc with rfl | hc
    · exact hstart c hfirst
    · exact (hbody c hc).elim (hstart c) (hdigit c)
  | keyword => exact hword h.1
  | _ => exact hword h

/-! ## The tokens on a line -/

namespace Token

variable {source : String} {front back : List Token} {token next : Token}

/-- But for its number a token of a list is one of the scan. -/
theorem unnumbered_mem_scan {tokens : List Token} (h : tokenize source = .ok tokens)
    (hmem : token ∈ tokens) : token.unnumbered ∈ (scan source).tokens := by
  apply kept_subset
  rw [← map_unnumbered_of_tokenize h]
  exact List.mem_map_of_mem hmem

/-- After a comment comes a newline. -/
theorem kind_of_comment (h : (scan source).tokens = front ++ token :: next :: back)
    (hkind : token.kind = .comment) : next.kind = .newline := by
  have hmem : next ∈ (scan source).tokens := by
    rw [h]
    simp
  rw [kind_eq_newline_iff hmem]
  obtain ⟨text, _, hcut⟩ := (scanWith_cuts (fun _ h => h) source).split h
  obtain ⟨behind, htext, hnext⟩ := hcut.split (List.singleton_append.symm : _ = [token] ++ _)
  generalize (scanWith Pattern.table source).stuck = stuck at hcut
  generalize next :: back = after at hcut
  generalize (scanWith Pattern.table source).stuck = stuck at hnext
  cases hcut with
  | @piece _ piece rest kind _ _ hfront =>
    obtain rfl : rest = behind := by
      have hpiece : joined [Scan.tokenOf kind ([] ++ joined front) piece] = piece := by
        simp [Scan.tokenOf]
      rw [hpiece] at htext
      exact List.append_cancel_left htext
    cases hnext with
    | @piece _ piece' rest' kind' _ piece_ne' =>
      obtain ⟨hlongest, _⟩ := Scan.front?_longest hfront
      rw [List.take_left] at hlongest
      obtain rfl : kind = .comment := hkind
      obtain ⟨_, _, body, rfl, hbody⟩ := hlongest.language
      obtain ⟨c, more, rfl⟩ := List.exists_cons_of_ne_nil piece_ne'
      simp only [Scan.tokenOf, String.toList_ofList]
      by_contra hinline
      -- The comment would go on with the next character.
      have hlonger : Kind.comment.Language ('#' :: (body ++ [c])) (more ++ rest') := by
        refine ⟨body ++ [c], rfl, ?_⟩
        simp only [List.mem_append, List.mem_cons, not_or] at hinline ⊢
        exact ⟨hbody, hinline.1, List.not_mem_nil⟩
      have hle := hlongest.length_le _ _ (by simp) hlonger
      simp only [List.length_cons, List.length_append, List.length_nil] at hle
      omega

/-- Scanned tokens end with some on a line of their own. -/
theorem exists_linePart (scanned : List Token) : ∃ above part, scanned = above ++ part ∧
    (above = [] ∨ EndsWithNewline above) ∧ ∀ token ∈ part, token.kind ≠ .newline := by
  induction scanned using List.reverseRecOn with
  | nil => exact ⟨[], [], rfl, .inl rfl, by simp⟩
  | append_singleton scanned last ih =>
    by_cases hlast : last.kind = .newline
    · refine ⟨scanned ++ [last], [], (List.append_nil _).symm, .inr ?_, by simp⟩
      exact ⟨last, by rw [List.getLast?_concat]; rfl, hlast⟩
    · obtain ⟨above, part, rfl, habove, hpart⟩ := ih
      refine ⟨above, part ++ [last], List.append_assoc .., habove, ?_⟩
      intro token htoken
      rcases List.mem_append.mp htoken with htoken | htoken
      · exact hpart token htoken
      · rwa [List.mem_singleton.mp htoken]

/-- The part of a scan on the last line is what the text has there. -/
theorem lastLine_joined {above part : List Token} (hscan : above ++ part ⊆ (scan source).tokens)
    (habove : above = [] ∨ EndsWithNewline above) (hpart : ∀ token ∈ part, token.kind ≠ .newline) :
    Text.lastLine (joined (above ++ part)) = joined part := by
  have hinline : '\n' ∉ joined part := by
    have hsubset : part ⊆ (scan source).tokens := fun token htoken =>
      hscan (List.mem_append_right above htoken)
    rw [newline_mem_joined_iff hsubset]
    rintro ⟨token, htoken, hkind⟩
    exact hpart token htoken hkind
  have hstart : Text.lastLine (joined above) = [] := by
    rcases habove with rfl | ⟨newline, hlast, hkind⟩
    · rfl
    · obtain ⟨earlier, rfl⟩ := List.getLast?_eq_some_iff.mp hlast
      obtain ⟨_, hlanguage⟩ := language_of_mem_scan (hscan (show newline ∈ _ by simp))
      rw [hkind] at hlanguage
      obtain ⟨text, c, htext⟩ :=
        (List.eq_nil_or_concat newline.text.toList).resolve_left hlanguage.1
      have hc : c = '\n' := hlanguage.2 c (by rw [htext]; simp)
      rw [joined_append, joined_cons, joined_nil, List.append_nil, htext, hc,
        List.concat_eq_append, ← List.append_assoc]
      exact Text.lastLine_append_newline List.not_mem_nil _
  rw [joined_append, Text.lastLine_append hinline, hstart, List.nil_append]

/-- In the list there are the same tokens on a line as in the scan, but for blanks and comments. -/
theorem exists_of_mem_linePart {above line earlier part : List Token}
    (hkept : (above ++ line).map unnumbered = kept false (earlier ++ part))
    (habove : above = [] ∨ EndsWithNewline above) (hpart : ∀ token ∈ part, token.kind ≠ .newline)
    (htoken : token ∈ part) (htrivia : token.kind.isTrivia = false) :
    ∃ listed ∈ line, listed.kind = token.kind := by
  -- The line is kept of a part of the scan that the tokens behind its last newline belong to.
  obtain ⟨after, scanned, hline, hsubset⟩ : ∃ after scanned,
      line.map unnumbered = kept after scanned ∧ part ⊆ scanned := by
    rcases habove with rfl | ⟨newline, hlast, hkind⟩
    · exact ⟨false, earlier ++ part, hkept, List.subset_append_right _ _⟩
    · obtain ⟨first, rfl⟩ := List.getLast?_eq_some_iff.mp hlast
      obtain ⟨front, back, hsplit, _, hback⟩ :=
        exists_split hkept (List.append_assoc first [newline] line)
      have hnewline : newline.unnumbered ∉ part := fun hmem => hpart _ hmem hkind
      refine ⟨_, back, hback, ?_⟩
      rcases List.append_eq_append_iff.mp hsplit with ⟨further, _, hpart⟩ | ⟨further, _, hback⟩
      · exact absurd (hpart ▸ by simp) hnewline
      · cases further with
        | nil =>
          rw [List.nil_append] at hback
          exact absurd (hback ▸ List.mem_cons_self) hnewline
        | cons next further =>
          obtain ⟨_, rfl⟩ := List.cons.inj hback
          exact List.subset_append_right _ _
  have hmem : token ∈ (kept after scanned).filter (·.kind ≠ .newline) := by
    rw [filter_kept, List.mem_filter]
    refine ⟨hsubset htoken, ?_⟩
    have hkind := hpart token htoken
    cases hcase : token.kind <;> simp_all [Kind.isTrivia]
  rw [← hline] at hmem
  obtain ⟨listed, hlisted, rfl⟩ := List.mem_map.mp (List.mem_of_mem_filter hmem)
  exact ⟨listed, hlisted, rfl⟩

/-- A line is ASCII in front of a token if between the token and the newline in front of it the list
has no token that may have characters beyond ASCII. -/
theorem areAscii_lastLine {tokens above line rest : List Token} (h : tokenize source = .ok tokens)
    (htokens : tokens = above ++ line ++ token :: rest)
    (habove : above = [] ∨ EndsWithNewline above)
    (hline : ∀ token ∈ line, token.kind ∉ Kind.foreign) (htoken : token.kind ≠ .newline) :
    ∃ before after, token.StandsBetween source before after ∧ AreAscii (Text.lastLine before) := by
  obtain ⟨front, back, hscan, hfront, _⟩ := exists_split (map_unnumbered_of_tokenize h) htokens
  obtain ⟨earlier, part, rfl, hearlier, hpart⟩ := exists_linePart front
  have hsubset : earlier ++ part ⊆ (scan source).tokens := by
    rw [hscan]
    exact List.subset_append_left _ _
  refine ⟨_, _, standsBetween_of_scan hscan, ?_⟩
  rw [lastLine_joined hsubset hearlier hpart]
  intro c hc
  obtain ⟨other, hother, hc⟩ := List.mem_flatMap.mp hc
  obtain ⟨_, hlanguage⟩ := language_of_mem_scan (hsubset (List.mem_append_right _ hother))
  apply hlanguage.areAscii ?_ c hc
  by_cases htrivia : other.kind.isTrivia = true
  · -- A comment would have a newline behind it, and the line goes on to the token.
    have hcomment : other.kind ≠ .comment := by
      intro hcomment
      obtain ⟨before, behind, rfl⟩ := List.append_of_mem hother
      rw [← List.append_assoc, List.append_assoc] at hscan
      cases behind with
      | nil =>
        have hnext : token.unnumbered.kind = .newline := kind_of_comment hscan hcomment
        exact htoken hnext
      | cons next behind => exact hpart next (by simp) (kind_of_comment hscan hcomment)
    cases hcase : other.kind <;> simp_all [Kind.isTrivia, Kind.foreign]
  · rw [Bool.not_eq_true] at htrivia
    obtain ⟨listed, hlisted, hkind⟩ := exists_of_mem_linePart hfront habove hpart hother htrivia
    rw [← hkind]
    exact hline listed hlisted

end Token

end Tranquility
