import Tranquility.Proofs.Token.Cut

/-!
# The languages of the kinds of tokens

Each kind of token has a language, said here of texts alone and without a word on how they are
found. The extent of a pattern is exact for the language of its kind: it is not zero exactly if the
text starts with a text of the language, and then it is the length of the longest one. So a token of
a source is of the first kind in order of priority that has anything at its place, and it is the
longest text of that kind there. Literals end at the first quote that is not escaped, so that of
them there is at most one at a place.
-/

namespace Tranquility

/-! ## Languages -/

/-- A part of a literal between its quotes: a character other than the quote and the backslash, or a
backslash with any character after it. Neither leaves the line. -/
def IsLiteralUnit (quote : Char) (part : List Char) : Prop :=
  (∃ c, c ≠ quote ∧ c ≠ '\\' ∧ c ≠ '\n' ∧ part = [c]) ∨ ∃ c, c ≠ '\n' ∧ part = ['\\', c]

/-- The parts are those of a literal. -/
def AreLiteralUnits (quote : Char) (parts : List (List Char)) : Prop :=
  ∀ part ∈ parts, IsLiteralUnit quote part

/-- A digit of ASCII. -/
def IsDigit (c : Char) : Prop :=
  '0' ≤ c ∧ c ≤ '9'

/-- A letter of ASCII, or an underscore. -/
def IsNameStart (c : Char) : Prop :=
  ('a' ≤ c ∧ c ≤ 'z') ∨ ('A' ≤ c ∧ c ≤ 'Z') ∨ c = '_'

namespace Kind

/-- The kinds of tokens in order of priority. -/
def priority : List Kind := [
  comment, newline, whitespace,
  keyword,
  string, character, integer,
  leftBrace, rightBrace, leftParen, rightParen, colon, comma, dot,
  bitwiseShift, comparison, minus, additive, multiplicative, bitwiseComparison, xor, bitwiseNot,
  identifier,
  unrecognized]

/-- The texts of a kind that has only some. -/
def words : Kind → List String
  | keyword => ["else", "fun", "if", "loop", "return", "until", "var"]
  | leftBrace => ["\x7b"]
  | rightBrace => ["\x7d"]
  | leftParen => ["("]
  | rightParen => [")"]
  | colon => [":"]
  | comma => [","]
  | dot => ["."]
  | bitwiseShift => ["<<", ">>"]
  | comparison => ["==", "!=", "<=", ">=", "<", ">"]
  | minus => ["-"]
  | additive => ["+"]
  | multiplicative => ["*", "/", "%"]
  | bitwiseComparison => ["&", "|"]
  | xor => ["^"]
  | bitwiseNot => ["~"]
  | _ => []

/-- A text is in the language of the kind where `rest` comes after it. Only keywords look at what
comes after them. -/
def Language (kind : Kind) (text rest : List Char) : Prop :=
  match kind with
  | comment => ∃ body, text = '#' :: body ∧ '\n' ∉ body
  | newline => text ≠ [] ∧ ∀ c ∈ text, c = '\n'
  | whitespace => text ≠ [] ∧ ∀ c ∈ text, c = ' ' ∨ c = '\t'
  | keyword => String.ofList text ∈ words keyword ∧ ∀ c ∈ rest.head?, Text.isWordChar c = false
  | string => ∃ parts, AreLiteralUnits '"' parts ∧ text = '"' :: (parts.flatten ++ ['"'])
  | character => ∃ part, IsLiteralUnit '\'' part ∧ text = '\'' :: (part ++ ['\''])
  | integer => text ≠ [] ∧ ∀ c ∈ text, IsDigit c
  | identifier => ∃ first body, text = first :: body ∧ IsNameStart first ∧
      ∀ c ∈ body, IsNameStart c ∨ IsDigit c
  | unrecognized => text ≠ [] ∧ ∀ c ∈ text, c ≠ '\n' ∧ c ≠ '\t' ∧ c ≠ ' '
  | _ => String.ofList text ∈ words kind

/-- Some text of the kind stands at the front of a text. -/
def Begins (kind : Kind) (text : List Char) : Prop :=
  ∃ piece rest, text = piece ++ rest ∧ kind.Language piece rest

/-- The piece is the longest text of the kind at the front of a text. -/
structure Longest (kind : Kind) (piece text : List Char) : Prop where
  language : ∃ rest, text = piece ++ rest ∧ kind.Language piece rest
  length_le : ∀ other rest, text = other ++ rest → kind.Language other rest →
    other.length ≤ piece.length

end Kind

/-! ## Extents that are exact -/

namespace Pattern

/-- The extent is the length of the longest text of a language at the front, and is zero where there
is none. -/
structure Exact (extent : List Char → Nat) (language : List Char → List Char → Prop) : Prop where
  sound : ∀ text, 0 < extent text → language (text.take (extent text)) (text.drop (extent text))
  length_le : ∀ piece rest, language piece rest → piece.length ≤ extent (piece ++ rest)
  ne_nil : ∀ piece rest, language piece rest → piece ≠ []

/-- A run is the longest text of its characters. -/
theorem exact_run {among : Char → Bool} {member : Char → Prop}
    (h : ∀ c, among c = true ↔ member c) :
    Exact (run among) fun text _ => text ≠ [] ∧ ∀ c ∈ text, member c where
  sound text hpos := by
    rw [take_run]
    refine ⟨List.ne_nil_of_length_pos hpos, fun c hc => ?_⟩
    exact (h c).mp (List.mem_takeWhile_imp hc)
  length_le piece rest hpiece := by
    have hall : ∀ c ∈ piece, among c = true := fun c hc => (h c).mpr (hpiece.2 c hc)
    rw [run, List.takeWhile_append_of_pos hall, List.length_append]
    exact Nat.le_add_right _ _
  ne_nil _ _ hpiece := hpiece.1

/-- A comment goes on to the end of its line. -/
theorem exact_commentExtent : Exact commentExtent Kind.comment.Language where
  sound text hpos := by
    unfold commentExtent at hpos ⊢
    split
    case h_1 rest =>
      rw [Nat.add_comm, List.take_succ_cons, take_run]
      refine ⟨_, rfl, fun hmem => ?_⟩
      have hnewline := List.mem_takeWhile_imp hmem
      cases hnewline
    case h_2 hne =>
      split at hpos
      · exact absurd rfl (hne _)
      · exact absurd hpos (Nat.lt_irrefl 0)
  length_le piece rest hpiece := by
    obtain ⟨body, rfl, hbody⟩ := hpiece
    have hall : ∀ c ∈ body, (c != '\n') = true :=
      fun c hc => bne_iff_ne.mpr fun heq => hbody (heq ▸ hc)
    show body.length + 1 ≤ 1 + run (· != '\n') (body ++ rest)
    rw [run, List.takeWhile_append_of_pos hall, List.length_append]
    omega
  ne_nil _ _ hpiece := by
    obtain ⟨body, rfl, _⟩ := hpiece
    exact List.cons_ne_nil _ _

/-- A digit is told by its place among the characters. -/
theorem isDigit_iff (c : Char) : c.isDigit = true ↔ IsDigit c := by
  simp [Char.isDigit, IsDigit, Char.le_def]

/-- Blanks are spaces and tabs. -/
theorem isBlank_iff (c : Char) : isBlank c = true ↔ c = ' ' ∨ c = '\t' := by
  simp [isBlank]

/-- What no other pattern accepts goes on up to a blank or a newline. -/
theorem isRest_iff (c : Char) :
    (c != '\n' && !isBlank c) = true ↔ c ≠ '\n' ∧ c ≠ '\t' ∧ c ≠ ' ' := by
  simp [isBlank, and_comm]

/-- Names start with letters and underscores. -/
theorem startsName_iff (c : Char) : startsName c = true ↔ IsNameStart c := by
  have hupper : c.isUpper = true ↔ 'A' ≤ c ∧ c ≤ 'Z' := decide_eq_true_iff
  have hlower : c.isLower = true ↔ 'a' ≤ c ∧ c ≤ 'z' := by
    show (decide ('a' ≤ c) && decide (c ≤ 'z')) = true ↔ _
    rw [Bool.and_eq_true, decide_eq_true_iff, decide_eq_true_iff]
  show (c.isUpper || c.isLower || c == '_') = true ↔ IsNameStart c
  rw [Bool.or_eq_true, Bool.or_eq_true, hupper, hlower, beq_iff_eq]
  unfold IsNameStart
  tauto

/-- Names go on with letters, underscores and digits. -/
theorem continuesName_iff (c : Char) :
    continuesName c = true ↔ IsNameStart c ∨ IsDigit c := by
  have hstart := startsName_iff c
  have hdigit := isDigit_iff c
  simp only [startsName, continuesName, Char.isAlphanum, Bool.or_eq_true] at hstart ⊢
  tauto

/-- A name is a character that starts one, and a run of those that go on with it. -/
theorem identifierExtent_cons (c : Char) (rest : List Char) : identifierExtent (c :: rest) =
    if startsName c then 1 + run continuesName rest else 0 := rfl

/-- A name takes as many characters as go on with it. -/
theorem exact_identifierExtent : Exact identifierExtent Kind.identifier.Language where
  sound text hpos := by
    cases text with
    | nil => exact absurd hpos (Nat.lt_irrefl 0)
    | cons c rest =>
      rw [identifierExtent_cons] at hpos ⊢
      by_cases hstarts : startsName c = true
      · rw [if_pos hstarts, Nat.add_comm, List.take_succ_cons, take_run]
        refine ⟨c, _, rfl, (startsName_iff c).mp hstarts, fun d hd => ?_⟩
        exact (continuesName_iff d).mp (List.mem_takeWhile_imp hd)
      · rw [if_neg hstarts] at hpos
        exact absurd hpos (Nat.lt_irrefl 0)
  length_le piece rest hpiece := by
    obtain ⟨first, body, rfl, hfirst, hbody⟩ := hpiece
    have hall : ∀ c ∈ body, continuesName c = true :=
      fun c hc => (continuesName_iff c).mpr (hbody c hc)
    rw [List.cons_append, List.length_cons, identifierExtent_cons,
      if_pos ((startsName_iff first).mpr hfirst), run, List.takeWhile_append_of_pos hall,
      List.length_append]
    omega
  ne_nil _ _ hpiece := by
    obtain ⟨first, body, rfl, _⟩ := hpiece
    exact List.cons_ne_nil _ _

/-! ## Words -/

/-- No word of the list is empty, and none stands in front of a longer one that it begins. -/
def LongestFirst (words : List String) : Prop :=
  "" ∉ words ∧ words.Pairwise fun word later => ¬ word.toList <+: later.toList

instance (words : List String) : Decidable (LongestFirst words) :=
  inferInstanceAs (Decidable (_ ∧ _))

/-- A word found is one of the list at the front of the text. -/
theorem firstWord_pos {words : List String} {text : List Char} (h : 0 < firstWord words text) :
    ∃ word ∈ words, word.toList <+: text ∧ firstWord words text = word.toList.length := by
  unfold firstWord at h ⊢
  split
  case h_1 word hfind =>
    have hfront := List.find?_some hfind
    exact ⟨word, List.mem_of_find?_eq_some hfind, List.isPrefixOf_iff_prefix.mp hfront,
      String.length_toList.symm⟩
  case h_2 hnone =>
    rw [hnone] at h
    exact absurd h (Nat.lt_irrefl 0)

/-- Of the words at the front of a text the longest is found. -/
theorem length_le_firstWord {words : List String} (h : LongestFirst words) {word : String}
    (hword : word ∈ words) {text : List Char} (hfront : word.toList <+: text) :
    word.toList.length ≤ firstWord words text := by
  have hsome : (words.find? fun word => word.toList.isPrefixOf text).isSome = true :=
    List.find?_isSome.mpr ⟨word, hword, List.isPrefixOf_iff_prefix.mpr hfront⟩
  obtain ⟨found, hfind⟩ := Option.isSome_iff_exists.mp hsome
  have hlength : firstWord words text = found.toList.length := by
    rw [firstWord, hfind, String.length_toList]
  obtain ⟨hfound, earlier, later, rfl, hearlier⟩ := List.find?_eq_some_iff_append.mp hfind
  rw [hlength]
  replace hfound := List.isPrefixOf_iff_prefix.mp hfound
  rcases List.mem_append.mp hword with hmem | hmem
  · -- A word in front of the one found is not at the front of the text.
    have hnot := hearlier word hmem
    rw [List.isPrefixOf_iff_prefix.mpr hfront] at hnot
    cases hnot
  rcases List.mem_cons.mp hmem with rfl | hmem
  · exact Nat.le_refl _
  · have hpairwise := (List.pairwise_append.mp h.2).2.1
    have hnot := (List.pairwise_cons.mp hpairwise).1 word hmem
    rcases List.prefix_or_prefix_of_prefix hfound hfront with hle | hle
    · exact absurd hle hnot
    · exact hle.length_le

/-- The first word that is found is the longest, if longer ones come first. -/
theorem exact_firstWord {words : List String} (h : LongestFirst words) :
    Exact (firstWord words) fun text _ => String.ofList text ∈ words where
  sound text hpos := by
    obtain ⟨word, hword, hfront, hlength⟩ := firstWord_pos hpos
    show String.ofList (text.take (firstWord words text)) ∈ words
    rw [hlength, ← List.prefix_iff_eq_take.mp hfront, String.ofList_toList]
    exact hword
  length_le piece rest hpiece := by
    have hfront : (String.ofList piece).toList <+: piece ++ rest := by
      rw [String.toList_ofList]
      exact List.prefix_append piece rest
    have hle := length_le_firstWord h hpiece hfront
    rwa [String.toList_ofList] at hle
  ne_nil piece rest hpiece := by
    rintro rfl
    exact h.1 hpiece

/-- A word ends where no word character comes. -/
theorem wordEnds_iff {text : List Char} :
    wordEnds text = true ↔ ∀ c ∈ text.head?, Text.isWordChar c = false := by
  cases text <;> simp [wordEnds]

/-- No keyword begins another one, so that at most one of them stands at a place. -/
theorem firstWord_keyword {text rest : List Char} (h : String.ofList text ∈ keywords) :
    firstWord keywords (text ++ rest) = text.length := by
  have hincomparable : ∀ word ∈ keywords, ∀ other ∈ keywords, word.toList <+: other.toList →
      word = other := by decide
  have hexact : LongestFirst keywords := by decide
  have hle := (exact_firstWord hexact).length_le text rest h
  have hpos : 0 < firstWord keywords (text ++ rest) :=
    Nat.lt_of_lt_of_le (List.length_pos_of_ne_nil ((exact_firstWord hexact).ne_nil text rest h)) hle
  obtain ⟨word, hword, hfront, hlength⟩ := firstWord_pos hpos
  have hfront' : (String.ofList text).toList <+: text ++ rest := by
    rw [String.toList_ofList]
    exact List.prefix_append text rest
  have heq : word = String.ofList text := by
    rcases List.prefix_or_prefix_of_prefix hfront hfront' with hprefix | hprefix
    · exact hincomparable word hword _ h hprefix
    · exact (hincomparable _ h word hword hprefix).symm
  rw [hlength, heq, String.toList_ofList]

/-- A keyword is found only where the word ends. -/
theorem exact_keywordExtent : Exact keywordExtent Kind.keyword.Language where
  sound text hpos := by
    unfold keywordExtent at hpos ⊢
    by_cases hends : wordEnds (text.drop (firstWord keywords text)) = true
    · simp only [if_pos hends] at hpos ⊢
      obtain ⟨word, hword, hfront, hlength⟩ := firstWord_pos hpos
      refine ⟨?_, wordEnds_iff.mp hends⟩
      rw [hlength, ← List.prefix_iff_eq_take.mp hfront, String.ofList_toList]
      exact hword
    · simp only [if_neg hends] at hpos
      exact absurd hpos (Nat.lt_irrefl 0)
  length_le piece rest hpiece := by
    have hlength : firstWord keywords (piece ++ rest) = piece.length := firstWord_keyword hpiece.1
    have hends := wordEnds_iff.mpr hpiece.2
    simp only [keywordExtent, hlength, List.drop_left, hends, if_true]
    exact Nat.le_refl _
  ne_nil piece rest hpiece := by
    rintro rfl
    exact absurd hpiece.1 (by decide)

/-! ## Literals -/

/-- Before the closing quote a literal is made of parts. -/
theorem untilQuote_sound {quote : Char} {text : List Char} {length : Nat}
    (h : untilQuote quote text = some length) : ∃ parts, AreLiteralUnits quote parts ∧
      text.take length = parts.flatten ++ [quote] := by
  fun_induction untilQuote quote text generalizing length with
  | case1 => cases h
  | case2 => cases h
  | case3 c rest hc ih =>
    obtain ⟨n, hn, rfl⟩ := Option.map_eq_some_iff.mp h
    obtain ⟨parts, hparts, htake⟩ := ih hn
    refine ⟨['\\', c] :: parts, List.forall_mem_cons.mpr ⟨.inr ⟨c, hc, rfl⟩, hparts⟩, ?_⟩
    simp [htake]
  | case4 =>
    cases h
    exact ⟨[], fun _ hpart => absurd hpart List.not_mem_nil, rfl⟩
  | case5 => cases h
  | case6 c rest hslash hquote hplain ih =>
    obtain ⟨n, hn, rfl⟩ := Option.map_eq_some_iff.mp h
    obtain ⟨parts, hparts, htake⟩ := ih hn
    rw [not_or] at hplain
    have hunit : IsLiteralUnit quote [c] := .inl ⟨c, hquote, hplain.1, hplain.2, rfl⟩
    refine ⟨[c] :: parts, List.forall_mem_cons.mpr ⟨hunit, hparts⟩, ?_⟩
    simp [htake]

/-- The parts of a literal are passed over up to the first quote after them. -/
theorem untilQuote_append {quote : Char} (hquote : quote ≠ '\\') {parts : List (List Char)}
    (h : AreLiteralUnits quote parts) (rest : List Char) :
    untilQuote quote (parts.flatten ++ quote :: rest) = some (parts.flatten.length + 1) := by
  induction parts with
  | nil =>
    show untilQuote quote (quote :: rest) = some 1
    rw [untilQuote, if_pos rfl]
    exact fun c tail heq _ => hquote heq
  | cons part parts ih =>
    obtain ⟨hpart, hparts⟩ := List.forall_mem_cons.mp h
    rcases hpart with ⟨c, hne, hslash, hnewline, rfl⟩ | ⟨c, hnewline, rfl⟩
    · show untilQuote quote (c :: (parts.flatten ++ quote :: rest)) = _
      rw [untilQuote, if_neg hne, if_neg (by simp [hslash, hnewline]), ih hparts]
      · simp
      · exact fun d tail heq _ => hslash heq
    · show untilQuote quote ('\\' :: c :: (parts.flatten ++ quote :: rest)) = _
      rw [untilQuote, if_neg hnewline, ih hparts]
      simp

/-- At a place where a string stands, the extent of strings is its length. -/
theorem stringExtent_eq {piece rest : List Char} (h : Kind.string.Language piece rest) :
    stringExtent (piece ++ rest) = piece.length := by
  obtain ⟨parts, hparts, rfl⟩ := h
  show ((untilQuote '"' (parts.flatten ++ ['"'] ++ rest)).map (· + 1)).getD 0 = _
  rw [List.append_assoc, List.singleton_append, untilQuote_append (by decide) hparts]
  simp

/-- At a place where a character stands, the extent of characters is its length. -/
theorem characterExtent_eq {piece rest : List Char} (h : Kind.character.Language piece rest) :
    characterExtent (piece ++ rest) = piece.length := by
  obtain ⟨part, ⟨c, hquote, hslash, hnewline, rfl⟩ | ⟨c, hnewline, rfl⟩, rfl⟩ := h
  · show characterExtent ('\'' :: c :: '\'' :: rest) = 3
    unfold characterExtent
    split
    case h_1 heq =>
      have hc : c = '\\' := (List.cons.inj (List.cons.inj heq).2).1
      exact absurd hc hslash
    case h_2 heq =>
      have hc : c = _ := (List.cons.inj (List.cons.inj heq).2).1
      subst hc
      exact if_neg (by simp [hquote, hslash, hnewline])
    case h_3 hne => exact absurd rfl (hne c rest)
  · show characterExtent ('\'' :: '\\' :: c :: '\'' :: rest) = 4
    exact if_neg hnewline

/-- A string ends at the first quote that is not escaped. -/
theorem exact_stringExtent : Exact stringExtent Kind.string.Language where
  sound text hpos := by
    unfold stringExtent at hpos ⊢
    split
    case h_1 rest =>
      cases hquote : untilQuote '"' rest with
      | none => simp [hquote] at hpos
      | some length =>
        obtain ⟨parts, hparts, htake⟩ := untilQuote_sound hquote
        exact ⟨parts, hparts, by simp [htake]⟩
    case h_2 hne =>
      split at hpos
      · exact absurd rfl (hne _)
      · exact absurd hpos (Nat.lt_irrefl 0)
  length_le piece rest hpiece := Nat.le_of_eq (stringExtent_eq hpiece).symm
  ne_nil _ _ hpiece := by
    obtain ⟨parts, _, rfl⟩ := hpiece
    exact List.cons_ne_nil _ _

/-- A character has one unit between its quotes. -/
theorem exact_characterExtent : Exact characterExtent Kind.character.Language where
  sound text hpos := by
    unfold characterExtent at hpos ⊢
    split
    case h_1 c rest =>
      by_cases hc : c = '\n'
      · simp [hc] at hpos
      · rw [if_neg hc]
        exact ⟨['\\', c], .inr ⟨c, hc, rfl⟩, rfl⟩
    case h_2 c rest hescape =>
      by_cases hc : c = '\'' ∨ c = '\\' ∨ c = '\n'
      · simp [hc] at hpos
      · rw [if_neg hc]
        simp only [not_or] at hc
        exact ⟨[c], .inl ⟨c, hc.1, hc.2.1, hc.2.2, rfl⟩, rfl⟩
    case h_3 hescape hplain =>
      split at hpos
      · exact absurd rfl (hescape _ _)
      · exact absurd rfl (hplain _ _)
      · exact absurd hpos (Nat.lt_irrefl 0)
  length_le piece rest hpiece := Nat.le_of_eq (characterExtent_eq hpiece).symm
  ne_nil _ _ hpiece := by
    obtain ⟨part, _, rfl⟩ := hpiece
    exact List.cons_ne_nil _ _

/-! ## The table -/

/-- Every pattern of the table is exact for the language of its kind. -/
theorem exact_of_mem {pattern : Pattern} (h : pattern ∈ table) :
    Exact pattern.extent pattern.kind.Language := by
  simp only [table, List.mem_cons, List.not_mem_nil, or_false] at h
  rcases h with rfl | rfl | rfl | rfl | rfl | rfl | rfl | rfl | rfl | rfl | rfl | rfl | rfl | rfl |
    rfl | rfl | rfl | rfl | rfl | rfl | rfl | rfl | rfl | rfl
  all_goals first
    | exact exact_commentExtent
    | exact exact_keywordExtent
    | exact exact_stringExtent
    | exact exact_characterExtent
    | exact exact_identifierExtent
    | exact exact_run fun c => beq_iff_eq
    | exact exact_run isBlank_iff
    | exact exact_run isDigit_iff
    | exact exact_run isRest_iff
    | exact exact_firstWord (by decide)

/-- The patterns stand in the order of priority. -/
theorem map_kind_table : table.map (·.kind) = Kind.priority := rfl

section

variable {extent : List Char → Nat} {kind : Kind} {text : List Char}

/-- Nothing of the kind is found only where there is nothing. -/
theorem Exact.not_begins (h : Exact extent kind.Language) (hzero : extent text = 0) :
    ¬ kind.Begins text := by
  rintro ⟨piece, rest, rfl, hpiece⟩
  have hle := h.length_le piece rest hpiece
  rw [hzero] at hle
  exact h.ne_nil piece rest hpiece (List.eq_nil_of_length_eq_zero (Nat.le_zero.mp hle))

/-- Whatever is found is the longest text of the kind. -/
theorem Exact.longest (h : Exact extent kind.Language) (hpos : 0 < extent text) :
    kind.Longest (text.take (extent text)) text where
  language := ⟨_, (List.take_append_drop _ _).symm, h.sound text hpos⟩
  length_le other rest heq hother := by
    have hle := h.length_le other rest hother
    rw [← heq] at hle
    have hlength := congrArg List.length heq
    rw [List.length_append] at hlength
    rw [List.length_take]
    omega

end

end Pattern

/-- The token in front of a text is of the first kind that the text begins with, and it is the
longest text of the kind. -/
theorem Scan.front?_longest {text : List Char} {kind : Kind} {length : Nat}
    (h : front? Pattern.table text = some (kind, length)) :
    kind.Longest (text.take length) text ∧ ∃ earlier later,
      Kind.priority = earlier ++ kind :: later ∧ ∀ other ∈ earlier, ¬ other.Begins text := by
  obtain ⟨earlier, pattern, later, htable, hfound, hearlier⟩ := List.findSome?_eq_some_iff.mp h
  have hmem : ∀ other ∈ earlier, other ∈ Pattern.table :=
    fun other hother => htable ▸ List.mem_append_left _ hother
  have hexact := Pattern.exact_of_mem (htable ▸ List.mem_append_right _ List.mem_cons_self)
  split at hfound
  case h_1 => cases hfound
  case h_2 n hextent =>
    cases hfound
    have hlongest : pattern.kind.Longest (text.take (pattern.extent text)) text :=
      hexact.longest (by omega)
    rw [hextent] at hlongest
    refine ⟨hlongest, earlier.map (·.kind), later.map (·.kind), ?_, ?_⟩
    · rw [← Pattern.map_kind_table, htable, List.map_append, List.map_cons]
    · intro kind hkind
      obtain ⟨other, hother, rfl⟩ := List.mem_map.mp hkind
      have hnone := hearlier other hother
      split at hnone
      case h_1 hzero => exact (Pattern.exact_of_mem (hmem other hother)).not_begins hzero
      case h_2 => cases hnone

/-! ## Sources -/

/-- Every token of a source follows the table: of the kinds that have a text where the token stands
it is of the first, and it is the longest text of the kind there. At no place of any text are there
two strings or two characters to choose from. -/
theorem scan_longest :
    (∀ (source : String) (before : List Token) (token : Token) (after : List Token),
      (scan source).tokens = before ++ token :: after → ∃ text,
        source.toList = Token.joined before ++ text ∧ token.kind.Longest token.text.toList text ∧
          ∃ earlier later, Kind.priority = earlier ++ token.kind :: later ∧
            ∀ kind ∈ earlier, ¬ kind.Begins text) ∧
    ∀ kind ∈ [Kind.string, Kind.character], ∀ piece rest other rest' : List Char,
      piece ++ rest = other ++ rest' → kind.Language piece rest → kind.Language other rest' →
        piece = other := by
  constructor
  · intro source before token after htokens
    obtain ⟨text, htext, hcut⟩ := (scanWith_cuts (fun _ h => h) source).split htokens
    refine ⟨text, htext, ?_⟩
    generalize (scanWith Pattern.table source).stuck = stuck at hcut
    cases hcut with
    | @piece _ piece rest kind _ piece_ne front =>
      have hfront := Scan.front?_longest front
      rw [List.take_left] at hfront
      have hpiece : (Scan.tokenOf kind ([] ++ Token.joined before) piece).text.toList = piece :=
        String.toList_ofList
      rw [hpiece]
      exact hfront
  · intro kind hkind piece rest other rest' heq hpiece hother
    have hlength : piece.length = other.length := by
      simp only [List.mem_cons, List.not_mem_nil, or_false] at hkind
      rcases hkind with rfl | rfl
      · rw [← Pattern.stringExtent_eq hpiece, heq, Pattern.stringExtent_eq hother]
      · rw [← Pattern.characterExtent_eq hpiece, heq, Pattern.characterExtent_eq hother]
    exact List.append_inj_left heq hlength

/-- A keyword in front of a letter beyond ASCII is a name, and a shift goes before the comparison
that begins it. A string goes on behind an escaped quote, so that no string ends at that quote. -/
theorem scan_longest_escaped :
    (∃ text, "ifé x<<\"a\\\"b\"".toList = Token.joined [] ++ text ∧
      Kind.identifier.Longest "if".toList text ∧
        ∃ earlier later, Kind.priority = earlier ++ Kind.identifier :: later ∧
          ∀ kind ∈ earlier, ¬ kind.Begins text) ∧
    (∃ text, "ifé x<<\"a\\\"b\"".toList = "ifé x".toList ++ text ∧
      Kind.bitwiseShift.Longest "<<".toList text ∧
        ∃ earlier later, Kind.priority = earlier ++ Kind.bitwiseShift :: later ∧
          ∀ kind ∈ earlier, ¬ kind.Begins text) ∧
    ¬ Kind.string.Language "\"a\\\"".toList "b\"".toList := by
  have htokens : (scan "ifé x<<\"a\\\"b\"").tokens = [
      ⟨.identifier, "if", 0, 0, -1⟩, ⟨.unrecognized, "é", 0, 2, -1⟩,
      ⟨.whitespace, " ", 0, 3, -1⟩, ⟨.identifier, "x", 0, 4, -1⟩,
      ⟨.bitwiseShift, "<<", 0, 5, -1⟩, ⟨.string, "\"a\\\"b\"", 0, 7, -1⟩] := by decide +kernel
  obtain ⟨hscan, hquoted⟩ := scan_longest
  have hwhole : Kind.string.Language "\"a\\\"b\"".toList [] :=
    ⟨[['a'], ['\\', '"'], ['b']], by simp [AreLiteralUnits, IsLiteralUnit], by decide⟩
  refine ⟨hscan _ [] _ _ htokens, hscan _ [_, _, _, _] _ _ htokens, fun hpart => ?_⟩
  have heq := hquoted .string (by decide) _ _ _ _ (by decide) hpart hwhole
  exact absurd heq (by decide)

end Tranquility
