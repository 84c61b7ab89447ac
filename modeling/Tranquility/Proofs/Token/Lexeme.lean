import Tranquility.Proofs.Grammar.Escape

/-!
# What the tokens of a source are

A pattern of the table has put every token into the list, so that a token of a kind with one
spelling has that spelling, no token is the end of the input, and a string ends with a quote that no
backslash stands in front of. The last pattern of the table takes what no other does: every source
has tokens up to its end.
-/

namespace Tranquility

open Grammar

/-! ## Patterns -/

namespace Pattern

/-- A pattern that takes one word takes just this word. -/
theorem take_firstWord {word : String} {text : List Char} (h : 0 < firstWord [word] text) :
    String.ofList (text.take (firstWord [word] text)) = word := by
  unfold firstWord at h ⊢
  by_cases hfront : word.toList.isPrefixOf text = true
  · obtain ⟨rest, rfl⟩ := List.isPrefixOf_iff_prefix.mp hfront
    simp only [List.find?_cons, hfront]
    rw [← String.length_toList, List.take_left, String.ofList_toList]
  · simp [hfront] at h

/-- A kind with one spelling has a pattern that takes this word. -/
theorem extent_of_spelling {pattern : Pattern} (h : pattern ∈ table) {word : String}
    (hword : word ∈ pattern.kind.spelling?) : pattern.extent = firstWord [word] := by
  simp only [table, List.mem_cons, List.not_mem_nil, or_false] at h
  rcases h with rfl | rfl | rfl | rfl | rfl | rfl | rfl | rfl | rfl | rfl | rfl | rfl | rfl | rfl |
    rfl | rfl | rfl | rfl | rfl | rfl | rfl | rfl | rfl | rfl <;> cases hword <;> rfl

/-- No pattern makes a token for the end of the input. -/
theorem kind_ne_endOfInput {pattern : Pattern} (h : pattern ∈ table) :
    pattern.kind ≠ .endOfInput := by
  revert pattern
  decide

/-- Strings have one pattern. -/
theorem extent_of_string {pattern : Pattern} (h : pattern ∈ table)
    (hkind : pattern.kind = .string) : pattern.extent = stringExtent := by
  simp only [table, List.mem_cons, List.not_mem_nil, or_false] at h
  rcases h with rfl | rfl | rfl | rfl | rfl | rfl | rfl | rfl | rfl | rfl | rfl | rfl | rfl | rfl |
    rfl | rfl | rfl | rfl | rfl | rfl | rfl | rfl | rfl | rfl <;> first | rfl | cases hkind

/-- Up to its closing quote a literal has no backslash without a character after it. -/
theorem take_untilQuote {quote : Char} {text : List Char} {length : Nat}
    (h : untilQuote quote text = some length) : ∃ body : List Char,
      text.take length = body ++ [quote] ∧ escapeFault? body ≠ some .truncated := by
  fun_induction untilQuote quote text generalizing length with
  | case1 => cases h
  | case2 => cases h
  | case3 c rest hc ih =>
    obtain ⟨n, hn, rfl⟩ := Option.map_eq_some_iff.mp h
    obtain ⟨body, htake, hbody⟩ := ih hn
    refine ⟨'\\' :: c :: body, by simp [htake], ?_⟩
    rw [escapeFault?]
    split
    · exact hbody
    · simp
  | case4 rest hslash =>
    cases h
    exact ⟨[], rfl, by simp [escapeFault?]⟩
  | case5 => cases h
  | case6 c rest hslash hquote hplain ih =>
    obtain ⟨n, hn, rfl⟩ := Option.map_eq_some_iff.mp h
    obtain ⟨body, htake, hbody⟩ := ih hn
    refine ⟨c :: body, by simp [htake], ?_⟩
    rw [escapeFault?_cons fun hc => hplain (.inl hc)]
    exact hbody

/-- Between its quotes a string has no backslash without a character after it. -/
theorem inner_stringExtent {text : List Char} (h : 0 < stringExtent text) :
    escapeFault? ((text.take (stringExtent text)).drop 1).dropLast ≠ some .truncated := by
  unfold stringExtent at h ⊢
  split
  case h_1 rest =>
    cases hquote : untilQuote '"' rest with
    | none => simp [hquote] at h
    | some length =>
      obtain ⟨body, htake, hbody⟩ := take_untilQuote hquote
      simpa [htake] using hbody
  case h_2 => simp [escapeFault?]

/-- The patterns keep those for newlines, for blanks and for what no other pattern accepts. -/
def Covering (patterns : List Pattern) : Prop :=
  ∀ pattern ∈ table, pattern.kind ∈ [.newline, .whitespace, .unrecognized] → pattern ∈ patterns

/-- Such patterns leave no text without a token in front. -/
theorem Covering.front?_isSome {patterns : List Pattern} (h : Covering patterns) (c : Char)
    (rest : List Char) : (Scan.front? patterns (c :: rest)).isSome = true := by
  have hrun : ∀ among : Char → Bool, among c = true → 0 < run among (c :: rest) := by
    intro among hc
    simp [run, hc]
  have hcover : ∃ pattern ∈ patterns, 0 < pattern.extent (c :: rest) := by
    by_cases hnewline : c = '\n'
    · exact ⟨_, h ⟨.newline, run (· == '\n')⟩ (by simp [table]) (by simp),
        hrun _ (by simp [hnewline])⟩
    · by_cases hblank : isBlank c = true
      · exact ⟨_, h ⟨.whitespace, run isBlank⟩ (by simp [table]) (by simp), hrun _ hblank⟩
      · refine ⟨_, h ⟨.unrecognized, run fun c => c != '\n' && !isBlank c⟩ (by simp [table])
          (by simp), hrun _ ?_⟩
        simp [hnewline, hblank]
  obtain ⟨pattern, hmem, hpos⟩ := hcover
  rw [Scan.front?, List.findSome?_isSome_iff]
  refine ⟨pattern, hmem, ?_⟩
  split
  · omega
  · rfl

end Pattern

/-! ## Scans -/

namespace Scan

variable {patterns : List Pattern}

/-- What is found comes from a pattern that takes something. -/
theorem front?_eq_some {text : List Char} {kind : Kind} {length : Nat}
    (h : front? patterns text = some (kind, length)) :
    ∃ pattern ∈ patterns, pattern.kind = kind ∧ pattern.extent text = length ∧ 0 < length := by
  obtain ⟨pattern, hmem, hpattern⟩ := List.exists_of_findSome?_eq_some h
  refine ⟨pattern, hmem, ?_⟩
  split at hpattern
  case h_1 => cases hpattern
  case h_2 n hextent =>
    cases hpattern
    exact ⟨rfl, hextent, Nat.succ_pos n⟩

/-- Every token of a scan is what a pattern takes from the front of some text. -/
theorem mem_onward {place : Place} {pending : Nat} {text : List Char} {token : Token}
    (h : token ∈ (onward patterns place pending text).tokens) :
    ∃ pattern ∈ patterns, ∃ front, token.kind = pattern.kind ∧ 0 < pattern.extent front ∧
      front ≠ [] ∧ token.text = String.ofList (front.take (pattern.extent front)) := by
  fun_induction onward patterns place pending text with
  | case1 => exact absurd h List.not_mem_nil
  | case2 place pending c rest ih => exact ih h
  | case3 => exact absurd h List.not_mem_nil
  | case4 place c rest kind length hfront ih =>
    rcases List.mem_cons.mp h with rfl | h
    · obtain ⟨pattern, hmem, rfl, rfl, hpos⟩ := front?_eq_some hfront
      exact ⟨pattern, hmem, c :: rest, rfl, hpos, List.cons_ne_nil _ _, rfl⟩
    · exact ih h

/-- A scan by patterns that leave no text without a token comes to the end of the text. -/
theorem stuck_onward (h : Pattern.Covering patterns) (place : Place) (pending : Nat)
    (text : List Char) : (onward patterns place pending text).stuck = none := by
  fun_induction onward patterns place pending text with
  | case1 => rfl
  | case2 place pending c rest ih => exact ih
  | case3 place c rest hfront =>
    have hsome := h.front?_isSome c rest
    rw [hfront] at hsome
    cases hsome
  | case4 place c rest kind length hfront ih => exact ih

end Scan

/-! ## Tokens -/

/-- What holds of every token of a source, wherever it stands. -/
structure Token.Lexeme (token : Token) : Prop where
  kind_ne_endOfInput : token.kind ≠ .endOfInput
  length_pos : 0 < token.text.length
  text_of_spelling : ∀ word ∈ token.kind.spelling?, token.text = word
  untruncated : token.kind = .string → escapeFault? (inner token) ≠ some .truncated

/-- A token is what it is by its kind and its text. -/
theorem Token.Lexeme.congr {token other : Token} (h : token.Lexeme)
    (hkind : other.kind = token.kind) (htext : other.text = token.text) : other.Lexeme where
  kind_ne_endOfInput := hkind ▸ h.kind_ne_endOfInput
  length_pos := htext ▸ h.length_pos
  text_of_spelling := by
    rw [hkind, htext]
    exact h.text_of_spelling
  untruncated := by
    rw [Grammar.inner, hkind, htext]
    exact h.untruncated

/-- Every token of a scan is a piece of the source. -/
theorem Scan.lexeme_of_mem {place : Place} {pending : Nat} {text : List Char} {token : Token}
    (h : token ∈ (onward Pattern.table place pending text).tokens) : token.Lexeme := by
  obtain ⟨pattern, hmem, front, hkind, hpos, hfront, htext⟩ := mem_onward h
  constructor
  · rw [hkind]
    exact Pattern.kind_ne_endOfInput hmem
  · rw [htext, String.length_ofList, List.length_take]
    exact Nat.lt_min.mpr ⟨hpos, List.length_pos_iff.mpr hfront⟩
  · intro word hword
    rw [hkind] at hword
    have hextent := Pattern.extent_of_spelling hmem hword
    rw [hextent] at hpos htext
    rw [htext, Pattern.take_firstWord hpos]
  · intro hstring
    rw [hkind] at hstring
    rw [Pattern.extent_of_string hmem hstring] at hpos htext
    rw [Grammar.inner, htext, String.toList_ofList]
    exact Pattern.inner_stringExtent hpos

namespace Token

/-- Newlines in a row are merged by leaving tokens out. -/
theorem mergeNewlines_sublist (after : Bool) (tokens : List Token) :
    (mergeNewlines after tokens).Sublist tokens := by
  fun_induction mergeNewlines after tokens with
  | case1 => exact .slnil
  | case2 after token rest _ ih => exact ih.cons token
  | case3 after token rest _ ih => exact ih.cons_cons token

/-- Numbering gives every token its place in the list. -/
theorem number_eq_mapIdx (first : Nat) (tokens : List Token) :
    number first tokens = tokens.mapIdx fun i token => { token with index := ↑(first + i) } := by
  induction tokens generalizing first with
  | nil => rfl
  | cons token tokens ih => simp [number, ih, Nat.add_assoc, Nat.add_comm 1]

end Token

/-- A source always has tokens: those of its scan that matter to the grammar. -/
theorem tokenize_eq (source : String) :
    tokenize source = .ok (Token.significant (scan source).tokens) := by
  have hcovering : Pattern.Covering Pattern.table := fun _ h _ => h
  have hstuck := Scan.stuck_onward hcovering .start 0 source.toList
  simp only [tokenize, tokenizeWith, scanWith, hstuck]
  rfl

/-- A token of a source is one of the scan with its place in the list as its number. -/
theorem exists_scanned {source : String} {tokens : List Token} (h : tokenize source = .ok tokens)
    {i : Nat} {token : Token} (hget : tokens[i]? = some token) :
    ∃ scanned ∈ (scan source).tokens, token = { scanned with index := i } := by
  rw [tokenize_eq, Except.ok.injEq] at h
  subst h
  rw [Token.significant, Token.number_eq_mapIdx, List.getElem?_mapIdx] at hget
  obtain ⟨scanned, hscanned, rfl⟩ := Option.map_eq_some_iff.mp hget
  have hmem := (Token.mergeNewlines_sublist _ _).mem (List.mem_of_getElem? hscanned)
  exact ⟨scanned, List.mem_of_mem_filter hmem, by rw [Nat.zero_add]⟩

/-- The number of a token is its place in the list. -/
theorem getElem?_tokenize {source : String} {tokens : List Token}
    (h : tokenize source = .ok tokens) {i : Nat} {token : Token} (hget : tokens[i]? = some token) :
    token.index = i ∧ token.Lexeme := by
  obtain ⟨scanned, hscanned, rfl⟩ := exists_scanned h hget
  exact ⟨rfl, (Scan.lexeme_of_mem hscanned).congr rfl rfl⟩

/-- Tokens of a source have different numbers. -/
theorem pairwise_index_tokenize {source : String} {tokens : List Token}
    (h : tokenize source = .ok tokens) : tokens.Pairwise (·.index < ·.index) := by
  refine List.pairwise_iff_getElem.mpr fun i j hi hj hlt => ?_
  rw [(getElem?_tokenize h (List.getElem?_eq_getElem hi)).1,
    (getElem?_tokenize h (List.getElem?_eq_getElem hj)).1]
  exact Int.ofNat_lt.mpr hlt

/-- Every token of a source is a piece of it. -/
theorem lexeme_of_mem_tokenize {source : String} {tokens : List Token}
    (h : tokenize source = .ok tokens) {token : Token} (hmem : token ∈ tokens) :
    token.Lexeme := by
  obtain ⟨i, hi⟩ := List.mem_iff_getElem?.mp hmem
  exact (getElem?_tokenize h hi).2

end Tranquility
