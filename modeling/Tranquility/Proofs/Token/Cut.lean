import Tranquility.Proofs.Token.Lexeme
import Mathlib.Data.List.TakeWhile

/-!
# How a source is cut into tokens

A scan goes through a source from left to right and puts every piece of it into a token. A token is
at the place to which the text in front of it leads. The scan counts lines and columns by the kind
of a token alone, which is exact since newlines stand in runs of them and in no other token. All
this holds of every part of the table of patterns; a part may leave some text without a token in
front, and there its scan ends.
-/

namespace Tranquility

/-! ## Places -/

/-- The place to which a text leads from the start of a source. -/
def Place.past (text : List Char) : Place :=
  ⟨text.length, text.count '\n', (text.reverse.takeWhile (· != '\n')).length⟩

/-- The token is on the line and in the column of a place. -/
def Token.StartsAt (token : Token) (place : Place) : Prop :=
  token.line = place.line ∧ token.column = place.column

/-- A run of newlines leads to the start of a line. -/
theorem Place.past_append_newlines {passed piece : List Char} (hne : piece ≠ [])
    (h : ∀ c ∈ piece, c = '\n') :
    past (passed ++ piece) = (past passed).after .newline piece.length := by
  have hcount : piece.count '\n' = piece.length :=
    List.count_eq_length.mpr fun c hc => (h c hc).symm
  have hcolumn : (piece.reverse ++ passed.reverse).takeWhile (· != '\n') = [] := by
    obtain ⟨last, front, hpiece⟩ := List.exists_cons_of_ne_nil (List.reverse_ne_nil_iff.mpr hne)
    have hlast : last = '\n' := h last (List.mem_reverse.mp (hpiece ▸ List.mem_cons_self))
    rw [hpiece, hlast]
    rfl
  simp [past, after, hcount, hcolumn]

/-- A piece without a newline stays on its line. -/
theorem Place.past_append_inline {passed piece : List Char} (h : '\n' ∉ piece) {kind : Kind}
    (hkind : kind ≠ .newline) :
    past (passed ++ piece) = (past passed).after kind piece.length := by
  have hcount : piece.count '\n' = 0 := List.count_eq_zero.mpr h
  have hcolumn : (piece.reverse ++ passed.reverse).takeWhile (· != '\n') =
      piece.reverse ++ passed.reverse.takeWhile (· != '\n') := by
    apply List.takeWhile_append_of_pos
    intro c hc
    rw [List.mem_reverse] at hc
    exact bne_iff_ne.mpr fun hnewline => h (hnewline ▸ hc)
  simp [past, after, hkind, hcount, hcolumn, Nat.add_comm]

/-! ## Extents -/

namespace Pattern

/-- An extent stays on a line: it takes a part of the text without a newline. -/
def Inline (extent : List Char → Nat) : Prop :=
  ∀ text, extent text ≤ text.length ∧ '\n' ∉ text.take (extent text)

/-- A run takes the characters up to the first that is not among them. -/
theorem take_run (among : Char → Bool) (text : List Char) :
    text.take (run among text) = text.takeWhile among :=
  (List.prefix_iff_eq_take.mp (List.takeWhile_prefix among)).symm

/-- A run is no longer than the text. -/
theorem run_le (among : Char → Bool) (text : List Char) : run among text ≤ text.length :=
  (List.takeWhile_prefix among).length_le

/-- A run stays on its line if no newline is among its characters. -/
theorem inline_run {among : Char → Bool} (h : among '\n' = false) : Inline (run among) := by
  intro text
  constructor
  · exact run_le among text
  · rw [take_run]
    intro hmem
    rw [List.mem_takeWhile_imp hmem] at h
    cases h

theorem inline_firstWord {words : List String} (h : ∀ word ∈ words, '\n' ∉ word.toList) :
    Inline (firstWord words) := by
  intro text
  unfold firstWord
  split
  case h_1 word hfind =>
    have hfront : word.toList.isPrefixOf text = true := by simpa using List.find?_some hfind
    obtain ⟨rest, rfl⟩ := List.isPrefixOf_iff_prefix.mp hfront
    rw [← String.length_toList, List.length_append, List.take_left]
    exact ⟨Nat.le_add_right _ _, h word (List.mem_of_find?_eq_some hfind)⟩
  case h_2 => simp

theorem inline_keywordExtent : Inline keywordExtent := by
  intro text
  simp only [keywordExtent]
  split
  · exact inline_firstWord (by decide) text
  · simp

/-- One more character in front of what stays on its line. -/
theorem inline_cons {extent : List Char → Nat} (h : Inline extent) {c : Char} (hc : c ≠ '\n')
    (rest : List Char) : 1 + extent rest ≤ (c :: rest).length ∧
      '\n' ∉ (c :: rest).take (1 + extent rest) := by
  obtain ⟨hle, hmem⟩ := h rest
  rw [Nat.add_comm, List.length_cons, List.take_succ_cons, List.mem_cons, not_or]
  exact ⟨Nat.succ_le_succ hle, hc.symm, hmem⟩

/-- Comments end in front of the newline. -/
theorem inline_commentExtent : Inline commentExtent := by
  intro text
  unfold commentExtent
  split
  · exact inline_cons (inline_run rfl) (by decide) _
  · simp

theorem inline_identifierExtent : Inline identifierExtent := by
  intro text
  unfold identifierExtent
  split
  case h_1 c rest =>
    split
    case isTrue hstarts =>
      refine inline_cons (inline_run rfl) ?_ rest
      rintro rfl
      cases hstarts
    case isFalse => simp
  case h_2 => simp

/-- Up to its closing quote a literal stays on its line. -/
theorem untilQuote_inline {quote : Char} (hquote : quote ≠ '\n') {text : List Char} {length : Nat}
    (h : untilQuote quote text = some length) :
    length ≤ text.length ∧ '\n' ∉ text.take length := by
  fun_induction untilQuote quote text generalizing length with
  | case1 => cases h
  | case2 => cases h
  | case3 c rest hc ih =>
    obtain ⟨n, hn, rfl⟩ := Option.map_eq_some_iff.mp h
    obtain ⟨hle, hmem⟩ := ih hn
    constructor
    · simpa using hle
    · simpa [Ne.symm hc] using hmem
  | case4 =>
    cases h
    simp [hquote.symm]
  | case5 => cases h
  | case6 c rest hslash hne hplain ih =>
    obtain ⟨n, hn, rfl⟩ := Option.map_eq_some_iff.mp h
    obtain ⟨hle, hmem⟩ := ih hn
    constructor
    · simpa using hle
    · have hc : '\n' ≠ c := fun heq => hplain (.inr heq.symm)
      simpa [hc] using hmem

theorem inline_stringExtent : Inline stringExtent := by
  intro text
  unfold stringExtent
  split
  case h_1 rest =>
    cases hquote : untilQuote '"' rest with
    | none => simp
    | some length =>
      obtain ⟨hle, hmem⟩ := untilQuote_inline (by decide) hquote
      simpa using ⟨hle, hmem⟩
  case h_2 => simp

theorem inline_characterExtent : Inline characterExtent := by
  intro text
  unfold characterExtent
  split
  case h_1 c rest =>
    split
    · simp
    case isFalse hc => simp [Ne.symm hc]
  case h_2 c rest _ =>
    split
    · simp
    case isFalse hc =>
      have hne : '\n' ≠ c := fun heq => hc (.inr (.inr heq.symm))
      simp [hne]
  case h_3 => simp

/-- Only runs of newlines do not stay on their line. -/
theorem inline_of_mem {pattern : Pattern} (h : pattern ∈ table) (hkind : pattern.kind ≠ .newline) :
    Inline pattern.extent := by
  simp only [table, List.mem_cons, List.not_mem_nil, or_false] at h
  rcases h with rfl | rfl | rfl | rfl | rfl | rfl | rfl | rfl | rfl | rfl | rfl | rfl | rfl | rfl |
    rfl | rfl | rfl | rfl | rfl | rfl | rfl | rfl | rfl | rfl
  case inr.inl => exact absurd rfl hkind
  all_goals first
    | exact inline_commentExtent
    | exact inline_keywordExtent
    | exact inline_stringExtent
    | exact inline_characterExtent
    | exact inline_identifierExtent
    | exact inline_run rfl
    | exact inline_firstWord (by decide)

/-- Newlines have one pattern. -/
theorem extent_of_newline {pattern : Pattern} (h : pattern ∈ table)
    (hkind : pattern.kind = .newline) : pattern.extent = run (· == '\n') := by
  simp only [table, List.mem_cons, List.not_mem_nil, or_false] at h
  rcases h with rfl | rfl | rfl | rfl | rfl | rfl | rfl | rfl | rfl | rfl | rfl | rfl | rfl | rfl |
    rfl | rfl | rfl | rfl | rfl | rfl | rfl | rfl | rfl | rfl <;> first | rfl | cases hkind

/-- No pattern takes more than there is. -/
theorem extent_le {pattern : Pattern} (h : pattern ∈ table) (text : List Char) :
    pattern.extent text ≤ text.length := by
  by_cases hkind : pattern.kind = .newline
  · rw [extent_of_newline h hkind]
    exact run_le _ text
  · exact (inline_of_mem h hkind text).1

/-- A token leads from its place to the end of its text. -/
theorem past_append_take {pattern : Pattern} (h : pattern ∈ table) {text : List Char}
    (hpos : 0 < pattern.extent text) (passed : List Char) :
    Place.past (passed ++ text.take (pattern.extent text)) =
      (Place.past passed).after pattern.kind (pattern.extent text) := by
  have hlength : (text.take (pattern.extent text)).length = pattern.extent text :=
    List.length_take_of_le (extent_le h text)
  by_cases hkind : pattern.kind = .newline
  · have hne : text.take (pattern.extent text) ≠ [] := by
      apply List.ne_nil_of_length_pos
      omega
    have hall : ∀ c ∈ text.take (pattern.extent text), c = '\n' := by
      rw [extent_of_newline h hkind, take_run]
      intro c hc
      have hnewline : (c == '\n') = true := by simpa using List.mem_takeWhile_imp hc
      exact eq_of_beq hnewline
    rw [Place.past_append_newlines hne hall, hlength, hkind]
  · rw [Place.past_append_inline (inline_of_mem h hkind text).2 hkind, hlength]

end Pattern

/-! ## Parts of a table -/

namespace Pattern

/-- Some kinds less leave the patterns in their order. -/
theorem without_sublist (kinds : List Kind) (patterns : List Pattern) :
    (without kinds patterns).Sublist patterns :=
  List.filter_sublist

/-- What is left of the table leaves no text without a token unless one of the three patterns that
see to this is missing. -/
theorem covering_without {kinds : List Kind}
    (h : ∀ kind ∈ [.newline, .whitespace, .unrecognized], kind ∉ kinds) :
    Covering (without kinds table) := by
  intro pattern hmem hkind
  apply List.mem_filter.mpr
  exact ⟨hmem, by simpa using h pattern.kind hkind⟩

end Pattern

/-! ## Cuts -/

/-- The texts of some tokens, joined. -/
def Token.joined (tokens : List Token) : List Char :=
  tokens.flatMap (·.text.toList)

@[simp] theorem Token.joined_nil : joined [] = [] := rfl

@[simp] theorem Token.joined_cons (token : Token) (tokens : List Token) :
    joined (token :: tokens) = token.text.toList ++ joined tokens := rfl

namespace Scan

/-- The token that a piece of a source makes after the text passed. -/
def tokenOf (kind : Kind) (passed piece : List Char) : Token :=
  ⟨kind, String.ofList piece, (Place.past passed).line, (Place.past passed).column, -1⟩

/-- A scan cuts a text that follows the text passed: each token is the piece that the patterns find
in front of what is left, and the scan ends where nothing is left or nothing is found. -/
inductive Cuts (patterns : List Pattern) : (passed text : List Char) → Scan → Prop where
  | done {passed : List Char} : Cuts patterns passed [] ⟨[], none⟩
  | stuck {passed text : List Char} (text_ne : text ≠ []) (front : front? patterns text = none) :
      Cuts patterns passed text ⟨[], some passed.length⟩
  | piece {passed piece rest : List Char} {kind : Kind} {scan : Scan} (piece_ne : piece ≠ [])
      (front : front? patterns (piece ++ rest) = some (kind, piece.length))
      (onward : Cuts patterns (passed ++ piece) rest scan) :
      Cuts patterns passed (piece ++ rest) (scan.cons (tokenOf kind passed piece))

variable {patterns : List Pattern} {passed text : List Char} {scan : Scan}

/-- Nothing is found exactly where no pattern takes anything. -/
theorem front?_eq_none_iff :
    front? patterns text = none ↔ ∀ pattern ∈ patterns, pattern.extent text = 0 := by
  rw [front?, List.findSome?_eq_none_iff]
  apply forall₂_congr
  intro pattern _
  split <;> simp_all

/-- A scan cuts what is left once the pending characters have been passed over. -/
theorem cuts_onward (h : ∀ pattern ∈ patterns, pattern ∈ Pattern.table) {place : Place}
    {pending : Nat} (hplace : place = .past (passed ++ text.take pending)) :
    Cuts patterns (passed ++ text.take pending) (text.drop pending)
      (onward patterns place pending text) := by
  fun_induction onward patterns place pending text generalizing passed with
  | case1 place pending =>
    rw [List.drop_nil]
    exact .done
  | case2 place pending c rest ih =>
    rw [List.take_succ_cons, List.append_cons] at hplace ⊢
    exact ih hplace
  | case3 place c rest hfront =>
    rw [hplace]
    exact .stuck (List.cons_ne_nil c rest) hfront
  | case4 place c rest kind length hfront ih =>
    rw [List.take_zero, List.append_nil] at hplace ⊢
    rw [List.drop_zero]
    subst hplace
    obtain ⟨pattern, hmem, hkind, hextent, hpos⟩ := front?_eq_some hfront
    have hlength : ((c :: rest).take length).length = length := by
      apply List.length_take_of_le
      exact hextent ▸ Pattern.extent_le (h pattern hmem) (c :: rest)
    have hpiece : passed ++ (c :: rest).take length =
        passed ++ [c] ++ rest.take (length - 1) := by
      obtain ⟨n, rfl⟩ := Nat.exists_eq_add_of_le' hpos
      simp
    have hrest : (c :: rest).drop length = rest.drop (length - 1) := by
      obtain ⟨n, rfl⟩ := Nat.exists_eq_add_of_le' hpos
      simp
    have hafter : (Place.past passed).after kind length =
        .past (passed ++ (c :: rest).take length) := by
      rw [← hkind, ← hextent]
      exact (Pattern.past_append_take (h pattern hmem) (hextent ▸ hpos) passed).symm
    have honward := ih (hpiece ▸ hafter)
    rw [← hpiece, ← hrest] at honward
    have hcut : Cuts patterns passed ((c :: rest).take length ++ (c :: rest).drop length) _ :=
      .piece (List.ne_nil_of_length_pos (by omega))
        (by rw [List.take_append_drop, hfront, hlength]) honward
    rwa [List.take_append_drop] at hcut

/-- Behind any of its tokens a scan goes on in the same way. -/
theorem Cuts.split {before after : List Token} (h : Cuts patterns passed text scan)
    (htokens : scan.tokens = before ++ after) : ∃ rest, text = Token.joined before ++ rest ∧
      Cuts patterns (passed ++ Token.joined before) rest ⟨after, scan.stuck⟩ := by
  induction before generalizing passed text scan with
  | nil =>
    rw [List.nil_append] at htokens
    rw [Token.joined_nil, List.append_nil, ← htokens]
    exact ⟨text, rfl, h⟩
  | cons token before ih =>
    cases h with
    | done => cases htokens
    | stuck => cases htokens
    | @piece _ piece rest kind scan piece_ne front onward =>
      obtain ⟨rfl, hbefore⟩ := List.cons.inj htokens
      obtain ⟨rest, rfl, hrest⟩ := ih onward hbefore
      have hjoined : (tokenOf kind passed piece).text.toList = piece := String.toList_ofList
      rw [Token.joined_cons, hjoined, ← List.append_assoc passed]
      exact ⟨rest, (List.append_assoc ..).symm, hrest⟩

/-- A token of a scan is the piece that comes after the texts of the tokens in front of it. -/
theorem Cuts.eq_tokenOf {before after : List Token} {token : Token}
    (h : Cuts patterns passed text scan) (htokens : scan.tokens = before ++ token :: after) :
    ∃ kind piece rest, piece ≠ [] ∧ text = Token.joined before ++ (piece ++ rest) ∧
      token = tokenOf kind (passed ++ Token.joined before) piece := by
  obtain ⟨rest, htext, hrest⟩ := h.split htokens
  generalize scan.stuck = stuck at hrest
  cases hrest with
  | @piece _ piece rest kind _ piece_ne => exact ⟨kind, piece, rest, piece_ne, htext, rfl⟩

/-- The texts of all tokens of a scan are the text, or the part of it in front of which nothing is
found. -/
theorem Cuts.ends (h : Cuts patterns passed text scan) :
    scan.stuck = none ∧ Token.joined scan.tokens = text ∨
      ∃ rest, rest ≠ [] ∧ text = Token.joined scan.tokens ++ rest ∧
        scan.stuck = some (passed ++ Token.joined scan.tokens).length ∧
          front? patterns rest = none := by
  obtain ⟨rest, htext, hrest⟩ := h.split (List.append_nil scan.tokens).symm
  generalize hstuck : scan.stuck = stuck at hrest ⊢
  cases hrest with
  | done =>
    left
    rw [List.append_nil] at htext
    exact ⟨rfl, htext.symm⟩
  | stuck rest_ne front =>
    right
    exact ⟨rest, rest_ne, htext, rfl, front⟩

end Scan

/-- A scan cuts its source from the start on. -/
theorem scanWith_cuts {patterns : List Pattern} (h : ∀ pattern ∈ patterns, pattern ∈ Pattern.table)
    (source : String) : Scan.Cuts patterns [] source.toList (scanWith patterns source) := by
  have hcuts : Scan.Cuts patterns ([] ++ source.toList.take 0) (source.toList.drop 0)
      (Scan.onward patterns .start 0 source.toList) := Scan.cuts_onward h rfl
  exact hcuts

/-- A token of a source is a piece of it, at the place to which the text in front leads. -/
theorem exists_tokenOf {source : String} {tokens : List Token} (h : tokenize source = .ok tokens)
    {token : Token} (hmem : token ∈ tokens) : ∃ kind passed piece rest,
      source.toList = passed ++ (piece ++ rest) ∧
        token.range = (Scan.tokenOf kind passed piece).range := by
  obtain ⟨i, hi⟩ := List.mem_iff_getElem?.mp hmem
  obtain ⟨scanned, hscanned, rfl⟩ := exists_scanned h hi
  obtain ⟨before, after, hsplit⟩ := List.append_of_mem hscanned
  obtain ⟨kind, piece, rest, _, htext, rfl⟩ :=
    (scanWith_cuts (fun _ h => h) source).eq_tokenOf hsplit
  exact ⟨kind, Token.joined before, piece, rest, htext, rfl⟩

/-- Scanning by a part of the table of patterns loses nothing and counts lines and columns exactly.
The tokens joined are the source, or its part up to an offset where no pattern of the part applies;
no token is empty, and each is at the place to which the text in front of it leads. The scan comes
to the end of every source if the part keeps the patterns for newlines, for blanks and for what no
other pattern accepts. -/
theorem scanWith_exact {patterns : List Pattern} (h : patterns.Sublist Pattern.table)
    (source : String) :
    ((scanWith patterns source).stuck = none ∧
        Token.joined (scanWith patterns source).tokens = source.toList ∨
      ∃ offset < source.length, (scanWith patterns source).stuck = some offset ∧
        Token.joined (scanWith patterns source).tokens = source.toList.take offset ∧
          ∀ pattern ∈ patterns, pattern.extent (source.toList.drop offset) = 0) ∧
    (∀ (before : List Token) (token : Token) (after : List Token),
      (scanWith patterns source).tokens = before ++ token :: after → token.text ≠ "" ∧
        token.StartsAt (.past (source.toList.take (Token.joined before).length))) ∧
    (Pattern.Covering patterns → (scanWith patterns source).stuck = none) := by
  have hcuts := scanWith_cuts (fun _ hmem => h.subset hmem) source
  refine ⟨?_, ?_, fun hcovering => Scan.stuck_onward hcovering _ _ _⟩
  · rcases hcuts.ends with hdone | ⟨rest, hne, htext, hstuck, hfront⟩
    · exact .inl hdone
    · right
      have hlength : source.length = (Token.joined (scanWith patterns source).tokens).length +
          rest.length := by
        rw [← String.length_toList, htext, List.length_append]
      have hpos : 0 < rest.length := List.length_pos_iff.mpr hne
      refine ⟨_, ?_, hstuck, ?_, ?_⟩
      · rw [List.nil_append]
        omega
      · rw [List.nil_append, htext, List.take_left]
      · rw [List.nil_append, htext, List.drop_left]
        exact Scan.front?_eq_none_iff.mp hfront
  · intro before token after htokens
    obtain ⟨kind, piece, rest, hne, htext, rfl⟩ := hcuts.eq_tokenOf htokens
    rw [htext, List.take_left]
    exact ⟨fun hempty => hne (String.ofList_eq_empty_iff.mp hempty), rfl, rfl⟩

/-- Without comments and keywords a source is still scanned to its end, and a token behind two
newlines is where the text in front of it leads. Without what no other pattern accepts a scan is
stuck in front of such a text. -/
theorem scanWith_exact_reduced :
    (∃ (before : List Token) (token : Token) (after : List Token),
      (scanWith (Pattern.without [.comment, .keyword] Pattern.table) "if\n\n # é").tokens =
        before ++ token :: after ∧ token.text = "#" ∧
      token.StartsAt (.past ("if\n\n # é".toList.take (Token.joined before).length))) ∧
    (scanWith (Pattern.without [.comment, .keyword] Pattern.table) "if\n\n # é").stuck = none ∧
    ∃ offset < "1 f(é".length,
      (scanWith (Pattern.without [.unrecognized] Pattern.table) "1 f(é").stuck = some offset ∧
      Token.joined (scanWith (Pattern.without [.unrecognized] Pattern.table) "1 f(é").tokens =
        "1 f(é".toList.take offset ∧
      ∀ pattern ∈ Pattern.without [.unrecognized] Pattern.table,
        pattern.extent ("1 f(é".toList.drop offset) = 0 := by
  obtain ⟨_, hplaces, hend⟩ := scanWith_exact
    (Pattern.without_sublist [.comment, .keyword] Pattern.table) "if\n\n # é"
  obtain ⟨hcut, _, _⟩ := scanWith_exact
    (Pattern.without_sublist [.unrecognized] Pattern.table) "1 f(é"
  have htokens : (scanWith (Pattern.without [.comment, .keyword] Pattern.table)
      "if\n\n # é").tokens =
        [⟨.identifier, "if", 0, 0, -1⟩, ⟨.newline, "\n\n", 0, 2, -1⟩,
          ⟨.whitespace, " ", 2, 0, -1⟩] ++ ⟨.unrecognized, "#", 2, 1, -1⟩ ::
            [⟨.whitespace, " ", 2, 2, -1⟩, ⟨.unrecognized, "é", 2, 3, -1⟩] := by decide +kernel
  have hstuck : (scanWith (Pattern.without [.unrecognized] Pattern.table) "1 f(é").stuck ≠
      none := by decide +kernel
  exact ⟨⟨_, _, _, htokens, rfl, (hplaces _ _ _ htokens).2⟩,
    hend (Pattern.covering_without (by decide)),
    hcut.resolve_left fun hdone => hstuck hdone.1⟩

end Tranquility
