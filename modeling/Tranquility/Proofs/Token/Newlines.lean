import Tranquility.Proofs.Token.Lines

/-!
# Newlines in the list of tokens

The list of tokens leaves out blanks and comments, and of the newlines it keeps the first after
every other token. Whether a newline is kept is decided by the token kept last, however many lines
with nothing but blanks and comments lie between. A place in the list is a place in the scan, and
what the list has between two of its tokens is decided by the text between them: a newline if and
only if the text has one. So the newlines of the list mirror the lines of the source.
-/

namespace Tranquility

/-! ## What goes into the list -/

namespace Token

/-- The token as it is before it has a number. -/
def unnumbered (token : Token) : Token :=
  { token with index := -1 }

/-- The list of the scanned tokens that are kept, where `after` tells that a newline was kept
last. -/
def kept (after : Bool) (scanned : List Token) : List Token :=
  mergeNewlines after (scanned.filter fun token => !token.kind.isTrivia)

/-- The token is left out of the list: it is trivia, or a newline after one. -/
def LeftOut (after : Bool) (token : Token) : Prop :=
  token.kind.isTrivia = true ∨ token.kind = .newline ∧ after = true

variable {after : Bool} {token : Token} {scanned : List Token}

@[simp] theorem kept_nil : kept after [] = [] := rfl

/-- What is left out changes nothing for the tokens behind it. -/
theorem kept_of_leftOut (h : LeftOut after token) :
    kept after (token :: scanned) = kept after scanned := by
  rcases h with htrivia | ⟨hnewline, rfl⟩
  · simp [kept, htrivia]
  · have htrivia : token.kind.isTrivia = false := by
      rw [hnewline]
      rfl
    rw [kept, List.filter_cons_of_pos (by simp [htrivia]), mergeNewlines, if_pos ⟨hnewline, rfl⟩]
    rfl

/-- What is not left out is kept, and tells whether a newline was kept last. -/
theorem kept_of_not_leftOut (h : ¬ LeftOut after token) :
    kept after (token :: scanned) = token :: kept (token.kind = .newline) scanned := by
  rw [LeftOut, not_or, Bool.not_eq_true] at h
  rw [kept, List.filter_cons_of_pos (by simp [h.1]), mergeNewlines, if_neg h.2]
  rfl

/-- All tokens that are kept have been scanned. -/
theorem kept_subset : kept after scanned ⊆ scanned :=
  fun _ h => List.mem_of_mem_filter ((mergeNewlines_sublist _ _).mem h)

/-- After a newline the next token that is kept is no newline. -/
theorem kind_head_kept : ∀ next ∈ (kept true scanned).head?, next.kind ≠ .newline := by
  induction scanned with
  | nil => simp
  | cons token scanned ih =>
    by_cases hout : LeftOut true token
    · rwa [kept_of_leftOut hout]
    · rw [kept_of_not_leftOut hout, List.head?_cons]
      rintro _ ⟨⟩ hnewline
      exact hout (.inr ⟨hnewline, rfl⟩)

/-- Of tokens of which nothing but newlines is kept one is kept if there is a newline among them,
and none otherwise. -/
theorem length_kept (h : ∀ newline ∈ kept false scanned, newline.kind = .newline) :
    (kept false scanned).length = if ∃ token ∈ scanned, token.kind = .newline then 1 else 0 := by
  induction scanned with
  | nil => simp
  | cons token scanned ih =>
    by_cases hout : LeftOut false token
    · have hkind : token.kind ≠ .newline := by
        intro hnewline
        rcases hout with htrivia | ⟨_, hafter⟩
        · rw [hnewline] at htrivia
          cases htrivia
        · cases hafter
      rw [kept_of_leftOut hout] at h ⊢
      simp [ih h, hkind]
    · rw [kept_of_not_leftOut hout] at h ⊢
      obtain ⟨hkind, hrest⟩ := List.forall_mem_cons.mp h
      have hnil : kept true scanned = [] := by
        by_contra hne
        obtain ⟨next, rest, hnext⟩ := List.exists_cons_of_ne_nil hne
        have hhead : next ∈ (kept true scanned).head? := by
          rw [hnext]
          rfl
        rw [decide_eq_true hkind, hnext] at hrest
        exact kind_head_kept next hhead (hrest next List.mem_cons_self)
      simp [hkind, hnil]

/-- Newlines apart everything but trivia is kept. -/
theorem filter_kept : (kept after scanned).filter (·.kind ≠ .newline) =
    scanned.filter fun token => token.kind ∉ [.whitespace, .comment, .newline] := by
  have hmerge : ∀ tokens : List Token, (mergeNewlines after tokens).filter (·.kind ≠ .newline) =
      tokens.filter (·.kind ≠ .newline) := by
    intro tokens
    fun_induction mergeNewlines after tokens with
    | case1 => rfl
    | case2 after token rest hnewline ih =>
      rw [ih, List.filter_cons_of_neg (by simp [hnewline.1])]
    | case3 after token rest _ ih => rw [List.filter_cons, List.filter_cons, ih]
  rw [kept, hmerge, List.filter_filter]
  congr 1
  funext token
  cases token.kind <;> rfl

/-- Where the list has a token the scan has it, and what is around it in the list is kept of what
is around it in the scan. -/
theorem exists_split {tokens before rest : List Token}
    (h : tokens.map unnumbered = kept after scanned) (htokens : tokens = before ++ token :: rest) :
    ∃ front back, scanned = front ++ token.unnumbered :: back ∧
      before.map unnumbered = kept after front ∧
      rest.map unnumbered = kept (token.kind = .newline) back := by
  subst htokens
  induction scanned generalizing after before with
  | nil => simp at h
  | cons next scanned ih =>
    by_cases hout : LeftOut after next
    · rw [kept_of_leftOut hout] at h
      obtain ⟨front, back, rfl, hbefore, hrest⟩ := ih h
      refine ⟨next :: front, back, rfl, ?_, hrest⟩
      rwa [kept_of_leftOut hout]
    · rw [kept_of_not_leftOut hout] at h
      cases before with
      | nil =>
        obtain ⟨rfl, hrest⟩ := List.cons.inj h
        exact ⟨[], scanned, rfl, rfl, hrest⟩
      | cons first before =>
        obtain ⟨rfl, htail⟩ := List.cons.inj h
        obtain ⟨front, back, rfl, hbefore, hrest⟩ := ih htail
        refine ⟨first.unnumbered :: front, back, rfl, ?_, hrest⟩
        rw [kept_of_not_leftOut hout, List.map_cons, hbefore]

/-- Without their numbers, tokens are what they were before they were numbered. -/
theorem map_unnumbered_number (first : Nat) (tokens : List Token) :
    (number first tokens).map unnumbered = tokens.map unnumbered := by
  induction tokens generalizing first with
  | nil => rfl
  | cons token tokens ih => exact congrArg (token.unnumbered :: ·) (ih (first + 1))

end Token

/-! ## Where a token stands -/

/-- The token is the piece of a source between two texts. -/
def Token.StandsBetween (token : Token) (source : String) (before after : List Char) : Prop :=
  source.toList = before ++ (token.text.toList ++ after) ∧ token.StartsAt (.past before)

/-- A text that goes on leads to another place. -/
theorem Place.past_append_ne {passed further : List Char} (hne : further ≠ []) :
    (past (passed ++ further)).line ≠ (past passed).line ∨
      (past (passed ++ further)).column ≠ (past passed).column := by
  have hpos : 0 < further.length := List.length_pos_of_ne_nil hne
  by_cases hnewline : '\n' ∈ further
  · left
    have hcount : 0 < further.count '\n' := List.count_pos_iff.mpr hnewline
    have hline : (past (passed ++ further)).line = passed.count '\n' + further.count '\n' :=
      List.count_append
    rw [hline]
    show passed.count '\n' + further.count '\n' ≠ passed.count '\n'
    omega
  · right
    have hcolumn : (past (passed ++ further)).column = (past passed).column + further.length :=
      congrArg Place.column (@past_append_inline passed further hnewline .unrecognized (by decide))
    omega

namespace Token

variable {token : Token} {source : String}

/-- A token stands behind one text only. -/
theorem StandsBetween.eq_of_append {before further after after' : List Char}
    (h : token.StandsBetween source before after)
    (h' : token.StandsBetween source (before ++ further) after') : further = [] := by
  by_contra hne
  have hline := h.2.1.symm.trans h'.2.1
  have hcolumn := h.2.2.symm.trans h'.2.2
  rcases Place.past_append_ne hne with hother | hother
  · exact hother (Int.ofNat.inj hline).symm
  · exact hother (Int.ofNat.inj hcolumn).symm

/-- There is one place only where a token stands. -/
theorem StandsBetween.unique {before after before' after' : List Char}
    (h : token.StandsBetween source before after)
    (h' : token.StandsBetween source before' after') : before = before' ∧ after = after' := by
  have htexts := h.1.symm.trans h'.1
  have hbefore : before = before' := by
    rcases List.append_eq_append_iff.mp htexts with ⟨further, rfl, _⟩ | ⟨further, rfl, _⟩
    · rw [h.eq_of_append h', List.append_nil]
    · rw [h'.eq_of_append h, List.append_nil]
  subst hbefore
  exact ⟨rfl, List.append_cancel_left (List.append_cancel_left htexts)⟩

end Token

@[simp] theorem Token.joined_append (tokens tokens' : List Token) :
    joined (tokens ++ tokens') = joined tokens ++ joined tokens' :=
  List.flatMap_append

/-- A token of a scan stands between the texts of the tokens before and after it. -/
theorem standsBetween_of_scan {source : String} {token : Token} {front back : List Token}
    (h : (scan source).tokens = front ++ token.unnumbered :: back) :
    token.StandsBetween source (Token.joined front) (Token.joined back) := by
  obtain ⟨kind, piece, _, _, _, htoken⟩ :=
    (scanWith_cuts (fun _ hmem => hmem) source).eq_tokenOf h
  constructor
  · rw [← joined_scan, h, Token.joined, List.flatMap_append]
    rfl
  · have hplace : token.unnumbered.StartsAt (.past (Token.joined front)) := by
      rw [htoken]
      exact ⟨rfl, rfl⟩
    exact hplace

/-- A part of a scan has a newline in its text if one of its tokens is one. -/
theorem newline_mem_joined_iff {source : String} {part : List Token}
    (h : part ⊆ (scan source).tokens) :
    '\n' ∈ Token.joined part ↔ ∃ token ∈ part, token.kind = .newline := by
  rw [Token.joined, List.mem_flatMap]
  refine exists_congr fun token => and_congr_right fun htoken => ?_
  exact (kind_eq_newline_iff (h htoken)).symm

/-! ## The list against the source -/

namespace Token

/-- The list starts with a newline. -/
def StartsWithNewline (tokens : List Token) : Prop :=
  ∃ newline ∈ tokens.head?, newline.kind = .newline

/-- The list ends with a newline. -/
def EndsWithNewline (tokens : List Token) : Prop :=
  ∃ newline ∈ tokens.getLast?, newline.kind = .newline

/-- All of the tokens are newlines. -/
def AreNewlines (tokens : List Token) : Prop :=
  ∀ token ∈ tokens, token.kind = .newline

/-- The text goes up to the end of the last of the tokens, and is empty if there is none. -/
def EndsAt (tokens : List Token) (source : String) (passed : List Char) : Prop :=
  match tokens.getLast? with
  | none => passed = []
  | some last => ∃ before after, last.StandsBetween source before after ∧
      passed = before ++ last.text.toList

/-- The token is where the first newline stands that the source has behind the tokens. -/
def StandsFirst (newline : Token) (source : String) (before : List Token) : Prop :=
  ∃ passed gap rest, EndsAt before source passed ∧
    source.toList = passed ++ (gap ++ '\n' :: rest) ∧ '\n' ∉ gap ∧
      newline.StartsAt (.past (passed ++ gap))

/-- The newlines of a list of tokens mirror the lines of a source. -/
structure MirrorsLines (source : String) (tokens : List Token) : Prop where
  /-- The place of a token tells which piece of the source it is. -/
  placed : ∀ token ∈ tokens, ∃! texts : List Char × List Char,
    token.StandsBetween source texts.1 texts.2
  /-- Tokens are numbered by their places in the list. -/
  index_eq : ∀ (i : Nat) (token : Token), tokens[i]? = some token → token.index = i
  /-- Newlines apart the list is the scan without blanks and comments. -/
  inline_eq : (tokens.filter (·.kind ≠ .newline)).map unnumbered =
    (scan source).tokens.filter fun token => token.kind ∉ [.whitespace, .comment, .newline]
  /-- No two newlines stand next to each other. -/
  apart : ∀ before first second after, tokens = before ++ first :: second :: after →
    first.kind = .newline → second.kind ≠ .newline
  /-- Between a token and the next there is a newline if their lines differ. -/
  between : ∀ before first newlines second after,
    tokens = before ++ first :: (newlines ++ second :: after) → AreNewlines newlines →
      first.kind ≠ .newline → second.kind ≠ .newline →
        newlines.length = if first.line = second.line then 0 else 1
  /-- In front of the first token there is a newline if the source has one there. -/
  starts : ∀ newlines first rest, tokens = newlines ++ first :: rest → AreNewlines newlines →
    first.kind ≠ .newline → ∀ before after, first.StandsBetween source before after →
      (StartsWithNewline tokens ↔ '\n' ∈ before)
  /-- Behind the last token there is a newline if the source has one there. -/
  ends : ∀ front last newlines, tokens = front ++ last :: newlines → AreNewlines newlines →
    last.kind ≠ .newline → ∀ before after, last.StandsBetween source before after →
      (EndsWithNewline tokens ↔ '\n' ∈ after)
  /-- Without other tokens there is a newline if the source has one. -/
  alone : AreNewlines tokens → (StartsWithNewline tokens ↔ '\n' ∈ source.toList) ∧
    (EndsWithNewline tokens ↔ '\n' ∈ source.toList)
  /-- A newline is where the first one behind the token in front of it stands. -/
  located : ∀ before newline after, tokens = before ++ newline :: after →
    newline.kind = .newline → newline.StandsFirst source before

variable {source : String} {tokens inner : List Token} {token : Token}

/-- What a newline is kept of has a newline in it. -/
theorem length_of_kept {part : List Token} (hpart : part ⊆ (scan source).tokens)
    (h : inner.map unnumbered = kept false part) (hinner : AreNewlines inner) :
    inner.length = if '\n' ∈ joined part then 1 else 0 := by
  have hnewlines : ∀ newline ∈ kept false part, newline.kind = .newline := by
    rw [← h]
    rintro _ hmem
    obtain ⟨newline, hnewline, rfl⟩ := List.mem_map.mp hmem
    exact hinner newline hnewline
  have hlength := length_kept hnewlines
  rw [← h, List.length_map] at hlength
  simp only [hlength, newline_mem_joined_iff hpart]

/-- A part of a source keeps a newline exactly if its text has one. -/
theorem ne_nil_of_kept {part : List Token} (hpart : part ⊆ (scan source).tokens)
    (h : inner.map unnumbered = kept false part) (hinner : AreNewlines inner) :
    inner ≠ [] ↔ '\n' ∈ joined part := by
  rw [← List.length_pos_iff, length_of_kept hpart h hinner]
  split <;> simp [*]

/-- A list with newlines in front starts with one. -/
theorem startsWithNewline_append {rest : List Token} (hinner : AreNewlines inner)
    (hne : inner ≠ []) : StartsWithNewline (inner ++ rest) := by
  obtain ⟨newline, inner, rfl⟩ := List.exists_cons_of_ne_nil hne
  exact ⟨newline, rfl, hinner newline List.mem_cons_self⟩

/-- A list with newlines at the back ends with one. -/
theorem endsWithNewline_append {front : List Token} (hinner : AreNewlines inner)
    (hne : inner ≠ []) : EndsWithNewline (front ++ inner) := by
  refine ⟨inner.getLast hne, ?_, hinner _ (List.getLast_mem hne)⟩
  rw [List.getLast?_append_of_ne_nil front hne, List.getLast?_eq_some_getLast hne]
  rfl

/-- In front of a token that is no newline, the list starts with one only if there are some. -/
theorem startsWithNewline_iff {rest : List Token} (hinner : AreNewlines inner)
    (htoken : token.kind ≠ .newline) :
    StartsWithNewline (inner ++ token :: rest) ↔ inner ≠ [] := by
  refine ⟨?_, startsWithNewline_append hinner⟩
  rintro ⟨newline, hhead, hnewline⟩ rfl
  cases hhead
  exact htoken hnewline

/-- Behind a token that is no newline, the list ends with one only if there are some. -/
theorem endsWithNewline_iff {front : List Token} (hinner : AreNewlines inner)
    (htoken : token.kind ≠ .newline) :
    EndsWithNewline (front ++ token :: inner) ↔ inner ≠ [] := by
  rw [List.append_cons]
  refine ⟨?_, endsWithNewline_append hinner⟩
  rintro ⟨newline, hlast, hnewline⟩ rfl
  rw [List.append_nil, List.getLast?_concat] at hlast
  cases hlast
  exact htoken hnewline

/-- A list of newlines alone starts and ends with one unless it is empty. -/
theorem ends_of_areNewlines (h : AreNewlines tokens) :
    (StartsWithNewline tokens ↔ tokens ≠ []) ∧ (EndsWithNewline tokens ↔ tokens ≠ []) := by
  refine ⟨⟨?_, fun hne => ?_⟩, ⟨?_, fun hne => ?_⟩⟩
  · rintro ⟨newline, hhead, _⟩ rfl
    cases hhead
  · exact List.append_nil tokens ▸ startsWithNewline_append h hne
  · rintro ⟨newline, hlast, _⟩ rfl
    cases hlast
  · exact @endsWithNewline_append tokens [] h hne

end Token

open Token

variable {source : String} {tokens : List Token}

/-- Two tokens of a scan are on one line if there is no newline between them. -/
theorem line_eq_iff {first second : Token} {front part back : List Token}
    (h : (scan source).tokens = front ++ first.unnumbered :: (part ++ second.unnumbered :: back))
    (hfirst : first.kind ≠ .newline) : first.line = second.line ↔ '\n' ∉ joined part := by
  have hbefore := (standsBetween_of_scan h).2.1
  rw [← List.cons_append, ← List.append_assoc] at h
  have hafter := (standsBetween_of_scan h).2.1
  have hmem : first.unnumbered ∈ (scan source).tokens := by
    rw [h]
    simp
  have hinline : '\n' ∉ first.text.toList := fun hnewline =>
    hfirst ((kind_eq_newline_iff hmem).mpr hnewline)
  have hlines : (Place.past (joined (front ++ first.unnumbered :: part))).line =
      (Place.past (joined front)).line + (joined part).count '\n' := by
    have htext : first.unnumbered.text.toList.count '\n' = 0 := List.count_eq_zero.mpr hinline
    simp [Place.past, joined, htext]
  rw [hbefore, hafter, hlines, ← List.count_eq_zero]
  omega

/-- A scanned token has no number yet. -/
theorem unnumbered_of_mem_scan {token : Token} (h : token ∈ (scan source).tokens) :
    token.unnumbered = token := by
  obtain ⟨front, back, hsplit⟩ := List.append_of_mem h
  obtain ⟨_, _, _, _, _, rfl⟩ := (scanWith_cuts (fun _ hmem => hmem) source).eq_tokenOf hsplit
  rfl

/-- But for the numbers a source has the tokens that are kept of its scan. -/
theorem map_unnumbered_of_tokenize (h : tokenize source = .ok tokens) :
    tokens.map unnumbered = kept false (scan source).tokens := by
  rw [tokenize_eq, Except.ok.injEq] at h
  rw [← h, significant, map_unnumbered_number]
  have hid : ∀ token ∈ kept false (scan source).tokens, token.unnumbered = id token :=
    fun token htoken => unnumbered_of_mem_scan (kept_subset htoken)
  exact (List.map_congr_left hid).trans (List.map_id _)

/-- After a newline there is no other one in the list. -/
theorem newlines_apart {scanned before after : List Token} {first second : Token}
    (h : tokens.map unnumbered = kept false scanned)
    (htokens : tokens = before ++ first :: second :: after) (hfirst : first.kind = .newline) :
    second.kind ≠ .newline := by
  obtain ⟨_, back, _, _, hrest⟩ := exists_split h htokens
  rw [decide_eq_true hfirst] at hrest
  have hhead : second.unnumbered ∈ (kept true back).head? := by
    rw [← hrest]
    rfl
  exact kind_head_kept second.unnumbered hhead

/-- Every token of a scan is a text of its kind. -/
theorem language_of_mem_scan {token : Token} (h : token ∈ (scan source).tokens) :
    ∃ rest, token.kind.Language token.text.toList rest := by
  obtain ⟨pattern, hmem, front, hkind, hpos, _, htext⟩ := Scan.mem_onward h
  refine ⟨front.drop (pattern.extent front), ?_⟩
  rw [hkind, htext, String.toList_ofList]
  exact (Pattern.exact_of_mem hmem).sound front hpos

/-- Between a newline of the list and the token in front of it the source has no other one. -/
theorem standsFirst_of_kept {before after : List Token} {newline : Token}
    (h : tokens.map unnumbered = kept false (scan source).tokens)
    (htokens : tokens = before ++ newline :: after) (hnewline : newline.kind = .newline) :
    newline.StandsFirst source before := by
  obtain ⟨front, back, hscan, hbefore, _⟩ := exists_split h htokens
  obtain ⟨htext, hplace⟩ := standsBetween_of_scan hscan
  have hfront : ∀ token ∈ front, token ∈ (scan source).tokens :=
    fun token htoken => hscan ▸ List.mem_append_left _ htoken
  have hmem : newline.unnumbered ∈ (scan source).tokens :=
    hscan ▸ List.mem_append_right _ List.mem_cons_self
  obtain ⟨rest, hrest⟩ : ∃ rest, newline.text.toList = '\n' :: rest := by
    obtain ⟨_, hlanguage⟩ := language_of_mem_scan hmem
    rw [show newline.unnumbered.kind = .newline from hnewline] at hlanguage
    obtain ⟨c, rest, hcons⟩ := List.exists_cons_of_ne_nil hlanguage.1
    exact ⟨rest, hlanguage.2 c (hcons ▸ List.mem_cons_self) ▸ hcons⟩
  rw [hrest] at htext
  have hclean {part : List Token} (hpart : part ⊆ front)
      (hkept : ([] : List Token).map unnumbered = kept false part) : '\n' ∉ joined part := by
    have hsubset : part ⊆ (scan source).tokens := fun token htoken => hfront token (hpart htoken)
    exact fun hmem => (ne_nil_of_kept hsubset hkept (by simp [AreNewlines])).mpr hmem rfl
  rcases List.eq_nil_or_concat before with rfl | ⟨before, previous, rfl⟩
  · exact ⟨[], joined front, _, rfl, htext, hclean (List.Subset.refl _) hbefore, hplace⟩
  · rw [List.concat_eq_append] at htokens hbefore ⊢
    obtain ⟨front, part, rfl, _, hpart⟩ := exists_split hbefore rfl
    have hprevious : previous.kind ≠ .newline := fun hkind =>
      newlines_apart h (htokens.trans (List.append_cons ..).symm) hkind hnewline
    rw [decide_eq_false hprevious] at hpart
    have hstands : previous.StandsBetween source (joined front) _ :=
      standsBetween_of_scan (hscan.trans (List.append_assoc ..))
    have hjoined : joined (front ++ previous.unnumbered :: part) =
        joined front ++ previous.text.toList ++ joined part := by
      rw [joined_append, joined_cons, ← List.append_assoc]
      rfl
    rw [hjoined] at htext hplace
    refine ⟨joined front ++ previous.text.toList, joined part, rest ++ joined back, ?_, ?_,
      hclean ?_ hpart, hplace⟩
    · rw [EndsAt, List.getLast?_concat]
      exact ⟨_, _, hstands, rfl⟩
    · rw [htext, List.append_assoc]
      rfl
    · exact List.subset_append_of_subset_right _ (List.subset_cons_self _ _)

/-- The text of a token of the list stands at one place only. -/
theorem existsUnique_standsBetween (h : tokens.map unnumbered = kept false (scan source).tokens)
    {token : Token} (htoken : token ∈ tokens) : ∃! texts : List Char × List Char,
      token.StandsBetween source texts.1 texts.2 := by
  obtain ⟨before, after, htokens⟩ := List.append_of_mem htoken
  obtain ⟨front, back, hscan, _, _⟩ := exists_split h htokens
  have hstands := standsBetween_of_scan hscan
  refine ⟨(joined front, joined back), hstands, fun texts htexts => ?_⟩
  obtain ⟨hbefore, hafter⟩ := htexts.unique hstands
  exact Prod.ext hbefore hafter

section

variable {before after : List Char} {front newlines back : List Token} {first second last : Token}

/-- Between two tokens there is a newline in the list if there is one in the source, which is to
say if the tokens are on different lines. -/
theorem length_newlines_between (h : tokens.map unnumbered = kept false (scan source).tokens)
    (htokens : tokens = front ++ first :: (newlines ++ second :: back))
    (hnewlines : AreNewlines newlines) (hfirst : first.kind ≠ .newline) :
    newlines.length = if first.line = second.line then 0 else 1 := by
  obtain ⟨_, rest, hscan, _, hrest⟩ := exists_split h htokens
  rw [decide_eq_false hfirst] at hrest
  obtain ⟨part, _, rfl, hpart, _⟩ := exists_split hrest rfl
  have hsubset : part ⊆ (scan source).tokens := by
    rw [hscan]
    exact List.subset_append_of_subset_right _ (by simp)
  rw [length_of_kept hsubset hpart hnewlines]
  simp only [line_eq_iff hscan hfirst, ite_not]

/-- The list starts with a newline if the text in front of the first other token has one. -/
theorem startsWithNewline_iff_mem (h : tokens.map unnumbered = kept false (scan source).tokens)
    (htokens : tokens = newlines ++ first :: back) (hnewlines : AreNewlines newlines)
    (hfirst : first.kind ≠ .newline) (hstands : first.StandsBetween source before after) :
    StartsWithNewline tokens ↔ '\n' ∈ before := by
  obtain ⟨part, _, hscan, hpart, _⟩ := exists_split h htokens
  obtain ⟨rfl, rfl⟩ := hstands.unique (standsBetween_of_scan hscan)
  rw [htokens, startsWithNewline_iff hnewlines hfirst]
  exact ne_nil_of_kept (hscan ▸ List.subset_append_left _ _) hpart hnewlines

/-- The list ends with a newline if the text behind the last other token has one. -/
theorem endsWithNewline_iff_mem (h : tokens.map unnumbered = kept false (scan source).tokens)
    (htokens : tokens = front ++ last :: newlines) (hnewlines : AreNewlines newlines)
    (hlast : last.kind ≠ .newline) (hstands : last.StandsBetween source before after) :
    EndsWithNewline tokens ↔ '\n' ∈ after := by
  obtain ⟨_, part, hscan, _, hpart⟩ := exists_split h htokens
  rw [decide_eq_false hlast] at hpart
  obtain ⟨rfl, rfl⟩ := hstands.unique (standsBetween_of_scan hscan)
  have hsubset : part ⊆ (scan source).tokens := by
    rw [hscan]
    exact List.subset_append_of_subset_right _ (List.subset_cons_self _ _)
  rw [htokens, endsWithNewline_iff hnewlines hlast]
  exact ne_nil_of_kept hsubset hpart hnewlines

end

/-- Every source has a list of tokens, and the newlines in it mirror the lines of the source. All
other tokens are those of the scan, numbered in order and without blanks and comments. Of newlines
there is one between two tokens on different lines and none between two on the same line, one in
front of the first token and one behind the last if the source has any there, and each is where the
first newline of the source stands behind the token in front of it. -/
theorem tokens_mirror_lines (source : String) :
    ∃ tokens, tokenize source = .ok tokens ∧ MirrorsLines source tokens := by
  refine ⟨_, tokenize_eq source, ?_⟩
  have htokenize := tokenize_eq source
  generalize significant (scan source).tokens = tokens at htokenize ⊢
  have hkept := map_unnumbered_of_tokenize htokenize
  constructor
  case placed => exact fun _ htoken => existsUnique_standsBetween hkept htoken
  case index_eq => exact fun _ _ hget => (getElem?_tokenize htokenize hget).1
  case inline_eq =>
    have hfilter : (tokens.filter (·.kind ≠ .newline)).map unnumbered =
        (tokens.map unnumbered).filter (·.kind ≠ .newline) := by
      rw [List.filter_map]
      rfl
    rw [hfilter, hkept, filter_kept]
  case apart => exact fun _ _ _ _ htokens => newlines_apart hkept htokens
  case between =>
    exact fun _ _ _ _ _ htokens hnewlines hfirst _ =>
      length_newlines_between hkept htokens hnewlines hfirst
  case starts =>
    exact fun _ _ _ htokens hnewlines hfirst _ _ =>
      startsWithNewline_iff_mem hkept htokens hnewlines hfirst
  case ends =>
    exact fun _ _ _ htokens hnewlines hlast _ _ =>
      endsWithNewline_iff_mem hkept htokens hnewlines hlast
  case alone =>
    intro hnewlines
    obtain ⟨hstarts, hends⟩ := ends_of_areNewlines hnewlines
    rw [hstarts, hends, ne_nil_of_kept (List.Subset.refl _) hkept hnewlines, joined_scan]
    exact ⟨Iff.rfl, Iff.rfl⟩
  case located => exact fun _ _ _ => standsFirst_of_kept hkept

end Tranquility
