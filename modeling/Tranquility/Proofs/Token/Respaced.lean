import Tranquility.Proofs.Token.Newlines
import Tranquility.Proofs.Token.Core

/-!
# Tokens that stand apart

The texts of the tokens of a source, joined with blanks between them, have the same tokens. A token
was found in front of the text that came after it in the source, and now a blank comes after it. No
kind but strings and characters has blanks in its texts, trivia apart, and the extent of these two
depends on nothing behind the closing quote. So a blank makes no token longer, and gives no other
kind a text. Only a keyword looks at what comes after it: a name that is spelled like one in front
of a letter beyond ASCII becomes one in front of a blank. In a source without unrecognized tokens
this does not happen, since no other token starts with such a letter.
-/

namespace Tranquility

/-! ## The front of a text -/

/-- If of all kinds that a text begins with a kind is the first, and a piece is the longest text of
it, then the piece is found in front. -/
theorem Scan.front?_of_longest {text piece : List Char} {kind : Kind} {earlier later : List Kind}
    (hpriority : Kind.priority = earlier ++ kind :: later)
    (hearlier : ∀ other ∈ earlier, ¬ other.Begins text) (h : kind.Longest piece text) :
    front? Pattern.table text = some (kind, piece.length) := by
  obtain ⟨before, rest, htable, rfl, hrest⟩ :=
    List.map_eq_append_iff.mp (Pattern.map_kind_table.trans hpriority)
  obtain ⟨pattern, after, rfl, rfl, _⟩ := List.map_eq_cons_iff.mp hrest
  have hmem : pattern ∈ Pattern.table := htable ▸ List.mem_append_right _ List.mem_cons_self
  have hexact := Pattern.exact_of_mem hmem
  have hextent : pattern.extent text = piece.length := by
    obtain ⟨rest, rfl, hlanguage⟩ := h.language
    refine Nat.le_antisymm ?_ (hexact.length_le piece rest hlanguage)
    rcases Nat.eq_zero_or_pos (pattern.extent (piece ++ rest)) with hzero | hpos
    · exact hzero ▸ Nat.zero_le _
    · have hle := (h.length_le _ _ (List.take_append_drop _ _).symm (hexact.sound _ hpos))
      rwa [List.length_take_of_le (Pattern.extent_le hmem _)] at hle
  have hpos : 0 < piece.length := by
    obtain ⟨rest, _, hlanguage⟩ := h.language
    exact List.length_pos_of_ne_nil (hexact.ne_nil piece rest hlanguage)
  refine List.findSome?_eq_some_iff.mpr ⟨before, pattern, after, htable, ?_, ?_⟩
  · rw [hextent]
    obtain ⟨n, hn⟩ := Nat.exists_eq_add_of_le' hpos
    rw [hn]
  · intro other hother
    have hzero : other.extent text = 0 := by
      by_contra hne
      have hother' : other ∈ Pattern.table := htable ▸ List.mem_append_left _ hother
      have hsound := (Pattern.exact_of_mem hother').sound text (Nat.pos_of_ne_zero hne)
      exact hearlier other.kind (List.mem_map_of_mem hother)
        ⟨_, _, (List.take_append_drop _ _).symm, hsound⟩
    rw [hzero]

/-! ## The characters of a kind -/

namespace Kind

/-- Some text of the kind starts with the character. -/
def opens (kind : Kind) (c : Char) : Bool :=
  match kind with
  | comment => c = '#'
  | newline => c = '\n'
  | whitespace => Pattern.isBlank c
  | string => c = '"'
  | character => c = '\''
  | integer => c.isDigit
  | identifier => Pattern.startsName c
  | unrecognized => c ≠ '\n' && !Pattern.isBlank c
  | kind => (words kind).any (·.toList.head? = some c)

variable {kind other : Kind} {c : Char} {text piece rest rest' : List Char}

/-- A text of a kind starts with a character that opens it. -/
theorem Language.opens (h : kind.Language (c :: text) rest) : kind.opens c = true := by
  have hword : String.ofList (c :: text) ∈ words kind →
      (words kind).any (·.toList.head? = some c) = true := by
    intro hmem
    refine List.any_eq_true.mpr ⟨_, hmem, ?_⟩
    rw [String.toList_ofList]
    exact decide_eq_true rfl
  cases kind with
  | comment =>
    obtain ⟨body, heq, _⟩ := h
    exact decide_eq_true (List.cons.inj heq).1
  | newline => exact decide_eq_true (h.2 c List.mem_cons_self)
  | whitespace => exact (Pattern.isBlank_iff c).mpr (h.2 c List.mem_cons_self)
  | string =>
    obtain ⟨parts, _, heq⟩ := h
    exact decide_eq_true (List.cons.inj heq).1
  | character =>
    obtain ⟨part, _, heq⟩ := h
    exact decide_eq_true (List.cons.inj heq).1
  | integer => exact (Pattern.isDigit_iff c).mpr (h.2 c List.mem_cons_self)
  | identifier =>
    obtain ⟨first, body, heq, hfirst, _⟩ := h
    exact (Pattern.startsName_iff c).mpr ((List.cons.inj heq).1 ▸ hfirst)
  | unrecognized =>
    obtain ⟨hnewline, htab, hspace⟩ := h.2 c List.mem_cons_self
    simp [Kind.opens, Pattern.isBlank, hnewline, htab, hspace]
  | keyword => exact hword h.1
  | _ => exact hword h

/-- The words of the language are ASCII and have no blanks. -/
theorem words_plain (kind : Kind) : ∀ word ∈ words kind, ∀ c ∈ word.toList,
    c.toNat < 128 ∧ Pattern.isBlank c = false := by
  have hall : ((words kind).all fun word =>
      word.toList.all fun c => c.toNat < 128 && !Pattern.isBlank c) = true := by
    cases kind <;> rfl
  intro word hword c hc
  simpa using List.all_eq_true.mp (List.all_eq_true.mp hall word hword) c hc

/-- Only unrecognized tokens start with a character beyond ASCII. -/
theorem lt_of_opens (h : kind.opens c = true) (hkind : kind ≠ .unrecognized) : c.toNat < 128 := by
  have hword : (words kind).any (·.toList.head? = some c) = true → c.toNat < 128 := by
    intro hany
    obtain ⟨word, hmem, hhead⟩ := List.any_eq_true.mp hany
    exact (words_plain kind word hmem c (List.mem_of_head? (of_decide_eq_true hhead))).1
  cases kind with
  | unrecognized => exact absurd rfl hkind
  | integer =>
    have hle : c.toNat ≤ '9'.toNat := ((Pattern.isDigit_iff c).mp h).2
    exact Nat.lt_of_le_of_lt hle (by decide)
  | identifier =>
    rcases (Pattern.startsName_iff c).mp h with ⟨_, hle⟩ | ⟨_, hle⟩ | rfl
    · exact Nat.lt_of_le_of_lt (show c.toNat ≤ 'z'.toNat from hle) (by decide)
    · exact Nat.lt_of_le_of_lt (show c.toNat ≤ 'Z'.toNat from hle) (by decide)
    · decide
  | whitespace => rcases (Pattern.isBlank_iff c).mp h with rfl | rfl <;> decide
  | comment | newline | string | character =>
    obtain rfl := of_decide_eq_true h
    decide
  | _ => exact hword h

/-- Trivia and literals apart no text of a kind has blanks. -/
theorem Language.isBlank_eq (h : kind.Language text rest)
    (hkind : kind ∉ [.comment, .whitespace, .string, .character]) (hc : c ∈ text) :
    Pattern.isBlank c = false := by
  have hword : String.ofList text ∈ words kind → Pattern.isBlank c = false := fun hmem =>
    (words_plain kind _ hmem c (String.toList_ofList.symm ▸ hc)).2
  have hname : ∀ d, IsNameStart d ∨ IsDigit d → Pattern.isBlank d = false := by
    intro d hd
    rw [← Pattern.continuesName_iff] at hd
    by_contra hblank
    rcases (Pattern.isBlank_iff d).mp (Bool.not_eq_false _ ▸ hblank) with rfl | rfl <;> cases hd
  cases kind with
  | comment | whitespace | string | character => simp at hkind
  | newline =>
    rw [h.2 c hc]
    rfl
  | integer => exact hname c (.inr (h.2 c hc))
  | identifier =>
    obtain ⟨first, body, rfl, hfirst, hbody⟩ := h
    rcases List.mem_cons.mp hc with rfl | hc
    · exact hname c (.inl hfirst)
    · exact hname c (hbody c hc)
  | unrecognized =>
    obtain ⟨_, htab, hspace⟩ := h.2 c hc
    simp [Pattern.isBlank, htab, hspace]
  | keyword => exact hword h.1
  | _ => exact hword h

/-- Of the kinds that may have blanks in their texts each has characters of its own to start
with. -/
theorem eq_of_opens (hother : other ∈ [.comment, .whitespace, .string, .character])
    (hopens : other.opens c = true) (hkind : kind ∈ priority) (hopens' : kind.opens c = true)
    (hne : kind ≠ .unrecognized) : kind = other := by
  have hown : ∀ kind ∈ priority, kind ≠ .unrecognized →
      (kind.opens '#' = true → kind = comment) ∧
        (kind.opens ' ' = true ∨ kind.opens '\t' = true → kind = whitespace) ∧
          (kind.opens '"' = true → kind = string) ∧
            (kind.opens '\'' = true → kind = character) := by decide
  obtain ⟨hcomment, hwhitespace, hstring, hcharacter⟩ := hown kind hkind hne
  simp only [List.mem_cons, List.not_mem_nil, or_false] at hother
  rcases hother with rfl | rfl | rfl | rfl
  · obtain rfl := of_decide_eq_true hopens
    exact hcomment hopens'
  · rcases (Pattern.isBlank_iff c).mp hopens with rfl | rfl
    · exact hwhitespace (.inl hopens')
    · exact hwhitespace (.inr hopens')
  · obtain rfl := of_decide_eq_true hopens
    exact hstring hopens'
  · obtain rfl := of_decide_eq_true hopens
    exact hcharacter hopens'

/-- No token is empty. -/
theorem Language.ne_nil (h : kind.Language text rest) (hkind : kind ∈ priority) : text ≠ [] := by
  rw [← Pattern.map_kind_table] at hkind
  obtain ⟨pattern, hmem, rfl⟩ := List.mem_map.mp hkind
  exact (Pattern.exact_of_mem hmem).ne_nil text rest h

/-! ## Texts in front of blanks -/

/-- A text that is spelled like a keyword ends a word where no character beyond ASCII follows. -/
theorem wordEnds_of_keyword (h : kind.Longest piece (piece ++ rest)) (hkind : kind ∈ priority)
    (hne : kind ≠ .unrecognized) (hword : String.ofList piece ∈ words keyword)
    (hrest : ∀ c ∈ rest.head?, c.toNat < 128) : Pattern.wordEnds rest = true := by
  obtain ⟨_, heq, hlanguage⟩ := h.language
  obtain rfl := List.append_cancel_left heq
  obtain ⟨first, body, rfl⟩ := List.exists_cons_of_ne_nil (hlanguage.ne_nil hkind)
  have hkinds : ∀ word ∈ words keyword, ∀ kind ∈ priority,
      word.toList.head?.any kind.opens = true → kind ≠ .unrecognized →
        kind = keyword ∨ kind = identifier := by decide
  have hopens : (String.ofList (first :: body)).toList.head?.any kind.opens = true := by
    rw [String.toList_ofList]
    exact hlanguage.opens
  rcases hkinds _ hword kind hkind hopens hne with rfl | rfl
  · exact Pattern.wordEnds_iff.mpr hlanguage.2
  · -- The name would go on with a word character of ASCII.
    refine Pattern.wordEnds_iff.mpr fun c hc => ?_
    obtain ⟨rest, rfl⟩ : ∃ back, rest = c :: back := List.head?_eq_some_iff.mp hc
    by_contra hchar
    rw [Bool.not_eq_false, Text.isWordChar, if_pos (hrest c hc), Bool.or_comm] at hchar
    obtain ⟨_, _, heq, hstart, hbody⟩ := hlanguage
    obtain ⟨rfl, rfl⟩ := List.cons.inj heq
    have hlonger : Kind.identifier.Language (first :: (body ++ [c])) rest := by
      refine ⟨first, body ++ [c], rfl, hstart, List.forall_mem_append.mpr ⟨hbody, ?_⟩⟩
      exact List.forall_mem_singleton.mpr ((Pattern.continuesName_iff c).mp hchar)
    have hle := h.length_le _ rest (by simp) hlonger
    simp only [List.length_cons, List.length_append, List.length_nil] at hle
    omega

/-- A text is found wherever a blank or nothing comes after it. -/
structure Freestanding (kind : Kind) (text : List Char) : Prop where
  ne_nil : text ≠ []
  head_eq : ∀ c ∈ text.head?, Pattern.isBlank c = false
  front_eq : ∀ rest : List Char, (∀ c ∈ rest.head?, Pattern.isBlank c = true) →
    Scan.front? Pattern.table (text ++ rest) = some (kind, text.length)

/-- No text goes on behind a token into a blank, unless it is a literal of the same kind. -/
theorem Language.length_le_or_eq {back : List Char} (h : kind.Language piece rest)
    (hkind : kind ∈ priority) (hne : kind ≠ .unrecognized)
    (hback : ∀ c ∈ back.head?, Pattern.isBlank c = true) (hother : other.Language text rest')
    (heq : piece ++ back = text ++ rest') : text.length ≤ piece.length ∨
      kind = other ∧ other ∈ [.comment, .whitespace, .string, .character] := by
  obtain ⟨first, body, rfl⟩ := List.exists_cons_of_ne_nil (h.ne_nil hkind)
  rcases List.append_eq_append_iff.mp heq with ⟨further, rfl, rfl⟩ | ⟨further, hpiece, _⟩
  · cases further with
    | nil => exact .inl (by simp)
    | cons c further =>
      right
      have hblank : other ∈ [.comment, .whitespace, .string, .character] := by
        by_contra hfree
        have hc := hother.isBlank_eq hfree (List.mem_append_right _ List.mem_cons_self)
        rw [hback c rfl] at hc
        cases hc
      exact ⟨eq_of_opens hblank hother.opens hkind h.opens hne, hblank⟩
  · left
    rw [hpiece, List.length_append]
    exact Nat.le_add_right _ _

/-- A blank behind a text ends a word. -/
theorem wordEnds_of_blank {back : List Char} (hback : ∀ c ∈ back.head?, Pattern.isBlank c = true) :
    Pattern.wordEnds back = true := by
  refine Pattern.wordEnds_iff.mpr fun c hc => ?_
  rcases (Pattern.isBlank_iff c).mp (hback c hc) with rfl | rfl <;> decide

/-- In front of a blank a text that is no trivia is the longest of its kind. -/
theorem Language.longest {back : List Char} (h : kind.Language piece rest)
    (hkind : kind ∈ priority) (htrivia : kind.isTrivia = false) (hne : kind ≠ .unrecognized)
    (hback : ∀ c ∈ back.head?, Pattern.isBlank c = true) : kind.Longest piece (piece ++ back) := by
  have hfront : kind.Language piece back := h.follow fun _ _ => wordEnds_of_blank hback
  refine ⟨⟨back, rfl, hfront⟩, fun text rest' heq hother => ?_⟩
  rcases h.length_le_or_eq hkind hne hback hother heq with hle | ⟨_, hblank⟩
  · exact hle
  · simp only [List.mem_cons, List.not_mem_nil, or_false] at hblank
    rcases hblank with rfl | rfl | rfl | rfl
    · cases htrivia
    · cases htrivia
    · rw [← Pattern.stringExtent_eq hother, ← heq, Pattern.stringExtent_eq hfront]
    · rw [← Pattern.characterExtent_eq hother, ← heq, Pattern.characterExtent_eq hfront]

/-- In front of a blank nothing begins that has not begun in front of the text that came after the
piece in the source. -/
theorem not_begins_of_blank {back : List Char} (h : kind.Longest piece (piece ++ rest))
    (hkind : kind ∈ priority) (hne : kind ≠ .unrecognized)
    (hrest : ∀ c ∈ rest.head?, c.toNat < 128)
    (hback : ∀ c ∈ back.head?, Pattern.isBlank c = true) (hdifferent : other ≠ kind)
    (hbegins : ¬ other.Begins (piece ++ rest)) : ¬ other.Begins (piece ++ back) := by
  rintro ⟨text, rest', heq, hother⟩
  obtain ⟨_, heq', hlanguage⟩ := h.language
  obtain rfl := List.append_cancel_left heq'
  have hle : text.length ≤ piece.length :=
    (hlanguage.length_le_or_eq hkind hne hback hother heq).resolve_right fun hsame =>
      hdifferent hsame.1.symm
  -- The text is a part of the piece, and so the source begins with it, too.
  obtain ⟨further, rfl⟩ : text <+: piece :=
    List.prefix_of_prefix_length_le ⟨rest', heq.symm⟩ (List.prefix_append piece back) hle
  rw [List.append_assoc] at heq
  obtain rfl := List.append_cancel_left heq
  refine hbegins ⟨text, further ++ rest, List.append_assoc .., ?_⟩
  refine hother.follow fun hword hfurther => ?_
  cases further with
  | nil =>
    rw [List.append_nil] at h
    exact wordEnds_of_keyword h hkind hne hword hrest
  | cons => exact hfurther

/-- What is found in front of a text without characters beyond ASCII, and is neither trivia nor
unrecognized, is found in front of a blank too. -/
theorem freestanding_of_front
    (h : Scan.front? Pattern.table (piece ++ rest) = some (kind, piece.length))
    (htrivia : kind.isTrivia = false) (hne : kind ≠ .unrecognized)
    (hrest : ∀ c ∈ rest.head?, c.toNat < 128) : kind.Freestanding piece := by
  obtain ⟨hlongest, earlier, later, hpriority, hearlier⟩ := Scan.front?_longest h
  rw [List.take_left] at hlongest
  have hkind : kind ∈ priority := hpriority ▸ List.mem_append_right _ List.mem_cons_self
  obtain ⟨_, _, hlanguage⟩ := hlongest.language
  have hnodup : priority.Nodup := by decide
  rw [hpriority] at hnodup
  refine ⟨hlanguage.ne_nil hkind, fun c hc => ?_, fun back hback => ?_⟩
  · obtain ⟨body, rfl⟩ := List.head?_eq_some_iff.mp hc
    by_contra hblank
    rw [Bool.not_eq_false] at hblank
    have hwhitespace := @eq_of_opens kind .whitespace c (by decide) hblank hkind hlanguage.opens hne
    rw [hwhitespace] at htrivia
    cases htrivia
  · have hfront := hlanguage.longest hkind htrivia hne hback
    refine Scan.front?_of_longest hpriority (fun other hother => ?_) hfront
    have hdifferent := (List.nodup_append.mp hnodup).2.2 other hother kind List.mem_cons_self
    exact not_begins_of_blank hlongest hkind hne hrest hback hdifferent (hearlier other hother)

end Kind

/-! ## Texts with blanks between them -/

/-- The characters are spaces and tabs. -/
def AreBlanks (text : List Char) : Prop :=
  ∀ c ∈ text, c = ' ' ∨ c = '\t'

instance (text : List Char) : Decidable (AreBlanks text) :=
  List.decidableBAll (fun c => c = ' ' ∨ c = '\t') text

/-- Blanks start with a blank, if there are any. -/
theorem AreBlanks.head_eq {text : List Char} (h : AreBlanks text) :
    ∀ c ∈ text.head?, Pattern.isBlank c = true :=
  fun c hc => (Pattern.isBlank_iff c).mpr (h c (List.mem_of_head? hc))

/-- The texts of the tokens, each with the blanks in front that are at its place, and then the
blanks at the back. -/
def Token.joinedWith (spacing : List (List Char)) (tokens : List Token) (back : List Char) :
    List Char :=
  (List.zipWith (fun blanks token => blanks ++ token.text.toList) spacing tokens).flatten ++ back

namespace Scan

/-- In front of blanks their token is found. -/
theorem front?_blanks {blanks rest : List Char} (hne : blanks ≠ []) (hblanks : AreBlanks blanks)
    (hrest : ∀ c ∈ rest.head?, Pattern.isBlank c = false) :
    front? Pattern.table (blanks ++ rest) = some (.whitespace, blanks.length) := by
  have hrun : Pattern.run Pattern.isBlank (blanks ++ rest) = blanks.length :=
    Pattern.run_append (fun c hc => (Pattern.isBlank_iff c).mpr (hblanks c hc)) hrest
  obtain ⟨c, body, rfl⟩ := List.exists_cons_of_ne_nil hne
  rw [List.cons_append] at hrun ⊢
  have hcomment : Pattern.commentExtent (c :: (body ++ rest)) = 0 := by
    rcases hblanks c List.mem_cons_self with rfl | rfl <;> rfl
  have hnewline : Pattern.run (· == '\n') (c :: (body ++ rest)) = 0 := by
    rcases hblanks c List.mem_cons_self with rfl | rfl <;> rfl
  simp only [front?, Pattern.table, List.findSome?_cons, hcomment, hnewline, hrun,
    List.length_cons]

variable {passed text : List Char} {scan : Scan}

/-- The first token of a text is of a kind that its first character opens. -/
theorem Cuts.exists_opens (h : Cuts Pattern.table passed text scan) {c : Char}
    (hc : c ∈ text.head?) : ∃ token ∈ scan.tokens, token.kind.opens c = true := by
  cases h with
  | done => cases hc
  | stuck text_ne front => exact absurd front (front?_ne_none text_ne)
  | @piece _ piece rest kind scan piece_ne front onward =>
    obtain ⟨first, body, rfl⟩ := List.exists_cons_of_ne_nil piece_ne
    cases hc
    obtain ⟨hlongest, _⟩ := front?_longest front
    rw [List.take_left] at hlongest
    obtain ⟨_, _, hlanguage⟩ := hlongest.language
    exact ⟨_, List.mem_cons_self, hlanguage.opens⟩

end Scan

/-- In a source without unrecognized tokens every token that is no trivia could stand anywhere. -/
theorem freestanding_of_mem_scan {source : String} {token : Token}
    (hkinds : ∀ scanned ∈ (scan source).tokens, scanned.kind ≠ .unrecognized)
    (h : token ∈ (scan source).tokens) (htrivia : token.kind.isTrivia = false) :
    token.kind.Freestanding token.text.toList := by
  obtain ⟨before, after, hsplit⟩ := List.append_of_mem h
  have hkind := hkinds token h
  obtain ⟨rest, _, hcut⟩ := (scanWith_cuts (fun _ hmem => hmem) source).split hsplit
  generalize (scanWith Pattern.table source).stuck = stuck at hcut
  cases hcut with
  | @piece _ piece rest kind _ piece_ne front onward =>
    have htext : (Scan.tokenOf kind ([] ++ Token.joined before) piece).text.toList = piece :=
      String.toList_ofList
    rw [htext]
    refine Kind.freestanding_of_front front htrivia hkind fun c hc => ?_
    obtain ⟨next, hnext, hopens⟩ := onward.exists_opens hc
    have hmem : next ∈ (scan source).tokens := by
      rw [hsplit]
      exact List.mem_append_right _ (List.mem_cons_of_mem _ hnext)
    exact Kind.lt_of_opens hopens (hkinds next hmem)

section

variable {spacing : List (List Char)} {tokens : List Token} {back : List Char}

/-- The first token comes behind the first blanks. -/
theorem Token.joinedWith_cons (blanks : List Char) (spacing : List (List Char)) (token : Token)
    (tokens : List Token) (back : List Char) :
    joinedWith (blanks :: spacing) (token :: tokens) back =
      blanks ++ (token.text.toList ++ joinedWith spacing tokens back) := by
  simp [joinedWith]

/-- Where no text goes without blanks in front of it, blanks come first. -/
theorem Token.head_joinedWith (hlength : spacing.length = tokens.length)
    (hblanks : ∀ blanks ∈ back :: spacing, AreBlanks blanks)
    (hapart : ∀ blanks ∈ spacing, blanks ≠ []) :
    ∀ c ∈ (joinedWith spacing tokens back).head?, Pattern.isBlank c = true := by
  obtain ⟨hback, hspacing⟩ := List.forall_mem_cons.mp hblanks
  cases spacing with
  | nil => exact hback.head_eq
  | cons blanks spacing =>
    obtain ⟨token, tokens, rfl⟩ := List.exists_cons_of_length_eq_add_one hlength.symm
    obtain ⟨c, blanks, rfl⟩ := List.exists_cons_of_ne_nil (hapart blanks List.mem_cons_self)
    rw [joinedWith_cons]
    exact (hspacing _ List.mem_cons_self).head_eq

end

/-- Wherever the text stands it is cut into tokens that, trivia apart, are spelled so. -/
def Scan.Reads (text : List Char) (spellings : List (Kind × String)) : Prop :=
  ∀ passed, ∃ scanned, Cuts Pattern.table passed text ⟨scanned, none⟩ ∧
    (scanned.filter fun token => !token.kind.isTrivia).map Token.spelled = spellings

namespace Scan

variable {text piece rest gap : List Char} {kind : Kind} {spellings : List (Kind × String)}

theorem reads_nil : Reads [] [] :=
  fun _ => ⟨[], .done, rfl⟩

/-- Blanks in front of a text are trivia. -/
theorem Reads.blanks (hgap : AreBlanks gap) (htext : ∀ c ∈ text.head?, Pattern.isBlank c = false)
    (h : Reads text spellings) : Reads (gap ++ text) spellings := by
  intro passed
  by_cases hne : gap = []
  · rw [hne]
    exact h passed
  · obtain ⟨scanned, hcuts, hspelled⟩ := h (passed ++ gap)
    exact ⟨_, .piece hne (front?_blanks hne hgap htext) hcuts, hspelled⟩

/-- A token that could stand anywhere is read in front of a blank. -/
theorem Reads.token (hpiece : kind.Freestanding piece) (htrivia : kind.isTrivia = false)
    (hrest : ∀ c ∈ rest.head?, Pattern.isBlank c = true) (h : Reads rest spellings) :
    Reads (piece ++ rest) ((kind, String.ofList piece) :: spellings) := by
  intro passed
  obtain ⟨scanned, hcuts, hspelled⟩ := h (passed ++ piece)
  refine ⟨_, .piece hpiece.ne_nil (hpiece.front_eq rest hrest) hcuts, ?_⟩
  rw [List.filter_cons_of_pos (by simp [tokenOf, htrivia]), List.map_cons, hspelled]
  rfl

end Scan

variable {spacing : List (List Char)} {tokens : List Token} {back : List Char}

/-- Tokens that could stand anywhere are read where blanks are between them. -/
theorem reads_joinedWith (hlength : spacing.length = tokens.length)
    (hblanks : ∀ blanks ∈ back :: spacing, AreBlanks blanks)
    (hapart : ∀ blanks ∈ spacing.tail, blanks ≠ [])
    (hstand : ∀ token ∈ tokens, token.kind.isTrivia = false ∧
      token.kind.Freestanding token.text.toList) :
    Scan.Reads (Token.joinedWith spacing tokens back) (tokens.map Token.spelled) := by
  obtain ⟨hback, hspacing⟩ := List.forall_mem_cons.mp hblanks
  induction tokens generalizing spacing with
  | nil =>
    obtain rfl := List.eq_nil_of_length_eq_zero hlength
    have hread := Scan.Reads.blanks hback (by simp) Scan.reads_nil
    rwa [List.append_nil] at hread
  | cons token tokens ih =>
    obtain ⟨blanks, spacing, rfl⟩ := List.exists_cons_of_length_eq_add_one hlength
    obtain ⟨hfirst, hspacing⟩ := List.forall_mem_cons.mp hspacing
    obtain ⟨⟨htrivia, hfree⟩, hstand⟩ := List.forall_mem_cons.mp hstand
    have hlength : spacing.length = tokens.length := Nat.succ.inj hlength
    have hblanks := List.forall_mem_cons.mpr ⟨hback, hspacing⟩
    have hrest := ih hlength hblanks (fun _ hmem => hapart _ (List.mem_of_mem_tail hmem)) hstand
      hspacing
    have hread := hrest.token hfree htrivia (Token.head_joinedWith hlength hblanks hapart)
    rw [String.ofList_toList] at hread
    rw [Token.joinedWith_cons]
    refine Scan.Reads.blanks hfirst ?_ hread
    rw [List.head?_append_of_ne_nil _ hfree.ne_nil]
    exact hfree.head_eq

/-! ## Lists of tokens -/

namespace Token

/-- Numbers do not change how tokens are spelled. -/
theorem map_spelled_number (first : Nat) (tokens : List Token) :
    (number first tokens).map spelled = tokens.map spelled := by
  induction tokens generalizing first with
  | nil => rfl
  | cons token tokens ih => exact congrArg (token.spelled :: ·) (ih (first + 1))

/-- Newlines that have been merged stay as they are. -/
theorem mergeNewlines_mergeNewlines (after : Bool) (tokens : List Token) :
    mergeNewlines after (mergeNewlines after tokens) = mergeNewlines after tokens := by
  fun_induction mergeNewlines after tokens with
  | case1 => rfl
  | case2 after token rest hnewline ih => rwa [hnewline.2]
  | case3 after token rest hnewline ih => rw [mergeNewlines, if_neg hnewline, ih]

/-- Which newlines are merged is told by the kinds of the tokens. -/
theorem map_spelled_mergeNewlines {after : Bool} {tokens tokens' : List Token}
    (h : tokens.map spelled = tokens'.map spelled) :
    (mergeNewlines after tokens).map spelled = (mergeNewlines after tokens').map spelled := by
  induction tokens generalizing after tokens' with
  | nil =>
    obtain rfl := List.map_eq_nil_iff.mp h.symm
    rfl
  | cons token tokens ih =>
    obtain ⟨token', rest, rfl, hspelled, hrest⟩ := List.map_eq_cons_iff.mp h.symm
    have hkind : token'.kind = token.kind := congrArg Prod.fst hspelled
    rw [mergeNewlines, mergeNewlines, hkind]
    split
    · exact ih hrest.symm
    · rw [List.map_cons, List.map_cons, hspelled, ih hrest.symm]

end Token

/-- The tokens of a source are of all kinds that its scan has, trivia and newlines apart. -/
theorem exists_of_mem_scan {source : String} (h : tokenize source = .ok tokens) {scanned : Token}
    (hmem : scanned ∈ (scan source).tokens)
    (hkind : scanned.kind ∉ [.whitespace, .comment, .newline]) :
    ∃ token ∈ tokens, token.kind = scanned.kind := by
  have hfilter : scanned ∈ (scan source).tokens.filter fun token =>
      token.kind ∉ [.whitespace, .comment, .newline] :=
    List.mem_filter.mpr ⟨hmem, decide_eq_true hkind⟩
  rw [← Token.filter_kept, ← map_unnumbered_of_tokenize h] at hfilter
  obtain ⟨token, htoken, rfl⟩ := List.mem_map.mp (List.mem_of_mem_filter hfilter)
  exact ⟨token, htoken, rfl⟩

/-- The texts of the tokens of a source have the same tokens, however many blanks are put between
them: if no token of the source is unrecognized, then a source that consists of their texts with
spaces and tabs around them, some between any two, has tokens of the same kinds and texts, numbered
from zero. -/
theorem tokenize_joinedWith {source : String} (h : tokenize source = .ok tokens)
    (hkinds : ∀ token ∈ tokens, token.kind ≠ .unrecognized)
    (hlength : spacing.length = tokens.length)
    (hblanks : ∀ blanks ∈ back :: spacing, AreBlanks blanks)
    (hapart : ∀ blanks ∈ spacing.tail, blanks ≠ []) :
    ∃ tokens', tokenize (String.ofList (Token.joinedWith spacing tokens back)) = .ok tokens' ∧
      tokens'.map Token.spelled = tokens.map Token.spelled ∧
        ∀ (i : Nat) (token : Token), tokens'[i]? = some token → token.index = i := by
  have hscan : ∀ scanned ∈ (scan source).tokens, scanned.kind ≠ .unrecognized := by
    intro scanned hmem hkind
    obtain ⟨token, htoken, heq⟩ := exists_of_mem_scan h hmem (by simp [hkind])
    exact hkinds token htoken (heq.trans hkind)
  have hkept := map_unnumbered_of_tokenize h
  have hstand : ∀ token ∈ tokens, token.kind.isTrivia = false ∧
      token.kind.Freestanding token.text.toList := by
    intro token htoken
    have hmem : token.unnumbered ∈ Token.kept false (scan source).tokens :=
      hkept ▸ List.mem_map_of_mem htoken
    have hfilter := (Token.mergeNewlines_sublist _ _).mem hmem
    obtain ⟨hmem, htrivia⟩ := List.mem_filter.mp hfilter
    have htrivia : token.unnumbered.kind.isTrivia = false := by simpa using htrivia
    have hfree := freestanding_of_mem_scan hscan hmem htrivia
    exact ⟨htrivia, hfree⟩
  obtain ⟨scanned, hcuts, hspelled⟩ := reads_joinedWith hlength hblanks hapart hstand []
  have hresult := tokenize_eq (String.ofList (Token.joinedWith spacing tokens back))
  refine ⟨_, hresult, ?_, fun i token hget => (getElem?_tokenize hresult hget).1⟩
  -- The newlines among the tokens have been merged before, so that none of them is lost.
  have hmerged : tokens.map Token.spelled =
      (Token.kept false (scan source).tokens).map Token.spelled := by
    rw [← hkept, List.map_map]
    rfl
  rw [scan_eq_of_cuts hcuts, Token.significant, Token.map_spelled_number,
    Token.map_spelled_mergeNewlines (hspelled.trans hmerged), hmerged, Token.kept,
    Token.mergeNewlines_mergeNewlines]

/-- Operators that were next to each other, a name next to a string with blanks in it and newlines
that were merged are the same tokens again. -/
theorem tokenize_joinedWith_shift :
    ∃ tokens, tokenize "if1<<<x # c\n \nreturn\"a  b\"" = .ok tokens ∧
      ∃ tokens', tokenize (String.ofList (Token.joinedWith
          [[], [' '], ['\t'], [' ', ' '], [' '], ['\t', ' '], [' ']] tokens [' '])) = .ok tokens' ∧
        tokens'.map Token.spelled = [(.identifier, "if1"), (.bitwiseShift, "<<"),
          (.comparison, "<"), (.identifier, "x"), (.newline, "\n"), (.keyword, "return"),
          (.string, "\"a  b\"")] ∧
        ∀ (i : Nat) (token : Token), tokens'[i]? = some token → token.index = i := by
  have htokens : Token.significant (scan "if1<<<x # c\n \nreturn\"a  b\"").tokens = [
      ⟨.identifier, "if1", 0, 0, 0⟩, ⟨.bitwiseShift, "<<", 0, 3, 1⟩, ⟨.comparison, "<", 0, 5, 2⟩,
      ⟨.identifier, "x", 0, 6, 3⟩, ⟨.newline, "\n", 0, 11, 4⟩, ⟨.keyword, "return", 2, 0, 5⟩,
      ⟨.string, "\"a  b\"", 2, 6, 6⟩] := by decide +kernel
  have h := tokenize_eq "if1<<<x # c\n \nreturn\"a  b\""
  rw [htokens] at h
  exact ⟨_, h, tokenize_joinedWith h (by decide) (by decide) (by decide) (by decide)⟩

end Tranquility
