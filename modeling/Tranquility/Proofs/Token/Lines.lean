import Tranquility.Proofs.Token.Language
import Mathlib.Data.List.Induction

/-!
# Scanning line by line

No token but a run of newlines crosses the end of a line, and no pattern looks beyond one: to a
keyword a newline after it is as good as the end of the source. So a source with newlines in it is
scanned in parts. The part in front of the newlines has the tokens that it has by itself, then comes
one token for the newlines, and then the tokens of the part after them, as many lines further down.
What a line is scanned to depends on no other line.
-/

namespace Tranquility

/-! ## What comes after a token -/

/-- A text stays one of its kind in front of anything that ends a word where a word ended. -/
theorem Kind.Language.follow {kind : Kind} {piece rest rest' : List Char}
    (h : kind.Language piece rest) (hends : String.ofList piece ∈ words keyword →
      Pattern.wordEnds rest = true → Pattern.wordEnds rest' = true) :
    kind.Language piece rest' := by
  cases kind with
  | keyword => exact ⟨h.1, Pattern.wordEnds_iff.mp (hends h.1 (Pattern.wordEnds_iff.mpr h.2))⟩
  | _ => exact h

/-- Of what comes after a text it only matters whether it starts with a word character. -/
theorem Kind.language_congr (kind : Kind) (piece : List Char) {rest rest' : List Char}
    (h : Pattern.wordEnds rest = Pattern.wordEnds rest') :
    kind.Language piece rest ↔ kind.Language piece rest' :=
  ⟨fun hpiece => hpiece.follow fun _ => h.symm.trans, fun hpiece => hpiece.follow fun _ => h.trans⟩

namespace Pattern

/-- A newline ends a word as the end of the source does. -/
theorem wordEnds_append_newline (rest after : List Char) :
    wordEnds (rest ++ '\n' :: after) = wordEnds rest := by
  cases rest with
  | nil =>
    have hnewline : Text.isWordChar '\n' = false := by decide
    simp [wordEnds, hnewline]
  | cons c rest => rfl

/-- No pattern but that of newlines looks beyond the end of a line. -/
theorem extent_append_newline {pattern : Pattern} (h : pattern ∈ table)
    (hkind : pattern.kind ≠ .newline) (text after : List Char) :
    pattern.extent (text ++ '\n' :: after) = pattern.extent text := by
  have hexact := exact_of_mem h
  have hcongr : ∀ piece rest, pattern.kind.Language piece (rest ++ '\n' :: after) ↔
      pattern.kind.Language piece rest :=
    fun piece rest => pattern.kind.language_congr piece (wordEnds_append_newline rest after)
  apply Nat.le_antisymm
  · generalize hlength : pattern.extent (text ++ '\n' :: after) = length
    rcases Nat.eq_zero_or_pos length with rfl | hpos
    · exact Nat.zero_le _
    have hlanguage := hexact.sound (text ++ '\n' :: after) (hlength ▸ hpos)
    have hinline := (inline_of_mem h hkind (text ++ '\n' :: after)).2
    rw [hlength] at hlanguage hinline
    -- What is found has no newline in it, and so it ends in front of the first one.
    have hle : length ≤ text.length := by
      by_contra hlt
      obtain ⟨n, hn⟩ := Nat.exists_eq_add_of_lt (Nat.lt_of_not_le hlt)
      apply hinline
      rw [hn, Nat.add_assoc, List.take_length_add_append, List.take_succ_cons]
      exact List.mem_append_right _ List.mem_cons_self
    rw [List.take_append_of_le_length hle, List.drop_append_of_le_length hle, hcongr] at hlanguage
    have hfound := hexact.length_le _ _ hlanguage
    rwa [List.take_append_drop, List.length_take_of_le hle] at hfound
  · generalize hlength : pattern.extent text = length
    rcases Nat.eq_zero_or_pos length with rfl | hpos
    · exact Nat.zero_le _
    have hle : length ≤ text.length := hlength ▸ extent_le h text
    have hlanguage := hexact.sound text (hlength ▸ hpos)
    rw [hlength, ← hcongr] at hlanguage
    have hfound := hexact.length_le _ _ hlanguage
    rwa [← List.append_assoc, List.take_append_drop, List.length_take_of_le hle] at hfound

/-- A run of newlines is over within a text that does not end with one. -/
theorem run_newline_append {text : List Char} (hne : text ≠ [])
    (hlast : text.getLast? ≠ some '\n') (after : List Char) :
    run (· == '\n') (text ++ after) = run (· == '\n') text := by
  have hshort : (text.takeWhile (· == '\n')).length ≠ text.length := by
    intro hlength
    have hwhole := (List.takeWhile_prefix (l := text) (· == '\n')).eq_of_length hlength
    have hmem : text.getLast hne ∈ text.takeWhile (· == '\n') :=
      hwhole.symm ▸ List.getLast_mem hne
    have hnewline : text.getLast hne = '\n' := by simpa using List.mem_takeWhile_imp hmem
    exact hlast (by rw [List.getLast?_eq_some_getLast hne, hnewline])
  rw [run, run, List.takeWhile_append, if_neg hshort]

/-- A run ends where something else comes. -/
theorem run_append {among : Char → Bool} {piece rest : List Char}
    (hpiece : ∀ c ∈ piece, among c = true) (hrest : ∀ c ∈ rest.head?, among c = false) :
    run among (piece ++ rest) = piece.length := by
  have hstop : rest.takeWhile among = [] := by
    cases rest with
    | nil => rfl
    | cons c rest => exact List.takeWhile_cons_of_neg (by simp [hrest c rfl])
  rw [run, List.takeWhile_append_of_pos hpiece, hstop, List.append_nil]

end Pattern

namespace Scan

/-- Where all patterns take the same, the same is found. -/
theorem front?_congr {patterns : List Pattern} {text text' : List Char}
    (h : ∀ pattern ∈ patterns, pattern.extent text = pattern.extent text') :
    front? patterns text = front? patterns text' := by
  induction patterns with
  | nil => rfl
  | cons pattern patterns ih =>
    obtain ⟨hfirst, hrest⟩ := List.forall_mem_cons.mp h
    have hih := ih hrest
    unfold front? at hih ⊢
    rw [List.findSome?_cons, List.findSome?_cons, hfirst, hih]

/-- In front of the end of a line the same token is found as in front of the end of the source. -/
theorem front?_append_newline {text : List Char} (hne : text ≠ [])
    (hlast : text.getLast? ≠ some '\n') (after : List Char) :
    front? Pattern.table (text ++ '\n' :: after) = front? Pattern.table text := by
  refine front?_congr fun pattern hmem => ?_
  by_cases hkind : pattern.kind = .newline
  · rw [Pattern.extent_of_newline hmem hkind]
    exact Pattern.run_newline_append hne hlast _
  · exact Pattern.extent_append_newline hmem hkind text after

/-- In front of a text there is always a token. -/
theorem front?_ne_none {text : List Char} (hne : text ≠ []) :
    front? Pattern.table text ≠ none := by
  obtain ⟨c, rest, rfl⟩ := List.exists_cons_of_ne_nil hne
  have hcovering : Pattern.Covering Pattern.table := fun _ hmem _ => hmem
  exact Option.isSome_iff_ne_none.mp (hcovering.front?_isSome c rest)

/-- In front of newlines their token is found. -/
theorem front?_newlines {count : Nat} (hcount : 0 < count) {rest : List Char}
    (hrest : rest.head? ≠ some '\n') :
    front? Pattern.table (List.replicate count '\n' ++ rest) = some (.newline, count) := by
  have hrun : Pattern.run (· == '\n') (List.replicate count '\n' ++ rest) = count := by
    rw [Pattern.run_append (by simp), List.length_replicate]
    intro c hc
    exact beq_eq_false_iff_ne.mpr fun heq => hrest (heq ▸ hc)
  obtain ⟨n, rfl⟩ := Nat.exists_eq_add_of_le' hcount
  rw [List.replicate_succ, List.cons_append] at hrun ⊢
  have hcomment : Pattern.commentExtent ('\n' :: (List.replicate n '\n' ++ rest)) = 0 := rfl
  simp only [front?, Pattern.table, List.findSome?_cons, hcomment, hrun]

end Scan

/-! ## Texts under each other -/

/-- The token so many lines further down. -/
def Token.lower (lines : Nat) (token : Token) : Token :=
  { token with line := token.line + lines }

/-- Below a text that ends a line only the number of the line is another one. -/
theorem Place.past_below {above : List Char} (h : above.getLast? = some '\n')
    (passed : List Char) : past (above ++ passed) =
      ⟨above.length + (past passed).offset, above.count '\n' + (past passed).line,
        (past passed).column⟩ := by
  have hcolumn : (passed.reverse ++ above.reverse).takeWhile (· != '\n') =
      passed.reverse.takeWhile (· != '\n') := by
    obtain ⟨front, rfl⟩ := List.getLast?_eq_some_iff.mp h
    rw [List.reverse_concat, List.takeWhile_append]
    split
    case isTrue hlength =>
      have hwhole := (List.takeWhile_prefix (l := passed.reverse) (· != '\n')).eq_of_length hlength
      rw [hwhole, List.takeWhile_cons_of_neg (by simp), List.append_nil]
    case isFalse => rfl
  simp [past, hcolumn]

@[simp] theorem Token.lower_zero : Token.lower 0 = id := by
  funext token
  simp [Token.lower]

namespace Scan

variable {passed text : List Char} {scan : Scan}

/-- Behind whole lines a token is as many lines further down. -/
theorem tokenOf_below {above : List Char} (h : above.getLast? = some '\n') (kind : Kind)
    (passed piece : List Char) : tokenOf kind (above ++ passed) piece =
      (tokenOf kind passed piece).lower (above.count '\n') := by
  rw [tokenOf, Place.past_below h]
  simp [tokenOf, Token.lower, Int.add_comm]

/-- Below a text that ends a line a text is cut as it is by itself. -/
theorem Cuts.lowered {patterns : List Pattern} {above : List Char}
    (h : above.getLast? = some '\n') (hcuts : Cuts patterns passed text scan) :
    Cuts patterns (above ++ passed) text ⟨scan.tokens.map (·.lower (above.count '\n')),
      scan.stuck.map (above.length + ·)⟩ := by
  induction hcuts with
  | done => exact .done
  | stuck text_ne front =>
    rw [Option.map_some, ← List.length_append]
    exact .stuck text_ne front
  | @piece passed piece rest kind scan piece_ne front onward ih =>
    rw [← List.append_assoc] at ih
    rw [cons, List.map_cons, ← tokenOf_below h]
    exact .piece piece_ne front ih

/-- In front of the end of a line a text is cut as it is by itself, and then the rest is cut. -/
theorem Cuts.append_newline (h : Cuts Pattern.table passed text scan)
    (hlast : text.getLast? ≠ some '\n') {after : List Char} {further : Scan}
    (hafter : Cuts Pattern.table (passed ++ text) ('\n' :: after) further) :
    Cuts Pattern.table passed (text ++ '\n' :: after)
      ⟨scan.tokens ++ further.tokens, further.stuck⟩ := by
  induction h with
  | done =>
    rw [List.append_nil] at hafter
    exact hafter
  | stuck text_ne front => exact absurd front (front?_ne_none text_ne)
  | @piece passed piece rest kind scan piece_ne front onward ih =>
    have hne : piece ++ rest ≠ [] := List.append_ne_nil_of_left_ne_nil piece_ne rest
    have hrest : rest.getLast? ≠ some '\n' := by
      intro heq
      rw [List.getLast?_append, heq] at hlast
      exact hlast rfl
    rw [← front?_append_newline hne hlast after] at front
    rw [← List.append_assoc] at hafter
    rw [List.append_assoc] at front ⊢
    exact .piece piece_ne front (ih hrest hafter)

/-- A text is cut in one way only. -/
theorem Cuts.unique {patterns : List Pattern} {scan' : Scan}
    (h : Cuts patterns passed text scan) (h' : Cuts patterns passed text scan') : scan = scan' := by
  induction h generalizing scan' with
  | done =>
    generalize htext : ([] : List Char) = text at h'
    cases h' with
    | done => rfl
    | stuck text_ne => exact absurd htext.symm text_ne
    | piece piece_ne => exact absurd (List.append_eq_nil_iff.mp htext.symm).1 piece_ne
  | stuck text_ne front =>
    cases h' with
    | done => exact absurd rfl text_ne
    | stuck => rfl
    | piece piece_ne front' =>
      rw [front] at front'
      cases front'
  | @piece passed piece rest kind scan piece_ne front onward ih =>
    generalize htext : piece ++ rest = text at h' front
    cases h' with
    | done => exact absurd (List.append_eq_nil_iff.mp htext).1 piece_ne
    | stuck text_ne front' =>
      rw [front] at front'
      cases front'
    | @piece _ piece' rest' kind' scan' piece_ne' front' onward' =>
      rw [front, Option.some.injEq, Prod.mk.injEq] at front'
      obtain ⟨rfl, hlength⟩ := front'
      obtain ⟨rfl, rfl⟩ := List.append_inj htext hlength
      rw [ih onward']

end Scan

/-- With all patterns nothing gets stuck. -/
theorem stuck_scan (source : String) : (scan source).stuck = none :=
  Scan.stuck_onward (fun _ hmem _ => hmem) .start 0 source.toList

/-- The tokens of a source are cut from its start on. -/
theorem cuts_scan (text : List Char) :
    Scan.Cuts Pattern.table [] text (scan (String.ofList text)) := by
  have hcuts := scanWith_cuts (fun _ hmem => hmem) (String.ofList text)
  rwa [String.toList_ofList] at hcuts

/-- There is only one way to cut a source. -/
theorem scan_eq_of_cuts {text : List Char} {result : Scan}
    (h : Scan.Cuts Pattern.table [] text result) : scan (String.ofList text) = result :=
  (cuts_scan text).unique h

/-- So many newlines in a row. -/
def newlines (count : Nat) : List Char :=
  List.replicate count '\n'

/-- A source with newlines in it is scanned in parts. -/
theorem scan_parts {above below : List Char} {count : Nat} (habove : above.getLast? ≠ some '\n')
    (hbelow : below.head? ≠ some '\n') (hcount : 0 < count) :
    scan (String.ofList (above ++ newlines count ++ below)) =
      ⟨(scan (String.ofList above)).tokens ++ Scan.tokenOf .newline above (newlines count) ::
        (scan (String.ofList below)).tokens.map (·.lower (above.count '\n' + count)), none⟩ := by
  obtain ⟨n, rfl⟩ := Nat.exists_eq_add_of_le' hcount
  have hends : (above ++ newlines (n + 1)).getLast? = some '\n' := by
    simp [newlines, List.getLast?_append, List.getLast?_replicate]
  have hlines : (above ++ newlines (n + 1)).count '\n' = above.count '\n' + (n + 1) := by
    simp [newlines]
  have hlength : (newlines (n + 1)).length = n + 1 := List.length_replicate
  have hsecond := (cuts_scan below).lowered hends
  rw [List.append_nil, stuck_scan, hlines] at hsecond
  have hfront : Scan.front? Pattern.table (newlines (n + 1) ++ below) =
      some (.newline, (newlines (n + 1)).length) := by
    rw [hlength]
    exact Scan.front?_newlines hcount hbelow
  have hnewlines : Scan.Cuts Pattern.table above (newlines (n + 1) ++ below) _ :=
    .piece (List.ne_nil_of_length_eq_add_one hlength) hfront hsecond
  rw [List.append_assoc]
  exact scan_eq_of_cuts ((cuts_scan above).append_newline habove hnewlines)

/-! ## Lines -/

/-- The tokens of a source, joined, are the source. -/
theorem joined_scan (source : String) : Token.joined (scan source).tokens = source.toList := by
  rcases (scanWith_cuts (fun _ hmem => hmem) source).ends with hdone | ⟨_, _, _, hstuck, _⟩
  · exact hdone.2
  · rw [show scanWith Pattern.table source = scan source from rfl, stuck_scan] at hstuck
    cases hstuck

/-- Of the tokens of a source those that are newlines have newlines in them. -/
theorem kind_eq_newline_iff {source : String} {token : Token}
    (h : token ∈ (scan source).tokens) : token.kind = .newline ↔ '\n' ∈ token.text.toList := by
  obtain ⟨pattern, hmem, front, hkind, hpos, _, htext⟩ := Scan.mem_onward h
  rw [hkind, htext, String.toList_ofList]
  by_cases hnewline : pattern.kind = .newline
  · refine iff_of_true hnewline ?_
    rw [Pattern.extent_of_newline hmem hnewline] at hpos ⊢
    rw [Pattern.take_run]
    obtain ⟨c, hc⟩ := List.exists_mem_of_length_pos hpos
    obtain rfl : c = '\n' := by simpa using List.mem_takeWhile_imp hc
    exact hc
  · exact iff_of_false hnewline (Pattern.inline_of_mem hmem hnewline front).2

/-- The tokens of a source that stand on its lines and do not end them. -/
def inlineTokens (text : List Char) : List Token :=
  (scan (String.ofList text)).tokens.filter (·.kind ≠ .newline)

/-- In a line there are no other tokens. -/
theorem inlineTokens_line {line : List Char} (h : '\n' ∉ line) :
    inlineTokens line = (scan (String.ofList line)).tokens := by
  refine List.filter_eq_self.mpr fun token htoken => decide_eq_true fun hkind => h ?_
  have hjoined := joined_scan (String.ofList line)
  rw [String.toList_ofList] at hjoined
  rw [← hjoined]
  exact List.mem_flatMap.mpr ⟨token, htoken, (kind_eq_newline_iff htoken).mp hkind⟩

/-- Lines further down add up. -/
theorem Token.lower_lower (lines lines' : Nat) (token : Token) :
    (token.lower lines).lower lines' = token.lower (lines + lines') := by
  simp [Token.lower, Int.add_assoc]

theorem inlineTokens_nil : inlineTokens [] = [] := rfl

/-- In parts that newlines keep apart the tokens are those of the parts. -/
theorem inlineTokens_parts {above below : List Char} {count : Nat}
    (habove : above.getLast? ≠ some '\n') (hbelow : below.head? ≠ some '\n') (hcount : 0 < count) :
    inlineTokens (above ++ newlines count ++ below) = inlineTokens above ++
      (inlineTokens below).map (·.lower (above.count '\n' + count)) := by
  have hnewline : ∀ tokens : List Token,
      (Scan.tokenOf .newline above (newlines count) :: tokens).filter (·.kind ≠ .newline) =
        tokens.filter (·.kind ≠ .newline) :=
    fun tokens => List.filter_cons_of_neg (by simp [Scan.tokenOf])
  rw [inlineTokens, scan_parts habove hbelow hcount, List.filter_append, hnewline, List.filter_map]
  rfl

/-- A text ends with newlines, perhaps none, after something that does not. -/
theorem exists_append_newlines (text : List Char) :
    ∃ front count, text = front ++ newlines count ∧ front.getLast? ≠ some '\n' := by
  induction text using List.reverseRecOn with
  | nil => exact ⟨[], 0, rfl, by simp⟩
  | append_singleton text c ih =>
    by_cases hc : c = '\n'
    · obtain ⟨front, count, rfl, hfront⟩ := ih
      refine ⟨front, count + 1, ?_, hfront⟩
      rw [hc, List.append_assoc, newlines, newlines, ← List.replicate_succ']
    · exact ⟨text ++ [c], 0, by simp [newlines], by simpa using hc⟩

/-- A text starts with newlines, perhaps none, in front of something that does not. -/
theorem exists_newlines_append (text : List Char) :
    ∃ count back, text = newlines count ++ back ∧ back.head? ≠ some '\n' := by
  induction text with
  | nil => exact ⟨0, [], rfl, by simp⟩
  | cons c text ih =>
    by_cases hc : c = '\n'
    · obtain ⟨count, back, rfl, hback⟩ := ih
      exact ⟨count + 1, back, by rw [hc]; rfl, hback⟩
    · exact ⟨0, c :: text, rfl, by simpa using hc⟩

/-- Wherever a source is cut at a newline, each part has the tokens that it has by itself. -/
theorem inlineTokens_append_newline (above below : List Char) :
    inlineTokens (above ++ '\n' :: below) = inlineTokens above ++
      (inlineTokens below).map (·.lower (above.count '\n' + 1)) := by
  obtain ⟨front, i, rfl, hfront⟩ := exists_append_newlines above
  obtain ⟨j, back, rfl, hback⟩ := exists_newlines_append below
  have habove : inlineTokens (front ++ newlines i) = inlineTokens front := by
    cases i with
    | zero => exact congrArg inlineTokens (List.append_nil front)
    | succ i =>
      have hparts := @inlineTokens_parts front [] (i + 1) hfront (by simp) (Nat.succ_pos i)
      rwa [List.append_nil, inlineTokens_nil, List.map_nil, List.append_nil] at hparts
  have hbelow : inlineTokens (newlines j ++ back) = (inlineTokens back).map (·.lower j) := by
    cases j with
    | zero => simp [newlines]
    | succ j =>
      have hparts := @inlineTokens_parts [] back (j + 1) (by simp) hback (Nat.succ_pos j)
      simpa [inlineTokens_nil] using hparts
  have htext : front ++ newlines i ++ '\n' :: (newlines j ++ back) =
      front ++ newlines (i + 1 + j) ++ back := by
    simp [newlines, List.replicate_add]
  have hpos : 0 < i + 1 + j := by omega
  rw [htext, inlineTokens_parts hfront hback hpos, habove, hbelow, List.map_map]
  congr 2
  funext token
  have hcount : (front ++ newlines i).count '\n' = front.count '\n' + i := by simp [newlines]
  rw [Function.comp_apply, Token.lower_lower, hcount]
  congr 1
  omega

/-- The tokens on the lines of a source are those that the lines have by themselves. -/
theorem inlineTokens_intercalate {lines : List (List Char)} (h : ∀ line ∈ lines, '\n' ∉ line)
    (above : Nat) : (inlineTokens (['\n'].intercalate lines)).map (·.lower above) =
      (lines.zipIdx above).flatMap fun numbered =>
        (scan (String.ofList numbered.1)).tokens.map (·.lower numbered.2) := by
  induction lines generalizing above with
  | nil => rfl
  | cons line lines ih =>
    obtain ⟨hline, hlines⟩ := List.forall_mem_cons.mp h
    rw [List.zipIdx_cons, List.flatMap_cons, ← ih hlines, ← inlineTokens_line hline]
    cases lines with
    | nil => simp [inlineTokens_nil]
    | cons next lines =>
      rw [List.intercalate_cons_cons, List.append_assoc, List.singleton_append,
        inlineTokens_append_newline, List.count_eq_zero.mpr hline, List.map_append, List.map_map]
      congr 2
      funext token
      rw [Function.comp_apply, Token.lower_lower, Nat.zero_add, Nat.add_comm]

/-- A source is scanned line by line. Where newlines stand between two parts of it, the tokens are
those of the first part, one token for the newlines at its end, and those of the second part as many
lines further down, in the same columns. So the tokens on the lines of a source are those that each
line has by itself, whatever lines come before and after it. -/
theorem scan_by_lines :
    (∀ (above below : String) (count : Nat), above.toList.getLast? ≠ some '\n' →
      below.toList.head? ≠ some '\n' → 0 < count →
        scan (above ++ String.ofList (newlines count) ++ below) =
          ⟨(scan above).tokens ++
            ⟨.newline, String.ofList (newlines count), (Place.past above.toList).line,
              (Place.past above.toList).column, -1⟩ ::
            (scan below).tokens.map (·.lower (above.toList.count '\n' + count)), none⟩) ∧
    ∀ lines : List (List Char), (∀ line ∈ lines, '\n' ∉ line) →
      (scan (String.ofList (['\n'].intercalate lines))).tokens.filter (·.kind ≠ .newline) =
        lines.zipIdx.flatMap fun numbered =>
          (scan (String.ofList numbered.1)).tokens.map (·.lower numbered.2) := by
  refine ⟨fun above below count habove hbelow hcount => ?_, fun lines hlines => ?_⟩
  · have hparts := scan_parts habove hbelow hcount
    rw [String.ofList_append, String.ofList_append, String.ofList_toList,
      String.ofList_toList] at hparts
    exact hparts
  · have hall := inlineTokens_intercalate hlines 0
    rwa [Token.lower_zero, List.map_id] at hall

/-- A string that is open at the end of a line is not closed by a quote further down, and a keyword
at the end of a line is a keyword. -/
theorem scan_by_lines_quote :
    scan ("\"a if" ++ String.ofList (newlines 2) ++ "é\" b") =
      ⟨(scan "\"a if").tokens ++ ⟨.newline, "\n\n", 0, 5, -1⟩ ::
        (scan "é\" b").tokens.map (·.lower 2), none⟩ ∧
    (scan (String.ofList (['\n'].intercalate [['i', 'f'], [], ['é', '"']]))).tokens.filter
        (·.kind ≠ .newline) =
      (scan "if").tokens.map (·.lower 0) ++ (scan "é\"").tokens.map (·.lower 2) := by
  refine ⟨scan_by_lines.1 "\"a if" "é\" b" 2 (by decide) (by decide) (by decide), ?_⟩
  rw [scan_by_lines.2 [['i', 'f'], [], ['é', '"']] (by decide)]
  rfl

end Tranquility
