import Tranquility.Analysis
import Tranquility.Proofs.Failing.Program

/-!
# What a check ends in

A parse of a source reads its tokens from the first on, so that a token that has been read is known
by its number. From this follows what a check reports: a violation is never at a token that has been
warned about, and no token that the language does not know has been read before it. Nothing but a
program or a violation can come of a source.
-/

namespace Tranquility

open Grammar

namespace Grammar

variable {source : String} {tokens : List Token} {s s' : State} {trace : Trace} {token : Token}

/-! ## Places in the list of tokens -/

/-- A parse of the tokens has read as many of them as its position says. -/
structure State.Within (tokens : List Token) (s : State) : Prop where
  rest_eq : s.rest = tokens.drop s.position
  position_le : s.position ≤ tokens.length
  endToken_eq : s.endToken = .endOf tokens

/-- At the start of a parse no token has been read. -/
theorem State.within_ofTokens (tokens : List Token) (reporter : Reporter) :
    (State.ofTokens tokens reporter).Within tokens :=
  ⟨rfl, Nat.zero_le _, rfl⟩

/-- A reading goes on in the same tokens. -/
theorem State.Within.after (hs : s.Within tokens) (h : Reads s trace s') : s'.Within tokens := by
  have hlength := h.lead.length_le
  rw [hs.rest_eq, List.length_drop] at hlength
  rw [h.state_eq]
  refine ⟨?_, ?_, hs.endToken_eq⟩
  · simp only [State.after]
    rw [hs.rest_eq, List.drop_drop]
  · have hle := hs.position_le
    show s.position + trace.pieces.length ≤ tokens.length
    omega

/-- A reading moves the position by as many tokens as the trace has pieces. -/
theorem Reads.position_eq (h : Reads s trace s') :
    s'.position = s.position + trace.pieces.length := by
  rw [h.state_eq]
  rfl

/-- A token that a reading keeps stands between the positions before and after. -/
theorem Reads.exists_of_keeps (h : Reads s trace s') (hs : s.Within tokens)
    (hkeeps : trace.Keeps token) :
    ∃ i, s.position ≤ i ∧ i < s'.position ∧ tokens[i]? = some token := by
  obtain ⟨piece, hpiece, hkept⟩ := hkeeps
  obtain ⟨i, hi, other, hother, hfits⟩ := h.lead.exists_getElem? hpiece
  obtain rfl := hfits.kept token hkept
  refine ⟨s.position + i, Nat.le_add_right _ _, ?_, ?_⟩
  · rw [h.position_eq]
    omega
  · rwa [hs.rest_eq, List.getElem?_drop] at hother

/-- No token between the positions before and after is one that the language does not know. -/
theorem Reads.known_of_lt (h : Reads s trace s') (hs : s.Within tokens) {i : Nat}
    (hle : s.position ≤ i) (hlt : i < s'.position) (hi : tokens[i]? = some token) :
    token.kind ≠ .unrecognized := by
  have hmem : token ∈ s.rest.take trace.pieces.length := by
    rw [h.position_eq] at hlt
    refine List.mem_iff_getElem?.mpr ⟨i - s.position, ?_⟩
    rw [List.getElem?_take_of_lt (by omega), hs.rest_eq, List.getElem?_drop,
      Nat.add_sub_cancel' hle, hi]
  obtain ⟨piece, hpiece, hfits⟩ := h.lead.exists_fits hmem
  rw [hfits.kind]
  exact h.known piece hpiece

/-- The token to be read is the one at the position, or the end of the input after all of them. -/
theorem State.Within.current (hs : s.Within tokens) : tokens[s.position]? = some s.current ∨
    s.position = tokens.length ∧ s.current = .endOf tokens := by
  rw [State.current, hs.rest_eq]
  cases hdrop : tokens.drop s.position with
  | nil =>
    exact .inr ⟨Nat.le_antisymm hs.position_le (List.drop_eq_nil_iff.mp hdrop), hs.endToken_eq⟩
  | cons token rest =>
    left
    rw [← List.head?_drop, hdrop]
    rfl

/-! ## Failures -/

/-- A parse of the tokens has ended in an error that is at one of them or at their end and fits it,
before all tokens that the language does not know, and at none that has been warned about. -/
structure Failure (tokens : List Token) (reporter : Reporter) (error : TokenError) (s' : State) :
    Prop where
  severity_eq : error.severity = .error
  token_mem : error.token ∈ tokens ∨ error.token = .endOf tokens
  fits : error.violation.Fits error.token
  index_le : ∀ token ∈ tokens, token.kind = .unrecognized → error.token.index ≤ token.index
  warnings : ∃ operators, s'.reporter = reporter.warnAll operators ∧ ∀ operator ∈ operators,
    operator ∈ tokens ∧ Level.ofKind? operator.kind ≠ none ∧ operator.index ≠ error.token.index

/-- The tokens that have been read do not count for the first that the language does not know. -/
theorem Reads.index_le_of_unrecognized (htokens : tokenize source = .ok tokens)
    (h : Reads s trace s') (hs : s.Within tokens) (hzero : s.position = 0) :
    ∀ token ∈ tokens, token.kind = .unrecognized → (s'.position : Int) ≤ token.index := by
  intro token htoken hkind
  obtain ⟨i, hi⟩ := List.mem_iff_getElem?.mp htoken
  rw [(getElem?_tokenize htokens hi).1, Int.ofNat_le]
  by_contra hlt
  exact h.known_of_lt hs (by omega) (by omega) hi hkind

/-- What a reading warns about stands between the positions before and after. -/
theorem Reads.operator_of_mem (htokens : tokenize source = .ok tokens) (h : Reads s trace s')
    (hs : s.Within tokens) (htoken : token ∈ trace.warnings) :
    token ∈ tokens ∧ Level.ofKind? token.kind ≠ none ∧
      (s.position : Int) ≤ token.index ∧ token.index < s'.position := by
  obtain ⟨i, hle, hlt, hi⟩ := h.exists_of_keeps hs (h.kept token htoken)
  refine ⟨List.mem_of_getElem? hi, h.operators token htoken, ?_⟩
  rw [(getElem?_tokenize htokens hi).1]
  exact ⟨Int.ofNat_le.mpr hle, Int.ofNat_lt.mpr hlt⟩

/-- Whatever error a parse of a source ends in is a violation of the language. -/
theorem Fails.failure (htokens : tokenize source = .ok tokens) {reporter : Reporter} {e : Error}
    (h : Fails (.ofTokens tokens reporter) e s') :
    ∃ error, e = .violation error ∧ Failure tokens reporter error s' := by
  have hs := State.within_ofTokens tokens reporter
  cases h with
  | atCurrent reads fits =>
    have hindex : s'.current.index = s'.position := by
      rcases (hs.after reads).current with hcurrent | ⟨hposition, hcurrent⟩
      · exact (getElem?_tokenize htokens hcurrent).1
      · rw [hcurrent, hposition, Token.index_endOf]
    refine ⟨_, rfl, rfl, ?_, fits, ?_, _, congrArg State.reporter reads.state_eq, ?_⟩
    · exact (hs.after reads).current.imp List.mem_of_getElem? And.right
    · rw [hindex]
      exact reads.index_le_of_unrecognized htokens hs rfl
    · intro operator hoperator
      obtain ⟨hmem, hlevel, _, hlt⟩ := reads.operator_of_mem htokens hs hoperator
      exact ⟨hmem, hlevel, hindex ▸ Int.ne_of_lt hlt⟩
  | @atRead _ _ _ _ _ _ token before part after warnings_eq keeps _ fits =>
    have hs₁ := hs.after before
    have hs₂ := hs₁.after part
    obtain ⟨i, hle, hlt, hi⟩ := part.exists_of_keeps hs₁ keeps
    have hindex := (getElem?_tokenize htokens hi).1
    have reads := before.append (part.append after)
    have hposition := after.position_eq
    refine ⟨_, rfl, rfl, .inl (List.mem_of_getElem? hi), fits, ?_, _,
      congrArg State.reporter reads.state_eq, ?_⟩
    · intro other hother hkind
      have hother := reads.index_le_of_unrecognized htokens hs rfl other hother hkind
      show token.index ≤ other.index
      omega
    · -- Warnings come from before the part where the token stands or from after it.
      intro operator hoperator
      rw [Trace.warnings_append, Trace.warnings_append, warnings_eq, List.nil_append] at hoperator
      show _ ∧ _ ∧ operator.index ≠ token.index
      rcases List.mem_append.mp hoperator with hoperator | hoperator
      · obtain ⟨hmem, hlevel, _, hbefore⟩ := before.operator_of_mem htokens hs hoperator
        exact ⟨hmem, hlevel, by omega⟩
      · obtain ⟨hmem, hlevel, hafter, _⟩ := after.operator_of_mem htokens hs₂ hoperator
        exact ⟨hmem, hlevel, by omega⟩
  | truncated reads keeps kind_eq fault =>
    obtain ⟨i, _, _, hi⟩ := reads.exists_of_keeps hs keeps
    exact absurd fault ((getElem?_tokenize htokens hi).2.untruncated kind_eq)

/-! ## Successes -/

/-- A parse of the tokens has ended in a program: it knows all of them, and has warned about some.
-/
structure Success (tokens : List Token) (reporter : Reporter) (s' : State) : Prop where
  known : ∀ token ∈ tokens, token.kind ≠ .unrecognized
  warnings : ∃ operators, s'.reporter = reporter.warnAll operators ∧ ∀ operator ∈ operators,
    operator ∈ tokens ∧ Level.ofKind? operator.kind ≠ none

/-- A program that is read in full is a success of the parse. -/
theorem ReadsProgram.success (htokens : tokenize source = .ok tokens) {reporter : Reporter}
    {program : Program} (h : ReadsProgram (.ofTokens tokens reporter) program s') :
    Success tokens reporter s' := by
  obtain ⟨⟨front, ended, reads⟩, hatEnd, _⟩ := h
  have hs := State.within_ofTokens tokens reporter
  have hs' := hs.after reads
  have hrest := State.rest_eq_nil_of_atEnd hatEnd fun token htoken => by
    rw [hs'.rest_eq] at htoken
    exact (lexeme_of_mem_tokenize htokens (List.mem_of_mem_drop htoken)).kind_ne_endOfInput
  rw [hs'.rest_eq, List.drop_eq_nil_iff] at hrest
  refine ⟨fun token htoken => ?_, _, congrArg State.reporter reads.state_eq, ?_⟩
  · obtain ⟨i, hi⟩ := List.mem_iff_getElem?.mp htoken
    have hlt := (List.getElem?_eq_some_iff.mp hi).1
    exact reads.known_of_lt hs (Nat.zero_le i) (Nat.lt_of_lt_of_le hlt hrest) hi
  · intro operator hoperator
    obtain ⟨hmem, hlevel, _⟩ := reads.operator_of_mem htokens hs hoperator
    exact ⟨hmem, hlevel⟩

/-- A parse of a source ends in a program or in a violation. -/
theorem parse_outcome (htokens : tokenize source = .ok tokens) (reporter : Reporter) :
    (∃ program s', Grammar.program.run (.ofTokens tokens reporter) = .ok program s' ∧
      Success tokens reporter s') ∨
    ∃ error s', Grammar.program.run (.ofTokens tokens reporter) = .error (.violation error) s' ∧
      Failure tokens reporter error s' := by
  cases h : Grammar.program.run (.ofTokens tokens reporter) with
  | ok program s' => exact .inl ⟨program, s', rfl, (program_reads rfl h).success htokens⟩
  | error e s' =>
    obtain ⟨error, rfl, hfailure⟩ := (program_fails rfl h).failure htokens
    exact .inr ⟨error, s', rfl, hfailure⟩

end Grammar

/-- A check never fails: every source has tokens, a parse of them ends in a program or in a
violation, whatever has been reported before, and an analysis comes of both. -/
theorem check_total (source : String) : ∃ tokens, tokenize source = .ok tokens ∧
    (∀ reporter,
      (∃ program s', Grammar.program.run (.ofTokens tokens reporter) = .ok program s') ∨
      ∃ error s', Grammar.program.run (.ofTokens tokens reporter) = .error (.violation error) s') ∧
    ∃ analysis, check source = .ok analysis := by
  have htokens := tokenize_eq source
  refine ⟨_, htokens, fun reporter => ?_, ?_⟩
  · rcases parse_outcome htokens reporter with ⟨program, s', h, _⟩ | ⟨error, s', h, _⟩
    · exact .inl ⟨program, s', h⟩
    · exact .inr ⟨error, s', h⟩
  · rw [check, htokens]
    simp only [Analysis.ofTokens]
    rcases parse_outcome htokens (Reporter.empty.reportUnrecognized _) with
      ⟨program, s', h, _⟩ | ⟨error, s', h, _⟩
    · exact ⟨_, by rw [h]⟩
    · exact ⟨_, by rw [h]⟩

end Tranquility
