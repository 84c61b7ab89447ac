import Tranquility.Proofs.Checking.Outcome
import Tranquility.Proofs.Diagnostic.Reports
import Tranquility.Proofs.Token.Place

/-!
# What a check reports

The diagnostics of a check are the errors about tokens that the language does not know, the warnings
about operators, and the error that the parse has ended in. A reporter keeps no second diagnostic
about a token, but the only one that is ever dropped is a violation at a token that the language
does not know, which has its error already.
-/

namespace Tranquility

open Grammar

/-- The place where a diagnostic starts. -/
def Diagnostic.start (diagnostic : Diagnostic) : Int × Int :=
  (diagnostic.range.startLine, diagnostic.range.startColumn)

/-- The error about a token that the language does not know. -/
def Diagnostic.ofUnrecognized (token : Token) : Diagnostic :=
  .atToken token (unrecognizedMessage token.text) .error

/-- The warning about an operator with an address as an operand. -/
def Diagnostic.ofOperator (operator : Token) : Diagnostic :=
  .atToken operator unsafePointerArithmetic .warning

/-- The diagnostic of a violation. -/
def TokenError.diagnostic (error : TokenError) : Diagnostic :=
  .atToken error.token error.message error.severity

/-- The tokens that the language does not know. -/
def Token.unrecognized (tokens : List Token) : List Token :=
  tokens.filter (·.kind = .unrecognized)

/-- The tokens that the language does not know are told by their kind. -/
theorem Token.mem_unrecognized {tokens : List Token} {token : Token} :
    token ∈ unrecognized tokens ↔ token ∈ tokens ∧ token.kind = .unrecognized := by
  simp [unrecognized]

variable {source : String} {tokens : List Token}

/-! ## Tokens that are told apart -/

/-- No two tokens of a source have the same number. -/
theorem nodup_index_tokenize (h : tokenize source = .ok tokens) :
    (tokens.map (·.index)).Nodup :=
  (List.pairwise_map.mpr (pairwise_index_tokenize h)).imp ne_of_lt

/-- The number of a token tells it from the others and from the end of the input. -/
theorem eq_of_index_eq (h : tokenize source = .ok tokens) {token other : Token}
    (htoken : token ∈ tokens) (hother : other ∈ tokens ∨ other = .endOf tokens)
    (heq : token.index = other.index) : token = other := by
  rcases hother with hother | rfl
  · exact List.inj_on_of_nodup_map (nodup_index_tokenize h) htoken hother heq
  · obtain ⟨i, hi⟩ := List.mem_iff_getElem?.mp htoken
    rw [(getElem?_tokenize h hi).1, Token.index_endOf, Int.ofNat_inj] at heq
    exact absurd heq (Nat.ne_of_lt (List.getElem?_eq_some_iff.mp hi).1)

/-- Tokens of different numbers start at different places. -/
theorem nodup_start (h : tokenize source = .ok tokens) {culprits : List Token}
    (hmem : ∀ token ∈ culprits, token ∈ tokens) (hnodup : (culprits.map (·.index)).Nodup) :
    (culprits.map Token.start).Nodup := by
  refine List.pairwise_map.mpr ((List.pairwise_map.mp hnodup).imp_of_mem ?_)
  intro token other htoken hother hne heq
  refine hne (congrArg Token.index (eq_of_spot_eq h (hmem _ htoken) (hmem _ hother) ?_))
  exact congrArg toLex heq

/-- One more token that is different from tokens other than newlines, be it the end of the input,
starts at another place. -/
theorem nodup_start_concat (h : tokenize source = .ok tokens) {culprits : List Token}
    (hmem : ∀ token ∈ culprits, token ∈ tokens ∧ token.kind ≠ .newline)
    (hnodup : (culprits.map (·.index)).Nodup) {last : Token}
    (hlast : last ∈ tokens ∨ last = .endOf tokens)
    (hindex : ∀ token ∈ culprits, token.index ≠ last.index) :
    ((culprits ++ [last]).map Token.start).Nodup := by
  rw [List.map_append, List.nodup_append]
  refine ⟨nodup_start h (fun token htoken => (hmem token htoken).1) hnodup,
    List.nodup_singleton _, ?_⟩
  intro start hstart start' hstart' heq
  obtain ⟨token, htoken, rfl⟩ := List.mem_map.mp hstart
  obtain rfl := List.mem_singleton.mp hstart'
  have hspot : token.spot = last.spot := congrArg toLex heq
  obtain ⟨htokens, hnewline⟩ := hmem token htoken
  rcases hlast with hlast | rfl
  · exact hindex token htoken (congrArg Token.index (eq_of_spot_eq h htokens hlast hspot))
  · exact ne_of_lt (spot_lt_endOf h htokens hnewline) hspot

/-! ## Reports of a check -/

namespace Reporter

/-- The reports about unrecognized tokens are all kept. -/
theorem diagnostics_reportUnrecognized (h : tokenize source = .ok tokens) :
    (empty.reportUnrecognized tokens).diagnostics =
      (Token.unrecognized tokens).map .ofUnrecognized :=
  diagnostics_reportAll_empty ((nodup_index_tokenize h).sublist (List.filter_sublist.map _))

/-- Once the tokens have been reported that the language does not know, there is a report on the
numbers of these and no others. -/
theorem has_reportUnrecognized {token : Token} :
    (empty.reportUnrecognized tokens).has token = true ↔
      ∃ other ∈ Token.unrecognized tokens, other.index = token.index := by
  refine has_reportAll.trans (or_iff_right ?_)
  rw [has_empty]
  exact Bool.false_ne_true

/-- After the errors about tokens a reporter holds the warnings about operators, each about a token
that nothing else is about. -/
theorem exists_diagnostics_warnAll (h : tokenize source = .ok tokens) (operators : List Token) :
    ∃ kept : List Token, kept.Sublist operators ∧
      ((Token.unrecognized tokens ++ kept).map (·.index)).Nodup ∧
        ((empty.reportUnrecognized tokens).warnAll operators).diagnostics =
          (Token.unrecognized tokens).map .ofUnrecognized ++ kept.map .ofOperator := by
  obtain ⟨kept, hsublist, hnew, hnodup, hdiagnostics⟩ := exists_diagnostics_reportAll
    (empty.reportUnrecognized tokens) (fun _ => unsafePointerArithmetic) .warning operators
  rw [diagnostics_reportUnrecognized h] at hdiagnostics
  refine ⟨kept, hsublist, ?_, hdiagnostics⟩
  rw [List.map_append, List.nodup_append]
  refine ⟨(nodup_index_tokenize h).sublist (List.filter_sublist.map _), hnodup, ?_⟩
  intro index hindex index' hindex' heq
  obtain ⟨token, htoken, rfl⟩ := List.mem_map.mp hindex
  obtain ⟨operator, hoperator, rfl⟩ := List.mem_map.mp hindex'
  have hhas := has_reportUnrecognized.mpr ⟨token, htoken, heq⟩
  rw [hnew operator hoperator] at hhas
  cases hhas

/-- Warnings add reports on the numbers of their operators, and keep those that there were. -/
theorem has_warnAll {reporter : Reporter} {operators : List Token} {token : Token} :
    (reporter.warnAll operators).has token = true ↔
      reporter.has token = true ∨ ∃ operator ∈ operators, operator.index = token.index :=
  has_reportAll

end Reporter

/-! ## The shape of an analysis -/

/-- The parse of a check, which starts with the errors about tokens reported. -/
def Grammar.parse (tokens : List Token) : EStateM.Result Error State Program :=
  Grammar.program.run (.ofTokens tokens (Reporter.empty.reportUnrecognized tokens))

namespace Grammar

variable {reporter : Reporter} {error : TokenError} {s' : State}

/-- A violation at a token that the language does not know is at one that has its error. -/
theorem Failure.mem_unrecognized (h : Failure tokens reporter error s')
    (hkind : error.token.kind = .unrecognized) : error.token ∈ Token.unrecognized tokens := by
  refine Token.mem_unrecognized.mpr ⟨h.token_mem.resolve_right fun hend => ?_, hkind⟩
  rw [hend, Token.kind_endOf] at hkind
  cases hkind

/-- A violation at another token is not at one that has an error. -/
theorem Failure.index_ne (h : tokenize source = .ok tokens)
    (hfailure : Failure tokens reporter error s') (hkind : error.token.kind ≠ .unrecognized) :
    ∀ token ∈ Token.unrecognized tokens, token.index ≠ error.token.index := by
  intro token htoken hindex
  obtain ⟨hmem, hunrecognized⟩ := Token.mem_unrecognized.mp htoken
  obtain rfl := eq_of_index_eq h hmem hfailure.token_mem hindex
  exact hkind hunrecognized

end Grammar

namespace Analysis

/-- What a parse adds to the diagnostics in the end: the violation, unless it is at a token that has
its error already. -/
def fatal : EStateM.Result Error State Program → List Diagnostic
  | .error (.violation error) _ =>
    if error.token.kind = .unrecognized then [] else [error.diagnostic]
  | _ => []

/-- The shape of an analysis of some tokens: errors about tokens, warnings about operators, and what
the parse adds to them. -/
structure Shape (analysis : Analysis) (tokens operators : List Token) : Prop where
  diagnostics_eq : analysis.diagnostics = (Token.unrecognized tokens).map .ofUnrecognized ++
    operators.map .ofOperator ++ fatal (parse tokens)
  operators : ∀ operator ∈ operators, operator ∈ tokens ∧ Level.ofKind? operator.kind ≠ none
  /-- The program is there if the parse has ended in one, and otherwise there is a violation, which
  is an error at a token of the source or at its end. -/
  ends : (∃ program s', parse tokens = .ok program s' ∧ analysis.program = some program) ∨
    ∃ error s', parse tokens = .error (.violation error) s' ∧ analysis.program = none ∧
      error.severity = .error ∧ (error.token ∈ tokens ∨ error.token = .endOf tokens)
  /-- The violation is left out exactly if its token has an error already. -/
  fatal_eq_nil_iff : ∀ error s', parse tokens = .error (.violation error) s' →
    (fatal (parse tokens) = [] ↔ error.token ∈ Token.unrecognized tokens)
  /-- There is a program exactly if there are errors neither about tokens nor from the parse. -/
  program_iff : analysis.program.isSome = true ↔
    Token.unrecognized tokens = [] ∧ fatal (parse tokens) = []
  errors_iff : analysis.errors = [] ↔ analysis.program.isSome = true
  ok_iff : analysis.ok = true ↔ analysis.errors = []
  /-- With a token that the language does not know the parse comes no further than that. -/
  index_le : ∀ token ∈ Token.unrecognized tokens, ∃ error s',
    parse tokens = .error (.violation error) s' ∧ error.token.index ≤ token.index
  starts_nodup : (analysis.diagnostics.map (·.start)).Nodup

variable {operators : List Token} {analysis : Analysis}

/-- Warnings are not among the errors. -/
theorem errors_of_diagnostics_eq {last : List Diagnostic} (h : analysis.diagnostics =
      (Token.unrecognized tokens).map .ofUnrecognized ++ operators.map .ofOperator ++ last)
    (hlast : ∀ diagnostic ∈ last, diagnostic.isError = true) :
    analysis.errors = (Token.unrecognized tokens).map .ofUnrecognized ++ last := by
  have hunrecognized : ((Token.unrecognized tokens).map Diagnostic.ofUnrecognized).filter
      (·.isError) = (Token.unrecognized tokens).map .ofUnrecognized := by
    refine List.filter_eq_self.mpr fun diagnostic hmem => ?_
    obtain ⟨token, _, rfl⟩ := List.mem_map.mp hmem
    rfl
  have hwarnings : (operators.map Diagnostic.ofOperator).filter (·.isError) = [] := by
    refine List.filter_eq_nil_iff.mpr fun diagnostic hmem => ?_
    obtain ⟨operator, _, rfl⟩ := List.mem_map.mp hmem
    exact Bool.false_ne_true
  rw [errors, h, List.filter_append, List.filter_append, hunrecognized, hwarnings,
    List.filter_eq_self.mpr hlast, List.append_nil]

/-- Whether a source is in order can be told by its errors. -/
theorem errors_iff_of_diagnostics_eq (analysis : Analysis) {last : List Diagnostic}
    (h : analysis.diagnostics =
      (Token.unrecognized tokens).map .ofUnrecognized ++ operators.map .ofOperator ++ last)
    (hlast : ∀ diagnostic ∈ last, diagnostic.isError = true)
    (hprogram : analysis.program.isSome = true ↔ Token.unrecognized tokens = [] ∧ last = []) :
    (analysis.errors = [] ↔ analysis.program.isSome = true) ∧
      (analysis.ok = true ↔ analysis.errors = []) := by
  have herrors : analysis.errors = [] ↔ analysis.program.isSome = true := by
    rw [errors_of_diagnostics_eq h hlast, List.append_eq_nil_iff, List.map_eq_nil_iff, hprogram]
  refine ⟨herrors, ?_⟩
  rw [ok, Bool.and_eq_true, List.isEmpty_iff, herrors, and_self]

/-- The diagnostics start where the tokens that they are about start. -/
theorem map_start_of_diagnostics_eq {last : List Diagnostic} (h : analysis.diagnostics =
      (Token.unrecognized tokens).map .ofUnrecognized ++ operators.map .ofOperator ++ last) :
    analysis.diagnostics.map (·.start) =
      (Token.unrecognized tokens ++ operators).map Token.start ++ last.map (·.start) := by
  rw [h, List.map_append, List.map_append, List.map_append, List.map_map, List.map_map]
  rfl

/-- Tokens that the language does not know and operators are no newlines. -/
theorem kind_ne_newline {kept : List Token}
    (hkept : ∀ operator ∈ kept, operator ∈ tokens ∧ Level.ofKind? operator.kind ≠ none) :
    ∀ token ∈ Token.unrecognized tokens ++ kept, token ∈ tokens ∧ token.kind ≠ .newline := by
  intro token htoken
  rcases List.mem_append.mp htoken with htoken | htoken
  · obtain ⟨hmem, hkind⟩ := Token.mem_unrecognized.mp htoken
    exact ⟨hmem, by simp [hkind]⟩
  · obtain ⟨hmem, hlevel⟩ := hkept token htoken
    refine ⟨hmem, fun hkind => ?_⟩
    rw [hkind] at hlevel
    exact hlevel rfl

/-- A check that ends in a program has reported warnings alone. -/
theorem shape_of_ok (h : tokenize source = .ok tokens) {program : Program} {s' : State}
    (hparse : parse tokens = .ok program s')
    (hsuccess : Success tokens (Reporter.empty.reportUnrecognized tokens) s') :
    ∃ operators, Shape ⟨tokens, some program, s'.reporter.diagnostics⟩ tokens operators := by
  obtain ⟨hknown, operators, hreporter, hoperators⟩ := hsuccess
  obtain ⟨kept, hsublist, hnodup, hdiagnostics⟩ := Reporter.exists_diagnostics_warnAll h operators
  have hkept : ∀ operator ∈ kept, operator ∈ tokens ∧ Level.ofKind? operator.kind ≠ none :=
    fun operator hmem => hoperators operator (hsublist.mem hmem)
  have hnone : Token.unrecognized tokens = [] :=
    List.eq_nil_iff_forall_not_mem.mpr fun token hmem =>
      have ⟨htoken, hkind⟩ := Token.mem_unrecognized.mp hmem
      hknown token htoken hkind
  have hfatal : fatal (parse tokens) = [] := by
    rw [hparse]
    rfl
  have heq : s'.reporter.diagnostics = (Token.unrecognized tokens).map .ofUnrecognized ++
      kept.map .ofOperator ++ fatal (parse tokens) := by
    rw [hreporter, hdiagnostics, hfatal, List.append_nil]
  obtain ⟨herrors, hok⟩ := errors_iff_of_diagnostics_eq ⟨tokens, some program, _⟩ heq
    (by simp [hfatal]) ⟨fun _ => ⟨hnone, hfatal⟩, fun _ => rfl⟩
  refine ⟨kept, heq, hkept, .inl ⟨program, s', hparse, rfl⟩, fun error s'' herror => ?_,
    ⟨fun _ => ⟨hnone, hfatal⟩, fun _ => rfl⟩, herrors, hok, by simp [hnone], ?_⟩
  · rw [hparse] at herror
    cases herror
  · rw [map_start_of_diagnostics_eq heq, hfatal, List.map_nil, List.append_nil]
    exact nodup_start h (fun token hmem => (kind_ne_newline hkept token hmem).1) hnodup

section

variable {reporter : Reporter} {error : TokenError} {s' : State}

/-- A violation is reported unless it is at a token that the language does not know. -/
theorem diagnostics_report_violation (h : tokenize source = .ok tokens)
    (hparse : parse tokens = .error (.violation error) s')
    (hfailure : Failure tokens (Reporter.empty.reportUnrecognized tokens) error s') :
    (s'.reporter.report error.token error.message error.severity).diagnostics =
      s'.reporter.diagnostics ++ fatal (parse tokens) := by
  obtain ⟨operators, hreporter, hoperators⟩ := hfailure.warnings
  rw [hparse, fatal, hreporter]
  split
  case isTrue hkind =>
    have hhas := Reporter.has_reportUnrecognized.mpr ⟨_, hfailure.mem_unrecognized hkind, rfl⟩
    rw [Reporter.report_of_has (Reporter.has_warnAll.mpr (.inl hhas)), List.append_nil]
  case isFalse hkind =>
    refine Reporter.diagnostics_report_of_not_has ?_ _ _
    rw [← Bool.not_eq_true, Reporter.has_warnAll, Reporter.has_reportUnrecognized]
    rintro (⟨token, htoken, hindex⟩ | ⟨operator, hoperator, hindex⟩)
    · exact hfailure.index_ne h hkind token htoken hindex
    · exact (hoperators operator hoperator).2.2 hindex

/-- A parse adds nothing but errors. -/
theorem isError_of_mem_fatal (hparse : parse tokens = .error (.violation error) s')
    (hseverity : error.severity = .error) {diagnostic : Diagnostic}
    (hmem : diagnostic ∈ fatal (parse tokens)) : diagnostic.isError = true := by
  rw [hparse, fatal] at hmem
  split at hmem
  case isTrue => exact absurd hmem List.not_mem_nil
  case isFalse =>
    rw [List.mem_singleton.mp hmem]
    exact decide_eq_true hseverity

/-- A violation is left out exactly if its token has an error already. -/
theorem fatal_eq_nil (hparse : parse tokens = .error (.violation error) s')
    (hfailure : Failure tokens reporter error s') :
    fatal (parse tokens) = [] ↔ error.token ∈ Token.unrecognized tokens := by
  rw [hparse, fatal]
  split
  case isTrue hkind => exact ⟨fun _ => hfailure.mem_unrecognized hkind, fun _ => rfl⟩
  case isFalse hkind =>
    constructor
    · intro hnil
      cases hnil
    · intro hmem
      exact absurd (Token.mem_unrecognized.mp hmem).2 hkind

/-- A violation starts where neither an error about a token nor a warning does. -/
theorem nodup_start_fatal (h : tokenize source = .ok tokens)
    (hparse : parse tokens = .error (.violation error) s')
    (hfailure : Failure tokens reporter error s') {kept : List Token}
    (hmem : ∀ token ∈ Token.unrecognized tokens ++ kept, token ∈ tokens ∧ token.kind ≠ .newline)
    (hnodup : ((Token.unrecognized tokens ++ kept).map (·.index)).Nodup)
    (hindex : ∀ operator ∈ kept, operator.index ≠ error.token.index) :
    ((Token.unrecognized tokens ++ kept).map Token.start ++
      (fatal (parse tokens)).map (·.start)).Nodup := by
  rw [hparse, fatal]
  split
  case isTrue =>
    rw [List.map_nil, List.append_nil]
    exact nodup_start h (fun token htoken => (hmem token htoken).1) hnodup
  case isFalse hkind =>
    have hstarts := nodup_start_concat h hmem hnodup hfailure.token_mem
      (List.forall_mem_append.mpr ⟨hfailure.index_ne h hkind, hindex⟩)
    rw [List.map_append] at hstarts
    exact hstarts

/-- A check that ends in a violation has reported it, if not with the violation itself then with the
error about its token. -/
theorem shape_of_error (h : tokenize source = .ok tokens)
    (hparse : parse tokens = .error (.violation error) s')
    (hfailure : Failure tokens (Reporter.empty.reportUnrecognized tokens) error s') :
    ∃ operators, Shape ⟨tokens, none,
      (s'.reporter.report error.token error.message error.severity).diagnostics⟩
        tokens operators := by
  obtain ⟨operators, hreporter, hoperators⟩ := hfailure.warnings
  obtain ⟨kept, hsublist, hnodup, hdiagnostics⟩ := Reporter.exists_diagnostics_warnAll h operators
  have hkept : ∀ operator ∈ kept, operator ∈ tokens ∧ Level.ofKind? operator.kind ≠ none := by
    intro operator hmem
    obtain ⟨htoken, hlevel, _⟩ := hoperators operator (hsublist.mem hmem)
    exact ⟨htoken, hlevel⟩
  have heq : (s'.reporter.report error.token error.message error.severity).diagnostics =
      (Token.unrecognized tokens).map .ofUnrecognized ++ kept.map .ofOperator ++
        fatal (parse tokens) := by
    rw [diagnostics_report_violation h hparse hfailure, hreporter, hdiagnostics]
  have hempty := fatal_eq_nil hparse hfailure
  have hprogram : (none : Option Program).isSome = true ↔
      Token.unrecognized tokens = [] ∧ fatal (parse tokens) = [] := by
    constructor
    · intro hsome
      cases hsome
    · rintro ⟨hnone, hnil⟩
      exact absurd hnone (List.ne_nil_of_mem (hempty.mp hnil))
  obtain ⟨herrors, hok⟩ := errors_iff_of_diagnostics_eq ⟨tokens, none, _⟩ heq
    (fun _ hmem => isError_of_mem_fatal hparse hfailure.severity_eq hmem) hprogram
  refine ⟨kept, heq, hkept, .inr ⟨error, s', hparse, rfl, hfailure.severity_eq, hfailure.token_mem⟩,
    fun error' s'' herror => ?_, hprogram, herrors, hok, fun token hmem => ?_, ?_⟩
  · rw [hparse] at herror
    cases herror
    exact hempty
  · obtain ⟨htoken, hkind⟩ := Token.mem_unrecognized.mp hmem
    exact ⟨error, s', hparse, hfailure.index_le token htoken hkind⟩
  · rw [map_start_of_diagnostics_eq heq]
    exact nodup_start_fatal h hparse hfailure (kind_ne_newline hkept) hnodup
      fun operator hmem => (hoperators operator (hsublist.mem hmem)).2.2

end

/-- The tokens of a source can be analysed, and the analysis has its shape. -/
theorem ofTokens_shape (h : tokenize source = .ok tokens) : ∃ operators analysis,
    ofTokens tokens = .ok analysis ∧ Shape analysis tokens operators := by
  rw [ofTokens]
  rcases parse_outcome h (Reporter.empty.reportUnrecognized tokens) with
    ⟨program, s', hparse, hsuccess⟩ | ⟨error, s', hparse, hfailure⟩
  · obtain ⟨operators, hshape⟩ := shape_of_ok h hparse hsuccess
    exact ⟨operators, _, by rw [hparse], hshape⟩
  · obtain ⟨operators, hshape⟩ := shape_of_error h hparse hfailure
    exact ⟨operators, _, by rw [hparse], hshape⟩

/-- Every diagnostic is about a token of the source or about its end. -/
theorem Shape.exists_atToken (h : Shape analysis tokens operators) {diagnostic : Diagnostic}
    (hmem : diagnostic ∈ analysis.diagnostics) : ∃ token message severity,
      (token ∈ tokens ∨ token = .endOf tokens) ∧ diagnostic = .atToken token message severity := by
  rw [h.diagnostics_eq, List.mem_append, List.mem_append] at hmem
  rcases hmem with (hmem | hmem) | hmem
  · obtain ⟨token, htoken, rfl⟩ := List.mem_map.mp hmem
    exact ⟨token, _, _, .inl (Token.mem_unrecognized.mp htoken).1, rfl⟩
  · obtain ⟨operator, hoperator, rfl⟩ := List.mem_map.mp hmem
    exact ⟨operator, _, _, .inl (h.operators operator hoperator).1, rfl⟩
  · rcases h.ends with ⟨program, s', hparse, _⟩ | ⟨error, s', hparse, _, _, htoken⟩
    · rw [hparse] at hmem
      exact absurd hmem List.not_mem_nil
    · rw [hparse, fatal] at hmem
      split at hmem
      case isTrue => exact absurd hmem List.not_mem_nil
      case isFalse =>
        rw [List.mem_singleton.mp hmem]
        exact ⟨error.token, _, _, htoken, rfl⟩

end Analysis

/-- A check finds something in every source, and what it reports is about tokens of the source or
about its end. -/
theorem exists_check (source : String) : ∃ tokens analysis, tokenize source = .ok tokens ∧
    check source = .ok analysis ∧ ∀ diagnostic ∈ analysis.diagnostics, ∃ token message severity,
      (token ∈ tokens ∨ token = .endOf tokens) ∧ diagnostic = .atToken token message severity := by
  have htokens := tokenize_eq source
  obtain ⟨operators, analysis, hanalysis, hshape⟩ := Analysis.ofTokens_shape htokens
  refine ⟨_, analysis, htokens, ?_, fun _ => hshape.exists_atToken⟩
  rw [check, htokens]
  exact hanalysis

/-- A check that finds a program has parsed the tokens of the source as that program. -/
theorem exists_parse {analysis : Analysis} {program : Program} (h : check source = .ok analysis)
    (hprogram : analysis.program = some program) :
    ∃ tokens s', tokenize source = .ok tokens ∧ Grammar.parse tokens = .ok program s' := by
  have htokens := tokenize_eq source
  obtain ⟨operators, found, hfound, hshape⟩ := Analysis.ofTokens_shape htokens
  rw [check, htokens] at h
  obtain rfl : found = analysis := Except.ok.inj (hfound.symm.trans h)
  rcases hshape.ends with ⟨_, s', hparse, hsome⟩ | ⟨_, _, _, hnone, _⟩
  · obtain rfl := Option.some.inj (hsome.symm.trans hprogram)
    exact ⟨_, s', htokens, hparse⟩
  · rw [hnone] at hprogram
    cases hprogram

/-- What a check reports is the errors about tokens that the language does not know, then warnings,
then the violation that the parse has ended in, if it is at another token. There is a program
exactly if there is no error, and no two diagnostics start at one place. -/
theorem check_shape (source : String) : ∃ tokens operators analysis,
    tokenize source = .ok tokens ∧ check source = .ok analysis ∧
      analysis.Shape tokens operators := by
  have htokens := tokenize_eq source
  obtain ⟨operators, analysis, hanalysis, hshape⟩ := Analysis.ofTokens_shape htokens
  refine ⟨_, operators, analysis, htokens, ?_, hshape⟩
  rw [check, htokens]
  exact hanalysis

end Tranquility
