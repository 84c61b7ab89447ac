import Tranquility.Proofs.Checking.Core
import Tranquility.Proofs.Checking.Diagnostics
import Tranquility.Proofs.Parallel.Program

/-!
# Layout

Two sources whose tokens differ in their places, in the newlines at either end and in the texts of
the other newlines mean the same. A check finds a program in both or in neither, the programs differ
in the places of their tokens alone, and what is reported about the one is reported about the other
at the tokens that go together. If the tokens are the same but for their places, the parses also
fail in the same way.

From one source to the other it takes two steps. What the parse reads between the newlines is a
written form of its program, and so it reads it as well between the newlines of the other source.
That parse and the one of the other source then run side by side.
-/

namespace Tranquility

/-! ## Two sources side by side -/

/-- Tokens of two sources stand at one place of their cores, or both are newlines or end the
input. -/
inductive Token.Aligned (core core' : List Token) : Token → Token → Prop where
  | place {token token' : Token} (place : Nat) (left : core[place]? = some token)
    (right : core'[place]? = some token') : Aligned core core' token token'
  | newline {token token' : Token} (left : token.kind = .newline) (right : token'.kind = .newline) :
    Aligned core core' token token'
  | ending {token token' : Token} (left : token.kind = .endOfInput)
    (right : token'.kind = .endOfInput) (text_eq : token.text = token'.text) :
    Aligned core core' token token'

namespace Token.Aligned

variable {core core' : List Token} {token token' : Token}

/-- Aligned tokens have one kind and, newlines apart, one text, if the cores have. -/
theorem agrees (h : Aligned core core' token token') (hcore : List.Forall₂ Agrees core core') :
    token.Agrees token' := by
  cases h with
  | place place left right =>
    obtain ⟨hlt, rfl⟩ := List.getElem?_eq_some_iff.mp left
    obtain ⟨hlt', rfl⟩ := List.getElem?_eq_some_iff.mp right
    exact (List.forall₂_iff_get.mp hcore).2 place hlt hlt'
  | newline left right => exact ⟨left.trans right.symm, fun h => absurd left h⟩
  | ending left right text_eq => exact ⟨left.trans right.symm, fun _ => text_eq⟩

/-- Aligned tokens that neither are newlines nor end the input stand at one place of the cores. -/
theorem exists_place (h : Aligned core core' token token') (hnewline : token.kind ≠ .newline)
    (hend : token.kind ≠ .endOfInput) :
    ∃ place : Nat, core[place]? = some token ∧ core'[place]? = some token' := by
  cases h with
  | place place left right => exact ⟨place, left, right⟩
  | newline left => exact absurd left hnewline
  | ending left => exact absurd left hend

/-- Tokens of two cores between the same newlines stand side by side. -/
theorem forall₂ (hcore : List.Forall₂ Agrees core core') {front back : List Token}
    (hfront : ∀ token ∈ front, token.kind = .newline) (hback : IsEnding back) :
    List.Forall₂ (Aligned core core') (front ++ (core ++ back)) (front ++ (core' ++ back)) := by
  refine List.rel_append (List.forall₂_same.mpr ?_)
    (List.rel_append ?_ (List.forall₂_same.mpr ?_))
  · exact fun token htoken => .newline (hfront token htoken) (hfront token htoken)
  · refine List.forall₂_iff_get.mpr ⟨hcore.length_eq, fun place hlt hlt' => ?_⟩
    exact .place place (List.getElem?_eq_getElem hlt) (List.getElem?_eq_getElem hlt')
  · intro token htoken
    rcases hback with rfl | ⟨newline, hnewline, rfl⟩
    · exact absurd htoken List.not_mem_nil
    · rw [List.mem_singleton.mp htoken]
      exact .newline hnewline hnewline

end Token.Aligned

/-- The number of a token tells its place in a list where no number comes twice. -/
theorem Token.index_eq_iff {tokens : List Token} (hnodup : (tokens.map (·.index)).Nodup)
    {place place' : Nat} {token token' : Token} (h : tokens[place]? = some token)
    (h' : tokens[place']? = some token') : token.index = token'.index ↔ place = place' := by
  constructor
  · intro hindex
    have hlt : place < (tokens.map (·.index)).length := by
      rw [List.length_map]
      exact (List.getElem?_eq_some_iff.mp h).1
    refine (List.getElem?_inj hlt hnodup).mp ?_
    rw [List.getElem?_map, List.getElem?_map, h, h', Option.map_some, Option.map_some, hindex]
  · rintro rfl
    rw [h, Option.some.injEq] at h'
    rw [h']

/-- The diagnostics say the same about the tokens at one place of two lists. -/
def Diagnostic.Correspond (tokens tokens' : List Token) (diagnostic diagnostic' : Diagnostic) :
    Prop :=
  ∃ (place : Nat) (token token' : Token) (message : String) (severity : Severity),
    tokens[place]? = some token ∧ tokens'[place]? = some token' ∧
      diagnostic = .atToken token message severity ∧
        diagnostic' = .atToken token' message severity

namespace Pairing

/-- The tokens of two sources with the same core go together as they stand there. -/
def aligned {core core' : List Token} (hcore : List.Forall₂ Token.Agrees core core')
    (hnodup : (core.map (·.index)).Nodup) (hnodup' : (core'.map (·.index)).Nodup) : Pairing where
  token := Token.Aligned core core'
  entry x y := ∃ (place : Nat) (token token' : Token) (message : String) (severity : Severity),
    core[place]? = some token ∧ core'[place]? = some token' ∧
      x = (token.index, .atToken token message severity) ∧
        y = (token'.index, .atToken token' message severity)
  kind_eq h := (h.agrees hcore).kind_eq
  text_eq h := (h.agrees hcore).text_eq
  entry_atToken h hnewline hend message severity := by
    obtain ⟨place, left, right⟩ := h.exists_place hnewline hend
    exact ⟨place, _, _, message, severity, left, right, rfl, rfl⟩
  index_eq_iff h hnewline hend hentry := by
    obtain ⟨place, left, right⟩ := h.exists_place hnewline hend
    obtain ⟨place', token, token', _, _, left', right', rfl, rfl⟩ := hentry
    rw [Token.index_eq_iff hnodup left' left, Token.index_eq_iff hnodup' right' right]

/-- The tokens of two sources go together if only their places are different. -/
def identical : Pairing where
  token a b := a.spelled = b.spelled ∧ a.index = b.index
  entry x y := x.1 = y.1 ∧ x.2.message = y.2.message ∧ x.2.severity = y.2.severity
  kind_eq h := congrArg Prod.fst h.1
  text_eq h _ := congrArg Prod.snd h.1
  entry_atToken h _ _ _ _ := ⟨h.2, rfl, rfl⟩
  index_eq_iff h _ _ hentry := by rw [h.2, hentry.1]

/-- Reporters without reports go together. -/
theorem reporters_empty (pairing : Pairing) : pairing.Reporters .empty .empty :=
  .nil

/-- Errors about tokens that the language does not know are reported side by side. -/
theorem Reporters.reportUnrecognized {pairing : Pairing} {reporter reporter' : Reporter}
    {tokens tokens' : List Token} (hreporter : pairing.Reporters reporter reporter')
    (h : List.Forall₂ pairing.token tokens tokens') :
    pairing.Reporters (reporter.reportUnrecognized tokens)
      (reporter'.reportUnrecognized tokens') := by
  induction h generalizing reporter reporter' with
  | nil => exact hreporter
  | @cons token token' tokens tokens' hfirst _ ih =>
    rw [Reporter.reportUnrecognized, Reporter.reportUnrecognized, List.filter_cons,
      List.filter_cons, ← pairing.kind_eq hfirst]
    by_cases hkind : token.kind = .unrecognized
    · have hnewline : token.kind ≠ .newline := by simp [hkind]
      have hend : token.kind ≠ .endOfInput := by simp [hkind]
      rw [if_pos (by simpa using hkind), if_pos (by simpa using hkind), List.foldl_cons,
        List.foldl_cons, pairing.text_eq hfirst hnewline]
      exact ih (hreporter.report hfirst hnewline hend _ .error)
    · rw [if_neg (by simpa using hkind), if_neg (by simpa using hkind)]
      exact ih hreporter

end Pairing

namespace Grammar

variable {source source' : String} {tokens tokens' : List Token}

/-- Two parses of tokens that go together start in states that go together. -/
theorem Alike.ofTokens (pairing : Pairing) {reporter reporter' : Reporter}
    (hrest : List.Forall₂ pairing.token tokens tokens')
    (hend : pairing.token (Token.endOf tokens) (Token.endOf tokens'))
    (hreporter : pairing.Reporters reporter reporter') : Alike pairing Scopes.Unconstrained
      (.ofTokens tokens reporter) (.ofTokens tokens' reporter') where
  rest := hrest
  position := rfl
  endToken := hend
  scopes := rfl
  reporter := hreporter
  kept := trivial

/-- No two tokens of a core have the same number. -/
theorem nodup_index_core (h : tokenize source = .ok tokens) :
    ((Token.core tokens).map (·.index)).Nodup :=
  (nodup_index_tokenize h).sublist ((Token.core_sublist tokens).map _)

/-- A source with the core of a program has the same program but for places, and is warned about at
the same places of its core. -/
theorem parse_alike (htokens : tokenize source = .ok tokens)
    (htokens' : tokenize source' = .ok tokens')
    (hcore : List.Forall₂ Token.Agrees (Token.core tokens) (Token.core tokens'))
    {program : Program} {s' : State}
    (h : Grammar.program.run (.ofTokens tokens .empty) = .ok program s') :
    ∃ program' t', Grammar.program.run (.ofTokens tokens' .empty) = .ok program' t' ∧
      program.bare = program'.bare ∧
        List.Forall₂ (Diagnostic.Correspond (Token.core tokens) (Token.core tokens'))
          s'.reporter.diagnostics t'.reporter.diagnostics := by
  obtain ⟨front, back, hsplit, hfront, hback⟩ := Token.exists_core tokens'
  obtain ⟨r', hrelaid, hreporter⟩ := program_relaid htokens h hfront hback
  -- The tokens read on the left are the words of the first source in the layout of the second.
  have hrest := Token.Aligned.forall₂ hcore hfront hback
  rw [← hsplit] at hrest
  have halike := Alike.ofTokens
    (.aligned hcore (nodup_index_core htokens) (nodup_index_core htokens')) hrest
    (.ending (Token.kind_endOf _) (Token.kind_endOf _)
      ((Token.text_endOf _).trans (Token.text_endOf _).symm))
    (Pairing.reporters_empty _)
  have hends := program_parallel Scopes.enduring_unconstrained _ _ halike
  rw [hrelaid] at hends
  generalize hrun : Grammar.program.run (.ofTokens tokens' .empty) = result at hends ⊢
  cases hends with
  | ok hprogram hstate =>
    refine ⟨_, _, rfl, hprogram, ?_⟩
    rw [← hreporter]
    refine List.forall₂_map_left_iff.mpr (List.forall₂_map_right_iff.mpr (hstate.reporter.imp ?_))
    rintro _ _ ⟨place, token, token', message, severity, left, right, rfl, rfl⟩
    exact ⟨place, token, token', message, severity, left, right, rfl, rfl⟩

/-- Without a token that the language does not know a parse starts with nothing reported. -/
theorem parse_eq (h : ∀ token ∈ tokens, token.kind ≠ .unrecognized) :
    parse tokens = Grammar.program.run (.ofTokens tokens .empty) := by
  have hnone : tokens.filter (·.kind = .unrecognized) = [] := by
    simpa using h
  rw [parse, Reporter.reportUnrecognized, hnone]
  rfl

end Grammar

/-! ## Failing side by side -/

/-- What a reporter has kept, with the numbers of tokens in the place of ranges. -/
def Reporter.remarks (reporter : Reporter) : List (Int × String × Severity) :=
  reporter.entries.toList.map fun (index, diagnostic) =>
    (index, diagnostic.message, diagnostic.severity)

/-- Reports that are the same but for places. -/
theorem Pairing.Reporters.remarks_eq {reporter reporter' : Reporter}
    (h : Pairing.identical.Reporters reporter reporter') :
    reporter.remarks = reporter'.remarks := by
  have hremarks : List.Forall₂ Eq reporter.remarks reporter'.remarks := by
    refine List.forall₂_map_left_iff.mpr (List.forall₂_map_right_iff.mpr (h.imp ?_))
    rintro ⟨index, diagnostic⟩ ⟨index', diagnostic'⟩ ⟨hindex, hmessage, hseverity⟩
    exact Prod.ext hindex (Prod.ext hmessage hseverity)
  rwa [List.forall₂_eq_eq_eq] at hremarks

/-- Two parses have failed in the same way: with the same message at the token of the same number,
after as many tokens, in the same scopes and with the same reports so far. -/
structure Grammar.SameFailure (error error' : TokenError) (s s' : State) : Prop where
  message : error.message = error'.message
  severity : error.severity = error'.severity
  index : error.token.index = error'.token.index
  position : s.position = s'.position
  scopes : s.scopes.bare = s'.scopes.bare
  remarks : s.reporter.remarks = s'.reporter.remarks

/-- The message for a violation has nothing to do with the place of its token. -/
theorem Violation.message_bare (violation : Violation) (token : Token) :
    violation.message token.bare = violation.message token := by
  cases violation <;> rfl

namespace Grammar

variable {source source' : String} {tokens tokens' : List Token}

/-- Errors and states that are the same but for places. -/
theorem Alike.sameFailure {keeps : Scopes → Prop} {error error' : TokenError} {s t : State}
    (h : Alike .identical keeps s t)
    (hfailure : Pairing.identical.Failure (.violation error) (.violation error')) :
    SameFailure error error' s t := by
  cases hfailure with
  | violation htoken violation severity =>
    have hbare := Token.bare_eq_bare_iff.mpr (Prod.mk.inj htoken.1)
    refine ⟨?_, rfl, htoken.2, h.position, h.scopes, h.reporter.remarks_eq⟩
    rw [TokenError.message, TokenError.message, ← violation.message_bare, hbare,
      violation.message_bare]

/-- Tokens that are the same but for their places have the same numbers too. -/
theorem forall₂_identical (htokens : tokenize source = .ok tokens)
    (htokens' : tokenize source' = .ok tokens')
    (hspelled : tokens.map Token.spelled = tokens'.map Token.spelled) :
    List.Forall₂ Pairing.identical.token tokens tokens' := by
  have hlength : tokens.length = tokens'.length := by
    simpa using congrArg List.length hspelled
  refine List.forall₂_iff_get.mpr ⟨hlength, fun place hlt hlt' => ⟨?_, ?_⟩⟩
  · have hplace := congrArg (·[place]?) hspelled
    simpa [hlt, hlt'] using hplace
  · rw [List.get_eq_getElem, List.get_eq_getElem,
      (getElem?_tokenize htokens (List.getElem?_eq_getElem hlt)).1,
      (getElem?_tokenize htokens' (List.getElem?_eq_getElem hlt')).1]

/-- Sources whose tokens differ in their places alone are refused in the same way. -/
theorem parse_sameFailure (htokens : tokenize source = .ok tokens)
    (htokens' : tokenize source' = .ok tokens')
    (hspelled : tokens.map Token.spelled = tokens'.map Token.spelled) {error error' : TokenError}
    {s t : State} (h : parse tokens = .error (.violation error) s)
    (h' : parse tokens' = .error (.violation error') t) : SameFailure error error' s t := by
  have hrest := forall₂_identical htokens htokens' hspelled
  have hend : Pairing.identical.token (Token.endOf tokens) (Token.endOf tokens') := by
    refine ⟨?_, ?_⟩
    · rw [Token.spelled, Token.spelled, Token.kind_endOf, Token.kind_endOf, Token.text_endOf,
        Token.text_endOf]
    · rw [Token.index_endOf, Token.index_endOf, hrest.length_eq]
  have hreporter := Pairing.identical.reporters_empty.reportUnrecognized hrest
  have hends := program_parallel Scopes.enduring_unconstrained _ _
    (Alike.ofTokens .identical hrest hend hreporter)
  rw [show Grammar.program.run (.ofTokens tokens _) = _ from h,
    show Grammar.program.run (.ofTokens tokens' _) = _ from h'] at hends
  cases hends with
  | error hfailure hstate => exact hstate.sameFailure hfailure

end Grammar

/-! ## Checks -/

open Grammar

variable {source source' : String} {tokens tokens' : List Token}

/-- A check with a parse that comes to a program has the diagnostics of the parse. -/
theorem check_of_parse_ok (htokens : tokenize source = .ok tokens) {program : Program} {s : State}
    (h : parse tokens = .ok program s) :
    check source = .ok ⟨tokens, some program, s.reporter.diagnostics⟩ := by
  rw [parse] at h
  rw [check, htokens]
  simp only [Analysis.ofTokens, h]

/-- A check with a parse that fails reports the error, after what the parse has reported. -/
theorem check_of_parse_error (htokens : tokenize source = .ok tokens) {error : TokenError}
    {s : State} (h : parse tokens = .error (.violation error) s) : check source = .ok ⟨tokens, none,
      (s.reporter.report error.token error.message error.severity).diagnostics⟩ := by
  rw [parse] at h
  rw [check, htokens]
  simp only [Analysis.ofTokens, h]

/-- A parse of a source whose core is that of a program reads the same program but for places. -/
theorem exists_parse_alike (htokens : tokenize source = .ok tokens)
    (htokens' : tokenize source' = .ok tokens')
    (hcore : (Token.core tokens).map Token.worded = (Token.core tokens').map Token.worded)
    {program : Program} {s : State} (h : parse tokens = .ok program s)
    (hsuccess : Success tokens (Reporter.empty.reportUnrecognized tokens) s) :
    ∃ program' t, parse tokens' = .ok program' t ∧ program.bare = program'.bare ∧
      List.Forall₂ (Diagnostic.Correspond (Token.core tokens) (Token.core tokens'))
        s.reporter.diagnostics t.reporter.diagnostics := by
  rw [parse_eq hsuccess.known] at h
  obtain ⟨program', t, hrun, hprogram, hdiagnostics⟩ :=
    parse_alike htokens htokens' (Token.forall₂_agrees hcore) h
  have hknown := ((program_reads rfl hrun).success htokens').known
  exact ⟨program', t, (parse_eq hknown).trans hrun, hprogram, hdiagnostics⟩

/-- Layout does not change the meaning of a source. If the tokens of two sources have the same core,
with kinds and with texts but for those of newlines, then a check finds a program in both or in
neither. The programs are the same but for the places of their tokens, and the diagnostics say the
same, in the same order, about the tokens at the same places of the cores. If there is no program,
and the tokens have the same kinds and texts altogether, the parses have failed in the same way. -/
theorem check_layout (htokens : tokenize source = .ok tokens)
    (htokens' : tokenize source' = .ok tokens')
    (hcore : (Token.core tokens).map Token.worded = (Token.core tokens').map Token.worded) :
    ∃ analysis analysis', check source = .ok analysis ∧ check source' = .ok analysis' ∧
      (analysis.program.isSome = analysis'.program.isSome) ∧
      (∀ program program', analysis.program = some program → analysis'.program = some program' →
        program.bare = program'.bare ∧
          List.Forall₂ (Diagnostic.Correspond (Token.core tokens) (Token.core tokens'))
            analysis.diagnostics analysis'.diagnostics) ∧
      (analysis.program = none → analysis'.program = none →
        tokens.map Token.spelled = tokens'.map Token.spelled →
          ∃ error error' s s', parse tokens = .error (.violation error) s ∧
            parse tokens' = .error (.violation error') s' ∧ SameFailure error error' s s') := by
  rcases parse_outcome htokens (Reporter.empty.reportUnrecognized tokens) with
    ⟨program, s, h, hsuccess⟩ | ⟨error, s, h, _⟩
  · obtain ⟨program', t, h', hprogram, hdiagnostics⟩ :=
      exists_parse_alike htokens htokens' hcore h hsuccess
    refine ⟨_, _, check_of_parse_ok htokens h, check_of_parse_ok htokens' h', rfl, ?_, nofun⟩
    rintro _ _ ⟨⟩ ⟨⟩
    exact ⟨hprogram, hdiagnostics⟩
  · rcases parse_outcome htokens' (Reporter.empty.reportUnrecognized tokens') with
      ⟨program', t, h', hsuccess'⟩ | ⟨error', t, h', _⟩
    · obtain ⟨program, t', hrun, _⟩ :=
        exists_parse_alike htokens' htokens hcore.symm h' hsuccess'
      rw [parse, h] at hrun
      cases hrun
    · refine ⟨_, _, check_of_parse_error htokens h, check_of_parse_error htokens' h', rfl, nofun,
        ?_⟩
      exact fun _ _ hspelled =>
        ⟨error, error', s, t, h, h', parse_sameFailure htokens htokens' hspelled h h'⟩

/-- Comments and empty lines change nothing about a program with a warning, and blanks nothing about
what is wrong with a source that is none. -/
theorem check_layout_comments :
    (∃ tokens tokens' analysis analysis' program program',
      tokenize "fun f(a) \x7b\n1 + a\n\x7d" = .ok tokens ∧
        tokenize "# x\nfun f( a )\x7b # y\n\n 1 + a\n\x7d\n" = .ok tokens' ∧
          check "fun f(a) \x7b\n1 + a\n\x7d" = .ok analysis ∧
            check "# x\nfun f( a )\x7b # y\n\n 1 + a\n\x7d\n" = .ok analysis' ∧
              analysis.program = some program ∧ analysis'.program = some program' ∧
                program.bare = program'.bare ∧
                  List.Forall₂ (Diagnostic.Correspond (Token.core tokens) (Token.core tokens'))
                    analysis.diagnostics analysis'.diagnostics) ∧
    ∃ tokens tokens' error error' s s',
      tokenize "fun f(a) \x7b\n1 + b\n\x7d" = .ok tokens ∧
        tokenize "fun f( a )\x7b # y\n 1 + b\n\x7d" = .ok tokens' ∧
          parse tokens = .error (.violation error) s ∧
            parse tokens' = .error (.violation error') s' ∧ SameFailure error error' s s' := by
  constructor
  · have htokens := tokenize_eq "fun f(a) \x7b\n1 + a\n\x7d"
    have htokens' := tokenize_eq "# x\nfun f( a )\x7b # y\n\n 1 + a\n\x7d\n"
    have hcore : (Token.core (Token.significant (scan
        "fun f(a) \x7b\n1 + a\n\x7d").tokens)).map Token.worded =
          (Token.core (Token.significant (scan
            "# x\nfun f( a )\x7b # y\n\n 1 + a\n\x7d\n").tokens)).map Token.worded := by
      decide +kernel
    have hok : reaches (fun _ _ => true)
        (parse (Token.significant (scan "fun f(a) \x7b\n1 + a\n\x7d").tokens)) = true := by
      decide +kernel
    generalize Token.significant (scan "fun f(a) \x7b\n1 + a\n\x7d").tokens = tokens
      at htokens hcore hok
    generalize Token.significant (scan "# x\nfun f( a )\x7b # y\n\n 1 + a\n\x7d\n").tokens = tokens'
      at htokens' hcore
    obtain ⟨analysis, analysis', hcheck, hcheck', hsome, hlike, _⟩ :=
      check_layout htokens htokens' hcore
    obtain ⟨program, s, h, _⟩ := exists_ok_of_reaches hok
    rw [check_of_parse_ok htokens h, Except.ok.injEq] at hcheck
    subst hcheck
    obtain ⟨program', hprogram'⟩ := Option.isSome_iff_exists.mp hsome.symm
    obtain ⟨hprogram, hdiagnostics⟩ := hlike program program' rfl hprogram'
    exact ⟨tokens, tokens', _, analysis', program, program', htokens, htokens',
      check_of_parse_ok htokens h, hcheck', rfl, hprogram', hprogram, hdiagnostics⟩
  · have htokens := tokenize_eq "fun f(a) \x7b\n1 + b\n\x7d"
    have htokens' := tokenize_eq "fun f( a )\x7b # y\n 1 + b\n\x7d"
    have hspelled : (Token.significant (scan "fun f(a) \x7b\n1 + b\n\x7d").tokens).map
        Token.spelled = (Token.significant (scan
          "fun f( a )\x7b # y\n 1 + b\n\x7d").tokens).map Token.spelled := by decide +kernel
    have hcore : (Token.core (Token.significant (scan
        "fun f(a) \x7b\n1 + b\n\x7d").tokens)).map Token.worded =
          (Token.core (Token.significant (scan
            "fun f( a )\x7b # y\n 1 + b\n\x7d").tokens)).map Token.worded := by decide +kernel
    have hfails : (check "fun f(a) \x7b\n1 + b\n\x7d").toOption.all (·.program.isNone) = true := by
      decide +kernel
    generalize Token.significant (scan "fun f(a) \x7b\n1 + b\n\x7d").tokens = tokens
      at htokens hspelled hcore
    generalize Token.significant (scan "fun f( a )\x7b # y\n 1 + b\n\x7d").tokens = tokens'
      at htokens' hspelled hcore
    obtain ⟨analysis, analysis', hcheck, _, hsome, _, hsame⟩ :=
      check_layout htokens htokens' hcore
    rw [hcheck] at hfails
    have hnone : analysis.program = none := Option.isNone_iff_eq_none.mp hfails
    have hnone' : analysis'.program = none := by
      rw [hnone] at hsome
      exact Option.not_isSome_iff_eq_none.mp (by rw [← hsome]; exact Bool.noConfusion)
    obtain ⟨error, error', s, s', h, h', hfailure⟩ := hsame hnone hnone' hspelled
    exact ⟨tokens, tokens', error, error', s, s', htokens, htokens', h, h', hfailure⟩

end Tranquility
