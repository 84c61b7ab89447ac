import Tranquility.Diagnostic.Basic

/-!
# Collecting diagnostics

One malformed token tends to offend several rules in a row, so a reporter keeps the first diagnostic
about each token and drops the later ones. Tokens are told apart by their numbers.
-/

namespace Tranquility

/-- The diagnostics of one run, at most one for each token. -/
structure Reporter where
  /-- The diagnostics in the order of their arrival, each with the number of its token. -/
  entries : Array (Int × Diagnostic)
  deriving DecidableEq, Repr

namespace Reporter

/-- A reporter with no diagnostics. -/
def empty : Reporter := ⟨#[]⟩

/-- Some diagnostic is about the token. -/
def has (reporter : Reporter) (token : Token) : Bool :=
  reporter.entries.any (·.1 = token.index)

/-- Keep a diagnostic about a token unless there is one already. -/
def report (reporter : Reporter) (token : Token) (message : String) (severity : Severity) :
    Reporter :=
  if reporter.has token then reporter
  else ⟨reporter.entries.push (token.index, .atToken token message severity)⟩

/-- Report a diagnostic about a token, and tell whether it was kept. -/
def offer (reporter : Reporter) (token : Token) (message : String) (severity : Severity) :
    Bool × Reporter :=
  (!reporter.has token, reporter.report token message severity)

/-- The diagnostics in the order of their arrival. -/
def diagnostics (reporter : Reporter) : List Diagnostic :=
  reporter.entries.toList.map (·.2)

/-- The diagnostics that are errors. -/
def errors (reporter : Reporter) : List Diagnostic :=
  reporter.diagnostics.filter (·.isError)

/-- The diagnostics that are warnings. -/
def warnings (reporter : Reporter) : List Diagnostic :=
  reporter.diagnostics.filter (·.isWarning)

/-- The number of diagnostics. -/
def size (reporter : Reporter) : Nat :=
  reporter.entries.size

/-- A report about a token that has a diagnostic changes nothing. -/
theorem report_of_has {reporter : Reporter} {token : Token} (h : reporter.has token = true)
    (message : String) (severity : Severity) :
    reporter.report token message severity = reporter := by
  simp [report, h]

/-- The first report about a token is kept after all others. -/
theorem diagnostics_report_of_not_has {reporter : Reporter} {token : Token}
    (h : reporter.has token = false) (message : String) (severity : Severity) :
    (reporter.report token message severity).diagnostics =
      reporter.diagnostics ++ [.atToken token message severity] := by
  simp [report, h, diagnostics]

/-- After a report about a token, exactly the tokens of its number have joined those with a
diagnostic. -/
theorem has_report (reporter : Reporter) (token other : Token) (message : String)
    (severity : Severity) :
    (reporter.report token message severity).has other =
      (reporter.has other || token.index = other.index) := by
  cases h : reporter.has token with
  | true =>
    rw [report_of_has h]
    by_cases he : token.index = other.index
    · simpa [he, has] using h
    · simp [he]
  | false =>
    rw [report, if_neg (by simp [h])]
    simp [has]

end Reporter

end Tranquility
