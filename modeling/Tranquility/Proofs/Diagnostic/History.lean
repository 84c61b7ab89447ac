import Tranquility.Proofs.Diagnostic.Reports
import Mathlib.Data.Finset.Card

/-!
# Histories of reports

Reports come in any order, about any tokens and of any severity. What a reporter holds in the end is
told by the history of the reports alone: one of them is kept if none before it was about the same
number, and those that are kept stand in their order. So there is one diagnostic for each number.
-/

namespace Tranquility

/-- What is said about a token. -/
structure Report where
  /-- The token that it is said about. -/
  token : Token
  /-- The words. -/
  message : String
  /-- How grave the matter is. -/
  severity : Severity
  deriving DecidableEq, Repr

namespace Report

/-- The diagnostic that a report becomes. -/
def diagnostic (report : Report) : Diagnostic :=
  .atToken report.token report.message report.severity

/-- None of the earlier reports is about the number of this one. -/
def isNewAfter (earlier : List Report) (report : Report) : Bool :=
  earlier.all (·.token.index ≠ report.token.index)

/-- The reports with a positive answer. -/
def kept (reports : List Report) (answers : List Bool) : List Report :=
  ((reports.zip answers).filter (·.2)).map (·.1)

/-- The last report is kept if its answer is positive. -/
theorem kept_concat {reports : List Report} {answers : List Bool}
    (h : answers.length = reports.length) (report : Report) (answer : Bool) :
    kept (reports ++ [report]) (answers ++ [answer]) =
      kept reports answers ++ if answer then [report] else [] := by
  rw [kept, List.zip_append h.symm, List.filter_append, List.map_append, kept]
  cases answer <;> rfl

end Report

namespace Reporter

/-- Offer the reports one after the other: the answers, and the reporter in the end. -/
def offerAll (reporter : Reporter) : List Report → List Bool × Reporter
  | [] => ([], reporter)
  | report :: reports =>
    let (answer, next) := reporter.offer report.token report.message report.severity
    let (answers, last) := next.offerAll reports
    (answer :: answers, last)

/-- The last report is offered to what the others have left. -/
theorem offerAll_concat (reporter : Reporter) (reports : List Report) (report : Report) :
    reporter.offerAll (reports ++ [report]) =
      ((reporter.offerAll reports).1 ++ [!(reporter.offerAll reports).2.has report.token],
        (reporter.offerAll reports).2.report report.token report.message report.severity) := by
  induction reports generalizing reporter with
  | nil => rfl
  | cons first reports ih =>
    simp only [List.cons_append, offerAll, ih]

variable {reports : List Report} {answers : List Bool} {reporter : Reporter}

/-- A history of reports and its answers account for what a reporter holds. -/
structure Accounts (reports : List Report) (answers : List Bool) (reporter : Reporter) : Prop where
  length_eq : answers.length = reports.length
  answer_eq : ∀ i : Nat, answers[i]? = (reports[i]?).map (·.isNewAfter (reports.take i))
  diagnostics_eq : reporter.diagnostics = (Report.kept reports answers).map (·.diagnostic)
  has_iff : ∀ token, reporter.has token = true ↔
    ∃ report ∈ reports, report.token.index = token.index
  count_eq : reporter.diagnostics.length = (reports.map (·.token.index)).toFinset.card

namespace Accounts

/-- An empty history accounts for a reporter without reports. -/
theorem empty : Accounts [] [] Reporter.empty :=
  ⟨rfl, fun _ => rfl, rfl, by simp [has_empty], rfl⟩

/-- The reporter can tell whether the history has a report about a number. -/
theorem isNewAfter_eq (h : Accounts reports answers reporter) (report : Report) :
    report.isNewAfter reports = !reporter.has report.token := by
  rw [Bool.eq_iff_iff, Bool.not_eq_true', ← Bool.not_eq_true, h.has_iff]
  simp [Report.isNewAfter]

/-- The numbers that the history is about are those with a diagnostic. -/
theorem mem_numbers_iff (h : Accounts reports answers reporter) {token : Token} :
    token.index ∈ (reports.map (·.token.index)).toFinset ↔ reporter.has token = true := by
  rw [h.has_iff, List.mem_toFinset, List.mem_map]

/-- One more report is kept if none of the history is about its number. -/
theorem concat (h : Accounts reports answers reporter) (report : Report) :
    Accounts (reports ++ [report]) (answers ++ [!reporter.has report.token])
      (reporter.report report.token report.message report.severity) where
  length_eq := by rw [List.length_append, List.length_append, h.length_eq]; rfl
  answer_eq i := by
    rcases Nat.lt_trichotomy i reports.length with hlt | rfl | hgt
    · rw [List.getElem?_append_left (h.length_eq ▸ hlt), List.getElem?_append_left hlt,
        List.take_append_of_le_length (Nat.le_of_lt hlt), h.answer_eq]
    · rw [List.take_left, List.getElem?_concat_length, Option.map_some, h.isNewAfter_eq,
        ← h.length_eq, List.getElem?_concat_length]
    · have hlength : (answers ++ [!reporter.has report.token]).length ≤ i := by
        rw [List.length_append, h.length_eq]
        exact hgt
      have hlength' : (reports ++ [report]).length ≤ i := by
        rw [List.length_append]
        exact hgt
      rw [List.getElem?_eq_none hlength, List.getElem?_eq_none hlength', Option.map_none]
  diagnostics_eq := by
    rw [Report.kept_concat h.length_eq, List.map_append, ← h.diagnostics_eq]
    cases hhas : reporter.has report.token with
    | true => rw [report_of_has hhas]; simp
    | false => rw [diagnostics_report_of_not_has hhas]; rfl
  has_iff token := by
    rw [has_report, Bool.or_eq_true, decide_eq_true_eq, h.has_iff]
    simp [or_and_right, exists_or]
  count_eq := by
    rw [List.map_append, List.toFinset_append, Finset.union_comm]
    show _ = Finset.card (insert report.token.index (reports.map (·.token.index)).toFinset)
    cases hhas : reporter.has report.token with
    | true =>
      rw [report_of_has hhas, h.count_eq, Finset.insert_eq_of_mem (h.mem_numbers_iff.mpr hhas)]
    | false =>
      have hnotMem := h.mem_numbers_iff.not.mpr (Bool.eq_false_iff.mp hhas)
      rw [diagnostics_report_of_not_has hhas, List.length_append, h.count_eq,
        Finset.card_insert_of_notMem hnotMem]
      rfl

end Accounts

/-- What a reporter without diagnostics has come to hold is accounted for by what it was offered. -/
theorem accounts_offerAll (reports : List Report) :
    Accounts reports (empty.offerAll reports).1 (empty.offerAll reports).2 := by
  induction reports using List.reverseRecOn with
  | nil => exact .empty
  | append_singleton reports report ih =>
    rw [offerAll_concat]
    exact ih.concat report

/-- Of any reports a reporter without diagnostics keeps the first about each number. The answer to a
report is positive if no earlier one is about its number; the diagnostics are those of the reports
with positive answers, in order; the tokens with a diagnostic are those whose number some report is
about; there are as many diagnostics as numbers; and the errors and the warnings are those of the
reports kept that have this severity, in order. -/
theorem offerAll_keeps_first (reports : List Report) :
    ∃ answers reporter, empty.offerAll reports = (answers, reporter) ∧
      (∀ i : Nat, answers[i]? = (reports[i]?).map (·.isNewAfter (reports.take i))) ∧
      reporter.diagnostics = (Report.kept reports answers).map (·.diagnostic) ∧
      (∀ token, reporter.has token = true ↔ ∃ report ∈ reports, report.token.index = token.index) ∧
      reporter.size = (reports.map (·.token.index)).toFinset.card ∧
      reporter.errors =
        ((Report.kept reports answers).filter (·.severity = .error)).map (·.diagnostic) ∧
      reporter.warnings =
        ((Report.kept reports answers).filter (·.severity = .warning)).map (·.diagnostic) := by
  obtain ⟨_, hanswer, hdiagnostics, hhas, hcount⟩ := accounts_offerAll reports
  refine ⟨_, _, rfl, hanswer, hdiagnostics, hhas, ?_, ?_, ?_⟩
  · rw [← hcount, diagnostics, List.length_map, Array.length_toList, size]
  · rw [errors, hdiagnostics, List.filter_map]
    rfl
  · rw [warnings, hdiagnostics, List.filter_map]
    rfl

end Reporter

end Tranquility
