import Tranquility.Diagnostic.Reporter
import Mathlib.Data.List.Induction

/-!
# Reports one after the other

Of several reports a reporter keeps those about tokens that have no diagnostic yet, in order and one
for each number. Nothing that has been kept is lost.
-/

namespace Tranquility.Reporter

/-- Report something about each of the tokens. -/
def reportAll (reporter : Reporter) (message : Token → String) (severity : Severity)
    (tokens : List Token) : Reporter :=
  tokens.foldl (fun reporter token => reporter.report token (message token) severity) reporter

/-- Without diagnostics no token has one. -/
theorem has_empty (token : Token) : empty.has token = false := by
  simp [has, empty]

variable {message : Token → String} {severity : Severity} {tokens : List Token}

/-- After reports about some tokens exactly these have a diagnostic besides those that had one. -/
theorem has_reportAll {reporter : Reporter} {other : Token} :
    (reporter.reportAll message severity tokens).has other = true ↔
      reporter.has other = true ∨ ∃ token ∈ tokens, token.index = other.index := by
  induction tokens generalizing reporter with
  | nil => simp [reportAll]
  | cons token tokens ih =>
    rw [reportAll, List.foldl_cons]
    refine ih.trans ?_
    simp only [has_report, Bool.or_eq_true, decide_eq_true_eq, or_assoc, List.mem_cons,
      exists_eq_or_imp]

/-- The reports that are kept are about tokens with different numbers that had no diagnostic. -/
theorem exists_diagnostics_reportAll (reporter : Reporter) (message : Token → String)
    (severity : Severity) (tokens : List Token) : ∃ kept : List Token, kept.Sublist tokens ∧
      (∀ token ∈ kept, reporter.has token = false) ∧ (kept.map (·.index)).Nodup ∧
        (reporter.reportAll message severity tokens).diagnostics = reporter.diagnostics ++
          kept.map fun token => .atToken token (message token) severity := by
  induction tokens generalizing reporter with
  | nil => exact ⟨[], .slnil, by simp, List.nodup_nil, by simp [reportAll]⟩
  | cons token tokens ih =>
    obtain ⟨kept, hsublist, hnew, hnodup, hdiagnostics⟩ :=
      ih (reporter.report token (message token) severity)
    rw [reportAll, List.foldl_cons]
    cases hhas : reporter.has token with
    | true =>
      rw [report_of_has hhas] at hnew hdiagnostics ⊢
      exact ⟨kept, hsublist.cons token, hnew, hnodup, hdiagnostics⟩
    | false =>
      have hother : ∀ other ∈ kept, reporter.has other = false ∧ token.index ≠ other.index := by
        intro other hmem
        have hother := hnew other hmem
        rwa [has_report, Bool.or_eq_false_iff, decide_eq_false_iff_not] at hother
      refine ⟨token :: kept, hsublist.cons_cons token, ?_, ?_, ?_⟩
      · exact List.forall_mem_cons.mpr ⟨hhas, fun other hmem => (hother other hmem).1⟩
      · refine List.nodup_cons.mpr ⟨fun hmem => ?_, hnodup⟩
        obtain ⟨other, hmem, hindex⟩ := List.mem_map.mp hmem
        exact (hother other hmem).2 hindex.symm
      · rw [diagnostics_report_of_not_has hhas, List.append_assoc] at hdiagnostics
        exact hdiagnostics

/-- Every report about tokens of different numbers is kept by a reporter without diagnostics. -/
theorem diagnostics_reportAll_empty (h : (tokens.map (·.index)).Nodup) :
    (empty.reportAll message severity tokens).diagnostics =
      tokens.map fun token => .atToken token (message token) severity := by
  induction tokens using List.reverseRecOn with
  | nil => rfl
  | append_singleton tokens token ih =>
    rw [List.map_append, List.nodup_append] at h
    obtain ⟨hnodup, _, hdisjoint⟩ := h
    have hnew : (empty.reportAll message severity tokens).has token = false := by
      rw [← Bool.not_eq_true, has_reportAll]
      rintro (hhas | ⟨other, hother, hindex⟩)
      · rw [has_empty] at hhas
        cases hhas
      · exact hdisjoint _ (List.mem_map_of_mem hother) _ (List.mem_singleton_self _) hindex
    rw [reportAll, List.foldl_append, List.map_append, ← ih hnodup]
    exact diagnostics_report_of_not_has hnew (message token) severity

end Tranquility.Reporter
