import ViewBinding.Proofs.Companion.PerType
import ViewBinding.Proofs.Grouping.Collisions
import ViewBinding.Proofs.Round.Verdict

/-!
# The number that a failure shows

A failure blames a stage and shows a number. The findings that make a stage fail are its errors
and, in a strict round, its warnings (`ViewBinding.Report.failing`), and there is at least one of
them. The number shown is another: it counts the errors of the whole round, whichever stage they
are from, and no warning.

So it is right by chance only, and how far it is off can be said exactly, since grouping reports
nothing but warnings and the synthesis nothing but errors: `ViewBinding.Scan.failure_count`.
-/

namespace ViewBinding

/-! ### The findings that fail a stage -/

namespace Report

/-- The findings that fail a round of that policy. -/
def failing (r : Report) (strict : Bool) : Report :=
  r.filter fun x => x.isError || (strict && x.isWarning)

variable {r : Report} {strict : Bool}

theorem fails_iff_length_failing_pos : r.fails strict = true ↔ 0 < (r.failing strict).length := by
  rw [failing, ← List.countP_eq_length_filter, List.countP_pos_iff]
  simp only [fails, hasErrors, hasWarnings, Bool.or_eq_true, Bool.and_eq_true, List.any_eq_true]
  constructor
  · rintro (⟨x, hx, h⟩ | ⟨h, x, hx, h'⟩)
    · exact ⟨x, hx, .inl h⟩
    · exact ⟨x, hx, .inr ⟨h, h'⟩⟩
  · rintro ⟨x, hx, h | ⟨h, h'⟩⟩
    · exact .inl ⟨x, hx, h⟩
    · exact .inr ⟨h, x, hx, h'⟩

/-- A finding is either an error or a warning. -/
theorem length_failing (r : Report) (strict : Bool) :
    (r.failing strict).length = r.errorCount + if strict then r.warningCount else 0 := by
  rw [failing, ← List.countP_eq_length_filter, errorCount, warningCount]
  cases strict with
  | false => simp
  | true =>
    induction r with
    | nil => rfl
    | cons x r ih =>
      simp only [Bool.true_and, if_true, List.countP_cons, x.isWarning_eq_not_isError] at ih ⊢
      cases x.isError <;> simp [ih] <;> omega

theorem errorCount_append (r s : Report) : errorCount (r ++ s) = r.errorCount + s.errorCount :=
  List.countP_append

theorem warningCount_append (r s : Report) :
    warningCount (r ++ s) = r.warningCount + s.warningCount :=
  List.countP_append

theorem errorCount_eq_zero_iff : r.errorCount = 0 ↔ ∀ x ∈ r, x.isError = false := by
  simp [errorCount, List.countP_eq_zero]

theorem counts_of_errors (h : ∀ x ∈ r, x.isError = true) :
    r.errorCount = r.length ∧ r.warningCount = 0 := by
  refine ⟨List.countP_eq_length.mpr h, List.countP_eq_zero.mpr fun x hx => ?_⟩
  rw [x.isWarning_eq_not_isError, h x hx]
  exact Bool.false_ne_true

theorem counts_of_warnings (h : ∀ x ∈ r, x.isError = false) :
    r.errorCount = 0 ∧ r.warningCount = r.length := by
  refine ⟨errorCount_eq_zero_iff.mpr h, List.countP_eq_length.mpr fun x hx => ?_⟩
  rw [x.isWarning_eq_not_isError, h x hx]
  rfl

end Report

/-! ### What grouping and synthesis report -/

/-- Grouping reports warnings only. -/
theorem Grouping.isError_of_mem_ofFields {fields : List BoundField} {x : Finding}
    (hx : x ∈ (ofFields fields).2) : x.isError = false := by
  have hreport : (ofFields fields).2 = (collisions fields).map Collision.finding :=
    report_insertAll fun owner id => rfl
  rw [hreport] at hx
  obtain ⟨c, -, rfl⟩ := List.mem_map.mp hx
  rfl

/-- Synthesis reports errors only. -/
theorem Companion.isError_of_mem_ofGroupsAfter {used : List (String × Group)} {groups : Grouping}
    {x : Finding} (hx : x ∈ (ofGroupsAfter used groups).2) : x.isError = true := by
  induction groups generalizing used with
  | nil => cases hx
  | cons g groups ih =>
    obtain ⟨-, h⟩ | ⟨c, claim, -, -, -, h⟩ | ⟨c, -, -, h⟩ := ofGroupsAfter_cons used g groups
    · rw [h] at hx
      exact ih hx
    · rw [h] at hx
      rcases List.mem_cons.mp hx with rfl | hx
      · rfl
      · exact ih hx
    · rw [h] at hx
      exact ih hx

namespace Scan

/-- The fields that displace another one in their group. -/
def collisions (s : Scan) : Report :=
  (Grouping.ofFields s.fields).2

/-- The types that are left without a companion. -/
def clashes (s : Scan) : Report :=
  (Companion.ofGroups (Grouping.ofFields s.fields).1).2

theorem errorCount_added (s : Scan) : s.added.errorCount = s.clashes.length := by
  have hcollisions : s.collisions.errorCount = 0 :=
    (Report.counts_of_warnings fun _ hx => Grouping.isError_of_mem_ofFields hx).1
  have hclashes : s.clashes.errorCount = s.clashes.length :=
    (Report.counts_of_errors fun _ hx => Companion.isError_of_mem_ofGroupsAfter hx).1
  have hadded : s.added = s.collisions ++ s.clashes := rfl
  rw [hadded, Report.errorCount_append, hcollisions, hclashes, Nat.zero_add]

theorem warningCount_added (s : Scan) : s.added.warningCount = s.collisions.length := by
  have hcollisions : s.collisions.warningCount = s.collisions.length :=
    (Report.counts_of_warnings fun _ hx => Grouping.isError_of_mem_ofFields hx).2
  have hclashes : s.clashes.warningCount = 0 :=
    (Report.counts_of_errors fun _ hx => Companion.isError_of_mem_ofGroupsAfter hx).2
  have hadded : s.added = s.collisions ++ s.clashes := rfl
  rw [hadded, Report.warningCount_append, hcollisions, hclashes, Nat.add_zero]

end Scan

/-! ### The number and the stage -/

namespace Failure

/-- The number that is shown. -/
def count : Failure → Nat
  | .scan errors | .synthesis errors => errors

/-- The findings of the stage that is blamed. -/
def stage (s : Scan) : Failure → Report
  | .scan _ => s.report
  | .synthesis _ => s.added

end Failure

namespace Scan

variable {s : Scan} {failure : Failure}

theorem errorCount_synthesize (s : Scan) :
    s.synthesize.report.errorCount = s.report.errorCount + s.clashes.length := by
  rw [report_synthesize, Report.errorCount_append, errorCount_added]

theorem count_of_failure? (h : s.synthesize.failure? = some failure) :
    failure.count = s.synthesize.report.errorCount := by
  rw [failure?_synthesize] at h
  split at h
  · cases h
    rfl
  · split at h
    · cases h
      rfl
    · cases h

theorem stage_fails_of_failure? (h : s.synthesize.failure? = some failure) :
    (failure.stage s).fails s.strict = true := by
  rw [failure?_synthesize] at h
  split at h
  · rename_i hscan
    cases h
    exact hscan
  · split at h
    · rename_i hadded
      cases h
      exact hadded
    · cases h

theorem report_passes_of_synthesis {errors : Nat}
    (h : s.synthesize.failure? = some (.synthesis errors)) : s.report.fails s.strict = false :=
  (failure?_eq_synthesis_iff s).mp ⟨errors, h⟩ |>.1

/-- **How far the number of a failure is off.** The stage that is blamed has at least one finding
that fails it. The number is that of the errors of the whole round. If the scan is blamed, it is
the number of the findings that fail the scan only if there are as many types without a companion
as the scan has warnings that count; if the synthesis is blamed, only if no warning on a field
counts. It is zero if warnings alone fail the round. -/
theorem failure_count (h : s.synthesize.failure? = some failure) :
    0 < ((failure.stage s).failing s.strict).length ∧
    failure.count = s.synthesize.report.errorCount ∧
    (failure.count = ((failure.stage s).failing s.strict).length ↔
      match failure with
      | .scan _ => s.clashes.length = if s.strict then s.report.warningCount else 0
      | .synthesis _ => s.strict = true → s.collisions = []) ∧
    (failure.count = 0 ↔
      s.strict = true ∧ ∀ x ∈ s.synthesize.report, x.isError = false) := by
  have hfails := stage_fails_of_failure? h
  have hall := count_of_failure? h
  have hcount := hall.trans (errorCount_synthesize s)
  refine ⟨Report.fails_iff_length_failing_pos.mp hfails, hall, ?_, ?_⟩
  · rw [hcount, Report.length_failing]
    cases failure with
    | scan errors => exact Nat.add_left_cancel_iff
    | synthesis errors =>
      -- the scan passed, so it has no error
      have herrors : s.report.errorCount = 0 := Report.errorCount_eq_zero_iff.mpr
        ((Report.fails_eq_false_iff _ _).mp (report_passes_of_synthesis h)).1
      rw [herrors, Failure.stage, errorCount_added, warningCount_added, ← List.length_eq_zero_iff]
      cases s.strict <;> simp
  · rw [← Report.errorCount_eq_zero_iff, ← hall]
    refine ⟨fun hzero => ⟨?_, hzero⟩, fun hzero => hzero.2⟩
    -- a lenient stage fails by its errors, which are errors of the round
    by_contra hlenient
    have hpos := Report.fails_iff_length_failing_pos.mp hfails
    rw [Report.length_failing, if_neg hlenient] at hpos
    cases failure with
    | scan errors =>
      have hstage : 0 < s.report.errorCount := hpos
      omega
    | synthesis errors =>
      have hstage : 0 < s.added.errorCount := hpos
      rw [errorCount_added] at hstage
      omega

/-- A lenient round with one error in the scan and one type without a companion: the scan is blamed
for two errors. -/
theorem failure_count_clash :
    ∃ s, scan [⟨.inline, "class A \x7b @BindView(1) View v; @BindView View w; \x7d "
        ++ "class B \x7b static class A \x7b @BindView(2) View v; \x7d \x7d\n"⟩] [] false = .ok s ∧
      s.synthesize.failure? = some (.scan 2) ∧
      ((Failure.scan 2).stage s).failing s.strict ≠ [] ∧
      (Failure.scan 2).count ≠ (((Failure.scan 2).stage s).failing s.strict).length := by
  obtain ⟨s, hs⟩ : ∃ s, scan [⟨.inline, "class A \x7b @BindView(1) View v; @BindView View w; \x7d "
      ++ "class B \x7b static class A \x7b @BindView(2) View v; \x7d \x7d\n"⟩] [] false = .ok s :=
    ⟨_, rfl⟩
  have hround : s.synthesize.failure? = some (.scan 2) ∧ s.clashes.length = 1 ∧
      s.strict = false := by
    cases hs
    decide +kernel
  obtain ⟨hfailure, hclashes, hlenient⟩ := hround
  obtain ⟨hpos, -, hright, -⟩ := failure_count hfailure
  refine ⟨s, hs, hfailure, List.length_pos_iff.mp hpos, fun hcount => ?_⟩
  have hnone : s.clashes.length = if s.strict then s.report.warningCount else 0 :=
    hright.mp hcount
  rw [hclashes, hlenient] at hnone
  cases hnone

/-- Two fields with one view id fail a strict synthesis by one warning, and the failure shows
none. -/
theorem exists_failure_count_zero :
    ∃ s, scan [⟨.inline, "class A \x7b @BindView(1) View v; @BindView(1) View w; \x7d\n"⟩] []
        true = .ok s ∧
      s.synthesize.failure? = some (.synthesis 0) ∧
      (Failure.synthesis 0).message = "synthesis failed with 0 errors" ∧
      (((Failure.synthesis 0).stage s).failing s.strict).length = 1 := by
  obtain ⟨s, hs⟩ : ∃ s,
      scan [⟨.inline, "class A \x7b @BindView(1) View v; @BindView(1) View w; \x7d\n"⟩] [] true =
        .ok s := ⟨_, rfl⟩
  have hround : s.synthesize.failure? = some (.synthesis 0) ∧
      (Failure.synthesis 0).message = "synthesis failed with 0 errors" ∧
      (((Failure.synthesis 0).stage s).failing s.strict).length = 1 := by
    cases hs
    decide +kernel
  exact ⟨s, hs, hround⟩

end Scan

end ViewBinding
