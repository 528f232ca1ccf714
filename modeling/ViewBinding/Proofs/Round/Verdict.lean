import ViewBinding.Round.Emission

/-!
# The verdict on a round

Whether a round is valid is asked at three gates: `ViewBinding.Round.isValid` says so,
`ViewBinding.Round.result` gives out the companions, and `ViewBinding.Round.emit` stores them. The
failure that the last two report was settled in part before the round was complete: the scan is
judged by its own findings, and grouping and synthesis add theirs afterwards
(`ViewBinding.Scan.added`).

Findings only ever make a verdict worse, so the gates agree
(`ViewBinding.Round.gatesAgree_synthesize`). The policy has a part in the verdict only: a strict
and a lenient round are the same round (`ViewBinding.Scan.synthesize_policy`).
-/

namespace ViewBinding

/-! ### Reports -/

namespace Report

theorem fails_append_eq (r s : Report) (strict : Bool) :
    fails (r ++ s) strict = (r.fails strict || s.fails strict) := by
  simp only [fails, hasErrors_append, hasWarnings_append]
  cases r.hasErrors <;> cases s.hasErrors <;> cases strict <;> simp

/-- A report passes exactly if it has no error and, where the policy is strict, no warning. -/
theorem fails_eq_false_iff (r : Report) (strict : Bool) :
    r.fails strict = false ↔
      (∀ x ∈ r, x.isError = false) ∧ (strict = true → ∀ x ∈ r, x.isWarning = false) := by
  simp only [fails, hasErrors, hasWarnings, Bool.or_eq_false_iff, Bool.and_eq_false_iff,
    List.any_eq_false, Bool.not_eq_true]
  cases strict <;> simp

end Report

/-! ### What the stages report -/

namespace Scan

variable {s : Scan}

/-- The findings that grouping and synthesis add to those of the scan. -/
def added (s : Scan) : Report :=
  (Grouping.ofFields s.fields).2 ++ (Companion.ofGroups (Grouping.ofFields s.fields).1).2

theorem report_synthesize (s : Scan) : s.synthesize.report = s.report ++ s.added := by
  simp [synthesize, added, List.append_assoc]

/-- **A round fails if one of its two stages does.** -/
theorem isValid_synthesize (s : Scan) :
    s.synthesize.isValid = (!s.report.fails s.strict && !s.added.fails s.strict) := by
  have hstrict : s.synthesize.strict = s.strict := rfl
  rw [Round.isValid, report_synthesize, hstrict, Report.fails_append_eq, Bool.not_or]

/-- The scan is blamed if it fails by itself, the synthesis if only that fails. -/
theorem failure?_synthesize (s : Scan) :
    s.synthesize.failure? =
      if s.report.fails s.strict then some (.scan s.synthesize.report.errorCount)
      else if s.added.fails s.strict then some (.synthesis s.synthesize.report.errorCount)
      else none := by
  have hscan : s.synthesize.scanFailed = s.report.fails s.strict := rfl
  rw [Round.failure?, hscan, isValid_synthesize]
  cases s.report.fails s.strict <;> cases s.added.fails s.strict <;> rfl

theorem isValid_synthesize_iff (s : Scan) :
    s.synthesize.isValid = true ↔ s.synthesize.failure? = none := by
  -- the failure of the scan is settled early, and what is added later cannot take it back
  rw [isValid_synthesize, failure?_synthesize]
  cases s.report.fails s.strict <;> cases s.added.fails s.strict <;> simp

theorem failure?_eq_scan_iff (s : Scan) :
    (∃ errors, s.synthesize.failure? = some (.scan errors)) ↔ s.report.fails s.strict = true := by
  rw [failure?_synthesize]
  cases s.report.fails s.strict <;> cases s.added.fails s.strict <;> simp

theorem failure?_eq_synthesis_iff (s : Scan) :
    (∃ errors, s.synthesize.failure? = some (.synthesis errors)) ↔
      s.report.fails s.strict = false ∧ s.added.fails s.strict = true := by
  rw [failure?_synthesize]
  cases s.report.fails s.strict <;> cases s.added.fails s.strict <;> simp

end Scan

/-! ### The gates -/

namespace Round

variable {m : Type → Type} [Monad m] {r : Round}

theorem result_of_failure {failure : Failure} (h : r.failure? = some failure) :
    r.result = .error failure := by
  rw [result, h]

theorem result_of_none (h : r.failure? = none) : r.result = .ok r.companions := by
  rw [result, h]

theorem emit_of_failure {failure : Failure} (h : r.failure? = some failure) (store : Store m)
    (l : Layout) : r.emit store l = pure (.error (.round failure)) := by
  rw [emit, h]

theorem emit_of_none (h : r.failure? = none) (store : Store m) (l : Layout) :
    r.emit store l = (do
      let out ← ViewBinding.emit store l r.companions
      pure (out.mapError .write)) := by
  rw [emit, h]

/-- **The gates agree**: the companions are given out, and storing them is tried, exactly if the
round is valid; a round that is not reports one failure at both gates and stores nothing. -/
structure GatesAgree (r : Round) : Prop where
  result_iff : (∃ companions, r.result = .ok companions) ↔ r.isValid = true
  emit_iff : ∀ {σ : Type} (store : Store (StateM σ)) (l : Layout) (files : σ),
    (∀ failure, (r.emit store l files).1 ≠ .error (.round failure)) ↔ r.isValid = true
  valid : r.isValid = true → r.result = .ok r.companions ∧
    ∀ {m : Type → Type} [Monad m] (store : Store m) (l : Layout), r.emit store l = (do
      let out ← ViewBinding.emit store l r.companions
      pure (out.mapError .write))
  invalid : r.isValid = false → ∃ failure, r.failure? = some failure ∧
    r.result = .error failure ∧
    (∀ {m : Type → Type} [Monad m] (store : Store m) (l : Layout),
      r.emit store l = pure (.error (.round failure))) ∧
    ∀ {σ : Type} (store : Store (StateM σ)) (l : Layout) (files : σ),
      r.emit store l files = (.error (.round failure), files)

/-- What passes the gate never ends in a failure of the round. -/
theorem emit_ne_failure {σ : Type} (h : r.failure? = none) (store : Store (StateM σ))
    (l : Layout) (files : σ) (failure : Failure) :
    (r.emit store l files).1 ≠ .error (.round failure) := by
  have hrun : (r.emit store l files).1 =
      ((ViewBinding.emit store l r.companions files).1).mapError .write := by
    rw [emit_of_none h]
    rfl
  rw [hrun]
  cases (ViewBinding.emit store l r.companions files).1 <;> exact nofun

theorem gatesAgree_of_isValid_iff (h : r.isValid = true ↔ r.failure? = none) : r.GatesAgree := by
  cases hfailure : r.failure? with
  | none =>
    have hvalid : r.isValid = true := h.mpr hfailure
    refine ⟨⟨fun _ => hvalid, fun _ => ⟨_, result_of_none hfailure⟩⟩,
      fun store l files => ⟨fun _ => hvalid, fun _ => emit_ne_failure hfailure store l files⟩,
      fun _ => ⟨result_of_none hfailure, fun store l => emit_of_none hfailure store l⟩,
      fun hinvalid => ?_⟩
    rw [hvalid] at hinvalid
    cases hinvalid
  | some failure =>
    have hinvalid : ¬r.isValid = true := by
      rw [h, hfailure]
      exact Option.some_ne_none failure
    have hemit {σ : Type} (store : Store (StateM σ)) (l : Layout) (files : σ) :
        r.emit store l files = (.error (.round failure), files) := by
      rw [emit_of_failure hfailure]
      rfl
    refine ⟨⟨fun ⟨companions, hresult⟩ => ?_, fun hvalid => absurd hvalid hinvalid⟩,
      fun store l files => ⟨fun hpass => ?_, fun hvalid => absurd hvalid hinvalid⟩,
      fun hvalid => absurd hvalid hinvalid, fun _ => ?_⟩
    · rw [result_of_failure hfailure] at hresult
      cases hresult
    · exact absurd (by rw [hemit]) (hpass failure)
    · exact ⟨failure, hfailure, result_of_failure hfailure,
        fun store l => emit_of_failure hfailure store l, hemit⟩

/-- The gates of every round agree. -/
theorem gatesAgree_synthesize (s : Scan) : s.synthesize.GatesAgree :=
  gatesAgree_of_isValid_iff s.isValid_synthesize_iff

end Round

/-! ### The two policies -/

namespace Scan

variable {sources manifests : Sources} {strict : Bool} {s : Scan}

/-- What is found does not depend on the policy. -/
theorem scan_eq_of_policy (h : scan sources manifests strict = .ok s) (policy : Bool) :
    scan sources manifests policy = .ok { s with strict := policy } := by
  unfold scan at *
  split at h
  · cases h
  · cases h
    rfl

theorem strict_of_scan (h : scan sources manifests strict = .ok s) : s.strict = strict := by
  have heq := h.symm.trans (scan_eq_of_policy h strict)
  rw [Except.ok.inj heq]

/-- **The policy decides on the verdict and on nothing else, and all gates keep to it.** Under
both policies the scan succeeds, and the rounds have the same fields, groups, companions and
findings. A round is valid if it has no error and, where it is strict, no warning; so the strict
round is valid exactly if the lenient one is and there are no warnings. The gates of both agree, and
the failure they report blames the scan exactly if its own findings fail the policy, and the
synthesis exactly if only the findings added to them do. -/
theorem synthesize_policy (h : scan sources manifests strict = .ok s) :
    ∃ found : Bool → Scan, found strict = s ∧
      (∀ policy, scan sources manifests policy = .ok (found policy)) ∧
      (∀ policy, (found policy).fields = s.fields ∧
        (found policy).report = s.report ∧
        (found policy).synthesize.groups = s.synthesize.groups ∧
        (found policy).synthesize.companions = s.synthesize.companions ∧
        (found policy).synthesize.report = s.synthesize.report) ∧
      (∀ policy, (found policy).synthesize.isValid = true ↔
        (∀ x ∈ s.synthesize.report, x.isError = false) ∧
          (policy = true → ∀ x ∈ s.synthesize.report, x.isWarning = false)) ∧
      ((found true).synthesize.isValid = true ↔
        (found false).synthesize.isValid = true ∧
          ∀ x ∈ s.synthesize.report, x.isWarning = false) ∧
      (∀ policy, (found policy).synthesize.GatesAgree) ∧
      ∀ policy,
        ((∃ errors, (found policy).synthesize.failure? = some (.scan errors)) ↔
          s.report.fails policy = true) ∧
        ((∃ errors, (found policy).synthesize.failure? = some (.synthesis errors)) ↔
          s.report.fails policy = false ∧ s.added.fails policy = true) := by
  let found (policy : Bool) : Scan := { s with strict := policy }
  have hvalid (policy : Bool) : (found policy).synthesize.isValid = true ↔
      (∀ x ∈ s.synthesize.report, x.isError = false) ∧
        (policy = true → ∀ x ∈ s.synthesize.report, x.isWarning = false) := by
    rw [← Report.fails_eq_false_iff, Round.isValid, Bool.not_eq_true']
    rfl
  refine ⟨found, ?_, scan_eq_of_policy h, fun policy => ⟨rfl, rfl, rfl, rfl, rfl⟩, hvalid, ?_,
    fun policy => Round.gatesAgree_synthesize _, fun policy => ⟨?_, ?_⟩⟩
  · rw [← strict_of_scan h]
  · rw [hvalid true, hvalid false]
    simp
  · exact failure?_eq_scan_iff (found policy)
  · exact failure?_eq_synthesis_iff (found policy)

/-- Two fields with one view id: only the strict round fails, in its synthesis, and gives out
nothing. -/
theorem synthesize_policy_collision :
    ∃ s t, scan [⟨.inline, "class A \x7b @BindView(1) View v; @BindView(1) View w; \x7d\n"⟩] []
        true = .ok s ∧
      scan [⟨.inline, "class A \x7b @BindView(1) View v; @BindView(1) View w; \x7d\n"⟩] []
        false = .ok t ∧
      t.synthesize.companions = s.synthesize.companions ∧ t.synthesize.isValid = true ∧
      (∃ errors, s.synthesize.failure? = some (.synthesis errors)) ∧
      s.synthesize.isValid = false ∧ ¬∃ companions, s.synthesize.result = .ok companions := by
  obtain ⟨s, hs⟩ : ∃ s,
      scan [⟨.inline, "class A \x7b @BindView(1) View v; @BindView(1) View w; \x7d\n"⟩] [] true =
        .ok s := ⟨_, rfl⟩
  have hverdict : s.report.fails true = false ∧ s.added.fails true = true ∧
      s.synthesize.report.fails false = false ∧ s.synthesize.isValid = false := by
    cases hs
    decide +kernel
  obtain ⟨hscan, hadded, hlenient, hinvalid⟩ := hverdict
  obtain ⟨found, hfound, hscans, hsame, hvalid, -, hgates, hblame⟩ := synthesize_policy hs
  refine ⟨s, found false, hs, hscans false, (hsame false).2.2.2.1, ?_, ?_, hinvalid, ?_⟩
  · rw [hvalid false]
    exact (Report.fails_eq_false_iff _ false).mp hlenient
  · rw [← hfound]
    exact (hblame true).2.mpr ⟨hscan, hadded⟩
  · rw [← hfound, (hgates true).result_iff, hfound, hinvalid]
    exact Bool.false_ne_true

end Scan

end ViewBinding
