import Apdl.Codegen.Changeset.CiSignals

set_option autoImplicit false

/-!
# The aggregation of CI signals

An observation is built with one set of rules and validated with another one. What is derived from the
distinct signals of the payloads agrees with them, so that the validation of an observation never fails,
and depends on nothing but the set of the payloads.

## Main results

* `ci_aggregation` — what an observation says, and that it does not depend on the order of the payloads.
-/

namespace Apdl.Codegen

open Text (ofString)

/-! ## Validation -/

def isDigit (u : CodeUnit) : Bool := decide (48 ≤ u.toNat ∧ u.toNat ≤ 57)

/-- `^REQ-[0-9]{3}$`. -/
def isRequirementId (t : Text) : Bool :=
  decide (t.length = 7) && decide (t.take 4 = ofString "REQ-") && (t.drop 4).all isDigit

/-- `^CI-REQ-[0-9]{3}-[0-9]{2}$`. -/
def isEvidenceId (t : Text) : Bool :=
  decide (t.length = 13) && decide (t.take 7 = ofString "CI-REQ-") &&
    ((t.drop 7).take 3).all isDigit && decide (t[10]? = some 45) && (t.drop 11).all isDigit

/-- `f"CI-{requirement_id}-"`. -/
def evidenceStart (requirementId : Text) : Text := ofString "CI-" ++ requirementId ++ ofString "-"

/-- The validation of `RequirementCIResult`: the field of the first error, or what its validator says. -/
def RequirementCIResult.error (result : RequirementCIResult) : Option String :=
  if isRequirementId result.requirementId = false then some "requirement_id"
  else if isEvidenceId result.evidenceId = false then some "evidence_id"
  else if (evidenceStart result.requirementId).isPrefixOf result.evidenceId = false then
    some "evidence_id must be namespaced by requirement_id"
  else if (result.status = .passed ∨ result.status = .failed) ∧ result.matchedSignalIds = [] then
    some "passed or failed requirement results need a matched signal"
  else if ¬ result.matchedSignalIds.Nodup then some "matched signal IDs must be unique"
  else none

/-- The validation of the signals and results of an observation, and of what it says about them. -/
def observationError (e : CIEvidence) : Option Text :=
  ((e.signals.findSome? CISignal.error).or
    (e.requirementResults.findSome? RequirementCIResult.error)).map ofString |>.or
      (resultMatchesSignals e)

/-- What the validation of a ledger establishes. -/
structure RequirementLedger.Valid (ledger : RequirementLedger) : Prop where
  requirementId : ∀ requirement ∈ ledger.requirements,
    isRequirementId requirement.requirementId = true
  evidenceId : ∀ requirement ∈ ledger.requirements, ∀ expected ∈ requirement.expectedCiEvidence,
    isEvidenceId expected.evidenceId = true
  namespaced : ∀ requirement ∈ ledger.requirements, ∀ expected ∈ requirement.expectedCiEvidence,
    (evidenceStart requirement.requirementId).isPrefixOf expected.evidenceId = true

section Build

variable {sha256 : Hashed → Text}

/-! ## Evidence -/

variable {signals : List CISignal} {externalStatus : ExternalCIStatus}

lemma mem_matchedSignalIds {requirement : Requirement} {expected : ExpectedCIEvidence} {id : Text} :
    id ∈ (requirementResult signals externalStatus requirement expected).matchedSignalIds ↔
      ∃ s ∈ signals, expected.checkName = some s.name ∧ s.signalId = id := by
  simp [requirementResult, List.mem_insertionSort, List.mem_dedup, and_assoc]

lemma filter_matched (hnodup : (signals.map CISignal.signalId).Nodup)
    (externalStatus : ExternalCIStatus) (requirement : Requirement) (expected : ExpectedCIEvidence) :
    (signals.filter fun s => decide (s.signalId ∈
      (requirementResult signals externalStatus requirement expected).matchedSignalIds)) =
      signals.filter fun s => expected.checkName == some s.name := by
  refine List.filter_congr fun s hs => ?_
  rw [Bool.eq_iff_iff, decide_eq_true_eq, mem_matchedSignalIds, beq_iff_eq]
  constructor
  · rintro ⟨t, ht, hname, hid⟩
    rwa [consistent_of_nodup hnodup t ht s hs hid] at hname
  · exact fun hname => ⟨s, hs, hname, rfl⟩

lemma allPass_iff :
    allPass signals = true ↔ (∃ s ∈ signals, s.conclusion = .passed) ∧
      ∀ s ∈ signals, s.conclusion = .passed ∨ s.conclusion = .skipped := by
  simp [allPass]

lemma matched_passed
    (h : matchedRequirementStatus signals externalStatus = .passed) : allPass signals = true := by
  unfold matchedRequirementStatus at h
  split_ifs at h with hfailed hpass
  exact hpass

lemma matched_failed (h : matchedRequirementStatus signals externalStatus = .failed) :
    signals.any (fun s => s.conclusion == .failed) = true := by
  unfold matchedRequirementStatus at h
  split_ifs at h with hfailed
  exact hfailed

lemma resultError_eq_none (hnodup : (signals.map CISignal.signalId).Nodup)
    (externalStatus : ExternalCIStatus) (requirement : Requirement) (expected : ExpectedCIEvidence) :
    resultError signals (requirementResult signals externalStatus requirement expected) = none := by
  have hsub : (requirementResult signals externalStatus requirement expected).matchedSignalIds ⊆
      signals.map CISignal.signalId := by
    intro id hid
    obtain ⟨s, hs, -, rfl⟩ := mem_matchedSignalIds.1 hid
    exact List.mem_map_of_mem hs
  unfold resultError
  rw [filter_matched hnodup]
  dsimp only
  rw [if_neg (not_not.2 hsub), if_neg, if_neg]
  · rintro ⟨hstatus, hnone⟩
    rw [matched_failed hstatus] at hnone
    cases hnone
  · rintro ⟨hstatus, hnone⟩
    rw [matched_passed hstatus] at hnone
    cases hnone

lemma RequirementCIResult.error_eq_none {requirement : Requirement} {expected : ExpectedCIEvidence}
    (hrequirement : isRequirementId requirement.requirementId = true)
    (hevidence : isEvidenceId expected.evidenceId = true)
    (hnamespaced : (evidenceStart requirement.requirementId).isPrefixOf expected.evidenceId = true) :
    (requirementResult signals externalStatus requirement expected).error = none := by
  have hmatched : (requirementResult signals externalStatus requirement expected).status = .passed ∨
      (requirementResult signals externalStatus requirement expected).status = .failed →
      (requirementResult signals externalStatus requirement expected).matchedSignalIds ≠ [] := by
    intro hstatus
    have hsome : ∃ s ∈ signals, expected.checkName = some s.name := by
      rcases hstatus with hstatus | hstatus
      · obtain ⟨⟨s, hs, -⟩, -⟩ := allPass_iff.1 (matched_passed hstatus)
        obtain ⟨hin, hname⟩ := List.mem_filter.1 hs
        exact ⟨s, hin, beq_iff_eq.1 hname⟩
      · obtain ⟨s, hs, -⟩ := List.any_eq_true.1 (matched_failed hstatus)
        obtain ⟨hin, hname⟩ := List.mem_filter.1 hs
        exact ⟨s, hin, beq_iff_eq.1 hname⟩
    obtain ⟨s, hs, hname⟩ := hsome
    exact List.ne_nil_of_mem (mem_matchedSignalIds.2 ⟨s, hs, hname, rfl⟩)
  have hnodup : (requirementResult signals externalStatus requirement expected).matchedSignalIds.Nodup :=
    (List.perm_insertionSort _ _).nodup_iff.2 (List.nodup_dedup _)
  unfold RequirementCIResult.error
  rw [if_neg (by simpa [requirementResult] using hrequirement),
    if_neg (by simpa [requirementResult] using hevidence),
    if_neg (by simpa [requirementResult] using hnamespaced),
    if_neg (fun h => hmatched h.1 h.2), if_neg (not_not.2 hnodup)]

variable {combinedState : Option Text}

lemma aggregate_failed_iff :
    aggregate signals combinedState = .failed ↔ ∃ s ∈ signals, s.conclusion = .failed := by
  have hany : (signals.any fun s => s.conclusion == .failed) = true ↔
      ∃ s ∈ signals, s.conclusion = .failed := by simp
  rw [← hany]
  unfold aggregate
  dsimp only
  split_ifs with hfailed <;> simp [hfailed]

lemma aggregate_passed (h : aggregate signals combinedState = .passed) :
    allPass signals = true ∧ (lower (strip (orEmpty combinedState)) = [] ∨
      lower (strip (orEmpty combinedState)) = ofString "success") := by
  unfold aggregate at h
  dsimp only at h
  split_ifs at h with hfailed hrollup hempty hpending hpass
  exact ⟨hpass, by tauto⟩

lemma aggregate_unverified
    (h : aggregate signals combinedState = .unverifiedExternalCi) : signals.isEmpty = true := by
  unfold aggregate at h
  dsimp only at h
  split_ifs at h with hfailed hrollup hempty hpending hpass
  exact hempty

variable {headSha : Text}

lemma failureSummary_ne_nil {cap : ℕ} (h : ∃ s ∈ signals, s.conclusion = .failed) :
    (failureEvidence sha256 signals headSha cap).2 ≠ [] := by
  obtain ⟨s, hs, hfailed⟩ := h
  have hparen : (40 : CodeUnit) ∈ failureSection s := by
    refine mem_joinWith List.mem_cons_self ?_
    simp [ofString, Text.encodeScalar]
  have hsection : failureSection s ∈
      (signals.filter fun s => s.conclusion == .failed).map failureSection :=
    List.mem_map_of_mem (List.mem_filter.2 ⟨hs, by simp [hfailed]⟩)
  exact bounded_ne_nil (mem_joinWith hsection hparen) (by decide) cap

lemma statusError_eq_none (target : Target) (signals : List CISignal) (combinedState : Option Text)
    (ledger : Option RequirementLedger) (budgets : Budgets) :
    statusError (evidenceOf sha256 target signals combinedState ledger budgets) = none := by
  unfold statusError
  cases hstatus : aggregate signals combinedState with
  | pending => simp [evidenceOf, hstatus, statusError.strayFailure]
  | passed =>
    obtain ⟨hsome, hall⟩ := allPass_iff.1 (aggregate_passed hstatus).1
    have hne : signals.isEmpty = false := by
      obtain ⟨s, hs, -⟩ := hsome
      simpa using List.ne_nil_of_mem hs
    have hall' : (signals.all fun s => s.conclusion == .passed || s.conclusion == .skipped) = true := by
      simpa using hall
    have hsome' : (signals.any fun s => s.conclusion == .passed) = true := by simpa using hsome
    simp [evidenceOf, hstatus, statusError.strayFailure, hne, hall', hsome']
  | failed =>
    have hfailed := aggregate_failed_iff.1 hstatus
    have hany : (signals.any fun s => s.conclusion == .failed) = true := by simpa using hfailed
    have hkey : (failureEvidence sha256 signals target.headSha budgets.maxFailureSummaryChars).1 ≠ [] :=
      List.append_ne_nil_of_left_ne_nil (List.append_ne_nil_of_left_ne_nil
        (List.append_ne_nil_of_left_ne_nil (by decide) _) _) _
    have hsummary : (failureEvidence sha256 signals target.headSha
        budgets.maxFailureSummaryChars).2 ≠ [] := failureSummary_ne_nil hfailed
    simp [evidenceOf, hstatus, hany, hkey, hsummary]
  | unverifiedExternalCi =>
    simp [evidenceOf, hstatus, statusError.strayFailure, aggregate_unverified hstatus]

@[simp] lemma evidenceOf_signals (target : Target) (signals : List CISignal)
    (combinedState : Option Text) (ledger : Option RequirementLedger) (budgets : Budgets) :
    (evidenceOf sha256 target signals combinedState ledger budgets).signals = signals := rfl

lemma resultMatchesSignals_eq_none
    (hnodup : (signals.map CISignal.signalId).Nodup) (target : Target) (combinedState : Option Text)
    (ledger : Option RequirementLedger) (budgets : Budgets) :
    resultMatchesSignals (evidenceOf sha256 target signals combinedState ledger budgets) = none := by
  have hresults : (evidenceOf sha256 target signals combinedState ledger budgets).requirementResults.findSome?
      (resultError signals) = none := by
    refine List.findSome?_eq_none_iff.2 fun result hresult => ?_
    cases ledger with
    | none => cases hresult
    | some ledger =>
      obtain ⟨requirement, -, hin⟩ := List.mem_flatMap.1 hresult
      obtain ⟨expected, -, rfl⟩ := List.mem_map.1 hin
      exact resultError_eq_none hnodup _ requirement expected
  unfold resultMatchesSignals
  rw [evidenceOf_signals, if_neg (not_not.2 hnodup), hresults, statusError_eq_none, Option.none_or]

variable {ledger : Option RequirementLedger}

/-- **The two sets of rules agree**: evidence of distinct valid signals is valid. -/
lemma observationError_evidenceOf
    (hnodup : (signals.map CISignal.signalId).Nodup) (hvalid : ∀ s ∈ signals, s.error = none) (hledger : ∀ l ∈ ledger, l.Valid) (target : Target)
    (combinedState : Option Text) (budgets : Budgets) :
    observationError (evidenceOf sha256 target signals combinedState ledger budgets) = none := by
  have hsignals : signals.findSome? CISignal.error = none := List.findSome?_eq_none_iff.2 hvalid
  have hresults : (evidenceOf sha256 target signals combinedState ledger budgets).requirementResults.findSome?
      RequirementCIResult.error = none := by
    refine List.findSome?_eq_none_iff.2 fun result hresult => ?_
    cases ledger with
    | none => cases hresult
    | some ledger =>
      obtain ⟨requirement, hin, hresult⟩ := List.mem_flatMap.1 hresult
      obtain ⟨expected, hexpected, rfl⟩ := List.mem_map.1 hresult
      have hl := hledger ledger rfl
      exact RequirementCIResult.error_eq_none (hl.requirementId requirement hin)
        (hl.evidenceId requirement hin expected hexpected)
        (hl.namespaced requirement hin expected hexpected)
  unfold observationError
  rw [resultMatchesSignals_eq_none hnodup, hresults]
  simp [evidenceOf, hsignals]

/-! ## The observation -/

def Budgets.exhausted (budgets : Budgets) : Prop :=
  min (min (min (min budgets.maxSignals budgets.maxAnnotationsPerSignal)
    budgets.maxSignalSummaryChars) budgets.maxAnnotationMessageChars)
    budgets.maxFailureSummaryChars = 0

instance (budgets : Budgets) : Decidable budgets.exhausted := by
  unfold Budgets.exhausted
  infer_instance

/-- The observation of some signals. -/
def observationOf (sha256 : Hashed → Text) (target : Target) (signals : List CISignal)
    (combinedState : Option Text) (observedAt : ℤ) (ledger : Option RequirementLedger)
    (budgets : Budgets) : CIVerificationObservation :=
  let evidence := evidenceOf sha256 target signals combinedState ledger budgets
  { toCIEvidence := evidence, observationId := stableId sha256 evidence, observedAt := observedAt }

def collectSignals (sha256 : Hashed → Text) (headSha : Text) (statuses : List CommitStatus)
    (checkRuns : List CheckRun) (budgets : Budgets) : Except BuildError (List CISignal) := do
  let commitSignals ← statuses.mapM fun status => commitSignal sha256 status headSha budgets
  let checkSignals ← checkRuns.mapM fun run => checkSignal run headSha budgets
  deduplicateSignals (commitSignals ++ checkSignals)

/-- A signal comes from a payload of the head. -/
def Sourced (sha256 : Hashed → Text) (headSha : Text) (statuses : List CommitStatus)
    (checkRuns : List CheckRun) (budgets : Budgets) (s : CISignal) : Prop :=
  (∃ status ∈ statuses, status.sha = some headSha ∧
    commitSignal sha256 status headSha budgets = .ok s) ∨
  ∃ run ∈ checkRuns, run.headSha = some headSha ∧
    (∀ suite ∈ run.checkSuite, suite.headSha = some headSha) ∧ checkSignal run headSha budgets = .ok s

variable {checkRuns : List CheckRun} {budgets : Budgets}

lemma collectSignals_spec {statuses : List CommitStatus}
    (h : collectSignals sha256 headSha statuses checkRuns budgets = .ok signals) :
    (signals.map CISignal.signalId).Nodup ∧ (∀ s ∈ signals, s.error = none) ∧
      ∀ s, s ∈ signals ↔ Sourced sha256 headSha statuses checkRuns budgets s := by
  unfold collectSignals at h
  simp only [Check.bind_eq_ok] at h
  obtain ⟨commitSignals, hcommit, checkSignals, hcheck, hdistinct⟩ := h
  obtain ⟨hnodup, hmem, -⟩ := deduplicateSignals_spec hdistinct
  have hsourced : ∀ s, s ∈ signals ↔ Sourced sha256 headSha statuses checkRuns budgets s := by
    intro s
    rw [hmem, List.mem_append, Check.mem_of_mapM hcommit, Check.mem_of_mapM hcheck]
    refine or_congr ?_ ?_
    · exact exists_congr fun status => and_congr_right fun _ =>
        ⟨fun hs => ⟨(commitSignal_spec hs).1, hs⟩, And.right⟩
    · exact exists_congr fun run => and_congr_right fun _ =>
        ⟨fun hs => ⟨(checkSignal_spec hs).1, (checkSignal_spec hs).2.1, hs⟩, fun hs => hs.2.2⟩
  refine ⟨hnodup, fun s hs => ?_, hsourced⟩
  rcases (hsourced s).1 hs with ⟨status, -, -, hsignal⟩ | ⟨run, -, -, -, hsignal⟩
  · exact (commitSignal_spec hsignal).2
  · exact (checkSignal_spec hsignal).2.2

/-- **Only the sets of the payloads count.** -/
lemma collectSignals_congr {statuses statuses' : List CommitStatus} {checkRuns' : List CheckRun}
    (hstatuses : ∀ status, status ∈ statuses ↔ status ∈ statuses')
    (hruns : ∀ run, run ∈ checkRuns ↔ run ∈ checkRuns')
    (h : collectSignals sha256 headSha statuses checkRuns budgets = .ok signals) :
    collectSignals sha256 headSha statuses' checkRuns' budgets = .ok signals := by
  unfold collectSignals at h ⊢
  simp only [Check.bind_eq_ok] at h ⊢
  obtain ⟨commitSignals, hcommit, checkSignals, hcheck, hdistinct⟩ := h
  obtain ⟨commitSignals', hcommit'⟩ := Check.mapM_isOk
    (f := fun status => commitSignal sha256 status headSha budgets) (l := statuses')
    fun status hin => Check.isOk_of_mapM hcommit status ((hstatuses status).2 hin)
  obtain ⟨checkSignals', hcheck'⟩ := Check.mapM_isOk
    (f := fun run => checkSignal run headSha budgets) (l := checkRuns')
    fun run hin => Check.isOk_of_mapM hcheck run ((hruns run).2 hin)
  refine ⟨commitSignals', hcommit', checkSignals', hcheck', deduplicateSignals_congr ?_ hdistinct⟩
  intro s
  rw [List.mem_append, List.mem_append, Check.mem_of_mapM hcommit, Check.mem_of_mapM hcommit',
    Check.mem_of_mapM hcheck, Check.mem_of_mapM hcheck']
  simp only [hstatuses, hruns]

lemma build_eq (target : Target) (combinedStatus : CombinedStatus) (checkRuns : List CheckRun)
    (observedAt : ℤ) (ledger : Option RequirementLedger) (budgets : Budgets) :
    buildCiVerificationObservation sha256 target combinedStatus checkRuns observedAt ledger budgets =
      if target.headSha = [] then .error (.value (ofString "head_sha is required"))
      else if budgets.exhausted then
        .error (.value (ofString "CI observation budgets must be positive"))
      else assertExactHead combinedStatus.sha target.headSha (ofString "combined status") >>= fun _ =>
        if budgets.maxSignals < combinedStatus.statuses.length + checkRuns.length then
          .error (.build (ofString "GitHub CI signal count exceeds safety limit"))
        else collectSignals sha256 target.headSha combinedStatus.statuses checkRuns budgets >>=
          fun signals =>
            match resultMatchesSignals
              (evidenceOf sha256 target signals combinedStatus.state ledger budgets) with
            | some message => .error (.validation message)
            | none => .ok
              (observationOf sha256 target signals combinedStatus.state observedAt ledger budgets) := by
  unfold buildCiVerificationObservation collectSignals
  simp only [bind_assoc]
  by_cases hhead : target.headSha = []
  · rw [if_pos hhead, if_pos hhead]
    rfl
  rw [if_neg hhead, if_neg hhead]
  by_cases hbudget : budgets.exhausted
  · rw [if_pos hbudget]
    exact if_pos hbudget
  rw [if_neg hbudget]
  refine (if_neg hbudget).trans (bind_congr fun _ => ?_)
  by_cases hcount : budgets.maxSignals < combinedStatus.statuses.length + checkRuns.length
  · rw [if_pos hcount, if_pos hcount]
    rfl
  rw [if_neg hcount, if_neg hcount]
  refine bind_congr fun commitSignals => bind_congr fun checkSignals => bind_congr fun signals => ?_
  cases resultMatchesSignals (evidenceOf sha256 target signals combinedStatus.state ledger budgets) <;>
    rfl

lemma build_eq_ok_iff {target : Target} {combinedStatus : CombinedStatus} {observedAt : ℤ}
    {obs : CIVerificationObservation} :
    buildCiVerificationObservation sha256 target combinedStatus checkRuns observedAt ledger budgets =
        .ok obs ↔
      target.headSha ≠ [] ∧ ¬ budgets.exhausted ∧
      (∃ u, assertExactHead combinedStatus.sha target.headSha (ofString "combined status") = .ok u) ∧
      combinedStatus.statuses.length + checkRuns.length ≤ budgets.maxSignals ∧
      ∃ signals, collectSignals sha256 target.headSha combinedStatus.statuses checkRuns budgets =
        .ok signals ∧
        obs = observationOf sha256 target signals combinedStatus.state observedAt ledger budgets := by
  rw [build_eq]
  constructor
  · intro h
    rw [ite_eq_iff] at h
    obtain ⟨-, h⟩ | ⟨hhead, h⟩ := h
    · cases h
    rw [ite_eq_iff] at h
    obtain ⟨-, h⟩ | ⟨hbudget, h⟩ := h
    · cases h
    rw [Check.bind_eq_ok] at h
    obtain ⟨u, hu, h⟩ := h
    rw [ite_eq_iff] at h
    obtain ⟨-, h⟩ | ⟨hcount, h⟩ := h
    · cases h
    rw [Check.bind_eq_ok] at h
    obtain ⟨signals, hsignals, h⟩ := h
    rw [resultMatchesSignals_eq_none (collectSignals_spec hsignals).1] at h
    exact ⟨hhead, hbudget, ⟨u, hu⟩, Nat.le_of_not_lt hcount, signals, hsignals, (Except.ok.inj h).symm⟩
  · rintro ⟨hhead, hbudget, ⟨u, hu⟩, hcount, signals, hsignals, rfl⟩
    rw [if_neg hhead, if_neg hbudget]
    refine Check.bind_intro hu ?_
    rw [if_neg (Nat.not_lt.2 hcount)]
    refine Check.bind_intro hsignals ?_
    rw [resultMatchesSignals_eq_none (collectSignals_spec hsignals).1]

lemma suiteId_of_build {target : Target} {combinedStatus : CombinedStatus}
    {observedAt : ℤ} {message : Text}
    (h : buildCiVerificationObservation sha256 target combinedStatus checkRuns observedAt ledger
      budgets = .error (.validation message)) :
    ∃ run ∈ checkRuns, ∃ id ∈ suiteIdOf run, id < 1 := by
  rw [build_eq, ite_eq_iff] at h
  obtain ⟨-, h⟩ | ⟨-, h⟩ := h
  · cases h
  rw [ite_eq_iff] at h
  obtain ⟨-, h⟩ | ⟨-, h⟩ := h
  · cases h
  rcases Check.bind_eq_error.1 h with h | ⟨_, -, h⟩
  · exact absurd h assertExactHead_ne_validation
  rw [ite_eq_iff] at h
  obtain ⟨-, h⟩ | ⟨-, h⟩ := h
  · cases h
  rcases Check.bind_eq_error.1 h with h | ⟨signals, hsignals, h⟩
  · unfold collectSignals at h
    rcases Check.bind_eq_error.1 h with h | ⟨commitSignals, -, h⟩
    · obtain ⟨status, -, herror⟩ := Check.mapM_eq_error h
      exact absurd herror commitSignal_ne_validation
    rcases Check.bind_eq_error.1 h with h | ⟨checkSignals, -, h⟩
    · obtain ⟨run, hrun, herror⟩ := Check.mapM_eq_error h
      exact ⟨run, hrun, suiteId_of_validation herror⟩
    · exact absurd h deduplicateSignals_ne_validation
  · rw [resultMatchesSignals_eq_none (collectSignals_spec hsignals).1] at h
    cases h

/-- **CI aggregation.** The payloads are rejected, where a validation error comes from a check run with
a suite id below one, or an observation is built that meets the validation of its model. It failed exactly
when some signal did; where it passed, some signal passed, the others passed or were skipped, and the
combined state is success or absent. Its signals are those of the payloads, all of its head, one for each
id. A requirement passed only where the signals with the name of its check, and only these, passed or were
skipped and one passed. Payloads with the same entries, within the limit on their number, have the same
observation or none. -/
theorem ci_aggregation (sha256 : Hashed → Text) (target : Target) (combinedStatus : CombinedStatus)
    (checkRuns : List CheckRun) (observedAt : ℤ) (ledger : Option RequirementLedger)
    (hledger : ∀ l ∈ ledger, l.Valid) (budgets : Budgets) :
    (∀ message, buildCiVerificationObservation sha256 target combinedStatus checkRuns observedAt ledger
        budgets = .error (.validation message) → ∃ run ∈ checkRuns, ∃ id ∈ suiteIdOf run, id < 1) ∧
    (∀ obs, buildCiVerificationObservation sha256 target combinedStatus checkRuns observedAt ledger
        budgets = .ok obs →
      observationError obs.toCIEvidence = none ∧
      (obs.status = .failed ↔ ∃ s ∈ obs.signals, s.conclusion = .failed) ∧
      (obs.status = .passed → (∃ s ∈ obs.signals, s.conclusion = .passed) ∧
        (∀ s ∈ obs.signals, s.conclusion = .passed ∨ s.conclusion = .skipped) ∧
        (lower (strip (orEmpty combinedStatus.state)) = [] ∨
          lower (strip (orEmpty combinedStatus.state)) = ofString "success")) ∧
      (obs.signals.map CISignal.signalId).Nodup ∧
      (∀ s, s ∈ obs.signals ↔
        Sourced sha256 target.headSha combinedStatus.statuses checkRuns budgets s) ∧
      ∀ result ∈ obs.requirementResults, result.status = .passed →
        ∃ l ∈ ledger, ∃ requirement ∈ l.requirements, ∃ expected ∈ requirement.expectedCiEvidence,
          ∃ name, expected.checkName = some name ∧ result.evidenceId = expected.evidenceId ∧
          (∀ id, id ∈ result.matchedSignalIds ↔ ∃ s ∈ obs.signals, s.name = name ∧ s.signalId = id) ∧
          (∃ s ∈ obs.signals, s.name = name ∧ s.conclusion = .passed) ∧
          ∀ s ∈ obs.signals, s.name = name → s.conclusion = .passed ∨ s.conclusion = .skipped) ∧
    ∀ (statuses' : List CommitStatus) (checkRuns' : List CheckRun),
      (∀ status, status ∈ combinedStatus.statuses ↔ status ∈ statuses') →
      (∀ run, run ∈ checkRuns ↔ run ∈ checkRuns') →
      (combinedStatus.statuses.length + checkRuns.length ≤ budgets.maxSignals ↔
        statuses'.length + checkRuns'.length ≤ budgets.maxSignals) →
      ∀ obs, buildCiVerificationObservation sha256 target combinedStatus checkRuns observedAt ledger
          budgets = .ok obs ↔
        buildCiVerificationObservation sha256 target { combinedStatus with statuses := statuses' }
          checkRuns' observedAt ledger budgets = .ok obs := by
  refine ⟨fun message => suiteId_of_build, ?_, ?_⟩
  · intro obs h
    obtain ⟨-, -, -, -, signals, hsignals, rfl⟩ := build_eq_ok_iff.1 h
    obtain ⟨hnodup, hvalid, hsourced⟩ := collectSignals_spec hsignals
    refine ⟨observationError_evidenceOf hnodup hvalid hledger target combinedStatus.state budgets,
      aggregate_failed_iff, ?_, hnodup, hsourced, ?_⟩
    · intro hpassed
      obtain ⟨hall, hrollup⟩ := aggregate_passed hpassed
      exact ⟨(allPass_iff.1 hall).1, (allPass_iff.1 hall).2, hrollup⟩
    · intro result hresult hpassed
      cases ledger with
      | none => cases hresult
      | some ledger =>
        obtain ⟨requirement, hin, hresult⟩ := List.mem_flatMap.1 hresult
        obtain ⟨expected, hexpected, rfl⟩ := List.mem_map.1 hresult
        obtain ⟨⟨s, hs, hspassed⟩, hall⟩ := allPass_iff.1 (matched_passed hpassed)
        obtain ⟨hsin, hname⟩ := List.mem_filter.1 hs
        rw [beq_iff_eq] at hname
        refine ⟨ledger, rfl, requirement, hin, expected, hexpected, s.name, hname, rfl, fun id => ?_,
          ⟨s, hsin, rfl, hspassed⟩, fun u hu huname => hall u (List.mem_filter.2 ⟨hu, ?_⟩)⟩
        · rw [mem_matchedSignalIds]
          simp only [hname, Option.some.injEq, eq_comm]
          exact Iff.rfl
        · rw [hname, huname, beq_self_eq_true]
  · intro statuses' checkRuns' hstatuses hruns hcount obs
    rw [build_eq_ok_iff, build_eq_ok_iff, hcount]
    refine and_congr_right fun _ => and_congr_right fun _ => and_congr_right fun _ =>
      and_congr_right fun _ => exists_congr fun signals => and_congr_left fun _ => ?_
    exact ⟨collectSignals_congr hstatuses hruns,
      collectSignals_congr (fun status => (hstatuses status).symm) fun run => (hruns run).symm⟩

end Build

/-! ## Repeated payloads -/

/-- A head of a pull request. -/
def sampleTarget : Target where
  changesetId := ofString "cs-1"
  repository := ofString "acme/shop"
  prNumber := 7
  headSha := ofString "4f2a9c"

/-- A check of the head that passed. -/
def sampleStatus : CommitStatus where
  sha := some (ofString "4f2a9c")
  context := some (ofString "ci/build")
  state := some (ofString "success")

/-- A combined status of the head with this check, some number of times. -/
def sampleCombined (n : ℕ) : CombinedStatus where
  sha := some (ofString "4f2a9c")
  state := some (ofString "success")
  statuses := List.replicate n sampleStatus

/-- A ledger that expects the check. -/
def sampleLedger : RequirementLedger where
  requirements := [⟨ofString "REQ-001",
    [⟨ofString "github_check", ofString "CI-REQ-001-01", some (ofString "ci/build")⟩]⟩]

/-- A requirement is met by the one check, and by the check repeated within the limit. -/
theorem ci_aggregation_repeated : ∃ obs,
    buildCiVerificationObservation (fun _ => ofString "0") sampleTarget (sampleCombined 1) [] 0
      (some sampleLedger) = .ok obs ∧ observationError obs.toCIEvidence = none ∧
    buildCiVerificationObservation (fun _ => ofString "0") sampleTarget (sampleCombined 2) [] 0
      (some sampleLedger) = .ok obs := by
  have hledger : ∀ l ∈ some sampleLedger, l.Valid := by
    intro l hl
    obtain rfl := Option.some.inj hl
    exact ⟨by decide +kernel, by decide +kernel, by decide +kernel⟩
  have hbuilt : (buildCiVerificationObservation (fun _ => ofString "0") sampleTarget (sampleCombined 1)
      [] 0 (some sampleLedger)).toOption.isSome = true := by decide +kernel
  obtain ⟨-, hsound, hsame⟩ := ci_aggregation (fun _ => ofString "0") sampleTarget (sampleCombined 1) []
    0 (some sampleLedger) hledger {}
  cases h : buildCiVerificationObservation (fun _ => ofString "0") sampleTarget (sampleCombined 1) [] 0
      (some sampleLedger) with
  | error e =>
    rw [h] at hbuilt
    cases hbuilt
  | ok obs =>
    refine ⟨obs, rfl, (hsound obs h).1, (hsame (List.replicate 2 sampleStatus) [] ?_ (by simp) ?_ obs).1 h⟩
    · intro status
      simp [sampleCombined]
    · decide

/-- A payload that is accepted once is rejected when it is repeated beyond the limit. -/
theorem repeated_payload_rejected :
    (∃ obs, buildCiVerificationObservation (fun _ => ofString "0") sampleTarget (sampleCombined 1) [] 0 =
      .ok obs) ∧
    ¬ ∃ obs, buildCiVerificationObservation (fun _ => ofString "0") sampleTarget (sampleCombined 1001) []
      0 = .ok obs := by
  refine ⟨?_, ?_⟩
  · have hbuilt : (buildCiVerificationObservation (fun _ => ofString "0") sampleTarget
        (sampleCombined 1) [] 0).toOption.isSome = true := by decide +kernel
    cases h : buildCiVerificationObservation (fun _ => ofString "0") sampleTarget (sampleCombined 1) []
        0 with
    | error e =>
      rw [h] at hbuilt
      cases hbuilt
    | ok obs => exact ⟨obs, rfl⟩
  · rintro ⟨obs, h⟩
    obtain ⟨-, -, -, hcount, -⟩ := build_eq_ok_iff.1 h
    simp only [sampleCombined, List.length_replicate, List.length_nil] at hcount
    omega

end Apdl.Codegen
