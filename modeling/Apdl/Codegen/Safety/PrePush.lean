import Apdl.Codegen.Safety.Model

set_option autoImplicit false

/-!
# What a diff that passes the gates does not touch

The gates pass when none of them has a violation. The effective limits are at most those of the platform,
and the effective protected paths are those of all layers, so a diff that passes under the effective policy
is within the limits of the platform and touches nothing that any layer protects. A tighter tenant policy
has a tighter effective policy, and finds every violation again.

## Main results

* `prePush_gate` — what a diff that passes meets, and that a tighter tenant policy lets no more pass.
-/

namespace Apdl.Codegen.Safety

variable {repr : Str → Str} {secretKinds : Str → Except SecretScanError (List Str)}

/-- The names that a pattern matches. -/
def globLanguage (pattern : Str) : Language ℕ := Glob.language (Glob.parse marks pattern)

/-- A pattern protects a path: it matches the path, or a part of it behind a slash. -/
def Protects (pattern path : Str) : Prop :=
  path ∈ globLanguage pattern ∨ ∃ u v, path = u ++ slash :: v ∧ v ∈ globLanguage pattern

lemma touches_iff (path pattern : Str) : touches path pattern = true ↔ Protects pattern path := by
  have hsuffix : fnmatch path (42 :: slash :: pattern) = true ↔
      ∃ u v, path = u ++ slash :: v ∧ Glob.isMatch (Glob.parse marks pattern) v = true :=
    Glob.isMatch_star_cons_iff marks (by decide) (by decide) (by decide) pattern path
  rw [touches, Bool.or_eq_true, hsuffix, fnmatch, Glob.isMatch_iff]
  simp only [Glob.isMatch_iff]
  exact Iff.rfl

/-! ## Changed paths -/

lemma canonicalChangedPath_eq_ok {value : Option Str} {path : Str}
    (h : canonicalChangedPath repr value = .ok path) : value = some path := by
  cases value with
  | none => simp [canonicalChangedPath] at h
  | some p =>
    simp only [canonicalChangedPath] at h
    split_ifs at h
    exact congrArg some (Except.ok.inj h)

lemma mapM_eq_ok {values : List (Option Str)} {paths : List Str}
    (h : values.mapM (canonicalChangedPath repr) = .ok paths) : values = paths.map some := by
  induction values generalizing paths with
  | nil =>
    obtain rfl : [] = paths := by simpa [pure, Except.pure] using h
    rfl
  | cons value values ih =>
    rw [List.mapM_cons] at h
    cases hvalue : canonicalChangedPath repr value with
    | error message => simp [hvalue, bind, Except.bind] at h
    | ok path =>
      cases hrest : values.mapM (canonicalChangedPath repr) with
      | error message => simp [hvalue, hrest, bind, Except.bind] at h
      | ok rest =>
        obtain rfl : path :: rest = paths := by
          simpa [hvalue, hrest, bind, Except.bind, pure, Except.pure] using h
        rw [List.map_cons, ← canonicalChangedPath_eq_ok hvalue, ← ih hrest]

lemma canonicalChangedPaths_eq_ok {values : List (Option Str)} {paths : List Str}
    (h : canonicalChangedPaths repr values = .ok paths) : values = paths.map some := by
  unfold canonicalChangedPaths at h
  cases hmap : values.mapM (canonicalChangedPath repr) with
  | error message => simp [hmap, Except.bind] at h
  | ok canonical =>
    simp only [hmap, Except.bind] at h
    split_ifs at h
    obtain rfl := Except.ok.inj h
    exact mapM_eq_ok hmap

lemma canonicalChangedPaths_map_some {values : List (Option Str)} {paths : List Str}
    (h : canonicalChangedPaths repr values = .ok paths) :
    canonicalChangedPaths repr (paths.map some) = .ok paths := by
  rw [← canonicalChangedPaths_eq_ok h, h]

/-! ## Gates -/

lemma filterMap_eq_nil_iff (paths protectedPaths exempt : List Str) :
    (paths.filter fun path => !exempt.contains path).filterMap (pathViolation repr protectedPaths) = [] ↔
      ∀ path ∈ paths, path ∈ exempt ∨ ∀ pattern ∈ protectedPaths, ¬ Protects pattern path := by
  rw [List.filterMap_eq_nil_iff]
  simp only [List.mem_filter, Bool.not_eq_true', List.contains_eq_mem, decide_eq_false_iff_not,
    pathViolation, Option.map_eq_none_iff, List.find?_eq_none, touches_iff]
  constructor
  · intro h path hpath
    by_cases hin : path ∈ exempt
    · exact .inl hin
    · exact .inr (h path ⟨hpath, hin⟩)
  · intro h path hpath
    exact (h path hpath.1).resolve_left hpath.2

/-- The changed paths have no violation: they are canonical, and each is exempt or touches no protected
pattern. -/
def PathsPass (repr : Str → Str) (changedPaths : Option (List (Option Str)))
    (protectedPaths exempt : List Str) : Prop :=
  ∃ paths, requireChangedPathList repr changedPaths = .ok paths ∧
    ∀ path ∈ paths, path ∈ exempt ∨ ∀ pattern ∈ protectedPaths, ¬ Protects pattern path

variable (repr) in
lemma pathGate_spec (changedPaths : Option (List (Option Str))) (protectedPaths : List Str)
    (exemptions : List VerifiedProtectedPathExemption) :
    ∃ violations, pathGate repr changedPaths protectedPaths exemptions = .ok violations ∧
      (violations = [] ↔ PathsPass repr changedPaths protectedPaths
        (exemptions.map VerifiedProtectedPathExemption.path)) := by
  unfold pathGate
  cases hpaths : requireChangedPathList repr changedPaths with
  | error message => exact ⟨_, rfl, by simp [PathsPass, hpaths]⟩
  | ok paths =>
    have hagain : canonicalChangedPaths repr (paths.map some) = .ok paths := by
      cases changedPaths with
      | none => simp [requireChangedPathList] at hpaths
      | some values => exact canonicalChangedPaths_map_some hpaths
    refine ⟨_, by simp only [protectedPathViolations, hagain, Except.map]; rfl, ?_⟩
    rw [filterMap_eq_nil_iff]
    simp [PathsPass, hpaths]

/-- What statistics meet limits. -/
def WithinLimits (diffStat : DiffStat) (maxFiles maxLines : ℤ) : Prop :=
  ∃ fields files additions deletions, diffStat = some fields ∧
    fields.lookup "files" = some (.int files) ∧ fields.lookup "additions" = some (.int additions) ∧
    fields.lookup "deletions" = some (.int deletions) ∧ 0 ≤ files ∧ 0 ≤ additions ∧ 0 ≤ deletions ∧
    files ≤ maxFiles ∧ additions + deletions ≤ maxLines

lemma countOf_eq_some_iff {fields : List (String × StatValue)} {name : String} {n : ℤ} :
    countOf fields name = some n ↔ fields.lookup name = some (.int n) ∧ 0 ≤ n := by
  unfold countOf
  split
  · rename_i m hm
    rw [hm]
    split_ifs with hneg
    · simp only [Option.some.injEq, StatValue.int.injEq, false_iff, not_and]
      omega
    · simp only [Option.some.injEq, StatValue.int.injEq]
      omega
  · rename_i hno
    simp only [reduceCtorEq, false_iff, not_and]
    intro hlookup
    exact absurd hlookup (hno n)

lemma diffTooLarge_eq_none_iff (diffStat : DiffStat) (maxFiles maxLines : ℤ) :
    diffTooLarge diffStat maxFiles maxLines = none ↔ WithinLimits diffStat maxFiles maxLines := by
  cases diffStat with
  | none => simp [diffTooLarge, WithinLimits]
  | some fields =>
    constructor
    · intro h
      unfold diffTooLarge at h
      dsimp only at h
      have hpresent : ¬ (required.filter fun name => (fields.lookup name).isNone) ≠ [] := by
        intro hmissing
        rw [if_pos hmissing] at h
        cases h
      rw [if_neg hpresent] at h
      cases hfind : required.find? fun name => (countOf fields name).isNone with
      | some name => simp [hfind] at h
      | none =>
        simp only [hfind] at h
        simp only [required, List.find?_eq_none, List.mem_cons, List.not_mem_nil, or_false,
          Bool.not_eq_true, Option.isNone_eq_false_iff, forall_eq_or_imp, forall_eq,
          Option.isSome_iff_exists] at hfind
        obtain ⟨⟨files, hfiles⟩, ⟨additions, hadditions⟩, deletions, hdeletions⟩ := hfind
        split_ifs at h with hf hl
        simp only [hfiles, hadditions, hdeletions, Option.getD_some, not_lt] at hf hl
        rw [countOf_eq_some_iff] at hfiles hadditions hdeletions
        exact ⟨fields, files, additions, deletions, rfl, hfiles.1, hadditions.1, hdeletions.1, hfiles.2,
          hadditions.2, hdeletions.2, hf, hl⟩
    · rintro ⟨_, files, additions, deletions, ⟨⟩, hf, ha, hd, hf0, ha0, hd0, hfiles, hlines⟩
      have hcount : ∀ {name : String} {n : ℤ}, fields.lookup name = some (.int n) → 0 ≤ n →
          countOf fields name = some n := fun hn h0 => countOf_eq_some_iff.2 ⟨hn, h0⟩
      simp [diffTooLarge, required, hf, ha, hd, hcount hf hf0, hcount ha ha0, hcount hd hd0,
        Int.not_lt.2 hfiles, Int.not_lt.2 hlines]

variable {diffStat : DiffStat}

/-- **When the gates pass.** -/
lemma passed_iff {changedPaths : Option (List (Option Str))}
    {policy : EffectiveCodegenSafetyPolicy} {diffText : Option Str}
    {exemptions : List VerifiedProtectedPathExemption} :
    (∃ result, evaluatePrePush repr secretKinds diffStat changedPaths policy diffText exemptions =
      .ok result ∧ result.passed = true) ↔
      (exemptions = [] ∨ policy.runtimeWorkflowGenerationEnabled = true) ∧
      WithinLimits diffStat policy.maxFiles policy.maxLines ∧
      PathsPass repr changedPaths policy.protectedPaths
        (exemptions.map VerifiedProtectedPathExemption.path) ∧
      textGate secretKinds diffText = .ok [] := by
  rw [← diffTooLarge_eq_none_iff]
  unfold evaluatePrePush
  by_cases hrejected :
      (!exemptions.isEmpty && !policy.runtimeWorkflowGenerationEnabled) = true
  · obtain ⟨violations, hpaths, -⟩ := pathGate_spec repr changedPaths policy.protectedPaths []
    have hnot : ¬ (exemptions = [] ∨ policy.runtimeWorkflowGenerationEnabled = true) := by
      simpa using hrejected
    cases htext : textGate secretKinds diffText with
    | error message => simp [hrejected, hpaths, Except.bind, Except.map]
    | ok texts => simp [hrejected, hpaths, hnot, Except.bind, Except.map]
  · obtain ⟨violations, hpaths, hempty⟩ :=
      pathGate_spec repr changedPaths policy.protectedPaths exemptions
    have hactive : exemptions = [] ∨ policy.runtimeWorkflowGenerationEnabled = true := by
      simpa [or_iff_not_imp_left] using hrejected
    rw [Bool.not_eq_true] at hrejected
    cases htext : textGate secretKinds diffText with
    | error message => simp [hrejected, hpaths, Except.bind, Except.map]
    | ok texts =>
      simp [hrejected, hpaths, hactive, hempty, Except.bind, Except.map]

lemma evaluate_isOk {changedPaths : Option (List (Option Str))}
    {policy policy' : EffectiveCodegenSafetyPolicy} {diffText : Option Str}
    {exemptions exemptions' : List VerifiedProtectedPathExemption} {result : GateResult}
    (h : evaluatePrePush repr secretKinds diffStat changedPaths policy diffText exemptions =
      .ok result) :
    ∃ result', evaluatePrePush repr secretKinds diffStat changedPaths policy' diffText exemptions' =
      .ok result' := by
  unfold evaluatePrePush at h ⊢
  dsimp only at h ⊢
  obtain ⟨violations, hpaths, -⟩ := pathGate_spec repr changedPaths policy.protectedPaths
    (if (!exemptions.isEmpty && !policy.runtimeWorkflowGenerationEnabled) = true then []
      else exemptions)
  obtain ⟨violations', hpaths', -⟩ := pathGate_spec repr changedPaths policy'.protectedPaths
    (if (!exemptions'.isEmpty && !policy'.runtimeWorkflowGenerationEnabled) = true then []
      else exemptions')
  cases htext : textGate secretKinds diffText with
  | error message =>
    rw [hpaths, htext] at h
    cases h
  | ok texts => exact ⟨_, by simp only [hpaths', Except.bind, Except.map]; rfl⟩

/-! ## Layers -/

/-- A limit is lower than another one: where there was one, there is one that is no greater. -/
def Lowers (limit limit' : Option PositiveStrictInt) : Prop := ∀ n ∈ limit, ∃ m ∈ limit', m ≤ n

/-- A tenant policy has lower limits and more protected paths than another one. -/
structure Tightens (tenant tenant' : TenantCodegenConnectionPolicy) : Prop where
  files : Lowers tenant.maxFiles tenant'.maxFiles
  lines : Lowers tenant.maxLines tenant'.maxLines
  paths : ∀ pattern ∈ tenant.additionalProtectedPaths.values,
    pattern ∈ tenant'.additionalProtectedPaths.values

lemma Lowers.min_le {limit limit' : Option PositiveStrictInt} (h : Lowers limit limit')
    (ceiling : PositiveStrictInt) :
    min ceiling (limit'.getD ceiling) ≤ min ceiling (limit.getD ceiling) := by
  refine le_min (min_le_left _ _) ?_
  cases limit with
  | none => exact min_le_left _ _
  | some n =>
    obtain ⟨m, hm, hle⟩ := h n rfl
    rw [Option.mem_def] at hm
    subst hm
    exact (min_le_right _ _).trans hle

lemma WithinLimits.mono {maxFiles maxLines maxFiles' maxLines' : ℤ}
    (h : WithinLimits diffStat maxFiles maxLines) (hfiles : maxFiles ≤ maxFiles')
    (hlines : maxLines ≤ maxLines') : WithinLimits diffStat maxFiles' maxLines' := by
  obtain ⟨fields, files, additions, deletions, hstat, hf, ha, hd, hf0, ha0, hd0, hle, hle'⟩ := h
  exact ⟨fields, files, additions, deletions, hstat, hf, ha, hd, hf0, ha0, hd0, hle.trans hfiles,
    hle'.trans hlines⟩

/-- **The gates before a push.** A diff that passes is within the limits of the platform, and each of its
paths is protected by no pattern of any layer, but for the path of the verified runtime workflow where both
the platform and the tenant have it. Without exemptions, a tighter tenant policy lets no diff pass that did
not pass before. -/
theorem prePush_gate (repr : Str → Str) (secretKinds : Str → Except SecretScanError (List Str))
    (platform : PlatformCodegenSafetyPolicy) (tenant : TenantCodegenConnectionPolicy)
    (diffStat : DiffStat) (changedPaths : Option (List (Option Str))) (diffText : Option Str) :
    (∀ (exemptions : List VerifiedProtectedPathExemption) (result : GateResult),
      evaluatePrePush repr secretKinds diffStat changedPaths (resolveEffectivePolicy tenant platform)
        diffText exemptions = .ok result → result.passed = true →
      WithinLimits diffStat platform.maxFiles platform.maxLines ∧
      ∃ paths : List Str, changedPaths = some (paths.map some) ∧ ∀ path ∈ paths,
        (path = runtimeAcceptanceWorkflowPath ∧ exemptions ≠ [] ∧
          platform.runtimeWorkflowGenerationEnabled = true ∧ tenant.runtimeAcceptanceEnabled = true) ∨
        ∀ pattern, pattern ∈ defaultProtectedPatterns ∨
          pattern ∈ platform.additionalProtectedPaths.values ∨
          pattern ∈ tenant.additionalProtectedPaths.values → ¬ Protects pattern path) ∧
    ∀ (tenant' : TenantCodegenConnectionPolicy) (result : GateResult), Tightens tenant tenant' →
      evaluatePrePush repr secretKinds diffStat changedPaths (resolveEffectivePolicy tenant platform)
        diffText [] = .ok result → result.passed = false →
      ∃ result', evaluatePrePush repr secretKinds diffStat changedPaths
        (resolveEffectivePolicy tenant' platform) diffText [] = .ok result' ∧ result'.passed = false := by
  refine ⟨?_, ?_⟩
  · intro exemptions result hresult hpassed
    obtain ⟨hactive, hlimits, ⟨paths, hpaths, hprotected⟩, -⟩ := passed_iff.1 ⟨result, hresult, hpassed⟩
    refine ⟨hlimits.mono (min_le_left _ _) (min_le_left _ _), paths, ?_, ?_⟩
    · cases changedPaths with
      | none => simp [requireChangedPathList] at hpaths
      | some values => exact congrArg some (canonicalChangedPaths_eq_ok hpaths)
    · intro path hpath
      rcases hprotected path hpath with hexempt | hnone
      · obtain ⟨exemption, hin, rfl⟩ := List.mem_map.1 hexempt
        have hne : exemptions ≠ [] := List.ne_nil_of_mem hin
        have henabled := hactive.resolve_left hne
        rw [resolveEffectivePolicy, Bool.and_eq_true] at henabled
        exact .inl ⟨rfl, hne, henabled.1, henabled.2⟩
      · refine .inr fun pattern hpattern => hnone pattern (mem_sortedSet.2 ?_)
        simpa only [layeredPaths, List.mem_append, or_assoc] using hpattern
  · intro tenant' result htightens hresult hfailed
    have hok : ∃ result', evaluatePrePush repr secretKinds diffStat changedPaths
        (resolveEffectivePolicy tenant' platform) diffText [] = .ok result' := evaluate_isOk hresult
    obtain ⟨result', hresult'⟩ := hok
    refine ⟨result', hresult', ?_⟩
    by_contra hpassed
    rw [Bool.not_eq_false] at hpassed
    -- what passes under the tighter policy passes under the other one
    obtain ⟨-, hlimits, ⟨paths, hpaths, hprotected⟩, htext⟩ := passed_iff.1 ⟨result', hresult', hpassed⟩
    have hpass : ∃ r, evaluatePrePush repr secretKinds diffStat changedPaths
        (resolveEffectivePolicy tenant platform) diffText [] = .ok r ∧ r.passed = true := by
      refine passed_iff.2 ⟨.inl rfl, hlimits.mono (htightens.files.min_le _) (htightens.lines.min_le _),
        ⟨paths, hpaths, fun path hpath => (hprotected path hpath).imp id ?_⟩, htext⟩
      intro hnone pattern hpattern
      refine hnone pattern (mem_sortedSet.2 ?_)
      rcases List.mem_append.1 (mem_sortedSet.1 hpattern) with hpattern | hpattern
      · exact List.mem_append_left _ hpattern
      · exact List.mem_append_right _ (htightens.paths pattern hpattern)
    obtain ⟨r, hr, hr'⟩ := hpass
    obtain rfl : r = result := Except.ok.inj (hr.symm.trans hresult)
    exact absurd (hr'.symm.trans hfailed) (by decide)

/-- A platform with the limits of the default policy that lets workflows be generated. -/
def samplePlatform : PlatformCodegenSafetyPolicy :=
  ⟨⟨50, by decide⟩, ⟨2000, by decide⟩, ⟨[], by simp, .nil, by decide⟩, true⟩

/-- A tenant that lets workflows be generated. -/
def sampleTenant (maxFiles : Option PositiveStrictInt) : TenantCodegenConnectionPolicy :=
  ⟨maxFiles, none, ⟨[points "infra/*"], by decide +kernel, List.pairwise_singleton _ _, by decide⟩, true⟩

/-- The statistics of a diff. -/
def sampleStat : DiffStat := some [("files", .int 2), ("additions", .int 40), ("deletions", .int 3)]

/-- The paths of a diff that has the generated workflow. -/
def samplePaths : List (Option Str) := [some (points "src/app.py"), some runtimeAcceptanceWorkflowPath]

/-- A diff with the generated workflow passes with the exemption; without it, it passes neither under the
policy of the tenant nor under one with a limit. -/
theorem prePush_gate_workflow :
    WithinLimits sampleStat 50 2000 ∧
    ∃ result, evaluatePrePush id (fun _ => .ok []) sampleStat (some samplePaths)
      (resolveEffectivePolicy (sampleTenant (some ⟨10, by decide⟩)) samplePlatform) (some []) [] =
        .ok result ∧ result.passed = false := by
  have hgate := prePush_gate id (fun _ => .ok []) samplePlatform (sampleTenant none) sampleStat
    (some samplePaths) (some [])
  refine ⟨(hgate.1 [⟨points "a", points "b"⟩] ⟨true, []⟩ (by decide +kernel) rfl).1, ?_⟩
  refine hgate.2 _ ⟨false, [points ("Change touches protected path " ++
    ".github/workflows/apdl-runtime-acceptance.yml (matches .github/workflows/*).")]⟩
    ⟨?_, ?_, fun _ h => h⟩ (by decide +kernel) rfl
  · exact fun n hn => absurd hn (by simp [sampleTenant])
  · exact fun n hn => absurd hn (by simp [sampleTenant])

end Apdl.Codegen.Safety
