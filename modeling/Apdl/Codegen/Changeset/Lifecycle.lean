import Apdl.Codegen.Changeset.Statements

set_option autoImplicit false

/-!
# The lifecycle of changesets

The lifecycle is enforced by one helper, `assert_transition`. The helper guards the status updates of the
jobs; the other writers of the status column (publication recovery, the stale sweep, pull request
observations) have conditions of their own.

## Main results

* `pushing_becomes_merged` — a pull request that is merged while its changeset is pushing.

## Design

An operation that raises changes nothing and is not a step. A write waits for the row lock of an observation.
A sweep writes several rows in one statement; here it is one step for each row. What the deadline of a
sweep selects is left to the step.
-/

namespace Apdl.Codegen

/-! ## Operations on one row -/

/-- `transition_changeset`; `none` where `assert_transition` raises. -/
def Changeset.transition (row : Changeset) (target : ChangesetStatus) (error : Option Text) :
    Option Changeset :=
  if canTransition row.status target then
    some { row with status := target, error := error.or row.error }
  else none

def Changeset.markMerged (row : Changeset) (mergeSha : Text) : Option Changeset :=
  if canTransition row.status .merged then
    some { row with status := .merged, mergeSha := some mergeSha }
  else none

/-- The update of `mark_pr_open`. -/
def Changeset.markPrOpen (row : Changeset) (obs : PullRequestObservation)
    (externalCiStatus : ExternalCIStatus) : Option Changeset :=
  if canTransition row.status .prOpen then
    some { row with
      status := .prOpen
      prNumber := some obs.prNumber
      headSha := some obs.headSha
      githubPrStatus := some obs.status
      externalCiStatus := some externalCiStatus
      ciRemediationStatus := .idle }
  else none

/-- `append_event` of a published branch. -/
def Changeset.branchPublished (row : Changeset) (headSha : Text) : Option Changeset :=
  some (if row.status = .pushing then { row with headSha := some headSha } else row)

/-- `append_event` of an accepted create; the receipt may lack the number. -/
def Changeset.createAccepted (row : Changeset) (prNumber : Option ℕ) : Option Changeset :=
  some (if row.status = .pushing then { row with prNumber := prNumber.or row.prNumber } else row)

/-- `append_terminal_event_and_error`. -/
def Changeset.terminalEvent (row : Changeset) (error : Text) : Option Changeset :=
  if row.status = .error then some row
  else if row.status ≠ .pushing then none
  else some { row with status := .error, error := some error }

def Changeset.ensureTerminalError (row : Changeset) (error : Text) : Option Changeset :=
  some (if row.status = .pushing then
    { row with status := .error, error := row.error.or (some error) } else row)

def activeStatuses : List ChangesetStatus := [.cloning, .editing, .pushing]

/-- `fail_stale_changesets` at a row past the deadline. -/
def Changeset.failStale (row : Changeset) (hasIntent : Bool) (error : Text) : Option Changeset :=
  some (if row.status ∈ activeStatuses ∧ (row.status ≠ .pushing ∨ hasIntent = false) then
    { row with status := .error, error := row.error.or (some error) } else row)

/-! ## The machine -/

/-- The tables, the transactions in flight and the changesets with an `intent_recorded` event. -/
structure World where
  db : Db
  intents : List Text

/-- What is done. -/
inductive Operation
  /-- A statement of `apply_pull_request_observation`. -/
  | observe (a : Statement)
  /-- A new changeset, also a retry or a revert. -/
  | create (changesetId projectId repositoryFullName : Text)
  | transition (changesetId : Text) (target : ChangesetStatus) (error : Option Text)
  | markMerged (changesetId mergeSha : Text)
  | markPrOpen (changesetId : Text) (obs : PullRequestObservation) (externalCiStatus : ExternalCIStatus)
  | recordIntent (changesetId : Text)
  | branchPublished (changesetId headSha : Text)
  | createAccepted (changesetId : Text) (prNumber : Option ℕ)
  | terminalEvent (changesetId error : Text)
  | ensureTerminalError (changesetId error : Text)
  | failStale (changesetId error : Text)

/-- The row of a changeset. -/
def World.get (w : World) (changesetId : Text) : Option Changeset := w.db.store.changesets.get changesetId

def World.withChangesets (w : World) (changesets : Table Changeset.changesetId) : World :=
  { w with db := { w.db with store := { w.db.store with changesets := changesets } } }

/-- The world with a row in the place of the one with its key. -/
def World.put (w : World) (row : Changeset) : World :=
  w.withChangesets (w.db.store.changesets.replace row)

/-- An update of one row: it waits for the row lock, and nothing is written where there is no row. -/
def World.write (w : World) (changesetId : Text) (f : Changeset → Option Changeset) : Option World :=
  if w.db.locked changesetId then none
  else
    match w.get changesetId with
    | none => some w
    | some row => (f row).map w.put

/-- The row of a new changeset. -/
def queuedRow (changesetId projectId repositoryFullName : Text) : Changeset where
  changesetId := changesetId
  projectId := projectId
  repositoryFullName := repositoryFullName
  status := .queued

/-- `mark_pr_open`: the journal row and the update. -/
def World.markPrOpen (w : World) (changesetId : Text) (obs : PullRequestObservation)
    (externalCiStatus : ExternalCIStatus) : Option World :=
  if obs.changesetId ≠ changesetId ∨ obs.action ≠ .opened then none
  -- the insert waits for an observation in flight that conflicts with it
  else if w.db.transactions.any fun t => obs.conflicts t.obs then none
  else
    (w.write changesetId fun row => row.markPrOpen obs externalCiStatus).bind fun w' =>
      if (w.get changesetId).isNone then some w
      else (recordPullRequest w.db.store.pullRequests obs).map fun pullRequests =>
        { w' with db := { w'.db with store := { w'.db.store with pullRequests := pullRequests } } }

def World.recordIntent (w : World) (changesetId : Text) : Option World :=
  if changesetId ∈ w.intents then some w
  else
    (w.get changesetId).bind fun row =>
      if w.db.locked changesetId ∨ row.status ≠ .pushing then none
      else some { w with intents := w.intents ++ [changesetId] }

/-- One operation. -/
def World.step (w : World) : Operation → Option World
  | .observe a => (w.db.perform a).map fun db => { w with db := db }
  | .create changesetId projectId repositoryFullName =>
    (w.db.store.changesets.insert (queuedRow changesetId projectId repositoryFullName)).map
      w.withChangesets
  | .transition changesetId target error => w.write changesetId fun row => row.transition target error
  | .markMerged changesetId mergeSha => w.write changesetId fun row => row.markMerged mergeSha
  | .markPrOpen changesetId obs externalCiStatus => w.markPrOpen changesetId obs externalCiStatus
  | .recordIntent changesetId => w.recordIntent changesetId
  | .branchPublished changesetId headSha => w.write changesetId fun row => row.branchPublished headSha
  | .createAccepted changesetId prNumber => w.write changesetId fun row => row.createAccepted prNumber
  | .terminalEvent changesetId error => w.write changesetId fun row => row.terminalEvent error
  | .ensureTerminalError changesetId error =>
    w.write changesetId fun row => row.ensureTerminalError error
  | .failStale changesetId error =>
    w.write changesetId fun row => row.failStale (decide (changesetId ∈ w.intents)) error

/-- The operations from empty tables. -/
def lifecycles : StepMachine World Operation where
  init := ⟨⟨⟨.empty, .empty, .empty, []⟩, [], []⟩, []⟩
  step := World.step

/-! ## Lawful steps -/

/-- A status that is kept or changes as `ALLOWED_TRANSITIONS` lists. -/
def LawfulChange (current next : ChangesetStatus) : Prop :=
  next = current ∨ canTransition current next = true

/-- Every changeset stays, and its status is kept or changes as `ALLOWED_TRANSITIONS` lists. -/
def Lawful (w w' : World) : Prop :=
  ∀ changesetId row, w.get changesetId = some row →
    ∃ row', w'.get changesetId = some row' ∧ LawfulChange row.status row'.status

/-- The step does not project an observation that a pull request was merged or closed onto a row outside
`pr_open`, unless the row has the status already. -/
def Expected (w : World) : Operation → Prop
  | .observe (.commit i) => ∀ t ∈ w.db.transactions[i]?, t.phase = .locked → t.obs.status.live = false →
      ∀ row ∈ w.get t.obs.changesetId, row.Matches t.obs →
        row.status = .prOpen ∨ row.status = t.obs.status.changesetStatus
  | _ => True

instance (w : World) : (op : Operation) → Decidable (Expected w op)
  | .observe (.commit i) => inferInstanceAs (Decidable (∀ t ∈ w.db.transactions[i]?, _ → _ →
      ∀ row ∈ w.get t.obs.changesetId, _ → _))
  | .observe (.insert _) | .observe (.check _) | .observe (.lock _) | .observe (.rollback _)
  | .create _ _ _ | .transition _ _ _ | .markMerged _ _ | .markPrOpen _ _ _ | .recordIntent _
  | .branchPublished _ _ | .createAccepted _ _ | .terminalEvent _ _ | .ensureTerminalError _ _
  | .failStale _ _ => .isTrue trivial

/-! ## What an operation does to a row -/

/-- A changeset with a pull request number is past its early statuses. -/
def Changeset.Numbered (row : Changeset) : Prop :=
  row.prNumber.isSome = true → row.status ∉ [.queued, .cloning, .editing]

/-- What every writer but the projection of an observation does to a row. -/
structure RowStep (row row' : Changeset) : Prop where
  key : row'.changesetId = row.changesetId
  lawful : LawfulChange row.status row'.status
  numbered : row.Numbered → row'.Numbered

variable {current : ChangesetStatus}

lemma early_of_canTransition {target : ChangesetStatus} (h : canTransition current target = true)
    (htarget : target ∈ [ChangesetStatus.queued, .cloning, .editing]) :
    current ∈ [ChangesetStatus.queued, .cloning, .editing] := by
  cases current <;> cases target <;> first | decide | exact absurd h (by decide) |
    exact absurd htarget (by decide)

variable {row row' : Changeset}

lemma RowStep.of_canTransition (hkey : row'.changesetId = row.changesetId)
    (h : canTransition row.status row'.status = true) (hnumber : row'.prNumber = row.prNumber) :
    RowStep row row' :=
  ⟨hkey, .inr h, fun hn hsome htarget =>
    hn (hnumber ▸ hsome) (early_of_canTransition h htarget)⟩

lemma RowStep.of_late (hkey : row'.changesetId = row.changesetId)
    (h : LawfulChange row.status row'.status)
    (hlate : row'.status ∉ [ChangesetStatus.queued, .cloning, .editing]) : RowStep row row' :=
  ⟨hkey, h, fun _ _ => hlate⟩

lemma RowStep.of_same (hkey : row'.changesetId = row.changesetId)
    (hstatus : row'.status = row.status) (hnumber : row'.prNumber = row.prNumber) : RowStep row row' :=
  ⟨hkey, .inl hstatus, fun hn hsome => by
    rw [hstatus]
    exact hn (hnumber ▸ hsome)⟩

lemma transition_rowStep {target : ChangesetStatus} {error : Option Text}
    (h : row.transition target error = some row') : RowStep row row' := by
  unfold Changeset.transition at h
  split at h
  · rename_i hcan
    cases h
    exact .of_canTransition rfl hcan rfl
  · cases h

lemma markMerged_rowStep {mergeSha : Text}
    (h : row.markMerged mergeSha = some row') : RowStep row row' := by
  unfold Changeset.markMerged at h
  split at h
  · rename_i hcan
    cases h
    exact .of_canTransition rfl hcan rfl
  · cases h

lemma markPrOpen_rowStep {obs : PullRequestObservation} {externalCiStatus : ExternalCIStatus}
    (h : row.markPrOpen obs externalCiStatus = some row') : RowStep row row' := by
  unfold Changeset.markPrOpen at h
  split at h
  · rename_i hcan
    cases h
    exact .of_late rfl (.inr hcan) (by simp)
  · cases h

lemma branchPublished_rowStep {headSha : Text}
    (h : row.branchPublished headSha = some row') : RowStep row row' := by
  cases h
  split <;> exact .of_same rfl rfl rfl

lemma createAccepted_rowStep {prNumber : Option ℕ}
    (h : row.createAccepted prNumber = some row') : RowStep row row' := by
  cases h
  split
  · rename_i hpushing
    exact .of_late rfl (.inl rfl) (by simp [hpushing])
  · exact .of_same rfl rfl rfl

lemma error_rowStep {error : Option Text} (h : canTransition row.status .error = true) :
    RowStep row { row with status := .error, error := error } :=
  .of_late rfl (.inr h) (by simp)

variable {error : Text}

lemma terminalEvent_rowStep (h : row.terminalEvent error = some row') : RowStep row row' := by
  unfold Changeset.terminalEvent at h
  split at h
  · cases h
    exact .of_same rfl rfl rfl
  split at h
  · cases h
  · rename_i hpushing
    cases h
    exact error_rowStep (by rw [not_not.1 hpushing]; decide)

lemma ensureTerminalError_rowStep
    (h : row.ensureTerminalError error = some row') : RowStep row row' := by
  cases h
  split
  · rename_i hpushing
    exact error_rowStep (by rw [hpushing]; decide)
  · exact .of_same rfl rfl rfl

lemma failStale_rowStep {hasIntent : Bool}
    (h : row.failStale hasIntent error = some row') : RowStep row row' := by
  cases h
  split
  · rename_i hactive
    have hcan : canTransition row.status .error = true := by
      rcases List.mem_cons.1 hactive.1 with hs | hs
      · rw [hs]; decide
      · rcases List.mem_pair.1 hs with hs | hs <;> rw [hs] <;> decide
    exact error_rowStep hcan
  · exact .of_same rfl rfl rfl

/-- The projection of an observation onto a row. -/
def Projects (w : World) (op : Operation) (row row' : Changeset) : Prop :=
  ∃ i t next, op = .observe (.commit i) ∧ w.db.transactions[i]? = some t ∧ t.phase = .locked ∧
    row.changesetId = t.obs.changesetId ∧ row.Matches t.obs ∧
    lifecycle row.status t.obs = some next ∧ row' = row.observe t.obs next

variable {w w' : World}

lemma write_cases {changesetId : Text} {f : Changeset → Option Changeset}
    (h : w.write changesetId f = some w') (hf : ∀ row row', f row = some row' → RowStep row row') :
    (∀ k, w'.get k = w.get k) ∨ ∃ row row', Rewrites w.db.store.changesets w'.db.store.changesets row row' ∧ RowStep row row' := by
  unfold World.write at h
  split at h
  · cases h
  cases hget : w.get changesetId with
  | none =>
    rw [hget] at h
    cases h
    exact .inl fun _ => rfl
  | some row =>
    rw [hget] at h
    obtain ⟨row', hrow', rfl⟩ := Option.map_eq_some_iff.1 h
    have hstep := hf row row' hrow'
    have hkey : row.changesetId = changesetId := Table.get_key hget
    exact .inr ⟨row, row', rewrites_of_replace (hkey ▸ hget) hstep.key rfl, hstep⟩

variable {op : Operation}

theorem step_cases (h : w.step op = some w') : (∀ k, w'.get k = w.get k) ∨
      (∃ row, row.Numbered ∧ w.get row.changesetId = none ∧
        ∀ k, w'.get k = if k = row.changesetId then some row else w.get k) ∨
      ∃ row row', Rewrites w.db.store.changesets w'.db.store.changesets row row' ∧ (RowStep row row' ∨ Projects w op row row') := by
  have hwrite : ∀ {changesetId : Text} {f : Changeset → Option Changeset},
      w.write changesetId f = some w' → (∀ row row', f row = some row' → RowStep row row') →
      (∀ k, w'.get k = w.get k) ∨
        (∃ row, row.Numbered ∧ w.get row.changesetId = none ∧
          ∀ k, w'.get k = if k = row.changesetId then some row else w.get k) ∨
        ∃ row row', Rewrites w.db.store.changesets w'.db.store.changesets row row' ∧ (RowStep row row' ∨ Projects w op row row') := by
    intro changesetId f hw hf
    rcases write_cases hw hf with hsame | ⟨row, row', hchange, hstep⟩
    · exact .inl hsame
    · exact .inr (.inr ⟨row, row', hchange, .inl hstep⟩)
  cases op with
  | observe a =>
    obtain ⟨db, hdb, rfl⟩ := Option.map_eq_some_iff.1 h
    by_cases hcommit : ∃ i, a = .commit i
    · obtain ⟨i, rfl⟩ := hcommit
      rcases commit_cases hdb with hsame | ⟨t, p, ht, hphase, hp, hchangesets⟩
      · exact .inl fun k => congrArg (fun c => Table.get c k) hsame
      rcases project_cases hp with hsame | ⟨row, next, hget, hmatch, hnext, hreplace⟩
      · exact .inl fun k => congrArg (fun c => Table.get c k) (hchangesets.trans hsame)
      have hkey : row.changesetId = t.obs.changesetId := Table.get_key hget
      refine .inr (.inr ⟨row, row.observe t.obs next,
        rewrites_of_replace (hkey ▸ hget) rfl (hchangesets.trans hreplace), .inr ?_⟩)
      exact ⟨i, t, next, rfl, ht, hphase, hkey, hmatch, hnext, rfl⟩
    · have hsame := perform_changesets hdb fun i hi => hcommit ⟨i, hi⟩
      exact .inl fun k => congrArg (fun c => Table.get c k) hsame
  | create changesetId projectId repositoryFullName =>
    obtain ⟨changesets, hinsert, rfl⟩ := Option.map_eq_some_iff.1 h
    refine .inr (.inl ⟨queuedRow changesetId projectId repositoryFullName, ?_,
      Table.get_of_insert hinsert, fun k => Table.get_insert hinsert k⟩)
    intro hsome
    cases hsome
  | transition changesetId target error => exact hwrite h fun _ _ => transition_rowStep
  | markMerged changesetId mergeSha => exact hwrite h fun _ _ => markMerged_rowStep
  | markPrOpen changesetId obs externalCiStatus =>
    rw [World.step, World.markPrOpen] at h
    split at h
    · cases h
    split at h
    · cases h
    obtain ⟨w₁, hw₁, h⟩ := Option.bind_eq_some_iff.1 h
    split at h
    · cases h
      exact .inl fun _ => rfl
    obtain ⟨pullRequests, -, rfl⟩ := Option.map_eq_some_iff.1 h
    rcases write_cases hw₁ fun _ _ => markPrOpen_rowStep with hsame | ⟨row, row', hchange, hstep⟩
    · exact .inl hsame
    · exact .inr (.inr ⟨row, row', hchange, .inl hstep⟩)
  | recordIntent changesetId =>
    rw [World.step, World.recordIntent] at h
    split at h
    · cases h
      exact .inl fun _ => rfl
    obtain ⟨row, -, h⟩ := Option.bind_eq_some_iff.1 h
    split at h
    · cases h
    · cases h
      exact .inl fun _ => rfl
  | branchPublished changesetId headSha => exact hwrite h fun _ _ => branchPublished_rowStep
  | createAccepted changesetId prNumber => exact hwrite h fun _ _ => createAccepted_rowStep
  | terminalEvent changesetId error => exact hwrite h fun _ _ => terminalEvent_rowStep
  | ensureTerminalError changesetId error => exact hwrite h fun _ _ => ensureTerminalError_rowStep
  | failStale changesetId error => exact hwrite h fun _ _ => failStale_rowStep

/-! ## Runs -/

lemma changesetStatus_late (status : GitHubPRStatus) :
    status.changesetStatus ∉ [ChangesetStatus.queued, .cloning, .editing] := by
  cases status <;> decide

lemma get_of_rewrites (h : Rewrites w.db.store.changesets w'.db.store.changesets row row') :
    w.get row.changesetId = some row ∧
      ∀ k, w'.get k = if k = row.changesetId then some row' else w.get k := ⟨h.1, h.2.2⟩

/-- **Numbered changesets are past their early statuses.** -/
lemma numbered_of_reach (hr : lifecycles.Reach w) :
    ∀ k row, w.get k = some row → row.Numbered := by
  refine StepMachine.Reach.induct (P := fun w => ∀ k row, w.get k = some row → row.Numbered)
    (fun k row h => by cases h) ?_ hr
  intro w op w' _ hw hstep k row hget
  rcases step_cases hstep with hsame | ⟨new, hnew, -, hget'⟩ | ⟨old, next, hrewrites, hchange⟩
  · exact hw k row (hsame k ▸ hget)
  · rw [hget'] at hget
    split at hget
    · exact Option.some.inj hget ▸ hnew
    · exact hw k row hget
  · obtain ⟨hold, hget'⟩ := get_of_rewrites hrewrites
    rw [hget'] at hget
    split at hget
    · cases Option.some.inj hget
      rcases hchange with hrow | ⟨i, t, status, -, -, -, -, -, hstatus, rfl⟩
      · exact hrow.numbered (hw _ old hold)
      · intro _
        have hlate := changesetStatus_late t.obs.status
        rwa [← lifecycle_eq_some hstatus] at hlate
    · exact hw k row hget

lemma expected_of_lawful {status : GitHubPRStatus} (hfinished : status.live = false)
    (hlate : current ∉ [ChangesetStatus.queued, .cloning, .editing])
    (h : LawfulChange current status.changesetStatus) :
    current = .prOpen ∨ current = status.changesetStatus := by
  unfold LawfulChange at h
  cases status with
  | draft | opened => cases hfinished
  | merged => cases current <;> revert h hlate <;> decide
  | closed => cases current <;> revert h hlate <;> decide

lemma lawful_of_live {next : ChangesetStatus} {obs : PullRequestObservation}
    (hlive : obs.status.live = true) (h : lifecycle current obs = some next) :
    LawfulChange current next := by
  unfold lifecycle at h
  cases hs : obs.status with
  | draft | opened =>
    rw [hs] at h
    dsimp only at h
    split_ifs at h with habandoned hopen
    · cases h
      exact .inr (by rw [habandoned.1]; decide)
    · cases h
      exact .inl hopen.symm
  | merged | closed =>
    rw [hs] at hlive
    cases hlive

lemma lawful_of_open {status : GitHubPRStatus} (hfinished : status.live = false) :
    LawfulChange .prOpen status.changesetStatus := by
  cases status with
  | draft | opened => cases hfinished
  | merged | closed => exact .inr (by decide)

lemma commit_projects {i : ℕ} {t : Transaction}
    (h : w.step (.observe (.commit i)) = some w') (ht : w.db.transactions[i]? = some t)
    (hphase : t.phase = .locked) (hfinished : t.obs.status.live = false)
    (hget : w.get t.obs.changesetId = some row) (hmatch : row.Matches t.obs) :
    ∃ row', w'.get t.obs.changesetId = some row' ∧ row'.status = t.obs.status.changesetStatus := by
  obtain ⟨db, hdb, rfl⟩ := Option.map_eq_some_iff.1 h
  obtain ⟨t', ht', hdb⟩ := Option.bind_eq_some_iff.1 hdb
  cases Option.some.inj (ht.symm.trans ht')
  rw [hphase] at hdb
  obtain ⟨p, hp, hdb⟩ := Option.bind_eq_some_iff.1 hdb
  have heligible : lifecycle row.status t.obs ≠ none := by
    unfold lifecycle
    cases hs : t.obs.status with
    | draft | opened =>
      rw [hs] at hfinished
      cases hfinished
    | merged | closed => exact Option.some_ne_none _
  have hof : t.obs.of ⟨t.obs.changesetId, t.obs.repository, t.obs.prNumber⟩ = true :=
    of_iff.2 ⟨rfl, rfl, rfl⟩
  obtain ⟨row', hrow', hfollows, -, -⟩ :=
    projectPullRequest_spec hp hof hget hmatch.1 hmatch.2 heligible
  refine ⟨row', ?_, hfollows.2.2⟩
  show db.store.changesets.get t.obs.changesetId = some row'
  rw [(finish_spec hdb).2.1, hrow']

theorem lawful_iff (hr : lifecycles.Reach w)
    (h : w.step op = some w') : Lawful w w' ↔ Expected w op := by
  constructor
  · intro hlawful
    unfold Expected
    split
    · rename_i i
      intro t ht hphase hfinished row hget hmatch
      obtain ⟨row', hget', hstatus⟩ := commit_projects h ht hphase hfinished hget hmatch
      obtain ⟨row'', hget'', hchange⟩ := hlawful _ row hget
      rw [Option.some.inj (hget''.symm.trans hget'), hstatus] at hchange
      have hnumbered := numbered_of_reach hr _ row hget
      exact expected_of_lawful hfinished (hnumbered (by rw [hmatch.2]; rfl)) hchange
    · trivial
  · intro hexpected k row hget
    rcases step_cases h with hsame | ⟨new, -, hnone, hget'⟩ | ⟨old, next, hrewrites, hchange⟩
    · exact ⟨row, (hsame k).trans hget, .inl rfl⟩
    · have hne : k ≠ new.changesetId := by
        rintro rfl
        rw [hnone] at hget
        cases hget
      exact ⟨row, by rw [hget', if_neg hne, hget], .inl rfl⟩
    · obtain ⟨hold, hget'⟩ := get_of_rewrites hrewrites
      by_cases hk : k = old.changesetId
      · subst hk
        cases Option.some.inj (hget.symm.trans hold)
        refine ⟨next, by rw [hget', if_pos rfl], ?_⟩
        rcases hchange with hrow | ⟨i, t, status, rfl, ht, hphase, hkey, hmatch, hstatus, rfl⟩
        · exact hrow.lawful
        · show LawfulChange row.status status
          cases hlive : t.obs.status.live with
          | true => exact lawful_of_live hlive hstatus
          | false =>
            rw [lifecycle_eq_some hstatus]
            rcases hexpected t ht hphase hlive row (hkey ▸ hget) hmatch with hopen | hsame
            · rw [hopen]
              exact lawful_of_open hlive
            · exact .inl hsame.symm
      · exact ⟨row, by rw [hget', if_neg hk, hget], .inl rfl⟩

lemma reach_of_takes {ops : List Operation}
    (h : lifecycles.Takes lifecycles.init ops w op) : lifecycles.Reach w := by
  obtain ⟨before, after, -, hrun⟩ := h
  exact StepMachine.reach_of_run hrun

lemma step_of_takes {ops : List Operation} {t : World}
    (hrun : lifecycles.run lifecycles.init ops = some w)
    (h : lifecycles.Takes lifecycles.init ops t op) : ∃ t', t.step op = some t' := by
  obtain ⟨before, after, rfl, hbefore⟩ := h
  rw [StepMachine.run_append, hbefore, Option.bind_some, StepMachine.run_cons] at hrun
  obtain ⟨t', ht', -⟩ := Option.bind_eq_some_iff.1 hrun
  exact ⟨t', ht'⟩

/-- **Every status change of a run is listed** exactly when every step of the run is expected. -/
theorem lawful_run_iff {ops : List Operation} {w : World}
    (hrun : lifecycles.run lifecycles.init ops = some w) :
    (∀ t op t', lifecycles.Takes lifecycles.init ops t op → t.step op = some t' → Lawful t t') ↔
      ∀ t op, lifecycles.Takes lifecycles.init ops t op → Expected t op := by
  constructor
  · intro hlawful t op htakes
    obtain ⟨t', ht'⟩ := step_of_takes hrun htakes
    exact (lawful_iff (reach_of_takes htakes) ht').1 (hlawful t op t' htakes ht')
  · intro hexpected t op t' htakes ht'
    exact (lawful_iff (reach_of_takes htakes) ht').2 (hexpected t op htakes)

/-! ## A pull request that is merged early -/

/-- The merge of pull request 7 of `acme/shop`. -/
def exampleMerge : PullRequestObservation where
  observationId := Text.ofString "pr_observation:3"
  deliveryId := some (Text.ofString "delivery-3")
  changesetId := Text.ofString "cs-1"
  repository := Text.ofString "acme/shop"
  prNumber := 7
  headSha := Text.ofString "4f2a9c"
  status := .merged
  action := .closed
  mergeSha := some (Text.ofString "77e01d")
  githubUpdatedAt := 3
  observedAt := 3
  merge_sha_only_for_merge := rfl
  status_allowed := by decide

def exampleOpening : PullRequestObservation :=
  { examplePush "pr_observation:2" "4f2a9c" 2 with action := .opened, status_allowed := by decide }

/-- A changeset up to the accepted create of its pull request. -/
def publishing : List Operation :=
  let cs := Text.ofString "cs-1"
  [.create cs (Text.ofString "p-1") (Text.ofString "acme/shop"), .transition cs .cloning none,
    .transition cs .editing none, .transition cs .pushing none, .recordIntent cs,
    .branchPublished cs (Text.ofString "4f2a9c"), .createAccepted cs (some 7)]

def observingMerge : List Operation :=
  [.observe (.insert exampleMerge), .observe (.check 0), .observe (.lock 0), .observe (.commit 0)]

/-- A changeset that is published and merged: every status change is listed. -/
theorem lawful_run_iff_published : ∃ w,
    lifecycles.run lifecycles.init (publishing ++
      .markPrOpen (Text.ofString "cs-1") exampleOpening .pending :: observingMerge) = some w ∧
    (w.get (Text.ofString "cs-1")).map Changeset.status = some .merged ∧
    ∀ t op t', lifecycles.Takes lifecycles.init (publishing ++
      .markPrOpen (Text.ofString "cs-1") exampleOpening .pending :: observingMerge) t op →
      t.step op = some t' → Lawful t t' := by
  have hrun : (lifecycles.runUnder Expected lifecycles.init (publishing ++
      .markPrOpen (Text.ofString "cs-1") exampleOpening .pending :: observingMerge)).map
        (fun w => (w.get (Text.ofString "cs-1")).map Changeset.status) = some (some .merged) := by
    decide +kernel
  obtain ⟨w, hw, hstatus⟩ := Option.map_eq_some_iff.1 hrun
  have hplain := StepMachine.run_of_runUnder hw
  exact ⟨w, hplain, hstatus,
    (lawful_run_iff hplain).2 fun t op htakes => StepMachine.ok_of_takes hw htakes⟩

/-- **A pull request that is merged while its changeset is pushing**: the status goes from `pushing` to
`merged`, which is not listed. -/
theorem pushing_becomes_merged : ∃ w t t',
    lifecycles.run lifecycles.init (publishing ++ observingMerge) = some w ∧
    lifecycles.Takes lifecycles.init (publishing ++ observingMerge) t (.observe (.commit 0)) ∧
    t.step (.observe (.commit 0)) = some t' ∧
    (t.get (Text.ofString "cs-1")).map Changeset.status = some .pushing ∧
    (t'.get (Text.ofString "cs-1")).map Changeset.status = some .merged ∧ ¬ Lawful t t' := by
  have hbefore : ((lifecycles.run lifecycles.init (publishing ++ observingMerge.dropLast)).map
      fun t => (t.get (Text.ofString "cs-1")).map Changeset.status) = some (some .pushing) := by
    decide +kernel
  have hafter : ((lifecycles.run lifecycles.init (publishing ++ observingMerge)).map
      fun t => (t.get (Text.ofString "cs-1")).map Changeset.status) = some (some .merged) := by
    decide +kernel
  obtain ⟨t, ht, hpushing⟩ := Option.map_eq_some_iff.1 hbefore
  obtain ⟨w, hw, hmerged⟩ := Option.map_eq_some_iff.1 hafter
  have hsplit : publishing ++ observingMerge =
      (publishing ++ observingMerge.dropLast) ++ [.observe (.commit 0)] := rfl
  have hstep : t.step (.observe (.commit 0)) = some w := by
    have hw' := hw
    rw [hsplit, StepMachine.run_append, ht, Option.bind_some, StepMachine.run_cons] at hw'
    obtain ⟨t', ht', hrest⟩ := Option.bind_eq_some_iff.1 hw'
    rw [StepMachine.run_nil] at hrest
    rw [← hrest]
    exact ht'
  refine ⟨w, t, w, hw, ⟨_, [], hsplit, ht⟩, hstep, hpushing, hmerged, ?_⟩
  intro hlawful
  obtain ⟨row, hrow, hstatus⟩ := Option.map_eq_some_iff.1 hpushing
  obtain ⟨row', hrow', hchange⟩ := hlawful _ row hrow
  rw [hrow', Option.map_some, Option.some.injEq] at hmerged
  rw [hstatus, hmerged] at hchange
  rcases hchange with hsame | hlisted
  · cases hsame
  · exact absurd hlisted (by decide)

end Apdl.Codegen
