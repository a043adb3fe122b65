import Apdl.Codegen.Changeset.Store
import Apdl.Lib.Rows
import Apdl.Lib.StepMachine

set_option autoImplicit false

/-!
# The statements of pull request observations

`apply_pull_request_observation` is one transaction of several statements: the insert, the test for being
the newest, the lock of the row, and the update. A statement reads what is committed and what its own
transaction wrote, and the row lock is held to the end. The test is made before the lock is taken, so a
newer observation may be projected in between.

## Main results

* `projectPullRequest_spec`, `project_cases`, `commit_cases` — what a commit writes.

## Design

An insert waits for a transaction in flight that inserted a conflicting row, so it is a step only when
there is none. A transaction may be rolled back at any point, and is when a statement raises; the call is
then not answered. The calls that were answered are recorded.
-/

namespace Apdl.Codegen

/-- How far a transaction got. -/
inductive Phase
  | inserted
  /-- A newer observation was committed; only the insert is to be committed. -/
  | superseded
  | newest
  | locked
  deriving DecidableEq

structure Transaction where
  obs : PullRequestObservation
  phase : Phase
  deriving DecidableEq

/-- The committed tables, the transactions in flight and the calls that were answered. -/
structure Db where
  store : Store
  transactions : List Transaction
  calls : List PullRequestObservation

inductive Statement
  | insert (obs : PullRequestObservation)
  /-- The test for being the newest. -/
  | check (i : ℕ)
  /-- `SELECT … FOR UPDATE`. -/
  | lock (i : ℕ)
  | commit (i : ℕ)
  | rollback (i : ℕ)

/-- The changeset that is observed: its repository and pull request. -/
structure Observee where
  changesetId : Text
  repository : Text
  prNumber : ℕ

def PullRequestObservation.of (obs : PullRequestObservation) (target : Observee) : Bool :=
  obs.changesetId == target.changesetId && obs.repository == target.repository &&
    obs.prNumber == target.prNumber

/-- The committed rows of a changeset. -/
def Store.rowsOf (s : Store) (changesetId : Text) : List PullRequestObservation :=
  s.pullRequests.rows.filter fun o => o.changesetId == changesetId

/-- An insert: a duplicate is answered at once. -/
def Db.insert (d : Db) (obs : PullRequestObservation) : Option Db :=
  if d.transactions.any fun t => obs.conflicts t.obs then none
  else if d.store.pullRequests.rows.any obs.conflicts then some { d with calls := d.calls ++ [obs] }
  else some { d with transactions := d.transactions ++ [⟨obs, .inserted⟩] }

/-- The test for being the newest: of the committed rows and the own one. -/
def Db.check (d : Db) (i : ℕ) : Option Db :=
  d.transactions[i]?.bind fun t =>
    if t.phase ≠ .inserted then none
    else
      let latest := (newestPullRequest (d.store.pullRequests.rows ++ [t.obs]) t.obs.changesetId).map
        PullRequestObservation.observationId
      let phase := if latest = some t.obs.observationId then Phase.newest else Phase.superseded
      some { d with transactions := d.transactions.set i { t with phase := phase } }

/-- A transaction holds the lock of the row. -/
def Db.locked (d : Db) (changesetId : Text) : Bool :=
  d.transactions.any fun t => t.phase == .locked && t.obs.changesetId == changesetId

/-- The row lock: one transaction at a time. -/
def Db.lock (d : Db) (i : ℕ) : Option Db :=
  d.transactions[i]?.bind fun t =>
    if t.phase ≠ .newest ∨ d.locked t.obs.changesetId = true then none
    else some { d with transactions := d.transactions.set i { t with phase := .locked } }

/-- The end of a transaction: its rows become visible and its call is answered. -/
def Db.finish (d : Db) (i : ℕ) (t : Transaction) (changesets : Table Changeset.changesetId)
    (attempts : List CIRemediationAttempt) : Option Db :=
  (recordPullRequest d.store.pullRequests t.obs).map fun pullRequests =>
    { store := { d.store with
        changesets := changesets
        pullRequests := pullRequests
        attempts := attempts }
      transactions := d.transactions.eraseIdx i
      calls := d.calls ++ [t.obs] }

/-- The commit; a transaction that raises has none. -/
def Db.commit (d : Db) (i : ℕ) : Option Db :=
  d.transactions[i]?.bind fun t =>
    match t.phase with
    | .inserted | .newest => none
    | .superseded => d.finish i t d.store.changesets d.store.attempts
    | .locked =>
      (projectPullRequest d.store.changesets d.store.attempts t.obs).bind fun p =>
        d.finish i t p.1 p.2.1

/-- A rollback leaves nothing. -/
def Db.rollback (d : Db) (i : ℕ) : Option Db :=
  d.transactions[i]?.map fun _ => { d with transactions := d.transactions.eraseIdx i }

/-- One statement. -/
def Db.perform (d : Db) : Statement → Option Db
  | .insert obs => d.insert obs
  | .check i => d.check i
  | .lock i => d.lock i
  | .commit i => d.commit i
  | .rollback i => d.rollback i

/-- The statement is of a call for the changeset. -/
def Statement.concerns (target : Observee) : Statement → Bool
  | .insert obs => obs.of target
  | _ => true

/-- One statement of a call for the changeset. -/
def Db.step (target : Observee) (d : Db) (a : Statement) : Option Db :=
  if a.concerns target then d.perform a else none

/-- The calls for a changeset over a store. -/
def observing (target : Observee) (initial : Store) : StepMachine Db Statement where
  init := ⟨initial, [], []⟩
  step := Db.step target

/-- The lifecycle status of a pull request status. -/
def GitHubPRStatus.changesetStatus : GitHubPRStatus → ChangesetStatus
  | .merged => .merged
  | .closed => .abandoned
  | .draft | .opened => .prOpen

/-- The row has the status, the head and the lifecycle status of an observation. -/
def Changeset.Follows (row : Changeset) (obs : PullRequestObservation) : Prop :=
  row.githubPrStatus = some obs.status ∧ row.headSha = some obs.headSha ∧
    row.status = obs.status.changesetStatus

/-! ## One statement -/

variable {target : Observee} {initial : Store} {d d' : Db}

variable {obs : PullRequestObservation}

lemma of_iff : obs.of target = true ↔
    obs.changesetId = target.changesetId ∧ obs.repository = target.repository ∧
      obs.prNumber = target.prNumber := by
  simp [PullRequestObservation.of, and_assoc]

lemma lifecycle_eq_some {current next : ChangesetStatus}
    (h : lifecycle current obs = some next) : next = obs.status.changesetStatus := by
  unfold lifecycle at h
  unfold GitHubPRStatus.changesetStatus
  cases hs : obs.status <;> simp only [hs] at h ⊢
  · split_ifs at h <;> exact (Option.some.inj h).symm
  · split_ifs at h <;> exact (Option.some.inj h).symm
  · exact (Option.some.inj h).symm
  · exact (Option.some.inj h).symm

variable {changesets : Table Changeset.changesetId} {attempts : List CIRemediationAttempt}

lemma finish_spec {i : ℕ} {t : Transaction} (h : d.finish i t changesets attempts = some d') :
    d'.store.pullRequests.rows = d.store.pullRequests.rows ++ [t.obs] ∧
      d'.store.changesets = changesets ∧ d'.transactions = d.transactions.eraseIdx i ∧
      d'.calls = d.calls ++ [t.obs] := by
  obtain ⟨pullRequests, hrecord, rfl⟩ := Option.map_eq_some_iff.1 h
  unfold recordPullRequest at hrecord
  split at hrecord
  · cases hrecord
  · exact ⟨Table.rows_of_insert hrecord, rfl, rfl, rfl⟩

lemma rowsOf_append {s s' : Store} (hof : obs.of target = true)
    (h : s'.pullRequests.rows = s.pullRequests.rows ++ [obs]) :
    s'.rowsOf target.changesetId = s.rowsOf target.changesetId ++ [obs] := by
  have hself : [obs].filter (fun o => o.changesetId == target.changesetId) = [obs] := by
    simp [(of_iff.1 hof).1]
  rw [Store.rowsOf, h, List.filter_append, hself, Store.rowsOf]

lemma exists_newer {rows : List PullRequestObservation} (hof : obs.of target = true)
    (h : (newestPullRequest (rows ++ [obs]) obs.changesetId).map
      PullRequestObservation.observationId ≠ some obs.observationId) :
    ∃ o ∈ rows.filter (fun o => o.changesetId == target.changesetId), obs.order ≤ o.order := by
  unfold newestPullRequest at h
  have hc := (of_iff.1 hof).1
  have hmem : obs ∈ (rows ++ [obs]).filter fun o => o.changesetId == obs.changesetId :=
    List.mem_filter.2 ⟨List.mem_append_right _ (List.mem_singleton.2 rfl), beq_self_eq_true _⟩
  cases hm : ((rows ++ [obs]).filter fun o => o.changesetId == obs.changesetId).argmax
      PullRequestObservation.order with
  | none =>
    exact absurd (List.argmax_eq_none.1 hm) (List.ne_nil_of_mem hmem)
  | some m =>
    rw [hm, Option.map_some] at h
    have hle := List.le_of_mem_argmax hmem (Option.mem_def.2 hm)
    obtain ⟨hm', hmc⟩ := List.mem_filter.1 (List.argmax_mem (Option.mem_def.2 hm))
    rcases List.mem_append.1 hm' with hrow | hself
    · exact ⟨m, List.mem_filter.2 ⟨hrow, hc ▸ hmc⟩, hle⟩
    · exact absurd (by rw [List.mem_singleton.1 hself]) h

lemma projectPullRequest_spec {row : Changeset}
    {p : Table Changeset.changesetId × List CIRemediationAttempt × ApplyReason}
    (h : projectPullRequest changesets attempts obs = some p) (hof : obs.of target = true)
    (hrow : changesets.get target.changesetId = some row)
    (hrepository : row.repositoryFullName = target.repository)
    (hnumber : row.prNumber = some target.prNumber) (heligible : lifecycle row.status obs ≠ none) :
    ∃ row', p.1.get target.changesetId = some row' ∧ row'.Follows obs ∧
      row'.repositoryFullName = target.repository ∧ row'.prNumber = some target.prNumber := by
  obtain ⟨hc, hr, hn⟩ := of_iff.1 hof
  have hkey : row.changesetId = target.changesetId := Table.get_key hrow
  obtain ⟨next, hnext⟩ := Option.ne_none_iff_exists'.1 heligible
  have hsame : ¬ (row.repositoryFullName ≠ obs.repository ∨ row.prNumber ≠ some obs.prNumber) := by
    rw [hrepository, hnumber, hr, hn]
    simp
  unfold projectPullRequest at h
  rw [hc, hrow] at h
  dsimp only at h
  rw [if_neg hsame, hnext] at h
  obtain ⟨attempts', -, rfl⟩ := Option.map_eq_some_iff.1 h
  refine ⟨row.observe obs next, ?_, ⟨rfl, rfl, lifecycle_eq_some hnext⟩, hrepository, hnumber⟩
  have hself : (row.observe obs next).changesetId = target.changesetId := hkey
  dsimp only
  rw [Table.get_replace, if_pos hself.symm, hrow, Option.map_some]

/-! ## What a statement does to the changesets -/

/-- The row is of the pull request that is observed. -/
def Changeset.Matches (row : Changeset) (obs : PullRequestObservation) : Prop :=
  row.repositoryFullName = obs.repository ∧ row.prNumber = some obs.prNumber

instance (row : Changeset) (obs : PullRequestObservation) : Decidable (row.Matches obs) :=
  inferInstanceAs (Decidable (_ ∧ _))

/-- One row changes. -/
def Rewrites (t t' : Table Changeset.changesetId) (row row' : Changeset) : Prop :=
  t.get row.changesetId = some row ∧ row'.changesetId = row.changesetId ∧
    ∀ k, t'.get k = if k = row.changesetId then some row' else t.get k

lemma rewrites_of_replace {t t' : Table Changeset.changesetId} {row row' : Changeset}
    (hget : t.get row.changesetId = some row) (hkey : row'.changesetId = row.changesetId)
    (ht : t' = t.replace row') : Rewrites t t' row row' := by
  refine ⟨hget, hkey, fun k => ?_⟩
  rw [ht, Table.get_replace_of_get (by rw [hkey]; exact hget), hkey]

lemma commit_cases {d d' : Db} {i : ℕ} (h : d.commit i = some d') :
    d'.store.changesets = d.store.changesets ∨ ∃ t p, d.transactions[i]? = some t ∧ t.phase = .locked ∧
      projectPullRequest d.store.changesets d.store.attempts t.obs = some p ∧
      d'.store.changesets = p.1 := by
  obtain ⟨t, ht, h⟩ := Option.bind_eq_some_iff.1 h
  cases hphase : t.phase with
  | inserted | newest =>
    rw [hphase] at h
    cases h
  | superseded =>
    rw [hphase] at h
    exact .inl (finish_spec h).2.1
  | locked =>
    rw [hphase] at h
    obtain ⟨p, hp, h⟩ := Option.bind_eq_some_iff.1 h
    exact .inr ⟨t, p, ht, hphase, hp, (finish_spec h).2.1⟩

lemma project_cases {p : Table Changeset.changesetId × List CIRemediationAttempt × ApplyReason}
    (h : projectPullRequest changesets attempts obs = some p) :
    p.1 = changesets ∨ ∃ row next, changesets.get obs.changesetId = some row ∧ row.Matches obs ∧
      lifecycle row.status obs = some next ∧ p.1 = changesets.replace (row.observe obs next) := by
  unfold projectPullRequest at h
  cases hget : changesets.get obs.changesetId with
  | none =>
    rw [hget] at h
    cases h
    exact .inl rfl
  | some row =>
    rw [hget] at h
    dsimp only at h
    split at h
    · cases h
      exact .inl rfl
    rename_i hmatch
    obtain ⟨hrepository, hnumber⟩ := not_or.1 hmatch
    cases hnext : lifecycle row.status obs with
    | none =>
      rw [hnext] at h
      cases h
      exact .inl rfl
    | some next =>
      rw [hnext] at h
      obtain ⟨attempts', -, rfl⟩ := Option.map_eq_some_iff.1 h
      exact .inr ⟨row, next, rfl, ⟨not_not.1 hrepository, not_not.1 hnumber⟩, hnext, rfl⟩

lemma perform_changesets {d d' : Db} {a : Statement} (h : d.perform a = some d')
    (ha : ∀ i, a ≠ .commit i) : d'.store.changesets = d.store.changesets := by
  cases a with
  | insert obs =>
    rw [Db.perform, Db.insert] at h
    split at h
    · cases h
    split at h <;> cases h <;> rfl
  | check i =>
    obtain ⟨t, -, h⟩ := Option.bind_eq_some_iff.1 h
    split at h <;> cases h
    rfl
  | lock i =>
    obtain ⟨t, -, h⟩ := Option.bind_eq_some_iff.1 h
    split at h <;> cases h
    rfl
  | commit i => exact absurd rfl (ha i)
  | rollback i =>
    obtain ⟨t, -, rfl⟩ := Option.map_eq_some_iff.1 h
    rfl

end Apdl.Codegen
