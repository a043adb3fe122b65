import Apdl.Codegen.Changeset.Statements

set_option autoImplicit false

/-!
# Pull request observations that are applied concurrently

Once all transactions have ended, the row is to show the newest observation. It does if no step of the run
loses a newer one; an older observation that is tested first and projected last overwrites a newer one.

## Main results

* `older_overwrites_newer` — two transactions after which the row shows the older observation.
-/

namespace Apdl.Codegen

/-! ## What is to be shown -/

/-- The row of the changeset follows the newest of some observations. -/
def FollowsNewest (s : Store) (target : Observee) (observations : List PullRequestObservation) : Prop :=
  ∃ row, s.changesets.get target.changesetId = some row ∧
    ∃ obs ∈ observations, (∀ o ∈ observations, o.order ≤ obs.order) ∧ row.Follows obs

/-- The row of an open pull request that follows what is journaled of it. -/
structure Store.Starts (s : Store) (target : Observee) : Prop where
  row : ∃ row, s.changesets.get target.changesetId = some row ∧ row.status = .prOpen ∧
    row.repositoryFullName = target.repository ∧ row.prNumber = some target.prNumber
  journal : s.rowsOf target.changesetId ≠ [] →
    FollowsNewest s target (s.rowsOf target.changesetId)

/-- The step loses no newer observation: a duplicate is not newer than every journaled observation, and an
observation that is projected is not older than a committed one and is eligible. -/
def Orderly (target : Observee) (d : Db) : Statement → Prop
  | .insert obs => d.store.pullRequests.rows.any obs.conflicts = true →
      ∃ o ∈ d.store.rowsOf target.changesetId, obs.order ≤ o.order
  | .commit i => ∀ t ∈ d.transactions[i]?, t.phase = .locked →
      (∀ o ∈ d.store.rowsOf target.changesetId, o.order ≤ t.obs.order) ∧
        ∀ row ∈ d.store.changesets.get target.changesetId, lifecycle row.status t.obs ≠ none
  | _ => True

instance (target : Observee) (d : Db) : (a : Statement) → Decidable (Orderly target d a)
  | .insert _ => inferInstanceAs (Decidable (_ → ∃ o ∈ d.store.rowsOf target.changesetId, _))
  | .commit i => inferInstanceAs (Decidable (∀ t ∈ d.transactions[i]?, _ → _))
  | .check _ | .lock _ | .rollback _ => inferInstanceAs (Decidable True)

variable {target : Observee} {initial : Store} {d d' : Db}

/-! ## The invariant -/

/-- What orderly statements keep. -/
structure Db.Inv (target : Observee) (initial : Store) (d : Db) : Prop where
  row : ∃ row, d.store.changesets.get target.changesetId = some row ∧
    row.repositoryFullName = target.repository ∧ row.prNumber = some target.prNumber
  of : ∀ t ∈ d.transactions, t.obs.of target = true
  /-- Every answered call is as old as a committed row. -/
  covered : ∀ o ∈ initial.rowsOf target.changesetId ++ d.calls,
    ∃ j ∈ d.store.rowsOf target.changesetId, o.order ≤ j.order
  journaled : ∀ j ∈ d.store.rowsOf target.changesetId,
    j ∈ initial.rowsOf target.changesetId ++ d.calls
  /-- A superseded observation is as old as a committed row. -/
  superseded : ∀ t ∈ d.transactions, t.phase = .superseded →
    ∃ j ∈ d.store.rowsOf target.changesetId, t.obs.order ≤ j.order
  shown : d.store.rowsOf target.changesetId ≠ [] →
    FollowsNewest d.store target (d.store.rowsOf target.changesetId)

lemma Db.Inv.init (hstart : initial.Starts target) : (observing target initial).init.Inv target initial := by
  obtain ⟨row, hrow, -, hrepository, hnumber⟩ := hstart.row
  exact {
    row := ⟨row, hrow, hrepository, hnumber⟩
    of := fun t ht => absurd ht List.not_mem_nil
    covered := fun o ho => ⟨o, by simpa [observing] using ho, le_rfl⟩
    journaled := fun j hj => List.mem_append_left _ hj
    superseded := fun t ht => absurd ht List.not_mem_nil
    shown := hstart.journal }

lemma Db.Inv.of_transactions (h : d.Inv target initial) (hstore : d'.store = d.store)
    (hcalls : d'.calls = d.calls)
    (hnew : ∀ t ∈ d'.transactions, t ∈ d.transactions ∨ t.obs.of target = true ∧
      (t.phase = .superseded → ∃ j ∈ d.store.rowsOf target.changesetId, t.obs.order ≤ j.order)) :
    d'.Inv target initial where
  row := hstore ▸ h.row
  of t ht := by
    rcases hnew t ht with hold | ⟨hof, -⟩
    · exact h.of t hold
    · exact hof
  covered := by
    rw [hcalls, hstore]
    exact h.covered
  journaled := by
    rw [hcalls, hstore]
    exact h.journaled
  superseded t ht hphase := by
    rw [hstore]
    rcases hnew t ht with hold | ⟨-, hsup⟩
    · exact h.superseded t hold hphase
    · exact hsup hphase
  shown := by
    rw [hstore]
    exact h.shown

lemma Db.Inv.set_phase (h : d.Inv target initial) {i : ℕ} {t : Transaction} {phase : Phase}
    (ht : d.transactions[i]? = some t)
    (hsup : phase = .superseded → ∃ j ∈ d.store.rowsOf target.changesetId, t.obs.order ≤ j.order) :
    ({ d with transactions := d.transactions.set i { t with phase := phase } } : Db).Inv
      target initial := by
  refine h.of_transactions rfl rfl fun t' ht' => ?_
  rcases List.mem_or_eq_of_mem_set ht' with hold | rfl
  · exact .inl hold
  · exact .inr ⟨h.of t (List.mem_of_getElem? ht), hsup⟩

lemma Db.Inv.finish (h : d.Inv target initial) {i : ℕ} {t : Transaction}
    {changesets : Table Changeset.changesetId} {attempts : List CIRemediationAttempt}
    (ht : d.transactions[i]? = some t) (hfinish : d.finish i t changesets attempts = some d')
    (hrow : ∃ row, changesets.get target.changesetId = some row ∧
      row.repositoryFullName = target.repository ∧ row.prNumber = some target.prNumber)
    (hshown : FollowsNewest d'.store target (d.store.rowsOf target.changesetId ++ [t.obs])) :
    d'.Inv target initial := by
  obtain ⟨hrows, hchangesets, htransactions, hcalls⟩ := finish_spec hfinish
  have hrowsOf := rowsOf_append (h.of t (List.mem_of_getElem? ht)) hrows
  have hkept : ∀ t' ∈ d'.transactions, t' ∈ d.transactions := fun t' ht' =>
    List.mem_of_mem_eraseIdx (htransactions ▸ ht')
  constructor
  case row => rwa [hchangesets]
  case of => exact fun t' ht' => h.of t' (hkept t' ht')
  case covered =>
    intro o ho
    rw [hcalls, ← List.append_assoc] at ho
    rw [hrowsOf]
    rcases List.mem_append.1 ho with hold | hnew
    · obtain ⟨j, hj, hle⟩ := h.covered o hold
      exact ⟨j, List.mem_append_left _ hj, hle⟩
    · rw [List.mem_singleton.1 hnew]
      exact ⟨t.obs, List.mem_append_right _ (List.mem_singleton.2 rfl), le_rfl⟩
  case journaled =>
    intro j hj
    rw [hcalls, ← List.append_assoc]
    rw [hrowsOf] at hj
    rcases List.mem_append.1 hj with hold | hnew
    · exact List.mem_append_left _ (h.journaled j hold)
    · exact List.mem_append_right _ hnew
  case superseded =>
    intro t' ht' hphase
    obtain ⟨j, hj, hle⟩ := h.superseded t' (hkept t' ht') hphase
    exact ⟨j, hrowsOf ▸ List.mem_append_left _ hj, hle⟩
  case shown =>
    intro _
    rwa [hrowsOf]

theorem Db.Inv.step (h : d.Inv target initial) {a : Statement} (hok : Orderly target d a)
    (hstep : d.step target a = some d') : d'.Inv target initial := by
  unfold Db.step at hstep
  by_cases hfor : a.concerns target = true
  case neg => rw [if_neg hfor] at hstep; cases hstep
  rw [if_pos hfor] at hstep
  cases a with
  | insert obs =>
    have hof : obs.of target = true := hfor
    rw [Db.perform, Db.insert] at hstep
    split at hstep
    · cases hstep
    split at hstep
    · rename_i hdup
      cases hstep
      obtain ⟨j, hj, hle⟩ := hok hdup
      exact { h with
        covered := fun o ho => by
          rw [← List.append_assoc] at ho
          rcases List.mem_append.1 ho with hold | hnew
          · exact h.covered o hold
          · exact ⟨j, hj, List.mem_singleton.1 hnew ▸ hle⟩
        journaled := fun j' hj' => by
          rw [← List.append_assoc]
          exact List.mem_append_left _ (h.journaled j' hj') }
    · cases hstep
      refine h.of_transactions rfl rfl fun t ht => ?_
      rcases List.mem_append.1 ht with hold | hnew
      · exact .inl hold
      · rw [List.mem_singleton.1 hnew]
        exact .inr ⟨hof, fun hphase => by cases hphase⟩
  | check i =>
    obtain ⟨t, ht, hstep⟩ := Option.bind_eq_some_iff.1 hstep
    split at hstep
    · cases hstep
    cases hstep
    refine h.set_phase ht fun hphase => ?_
    split at hphase
    · cases hphase
    · rename_i hlatest
      exact exists_newer (h.of t (List.mem_of_getElem? ht)) hlatest
  | lock i =>
    obtain ⟨t, ht, hstep⟩ := Option.bind_eq_some_iff.1 hstep
    split at hstep
    · cases hstep
    cases hstep
    exact h.set_phase ht fun hphase => by cases hphase
  | commit i =>
    obtain ⟨t, ht, hstep⟩ := Option.bind_eq_some_iff.1 hstep
    have hof := h.of t (List.mem_of_getElem? ht)
    cases hphase : t.phase with
    | inserted | newest =>
      rw [hphase] at hstep
      cases hstep
    | superseded =>
      rw [hphase] at hstep
      obtain ⟨-, hchangesets, -, -⟩ := finish_spec hstep
      obtain ⟨j, hj, hle⟩ := h.superseded t (List.mem_of_getElem? ht) hphase
      refine h.finish ht hstep h.row ?_
      obtain ⟨row, hrow, obs, hobs, hmax, hfollows⟩ := h.shown (List.ne_nil_of_mem hj)
      refine ⟨row, by rw [hchangesets, hrow], obs, List.mem_append_left _ hobs, ?_, hfollows⟩
      intro o ho
      rcases List.mem_append.1 ho with hold | hnew
      · exact hmax o hold
      · rw [List.mem_singleton.1 hnew]
        exact hle.trans (hmax j hj)
    | locked =>
      rw [hphase] at hstep
      obtain ⟨p, hproject, hstep⟩ := Option.bind_eq_some_iff.1 hstep
      obtain ⟨-, hchangesets, -, -⟩ := finish_spec hstep
      obtain ⟨hnewest, heligible⟩ := hok t ht hphase
      obtain ⟨row, hrow, hrepository, hnumber⟩ := h.row
      obtain ⟨row', hrow', hfollows, hrepository', hnumber'⟩ :=
        projectPullRequest_spec hproject hof hrow hrepository hnumber (heligible row hrow)
      refine h.finish ht hstep ⟨row', hrow', hrepository', hnumber'⟩ ?_
      refine ⟨row', by rw [hchangesets, hrow'], t.obs,
        List.mem_append_right _ (List.mem_singleton.2 rfl), ?_, hfollows⟩
      intro o ho
      rcases List.mem_append.1 ho with hold | hnew
      · exact hnewest o hold
      · rw [List.mem_singleton.1 hnew]
  | rollback i =>
    obtain ⟨t, ht, rfl⟩ := Option.map_eq_some_iff.1 hstep
    exact h.of_transactions rfl rfl fun t' ht' => .inl (List.mem_of_mem_eraseIdx ht')

/-- **Convergence.** In every run of orderly statements the row follows the newest of the observations
whose calls were answered, together with what was journaled before. -/
theorem converges (hstart : initial.Starts target)
    (hr : (observing target initial).ReachUnder (Orderly target) d) (hcalls : d.calls ≠ []) :
    FollowsNewest d.store target (initial.rowsOf target.changesetId ++ d.calls) := by
  have hinv : d.Inv target initial :=
    StepMachine.ReachUnder.induct (P := Db.Inv target initial) (Db.Inv.init hstart)
      (fun s a s' _ hp hok hst => hp.step hok hst) hr
  obtain ⟨o, ho⟩ := List.exists_mem_of_ne_nil d.calls hcalls
  obtain ⟨j, hj, -⟩ := hinv.covered o (List.mem_append_right _ ho)
  obtain ⟨row, hrow, obs, hobs, hmax, hfollows⟩ := hinv.shown (List.ne_nil_of_mem hj)
  refine ⟨row, hrow, obs, hinv.journaled obs hobs, fun o' ho' => ?_, hfollows⟩
  obtain ⟨j', hj', hle⟩ := hinv.covered o' ho'
  exact hle.trans (hmax j' hj')

/-! ## Two transactions -/

def exampleObservee : Observee where
  changesetId := Text.ofString "cs-1"
  repository := Text.ofString "acme/shop"
  prNumber := 7

/-- Two pushes are tested one after the other, and then projected in the other order. -/
def overtaking (first second : PullRequestObservation) : List Statement :=
  [.insert first, .check 0, .insert second, .check 1, .lock 1, .commit 1, .lock 0, .commit 0]

lemma exampleStore_starts : exampleStore.Starts exampleObservee :=
  ⟨⟨exampleRow, rfl, rfl, rfl, rfl⟩, fun h => absurd rfl h⟩

/-- Two pushes that are projected in their order: the row follows the newer one. -/
theorem converges_two : ∃ d,
    (observing exampleObservee exampleStore).ReachUnder (Orderly exampleObservee) d ∧
      d.calls = [examplePush "pr_observation:1" "4f2a9c" 1, examplePush "pr_observation:2" "9be012" 2] ∧
      FollowsNewest d.store exampleObservee d.calls := by
  have hrun : ((observing exampleObservee exampleStore).runUnder (Orderly exampleObservee)
      (observing exampleObservee exampleStore).init
      [.insert (examplePush "pr_observation:1" "4f2a9c" 1), .check 0,
        .insert (examplePush "pr_observation:2" "9be012" 2), .check 1, .lock 0, .commit 0,
        .lock 0, .commit 0]).map Db.calls =
      some [examplePush "pr_observation:1" "4f2a9c" 1, examplePush "pr_observation:2" "9be012" 2] := by
    decide +kernel
  obtain ⟨d, hd, hcalls⟩ := Option.map_eq_some_iff.1 hrun
  have hr := StepMachine.reachUnder_of_runUnder .init hd
  exact ⟨d, hr, hcalls, converges exampleStore_starts hr (by rw [hcalls]; exact List.cons_ne_nil _ _)⟩

/-- **An older push overwrites a newer one**: all transactions have ended, and the row does not follow the
newest observation. -/
theorem older_overwrites_newer : ∃ d, (observing exampleObservee exampleStore).Reach d ∧
    d.transactions = [] ∧
      d.calls = [examplePush "pr_observation:2" "9be012" 2, examplePush "pr_observation:1" "4f2a9c" 1] ∧
      ¬ FollowsNewest d.store exampleObservee d.calls := by
  have hrun : ((observing exampleObservee exampleStore).run
      (observing exampleObservee exampleStore).init
      (overtaking (examplePush "pr_observation:1" "4f2a9c" 1)
        (examplePush "pr_observation:2" "9be012" 2))).map (fun d => (d.transactions, d.calls,
          (d.store.changesets.get exampleObservee.changesetId).map Changeset.headSha)) =
      some ([], [examplePush "pr_observation:2" "9be012" 2, examplePush "pr_observation:1" "4f2a9c" 1],
        some (some (Text.ofString "4f2a9c"))) := by
    decide +kernel
  obtain ⟨d, hd, hvalues⟩ := Option.map_eq_some_iff.1 hrun
  simp only [Prod.mk.injEq] at hvalues
  obtain ⟨htransactions, hcalls, hhead⟩ := hvalues
  refine ⟨d, StepMachine.reach_of_run hd, htransactions, hcalls, ?_⟩
  rintro ⟨row, hrow, obs, hobs, hmax, -, hfollows, -⟩
  rw [hrow, Option.map_some, Option.some.injEq] at hhead
  rw [hcalls] at hobs hmax
  rw [hhead] at hfollows
  rcases List.mem_pair.1 hobs with rfl | rfl
  · exact absurd hfollows (by decide +kernel)
  · exact absurd (hmax _ List.mem_cons_self) (by decide +kernel)

end Apdl.Codegen
