import Apdl.Agents.Approval.Invariant
import Apdl.Agents.Approval.Planning

set_option autoImplicit false

/-!
# Reachable tables

A new command keeps the invariant, so every step of the machine does.

## Main results

* `reach_inv` — the invariant holds in every reachable state.
-/

namespace Apdl.Agents.Approval

open Rows

namespace Tables

/-! ## A new command -/

variable {run : ℕ}

lemma statusOf_waitingGate {t : Tables} {gate : GateAgent} {items : List (String × Item)}
    (h : t.waitingGate run = .ok (gate, items)) : t.statusOf run = some .waitingApproval := by
  unfold Tables.waitingGate at h
  cases hrun : t.runs[run]? with
  | none => simp [hrun] at h
  | some r =>
    simp only [hrun] at h
    by_cases hst : r.row.status ≠ .waitingApproval
    · simp [hst] at h
    · rw [statusOf_of_some hrun, not_not.1 hst]

lemma statusOf_insertCommand {t : Tables} {q : ApprovalRequest} (gate : GateAgent)
    (planned : List PlannedEffect) (now : ℕ) (h : t.statusOf q.run = some .waitingApproval) (r : ℕ) :
    (t.insertCommand q gate planned now).statusOf r =
      if r = q.run then some .approvalQueued else t.statusOf r := by
  have hset := statusOf_setRun (t := t) q.run r fun x =>
    { x with row := (x.row.approval .waitingApproval .approvalQueued x.row.phase now).getD x.row }
  refine hset.trans ?_
  by_cases hr : r = q.run
  · subst hr
    obtain ⟨x, hx, hst⟩ := exists_run h
    simp [hx, Lease.RunRow.approval, hst]
  · simp [hr]

def newCommand (q : ApprovalRequest) (gate : GateAgent) : CommandRow :=
  ⟨q.run, gate, q.decisions, q.comment, .queued, resumeStatus q.decisions⟩

lemma insertCommand_last (t : Tables) (q : ApprovalRequest) (gate : GateAgent)
    (planned : List PlannedEffect) (now : ℕ) :
    (t.insertCommand q gate planned now).commands[t.commands.length]? = some (newCommand q gate) :=
  getElem?_append_add t.commands [newCommand q gate] 0

lemma insertCommand_row {t : Tables} {q : ApprovalRequest} {gate : GateAgent}
    {planned : List PlannedEffect} {now k : ℕ} {c : CommandRow}
    (h : (t.insertCommand q gate planned now).commands[k]? = some c) :
    t.commands[k]? = some c ∨ (k = t.commands.length ∧ c = newCommand q gate) := by
  refine (getElem?_append_cases h).imp_right fun ⟨j, hj, hcj⟩ => ?_
  obtain ⟨hj0, rfl⟩ := List.getElem?_eq_some_iff.1 hcj
  obtain rfl : j = 0 := by simpa using hj0
  exact ⟨hj, rfl⟩

section Insert

variable {t : Tables} (h : t.Inv) {q : ApprovalRequest} {gate : GateAgent}
  {items : List (String × Item)} (now : ℕ) (hstatus : t.statusOf q.run = some .waitingApproval)

include h

lemma Inv.command_lt {i : ℕ} {e : EffectRow} (he : t.effects[i]? = some e) :
    e.plan.command < t.commands.length := by
  obtain ⟨c, hc, -⟩ := h.parent i e he
  exact (List.getElem?_eq_some_iff.1 hc).1

include hstatus in
lemma Inv.closed_of_waiting {k : ℕ} {c : CommandRow} (hc : t.commands[k]? = some c)
    (hr : c.run = q.run) : c.isOpen = false :=
  (h.command k c hc).closed_of_quiet (by simp [hr, hstatus]) (by simp [hr, hstatus])

omit h in
lemma effectsOfCommand_insert {k : ℕ} (hk : k < t.commands.length) :
    (t.insertCommand q gate
      (planEffects gate q.run t.commands.length items 0 t.effects.length q.decisions)
      now).effectsOfCommand k = t.effectsOfCommand k := by
  unfold Tables.effectsOfCommand Tables.insertCommand
  dsimp only
  rw [List.filter_append]
  have hnone : (List.map (fun plan => (⟨plan, .queued, 0, now, none⟩ : EffectRow))
      (planEffects gate q.run t.commands.length items 0 t.effects.length q.decisions)).filter
      (fun e => decide (e.plan.command = k)) = [] := by
    refine List.filter_eq_nil_iff.2 fun e he => ?_
    obtain ⟨p, hp, rfl⟩ := List.mem_map.1 he
    obtain ⟨d, -, item, base, order, -, hp⟩ := planEffects_cases hp
    simp only [(planDecision_fields hp).1, decide_eq_true_eq]
    exact fun heq => Nat.lt_irrefl _ (heq ▸ hk)
  rw [hnone, List.append_nil]

lemma Inv.mem_effectsOfCommand_insert {e : EffectRow}
    (he : e ∈ (t.insertCommand q gate
      (planEffects gate q.run t.commands.length items 0 t.effects.length q.decisions)
      now).effectsOfCommand t.commands.length) : e.status = .queued := by
  obtain ⟨hmem, hcommand⟩ := mem_effectsOfCommand.1 he
  rcases List.mem_append.1 hmem with hold | hnew
  · obtain ⟨i, hi⟩ := List.mem_iff_getElem?.1 hold
    exact absurd (hcommand ▸ h.command_lt hi) (Nat.lt_irrefl _)
  · obtain ⟨p, -, rfl⟩ := List.mem_map.1 hnew
    rfl

include hstatus in
lemma Inv.insertCommand (hne : q.decisions ≠ []) (hcovers : Covers q.decisions items) :
    (t.insertCommand q gate
      (planEffects gate q.run t.commands.length items 0 t.effects.length q.decisions) now).Inv := by
  set planned := planEffects gate q.run t.commands.length items 0 t.effects.length q.decisions with hplan
  set t' := t.insertCommand q gate planned now with ht'
  have heffects : t'.effects = t.effects ++ planned.map fun plan => ⟨plan, .queued, 0, now, none⟩ := rfl
  have hst : ∀ r, t'.statusOf r = if r = q.run then some .approvalQueued else t.statusOf r :=
    statusOf_insertCommand gate planned now hstatus
  have hlast : t'.commands[t.commands.length]? = some (newCommand q gate) :=
    insertCommand_last t q gate planned now
  have hplanned : ∀ p ∈ planned, p.command = t.commands.length ∧ p.run = q.run := by
    intro p hp
    obtain ⟨d, -, item, base, order, -, hp⟩ := planEffects_cases hp
    exact ⟨(planDecision_fields hp).1, (planDecision_fields hp).2.1⟩
  refine ⟨?_, ?_, ?_, ?_, ?_⟩
  · intro i e he
    rcases getElem?_append_cases he with hold | ⟨j, -, hnew⟩
    · obtain ⟨c, hc, hrun⟩ := h.parent i e hold
      exact ⟨c, getElem?_append_of_some _ hc, hrun⟩
    · obtain ⟨p, hp, rfl⟩ := List.mem_map.1 (List.mem_of_getElem? hnew)
      obtain ⟨hcommand, hrun⟩ := hplanned p hp
      exact ⟨_, hcommand ▸ hlast, hrun.symm⟩
  · intro k c hc
    rcases insertCommand_row hc with hold | ⟨rfl, rfl⟩
    · have hinv := h.command k c hold
      rw [effectsOfCommand_insert now (List.getElem?_eq_some_iff.1 hold).1, hst]
      split_ifs with hr
      · rw [hr, hstatus] at hinv
        exact hinv.of_closed (h.closed_of_waiting hstatus hold hr) (by simp)
      · exact hinv
    · have hqueued : ∀ e ∈ t'.effectsOfCommand t.commands.length, e.status = .queued :=
        fun e he => h.mem_effectsOfCommand_insert now he
      obtain ⟨e, he⟩ : ∃ e, e ∈ t'.effectsOfCommand t.commands.length := by
        have hsome : planEffects gate q.run t.commands.length items 0 t.effects.length
            q.decisions ≠ [] := planEffects_ne_nil hne hcovers.1
        obtain ⟨p, hp⟩ := List.exists_mem_of_ne_nil _ hsome
        exact ⟨_, mem_effectsOfCommand.2
          ⟨List.mem_append_right _ (List.mem_map_of_mem hp), (hplanned p hp).1⟩⟩
      rw [hst, if_pos (show (newCommand q gate).run = q.run from rfl)]
      refine ⟨List.ne_nil_of_mem he, ?_, fun _ => .inl rfl, fun _ _ => ?_, fun _ hq => ?_, fun hs => ?_,
        fun hs => ?_⟩
      · simp only [newCommand, resumeStatus]
        split_ifs <;> simp
      · refine ⟨⟨e, he, by simp [hqueued e he]⟩, ?_⟩
        rintro ⟨x, hx, hmanual⟩
        rw [hqueued x hx] at hmanual
        cases hmanual
      · cases hq
      · cases hs
      · cases hs
  · intro k k' c d hc hd ho ho' hsame
    rcases insertCommand_row hc with hold | ⟨rfl, rfl⟩ <;>
      rcases insertCommand_row hd with hold' | ⟨rfl, rfl⟩
    · exact h.unique k k' c d hold hold' ho ho' hsame
    · rw [h.closed_of_waiting hstatus hold hsame] at ho
      cases ho
    · rw [h.closed_of_waiting hstatus hold' hsame.symm] at ho'
      cases ho'
    · rfl
  · intro r hr
    rw [hst] at hr
    split_ifs at hr with hrun
    · exact ⟨_, _, hlast, hrun.symm, rfl⟩
    · obtain ⟨k, c, hc, hcr, ho⟩ := h.running r hr
      exact ⟨k, c, getElem?_append_of_some _ hc, hcr, ho⟩
  · intro i d e he hd
    rcases getElem?_append_cases he with hold | ⟨j, -, hnew⟩
    · obtain ⟨e', he', rest⟩ := h.dependency i d e hold hd
      exact ⟨e', getElem?_append_of_some _ he', rest⟩
    · rw [List.getElem?_map, Option.map_eq_some_iff] at hnew
      obtain ⟨p, hp, rfl⟩ := hnew
      rcases planEffects_dependency hp with ⟨-, j', p', hdep, hp', -, hnone, -⟩ | ⟨-, hdep⟩
      · obtain rfl : d = t.effects.length + j' := Option.some.inj (hd.symm.trans hdep)
        refine ⟨⟨p', .queued, 0, now, none⟩, ?_, ?_, hnone, fun hstarted => ?_⟩
        · rw [heffects, getElem?_append_add, List.getElem?_map, hp']
          rfl
        · have hown := (hplanned p (List.mem_of_getElem? hp)).1
          exact (hplanned p' (List.mem_of_getElem? hp')).1.trans hown.symm
        · cases hstarted
      · exact absurd (hd.symm.trans hdep) (by simp)

end Insert

variable {t' : Tables}

lemma Inv.enqueue {t : Tables} (h : t.Inv) {q : ApprovalRequest} {now k : ℕ}
    (henqueue : t.enqueueApprovalCommand q now = .ok (t', k)) : t'.Inv := by
  rcases enqueue_cases henqueue with ⟨-, rfl⟩ | ⟨-, -, gate, items, hgate, hcovers, hadmits, rfl⟩
  · exact h
  · refine h.insertCommand now (statusOf_waitingGate hgate) ?_ hcovers
    rintro hnil
    simp [admitsCommand, hnil] at hadmits

/-! ## Leases of runs -/

/-- Only a run that a supervisor executes has a lease. -/
def Leased (t : Tables) : Prop :=
  ∀ (r : ℕ) (x : Run), t.runs[r]? = some x → x.row.leaseOwner.isSome = true → x.row.isActive = true

lemma Leased.setRun {t : Tables} (h : t.Leased) {f : Run → Run}
    (hf : ∀ x : Run, t.runs[run]? = some x → (f x).row.leaseOwner.isSome = true →
      (f x).row.isActive = true) : (t.setRun run f).Leased := by
  intro r x hx
  simp only [Tables.setRun, List.getElem?_modify, Option.map_eq_map, Option.map_eq_some_iff] at hx
  obtain ⟨y, hy, rfl⟩ := hx
  split_ifs with hr
  · subst hr
    exact hf y hy
  · exact h r y hy

lemma approval_leased {x : Run} {expected next : RunStatus} {phase : String} {now : ℕ}
    (hx : x.row.leaseOwner.isSome = true → x.row.isActive = true) :
    ((x.row.approval expected next phase now).getD x.row).leaseOwner.isSome = true →
      ((x.row.approval expected next phase now).getD x.row).isActive = true := by
  unfold Lease.RunRow.approval
  split_ifs with hst
  · intro hsome
    cases hsome
  · exact hx

lemma Leased.finalizeCommand {t : Tables} (h : t.Leased) (k now : ℕ) :
    (t.finalizeCommand k now).Leased := by
  unfold Tables.finalizeCommand
  cases hc : t.commands[k]? with
  | none => exact h
  | some c =>
    dsimp only
    split_ifs
    · exact Leased.setRun (t := { t with commands := t.commands.set k { c with status := .succeeded } }) h
        fun x hx => approval_leased (h _ x hx)
    · exact h
    · exact h
    · refine Leased.setRun (t := { t with
        effects := t.effects.map fun e => if e.plan.command = k then e.abandonQueued else e
        commands := t.commands.set k { c with status := .manualIntervention } }) h fun x hx hsome => ?_
      cases hsome
    · exact h
    · exact h

lemma Leased.finalizeCancellation {t : Tables} (h : t.Leased) (run now : ℕ) :
    (t.finalizeCancellation run now).Leased := by
  unfold Tables.finalizeCancellation
  split_ifs with hst
  · exact h
  rw [not_not] at hst
  obtain ⟨y, hy, hys⟩ := exists_run hst
  dsimp only
  split_ifs
  · refine Leased.setRun (t := t.abandonQueuedOf run) h fun x hx hsome => ?_
    obtain rfl := Option.some.inj (hx.symm.trans hy)
    have hactive := h run x hx hsome
    simp [Lease.RunRow.isActive, RunStatus.isActive, hys] at hactive
  · refine Leased.setRun ?_ fun x hx => approval_leased ?_
    · intro r x hx
      rw [reopenClaims_runs] at hx
      exact h r x hx
    · rw [reopenClaims_runs] at hx
      exact h _ x hx

lemma Leased.cancelRun {t : Tables} (h : t.Leased) {now : ℕ} {project : String}
    (hcancel : t.cancelRun run project now = some t') : t'.Leased := by
  have key : ∀ (u : Tables) (pending : Bool) (phase : String), u.runs = t.runs →
      (u.setRun run fun y => { y with row := (y.row.cancel pending phase now).getD y.row }).Leased := by
    intro u pending phase hu
    refine Leased.setRun (fun r x hx => h r x (hu ▸ hx)) fun x hx => ?_
    unfold Lease.RunRow.cancel
    by_cases hlane : x.row.status.holdsLane = true
    · rw [if_pos hlane]
      intro hsome
      cases hsome
    · rw [if_neg hlane]
      exact h run x (hu ▸ hx)
  unfold Tables.cancelRun at hcancel
  cases hr : t.runs[run]? with
  | none => simp [hr] at hcancel
  | some x =>
    simp only [hr] at hcancel
    by_cases hproject : x.project ≠ project
    · rw [if_pos hproject] at hcancel
      cases hcancel
    rw [if_neg hproject] at hcancel
    by_cases hcancelled : x.row.status = .cancelled
    · rw [if_pos hcancelled, Option.some.injEq] at hcancel
      exact hcancel ▸ h
    rw [if_neg hcancelled] at hcancel
    by_cases hlane : x.row.status.holdsLane = true
    · rw [if_pos hlane, Option.some.injEq] at hcancel
      subst hcancel
      cases (t.effectsOf run).any EffectRow.isPending with
      | true => exact key _ true _ rfl
      | false =>
        refine key _ false _ ?_
        exact reopenClaims_runs ..
    · rw [if_neg hlane] at hcancel
      cases hcancel

/-! ## Statements on one run -/

lemma onRun_cases {t : Tables} {f : Lease.RunRow → Option Lease.RunRow}
    (h : t.onRun run f = some t') :
    ∃ (x : Run) (row : Lease.RunRow), t.runs[run]? = some x ∧ f x.row = some row ∧
      t' = { t with runs := t.runs.set run { x with row := row } } := by
  unfold Tables.onRun at h
  cases hx : t.runs[run]? with
  | none => simp [hx] at h
  | some x =>
    simp only [hx, Option.map_eq_some_iff] at h
    obtain ⟨row, hrow, rfl⟩ := h
    exact ⟨x, row, rfl, hrow, rfl⟩

/-- A supervisor writes a row: its status stays, or the run was executed and gets a status that
approval does not know; the lease stays with executed runs. -/
def Supervised (row row' : Lease.RunRow) : Prop :=
  (row'.status = row.status ∨
    (row.isActive = true ∧ Quiet (some row'.status))) ∧
  (row'.leaseOwner.isSome = true → row'.isActive = true)

lemma quiet_of_isActive {row : Lease.RunRow} (h : row.isActive = true) : Quiet (some row.status) := by
  cases hst : row.status <;> simp [Lease.RunRow.isActive, RunStatus.isActive, hst] at h <;>
    simp [Quiet]

lemma onRun_quiet {t : Tables} (hl : t.Leased) {f : Lease.RunRow → Option Lease.RunRow}
    (hf : ∀ row row', (row.leaseOwner.isSome = true → row.isActive = true) → f row = some row' →
      Supervised row row') (h : t.onRun run f = some t') :
    t'.effects = t.effects ∧ t'.commands = t.commands ∧ QuietRuns t t' ∧ t'.Leased := by
  obtain ⟨x, row, hx, hrow, rfl⟩ := onRun_cases h
  obtain ⟨hstatus, hlease⟩ := hf x.row row (hl run x hx) hrow
  refine ⟨rfl, rfl, ?_, ?_⟩
  · intro r
    simp only [statusOf, getElem?_set_of_some hx]
    by_cases hr : r = run
    · subst hr
      rw [if_pos rfl, hx, Option.map_some, Option.map_some]
      rcases hstatus with hsame | ⟨hactive, hquiet⟩
      · exact .inl (congrArg some hsame)
      · exact .inr ⟨quiet_of_isActive hactive, hquiet.1, hquiet.2.1⟩
    · rw [if_neg hr]
      exact .inl rfl
  · intro r y hy
    rw [getElem?_set_of_some hx] at hy
    split_ifs at hy with hr
    · obtain rfl := Option.some.inj hy
      exact hlease
    · exact hl r y hy

section Supervised

variable {row row' : Lease.RunRow} {owner now : ℕ}
  (hl : row.leaseOwner.isSome = true → row.isActive = true)

lemma supervised_acquire (h : row.acquire owner now = some row') : Supervised row row' := by
  simp only [Lease.RunRow.acquire, Option.ite_none_right_eq_some, Bool.and_eq_true,
    Option.some.injEq] at h
  obtain ⟨⟨⟨-, hactive⟩, -⟩, rfl⟩ := h
  exact ⟨.inl rfl, fun _ => hactive⟩

lemma supervised_renew (h : row.renew owner now = some row') : Supervised row row' := by
  simp only [Lease.RunRow.renew, Option.ite_none_right_eq_some, Bool.and_eq_true,
    Option.some.injEq] at h
  obtain ⟨⟨-, hactive⟩, rfl⟩ := h
  exact ⟨.inl rfl, fun _ => hactive⟩

include hl in
lemma active_of_isOwnedBy (h : row.isOwnedBy owner now = true) : row.isActive = true := by
  simp only [Lease.RunRow.isOwnedBy, Bool.and_eq_true, decide_eq_true_eq] at h
  exact hl (by simp [h.1.2])

include hl in
lemma supervised_update {status : RunStatus} {phase : String} (hs : State.isSupervised status = true)
    (h : row.update status phase owner now = some row') : Supervised row row' := by
  simp only [Lease.RunRow.update, Option.ite_none_right_eq_some, Option.some.injEq] at h
  obtain ⟨hown, rfl⟩ := h
  refine ⟨.inr ⟨active_of_isOwnedBy hl hown, ?_⟩, ?_⟩
  · cases status <;> simp [State.isSupervised] at hs <;> simp [Quiet]
  · intro hsome
    by_cases hrunning : status = .running
    · simp [Lease.RunRow.isActive, RunStatus.isActive, hrunning]
    · simp [hrunning] at hsome

include hl in
lemma supervised_persist {agent : String} (h : row.persist agent owner now = some row') :
    Supervised row row' := by
  simp only [Lease.RunRow.persist, Option.ite_none_right_eq_some, Option.some.injEq] at h
  obtain ⟨hown, rfl⟩ := h
  exact ⟨.inl rfl, fun _ => active_of_isOwnedBy hl hown⟩

lemma supervised_quarantine (h : row.quarantine now = some row') : Supervised row row' := by
  simp only [Lease.RunRow.quarantine, Option.ite_none_right_eq_some, Bool.and_eq_true,
    Option.some.injEq] at h
  obtain ⟨⟨-, hactive⟩, rfl⟩ := h
  exact ⟨.inr ⟨hactive, by simp [Quiet]⟩, fun hsome => by cases hsome⟩

end Supervised

/-! ## Steps -/

/-- What a step of the machine can do to the tables. -/
inductive Step (t t' : Tables) : Prop
  | quiet (effects : t'.effects = t.effects) (commands : t'.commands = t.commands)
      (runs : QuietRuns t t')
  /-- `_claim_effect`. -/
  | claim (owner i now : ℕ) (h : t.claimEffect owner i now = some t')
  /-- `_complete_effect` and `_fail_effect`. -/
  | settle (owner i now : ℕ) (f : EffectRow → EffectRow) (plan : ∀ e, (f e).plan = e.plan)
      (status : ∀ e, (f e).status ≠ .processing) (h : t.settle owner i now f = some t')
  /-- `enqueue_approval_command`. -/
  | enqueue (q : ApprovalRequest) (now k : ℕ) (h : t.enqueueApprovalCommand q now = .ok (t', k))
  /-- `cancel_run`. -/
  | cancel (run now : ℕ) (project : String) (h : t.cancelRun run project now = some t')

lemma Step.inv {t : Tables} (hstep : t.Step t') (h : t.Inv) : t'.Inv := by
  cases hstep with
  | quiet heffects hcommands hruns => exact h.of_quiet heffects hcommands hruns
  | claim owner i now hclaim => exact h.claim hclaim
  | settle owner i now f hplan _ hsettle => exact h.settle hplan hsettle
  | enqueue q now k henqueue => exact h.enqueue henqueue
  | cancel run now project hcancel => exact h.cancelRun hcancel

lemma Step.of_same {t : Tables} (heffects : t'.effects = t.effects)
    (hcommands : t'.commands = t.commands) (hruns : t'.runs = t.runs) : t.Step t' :=
  .quiet heffects hcommands fun r => .inl (by rw [statusOf, statusOf, hruns])

lemma step_requeue (t : Tables) (now : ℕ) : t.Step (t.requeueExpiredRuns now) := by
  refine .quiet rfl rfl fun r => .inl ?_
  simp only [statusOf, requeueExpiredRuns, List.getElem?_map, Option.map_map]
  refine congrArg (Option.map · _) (funext fun x => ?_)
  simp only [Function.comp_apply, Lease.RunRow.requeue]
  split_ifs <;> rfl

lemma Leased.requeue {t : Tables} (h : t.Leased) (now : ℕ) : (t.requeueExpiredRuns now).Leased := by
  intro r x hx
  simp only [requeueExpiredRuns, List.getElem?_map, Option.map_eq_some_iff] at hx
  obtain ⟨y, hy, rfl⟩ := hx
  have hold := h r y hy
  cases hrow : y.row.requeue now with
  | none => exact hold
  | some row =>
    simp only [Lease.RunRow.requeue, Option.ite_none_right_eq_some, Option.some.injEq] at hrow
    obtain ⟨-, rfl⟩ := hrow
    intro hsome
    cases hsome

lemma step_trigger {t : Tables} {project : String} {now : ℕ} (hl : t.Leased)
    (h : t.trigger project now = some t') : t.Step t' ∧ t'.Leased := by
  simp only [Tables.trigger, Option.ite_none_left_eq_some, Option.some.injEq] at h
  obtain ⟨-, rfl⟩ := h
  refine ⟨.quiet rfl rfl fun r => ?_, fun r x hx => ?_⟩
  · simp only [statusOf]
    cases hr : (t.runs ++ [⟨project, ⟨.started, "initializing", none, none, now, []⟩⟩])[r]? with
    | none =>
      refine .inl ?_
      rw [List.getElem?_eq_none_iff, List.length_append] at hr
      rw [List.getElem?_eq_none_iff.2 (Nat.le_of_succ_le hr)]
    | some x =>
      rcases getElem?_append_cases hr with hold | ⟨j, hj, hnew⟩
      · exact .inl (by rw [hold])
      · refine .inr ?_
        have hnone : t.runs[r]? = none := List.getElem?_eq_none_iff.2 (hj ▸ Nat.le_add_right _ _)
        obtain rfl : x = _ := List.mem_singleton.1 (List.mem_of_getElem? hnew)
        simp [hnone, Quiet]
  · rcases getElem?_append_cases hx with hold | ⟨j, -, hnew⟩
    · exact hl r x hold
    · obtain rfl : x = _ := List.mem_singleton.1 (List.mem_of_getElem? hnew)
      intro hsome
      cases hsome

end Tables

open Tables

variable {s s' : State} {act : Act}

lemma stepWork_tables {work : Work} {plan : PlannedEffect}
    (h : s.stepWork work plan act = some s') :
    s'.tables = s.tables ∨ s'.tables = s.recordOutcome plan ∨
    ∃ f : EffectRow → EffectRow, (∀ e, (f e).plan = e.plan) ∧ (∀ e, (f e).status ≠ .processing) ∧
      s.tables.settle work.owner work.effect s.clock f = some s'.tables := by
  cases act <;> simp only [State.stepWork, reduceCtorEq] at h
  case reserve w =>
    split_ifs at h
    cases hq : plan.quotaAction with
    | none =>
      simp only [hq, Option.some.injEq] at h
      exact .inl (h ▸ rfl)
    | some action =>
      simp only [hq] at h
      split at h <;> cases h <;> exact .inl rfl
  case authorize w =>
    split_ifs at h <;> cases h <;> exact .inl rfl
  case send w =>
    split_ifs at h
    cases h
    exact .inl rfl
  case reply w =>
    split_ifs at h
    cases h
    exact .inl rfl
  case record w =>
    split_ifs at h <;> cases h <;> exact .inr (.inl rfl)
  case raise w permanent delay =>
    split at h <;> cases h
    all_goals exact .inl rfl
  case complete w =>
    split_ifs at h
    split at h
    · rename_i tables hsettle
      cases h
      exact .inr (.inr ⟨completed, fun _ => rfl, fun _ => by simp [completed], hsettle⟩)
    · cases h
      exact .inl rfl
  case fail w =>
    split at h
    · rename_i permanent delay hstage
      split at h
      · rename_i tables hsettle
        cases h
        refine .inr (.inr ⟨failed permanent delay work.attempt s.clock, fun _ => rfl, fun e => ?_, hsettle⟩)
        simp only [failed]
        split_ifs <;> simp
      · cases h
        exact .inl rfl
    · cases h
  case abandon w =>
    cases h
    exact .inl rfl

lemma recordOutcome_same (s : State) (plan : PlannedEffect) :
    (s.recordOutcome plan).effects = s.tables.effects ∧
    (s.recordOutcome plan).commands = s.tables.commands ∧
    (s.recordOutcome plan).runs = s.tables.runs := by
  unfold State.recordOutcome
  split <;> exact ⟨rfl, rfl, rfl⟩

lemma stepWorker_cases {w : ℕ} (h : s.stepWorker w act = some s') :
    ∃ (work : Work) (e : EffectRow), s.works[w]? = some work ∧
      s.tables.effects[work.effect]? = some e ∧ s.stepWork work e.plan act = some s' := by
  unfold State.stepWorker at h
  cases hw : s.works[w]? with
  | none => simp [hw] at h
  | some work =>
    cases he : s.tables.effects[work.effect]? with
    | none => simp [hw, he] at h
    | some e =>
      simp only [hw, he] at h
      exact ⟨work, e, rfl, he, h⟩

lemma stepWorker_tables (hl : s.tables.Leased) {w : ℕ}
    (h : s.stepWorker w act = some s') : s.tables.Step s'.tables ∧ s'.tables.Leased := by
  obtain ⟨work, e, -, -, hstep⟩ := stepWorker_cases h
  rcases stepWork_tables hstep with hsame | hrecord | ⟨f, hf, hst, hsettle⟩
  · rw [hsame]
    exact ⟨.of_same rfl rfl rfl, hl⟩
  · obtain ⟨heffects, hcommands, hruns⟩ := recordOutcome_same s e.plan
    rw [hrecord]
    exact ⟨.of_same heffects hcommands hruns, fun r x hx => hl r x (hruns ▸ hx)⟩
  · refine ⟨.settle _ _ _ f hf hst hsettle, ?_⟩
    obtain ⟨x, -, -, ⟨-, heq⟩ | ⟨-, heq⟩⟩ := settle_cases hsettle
    · rw [heq]
      exact Leased.finalizeCancellation
        (t := { s.tables with effects := s.tables.effects.set work.effect (f x) }) hl _ _
    · rw [heq]
      exact Leased.finalizeCommand
        (t := { s.tables with effects := s.tables.effects.set work.effect (f x) }) hl _ _

lemma stepTables_tables {t' : Tables} (hl : s.tables.Leased)
    (h : s.stepTables act = some t') : s.tables.Step t' ∧ t'.Leased := by
  have quiet : ∀ {run : ℕ} {f : Lease.RunRow → Option Lease.RunRow} {u : Tables},
      (∀ row row', (row.leaseOwner.isSome = true → row.isActive = true) → f row = some row' →
        Supervised row row') → s.tables.onRun run f = some u → s.tables.Step u ∧ u.Leased := by
    intro run f u hf hu
    obtain ⟨heffects, hcommands, hruns, hlease⟩ := onRun_quiet hl hf hu
    exact ⟨.quiet heffects hcommands hruns, hlease⟩
  cases act <;> simp only [State.stepTables, reduceCtorEq] at h
  case trigger project => exact step_trigger hl h
  case acquire run owner => exact quiet (fun _ _ _ hrow => supervised_acquire hrow) h
  case renew run owner => exact quiet (fun _ _ _ hrow => supervised_renew hrow) h
  case update run owner status phase =>
    split_ifs at h with hs
    exact quiet (fun _ _ hrow => supervised_update hrow hs) h
  case persist run owner agentName produces output needsApproval =>
    split_ifs at h
    simp only [Tables.persistResult, Option.map_eq_some_iff] at h
    obtain ⟨u, hu, rfl⟩ := h
    obtain ⟨heffects, hcommands, hruns, hlease⟩ :=
      onRun_quiet hl (fun _ _ hl hrow => supervised_persist hl hrow) hu
    exact ⟨.quiet heffects hcommands hruns, hlease⟩
  case quarantine run => exact quiet (fun _ _ _ hrow => supervised_quarantine hrow) h
  case requeue =>
    cases h
    exact ⟨step_requeue _ _, hl.requeue _⟩
  case enqueue q =>
    cases hq : s.tables.enqueueApprovalCommand q s.clock with
    | error e =>
      rw [hq] at h
      cases h
    | ok found =>
      obtain ⟨u, k⟩ := found
      rw [hq] at h
      obtain rfl : u = t' := Option.some.inj h
      refine ⟨.enqueue q _ k hq, ?_⟩
      rcases enqueue_cases hq with ⟨-, rfl⟩ | ⟨-, -, gate, items, -, -, -, rfl⟩
      · exact hl
      · exact Leased.setRun hl fun x hx => approval_leased (hl _ x hx)
  case cancel run project => exact ⟨.cancel run _ project h, hl.cancelRun h⟩
  case propose project proposalId =>
    cases h
    unfold Tables.enqueueProposal
    split_ifs <;> exact ⟨.of_same rfl rfl rfl, hl⟩
  case halt run proposalId =>
    cases h
    exact ⟨.of_same rfl rfl rfl, hl⟩

/-- **A step of the machine is one on the tables.** -/
lemma step_tables (hl : s.tables.Leased) (h : s.step act = some s') :
    s.tables.Step s'.tables ∧ s'.tables.Leased := by
  have same : s'.tables = s.tables → s.tables.Step s'.tables ∧ s'.tables.Leased := by
    intro heq
    rw [heq]
    exact ⟨.of_same rfl rfl rfl, hl⟩
  have database : (s.stepTables act).map (fun tables => { s with tables := tables }) = some s' →
      s.tables.Step s'.tables ∧ s'.tables.Leased := by
    intro hmap
    obtain ⟨t', ht', rfl⟩ := Option.map_eq_some_iff.1 hmap
    exact stepTables_tables hl ht'
  cases act <;> simp only [State.step] at h
  case tick duration =>
    cases h
    exact same rfl
  case claimProposals run ids =>
    split_ifs at h
    cases h
    exact ⟨.of_same rfl rfl rfl, hl⟩
  case claim owner i =>
    split_ifs at h
    split at h
    · rename_i tables e hclaim he
      cases h
      refine ⟨.claim owner i _ hclaim, ?_⟩
      obtain ⟨_, _, _, -, -, -, -, -, -, rfl⟩ := claimEffect_cases hclaim
      exact hl
    · cases h
  case deliver i accepted =>
    split at h
    · cases h
    · cases h
      exact same rfl
  all_goals first
    | exact database h
    | exact stepWorker_tables hl h

theorem reach_inv (h : machine.Reach s) : s.tables.Inv ∧ s.tables.Leased := by
  refine StepMachine.Reach.induct (P := fun s => s.tables.Inv ∧ s.tables.Leased) ?_ ?_ h
  · refine ⟨⟨?_, ?_, ?_, ?_, ?_⟩, fun r x hx => ?_⟩
    all_goals intros; simp_all [machine, State.initial, statusOf]
  · rintro s act s' - ⟨hinv, hl⟩ hstep
    obtain ⟨hs, hl'⟩ := step_tables hl hstep
    exact ⟨hs.inv hinv, hl'⟩

end Apdl.Agents.Approval
