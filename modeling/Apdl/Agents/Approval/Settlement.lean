import Apdl.Agents.Approval.Reach

set_option autoImplicit false

/-!
# Effects settle in order and never wedge

A run that is queued or being cancelled always has an effect that is claimed, waits for a retry or can
be claimed; effects follow their dependencies; a command succeeds with its effects; and what has ended
does not change.

A command whose effects all succeed while its run is being cancelled does not succeed: the
cancellation ends it, and the run does not resume.

## Main results

* `effects_settle_cancelled` — the command of a cancelled run, all of whose effects have succeeded.
-/

namespace Apdl.Agents.Approval

open Rows

namespace Tables

/-! ## What has ended stays -/

lemma finalizeCommand_effects (t : Tables) (k now : ℕ) :
    ∃ p : PlannedEffect → Bool,
      (t.finalizeCommand k now).effects = t.effects.map (abandonWhere fun plan => p plan = true) := by
  have hnone : t.effects = t.effects.map (abandonWhere fun plan => (fun _ => false) plan = true) :=
    (map_eq_self fun e _ => if_neg (by simp)).symm
  have hown : (t.effects.map fun e => if e.plan.command = k then e.abandonQueued else e) =
      t.effects.map (abandonWhere fun plan => (fun plan => decide (plan.command = k)) plan = true) := by
    refine List.map_congr_left fun e _ => ?_
    simp [abandonWhere]
  unfold Tables.finalizeCommand
  cases t.commands[k]? with
  | none => exact ⟨_, hnone⟩
  | some c =>
    dsimp only
    split_ifs
    · exact ⟨_, hnone⟩
    · exact ⟨_, hnone⟩
    · exact ⟨_, hown⟩
    · exact ⟨_, hown⟩
    · exact ⟨_, hown⟩
    · exact ⟨_, hnone⟩

variable {t t' : Tables}

lemma finalizeCancellation_effects {run : ℕ} (now : ℕ) (h : t.statusOf run = some .cancelling) :
    (t.finalizeCancellation run now).effects = t.abandonRun run := by
  rcases finalizeCancellation_cases now h with ⟨-, hleaves⟩ | ⟨-, hleaves⟩ <;>
    exact hleaves.effects

variable {i : ℕ}

lemma settle_effects {owner now : ℕ} {f : EffectRow → EffectRow}
    (h : t.settle owner i now f = some t') :
    ∃ (e : EffectRow) (p : PlannedEffect → Bool), t.effects[i]? = some e ∧
      e.isHeldBy owner = true ∧
      t'.effects = (t.effects.set i (f e)).map (abandonWhere fun plan => p plan = true) := by
  obtain ⟨e, he, hheld, ⟨hrun, rfl⟩ | ⟨-, rfl⟩⟩ := settle_cases h
  · refine ⟨e, fun plan => decide (plan.run = e.plan.run), he, hheld, ?_⟩
    refine (finalizeCancellation_effects (t := { t with effects := t.effects.set i (f e) }) now
      hrun).trans (List.map_congr_left fun x _ => ?_)
    simp [abandonWhere]
  · obtain ⟨p, hp⟩ := finalizeCommand_effects { t with effects := t.effects.set i (f e) }
      e.plan.command now
    exact ⟨e, p, he, hheld, hp⟩

lemma abandonWhere_of_ended {p : PlannedEffect → Prop} [DecidablePred p] {e : EffectRow}
    (h : e.isLive = false) : abandonWhere p e = e := by
  refine abandonWhere_of_ne fun hq => ?_
  simp [EffectRow.isLive, hq] at h

/-- **An effect that has ended does not change.** -/
lemma Step.keeps (h : t.Step t') {e : EffectRow}
    (he : t.effects[i]? = some e) (hend : e.isLive = false) : t'.effects[i]? = some e := by
  cases h with
  | quiet heffects => rw [heffects, he]
  | claim owner j now hclaim =>
    obtain ⟨x, c, status, hx, -, -, hclaimable, -, -, rfl⟩ := claimEffect_cases hclaim
    have hij : i ≠ j := by
      rintro rfl
      rw [Option.some.inj (he.symm.trans hx), (EffectRow.live_of_isClaimable hclaimable).1] at hend
      cases hend
    rw [getElem?_set_of_some hx, if_neg hij, he]
  | settle owner j now f hplan _ hsettle =>
    obtain ⟨x, p, hx, hheld, heffects⟩ := settle_effects hsettle
    have hij : i ≠ j := by
      rintro rfl
      rw [Option.some.inj (he.symm.trans hx)] at hend
      simp [EffectRow.isLive, EffectRow.isPending, EffectRow.processing_of_isHeldBy hheld] at hend
    rw [heffects, List.getElem?_map, getElem?_set_of_some hx, if_neg hij, he, Option.map_some,
      abandonWhere_of_ended hend]
  | enqueue q now k henqueue =>
    rcases enqueue_cases henqueue with ⟨-, rfl⟩ | ⟨-, -, gate, items, -, -, -, rfl⟩
    · exact he
    · exact getElem?_append_of_some _ he
  | cancel run now project hcancel =>
    obtain ⟨status, -, ⟨-, rfl⟩ | ⟨-, ⟨-, -, hleaves⟩ | ⟨-, -, hleaves⟩⟩⟩ := cancelRun_cases hcancel
    · exact he
    all_goals
      rw [hleaves.effects, abandonRun, List.getElem?_map, he, Option.map_some,
        abandonWhere_of_ended hend]

/-! ## Plans stay -/

lemma map_plan_abandon (p : PlannedEffect → Prop) [DecidablePred p] (effects : List EffectRow) :
    (effects.map (abandonWhere p)).map EffectRow.plan = effects.map EffectRow.plan := by
  rw [List.map_map]
  exact List.map_congr_left fun e _ => abandonWhere_plan p e

lemma Step.plans (h : t.Step t') :
    t'.effects.map EffectRow.plan = t.effects.map EffectRow.plan ∨
    ∃ (q : ApprovalRequest) (now k : ℕ), t.enqueueApprovalCommand q now = .ok (t', k) := by
  cases h with
  | quiet heffects => exact .inl (by rw [heffects])
  | claim owner j now hclaim =>
    obtain ⟨x, c, status, hx, -, -, -, -, -, rfl⟩ := claimEffect_cases hclaim
    exact .inl (map_set_of_eq _ hx rfl)
  | settle owner j now f hplan _ hsettle =>
    obtain ⟨x, p, hx, -, heffects⟩ := settle_effects hsettle
    rw [heffects, map_plan_abandon]
    exact .inl (map_set_of_eq _ hx (hplan x))
  | enqueue q now k henqueue => exact .inr ⟨q, now, k, henqueue⟩
  | cancel run now project hcancel =>
    obtain ⟨status, -, ⟨-, rfl⟩ | ⟨-, ⟨-, -, hleaves⟩ | ⟨-, -, hleaves⟩⟩⟩ := cancelRun_cases hcancel
    · exact .inl rfl
    all_goals
      rw [hleaves.effects, map_plan_abandon]
      exact .inl rfl

lemma exists_of_plans {effects effects' : List EffectRow}
    (h : effects'.map EffectRow.plan = effects.map EffectRow.plan) {e' : EffectRow}
    (he' : effects'[i]? = some e') : ∃ e : EffectRow, effects[i]? = some e ∧ e.plan = e'.plan := by
  refine Option.map_eq_some_iff.1 ?_
  rw [← List.getElem?_map, ← h, List.getElem?_map, he', Option.map_some]

lemma Step.origin (h : t.Step t') {e' : EffectRow} (he' : t'.effects[i]? = some e') :
    (∃ e : EffectRow, t.effects[i]? = some e ∧ e.plan = e'.plan) ∨
      t.statusOf e'.plan.run = some .waitingApproval := by
  rcases h.plans with hsame | ⟨q, now, k, henqueue⟩
  · exact .inl (exists_of_plans hsame he')
  rcases enqueue_cases henqueue with ⟨-, rfl⟩ | ⟨-, -, gate, items, hgate, -, -, rfl⟩
  · exact .inl ⟨e', he', rfl⟩
  rcases getElem?_append_cases he' with hold | ⟨j, -, hnew⟩
  · exact .inl ⟨e', hold, rfl⟩
  · obtain ⟨p, hp, rfl⟩ := List.mem_map.1 (List.mem_of_getElem? hnew)
    obtain ⟨d, -, item, base, order, -, hp⟩ := planEffects_cases hp
    rw [(planDecision_fields hp).2.1]
    exact .inr (statusOf_waitingGate hgate)

variable {c : CommandRow}

lemma intervene_succeeded (h : c.intervene.status = .succeeded) :
    c.status = .succeeded := by
  unfold CommandRow.intervene at h
  split_ifs at h
  exact h

/-- **A command that succeeds resumes its run**, from the queue. -/
lemma Step.resumes (h : t.Step t') (hinv : t.Inv) {k : ℕ} {c' : CommandRow}
    (hc : t.commands[k]? = some c) (hc' : t'.commands[k]? = some c') (hold : c.status ≠ .succeeded)
    (hnew : c'.status = .succeeded) :
    t.statusOf c.run = some .approvalQueued ∧ t'.statusOf c.run = some c.resumeStatus := by
  have unchanged : t'.commands[k]? = t.commands[k]? → False := by
    intro heq
    rw [heq, hc] at hc'
    exact hold (Option.some.inj hc' ▸ hnew)
  cases h with
  | quiet _ hcommands _ => exact (unchanged (by rw [hcommands])).elim
  | claim owner j now hclaim =>
    obtain ⟨x, d, status, -, hd, -, -, -, -, rfl⟩ := claimEffect_cases hclaim
    rw [getElem?_set_of_some hd] at hc'
    split_ifs at hc' with hk
    · rw [← Option.some.inj hc'] at hnew
      cases hnew
    · exact (unchanged (by rw [getElem?_set_of_some hd, if_neg hk])).elim
  | settle owner j now f hplan _ hsettle =>
    obtain ⟨x, hx, hheld, ⟨hrun, rfl⟩ | ⟨hrun, rfl⟩⟩ := settle_cases hsettle
    · rcases finalizeCancellation_cases (t := { t with effects := t.effects.set j (f x) }) now
        hrun with ⟨-, hleaves⟩ | ⟨-, hleaves⟩
      · exact (unchanged (by rw [hleaves.commands])).elim
      · rw [hleaves.commands, interveneRun, List.getElem?_map, hc, Option.map_some,
          Option.some.injEq] at hc'
        rw [← hc'] at hnew
        split_ifs at hnew
        · exact absurd (intervene_succeeded hnew) hold
        · exact absurd hnew hold
    · have hst := EffectRow.processing_of_isHeldBy hheld
      have hlive : x.isLive = true := by simp [EffectRow.isLive, EffectRow.isPending, hst]
      obtain ⟨d, hd, hdr⟩ := hinv.parent j x hx
      have hqueued := (hinv.status_of_live hx hlive).resolve_right hrun
      have ho := hinv.open_of_live hx hlive hd
      rcases finalizeCommand_cases (t := { t with effects := t.effects.set j (f x) }) now hd ho
        (hdr.symm ▸ hqueued) with ⟨-, hleaves⟩ | ⟨-, hleaves⟩ | ⟨-, hleaves⟩ | ⟨-, hleaves⟩
      · rw [hleaves.commands, getElem?_set_of_some hd] at hc'
        by_cases hk : k = x.plan.command
        · subst hk
          obtain rfl := Option.some.inj (hc.symm.trans hd)
          refine ⟨hdr.symm ▸ hqueued, ?_⟩
          rw [hleaves.status, if_pos rfl]
        · exact (unchanged (by rw [hleaves.commands, getElem?_set_of_some hd, if_neg hk])).elim
      · exact (unchanged (by rw [hleaves.commands])).elim
      · rw [hleaves.commands, getElem?_set_of_some hd] at hc'
        split_ifs at hc' with hk
        · rw [← Option.some.inj hc'] at hnew
          cases hnew
        · exact (unchanged (by rw [hleaves.commands, getElem?_set_of_some hd, if_neg hk])).elim
      · exact (unchanged (by rw [hleaves])).elim
  | enqueue q now k' henqueue =>
    rcases enqueue_cases henqueue with ⟨-, rfl⟩ | ⟨-, -, gate, items, -, -, -, rfl⟩
    · exact (unchanged rfl).elim
    · exact (unchanged (by rw [hc]; exact getElem?_append_of_some _ hc)).elim
  | cancel run now project hcancel =>
    obtain ⟨status, -, ⟨-, rfl⟩ | ⟨-, hcases⟩⟩ := cancelRun_cases hcancel
    · exact (unchanged rfl).elim
    have hcommands : t'.commands = t.cancelCommands run := by
      rcases hcases with ⟨-, -, hleaves⟩ | ⟨-, -, hleaves⟩ <;> exact hleaves.commands
    rw [hcommands, getElem?_cancelCommands, hc, Option.map_some, Option.some.injEq] at hc'
    rw [← hc'] at hnew
    split_ifs at hnew
    · exact absurd (intervene_succeeded hnew) hold
    · exact absurd hnew hold

/-- **A run that is queued or being cancelled has an effect to go on with.** -/
lemma Inv.not_wedged (h : t.Inv) {r : ℕ}
    (hr : t.statusOf r = some .approvalQueued ∨ t.statusOf r = some .cancelling) :
    ∃ (i : ℕ) (e : EffectRow), t.effects[i]? = some e ∧ e.plan.run = r ∧
      (e.isPending = true ∨ (e.status = .queued ∧ t.dependencyDone e.plan = true)) := by
  obtain ⟨k, c, hc, rfl, ho⟩ := h.running r hr
  have hinv := h.command k c hc
  -- it is an effect of the open command
  suffices hown : ∃ (i : ℕ) (e : EffectRow), t.effects[i]? = some e ∧ e.plan.command = k ∧
      (e.isPending = true ∨ (e.status = .queued ∧ t.dependencyDone e.plan = true)) by
    obtain ⟨i, e, he, hk, hgo⟩ := hown
    refine ⟨i, e, he, ?_, hgo⟩
    obtain ⟨d, hd, hdr⟩ := h.parent i e he
    rw [hk, hc] at hd
    rw [← hdr, Option.some.inj hd]
  have pending : ∀ e ∈ t.effectsOfCommand k, e.isPending = true →
      ∃ (i : ℕ) (e : EffectRow), t.effects[i]? = some e ∧ e.plan.command = k ∧
        (e.isPending = true ∨ (e.status = .queued ∧ t.dependencyDone e.plan = true)) := by
    intro e he hp
    obtain ⟨hmem, hk⟩ := mem_effectsOfCommand.1 he
    obtain ⟨i, hi⟩ := List.mem_iff_getElem?.1 hmem
    exact ⟨i, e, hi, hk, .inl hp⟩
  rcases hr with hqueued | hcancelling
  · obtain ⟨⟨e, he, hrest⟩, hmanual⟩ := hinv.queued ho hqueued
    obtain ⟨hmem, hk⟩ := mem_effectsOfCommand.1 he
    obtain ⟨i, hi⟩ := List.mem_iff_getElem?.1 hmem
    cases hst : e.status with
    | succeeded => exact absurd hst hrest
    | manualIntervention =>
      obtain ⟨-, x, hx, hp⟩ := hmanual ⟨e, he, hst⟩
      exact pending x hx hp
    | processing => exact pending e he (by simp [EffectRow.isPending, hst])
    | retryableFailed => exact pending e he (by simp [EffectRow.isPending, hst])
    | queued =>
      cases hd : e.plan.dependsOn with
      | none => exact ⟨i, e, hi, hk, .inr ⟨hst, by simp [dependencyDone, hd]⟩⟩
      | some d =>
        -- the dependency has succeeded, or it is one to go on with
        obtain ⟨x, hx, hxk, hnone, -⟩ := h.dependency i d e hi hd
        have hx' : x ∈ t.effectsOfCommand k :=
          mem_effectsOfCommand.2 ⟨List.mem_of_getElem? hx, hxk.trans hk⟩
        cases hxs : x.status with
        | succeeded => exact ⟨i, e, hi, hk, .inr ⟨hst, by simp [dependencyDone, hd, hx, hxs]⟩⟩
        | manualIntervention => exact absurd hst ((hmanual ⟨x, hx', hxs⟩).1 e he)
        | processing => exact pending x hx' (by simp [EffectRow.isPending, hxs])
        | retryableFailed => exact pending x hx' (by simp [EffectRow.isPending, hxs])
        | queued => exact ⟨d, x, hx, hxk.trans hk, .inr ⟨hxs, by simp [dependencyDone, hnone]⟩⟩
  · obtain ⟨-, e, he, hp⟩ := hinv.draining ho hcancelling
    exact pending e he hp

lemma Inv.succeeds (h : t.Inv) {k : ℕ} (hc : t.commands[k]? = some c)
    (hall : ∀ e ∈ t.effectsOfCommand k, e.status = .succeeded) :
    c.status = .succeeded ∨ (c.status = .manualIntervention ∧ t.statusOf c.run = some .cancelled) := by
  have hinv := h.command k c hc
  have hopen : c.isOpen = true → False := by
    intro ho
    rcases hinv.opened ho with hq | hcancelling
    · obtain ⟨⟨e, he, hrest⟩, -⟩ := hinv.queued ho hq
      exact hrest (hall e he)
    · obtain ⟨-, e, he, hp⟩ := hinv.draining ho hcancelling
      simp [EffectRow.isPending, hall e he] at hp
  cases hst : c.status with
  | queued => exact (hopen (by simp [CommandRow.isOpen, hst])).elim
  | processing => exact (hopen (by simp [CommandRow.isOpen, hst])).elim
  | succeeded => exact .inl rfl
  | manualIntervention =>
    refine .inr ⟨rfl, (hinv.stopped hst).2.resolve_left ?_⟩
    rintro ⟨e, he, hmanual⟩
    rw [hall e he] at hmanual
    cases hmanual

end Tables

/-! ## Every run -/

lemma path_keeps {s u : State} (h : machine.Reach s) (hpath : machine.Path s u) {i : ℕ} {e : EffectRow}
    (he : s.tables.effects[i]? = some e) (hend : e.isLive = false) : u.tables.effects[i]? = some e := by
  refine StepMachine.Path.induct (M := machine) (I := fun s => s.tables.Leased)
    (R := fun s u => ∀ (i : ℕ) (e : EffectRow), s.tables.effects[i]? = some e → e.isLive = false →
      u.tables.effects[i]? = some e) ?_ ?_ ?_ ?_ (reach_inv h).2 hpath i e he hend
  · exact fun _ _ _ hl hstep => (step_tables hl hstep).2
  · exact fun _ _ _ hx _ => hx
  · exact fun _ _ _ h₁ h₂ j x hx hend => h₂ j x (h₁ j x hx hend) hend
  · exact fun _ _ _ hl hstep j x hx hend => (step_tables hl hstep).1.keeps hx hend

/-- **Effects settle in order and never wedge.** In every reachable state:

* a run that is queued or being cancelled has an effect that is processed, waits for a retry, or is
  queued with its dependency absent or succeeded;
* an effect that was started has its dependency succeeded;
* the effects of a command that has succeeded have, and a command whose effects have all succeeded
  has, unless its run was cancelled; a step that makes a command succeed takes its run from the queue
  to the status that the command resumes it with;
* an effect that has succeeded or needs intervention is the same in every later state. -/
theorem effects_settle {s : State} (h : machine.Reach s) :
    (∀ r : ℕ, s.tables.statusOf r = some .approvalQueued ∨ s.tables.statusOf r = some .cancelling →
      ∃ (i : ℕ) (e : EffectRow), s.tables.effects[i]? = some e ∧ e.plan.run = r ∧
        (e.status = .processing ∨ e.status = .retryableFailed ∨
          (e.status = .queued ∧ ∀ d : ℕ, e.plan.dependsOn = some d →
            ∃ x : EffectRow, s.tables.effects[d]? = some x ∧ x.status = .succeeded))) ∧
    (∀ (i d : ℕ) (e : EffectRow), s.tables.effects[i]? = some e → e.plan.dependsOn = some d →
      e.status = .processing ∨ e.status = .retryableFailed ∨ e.status = .succeeded →
      ∃ x : EffectRow, s.tables.effects[d]? = some x ∧ x.status = .succeeded) ∧
    (∀ (k : ℕ) (c : CommandRow), s.tables.commands[k]? = some c →
      (c.status = .succeeded → ∀ e ∈ s.tables.effectsOfCommand k, e.status = .succeeded) ∧
      ((∀ e ∈ s.tables.effectsOfCommand k, e.status = .succeeded) →
        c.status = .succeeded ∨ s.tables.statusOf c.run = some .cancelled) ∧
      ∀ (act : Act) (s' : State) (c' : CommandRow), s.step act = some s' →
        s'.tables.commands[k]? = some c' → c.status ≠ .succeeded → c'.status = .succeeded →
        s.tables.statusOf c.run = some .approvalQueued ∧
          s'.tables.statusOf c.run = some c.resumeStatus) ∧
    (∀ (u : State) (i : ℕ) (e : EffectRow), machine.Path s u → s.tables.effects[i]? = some e →
      e.status = .succeeded ∨ e.status = .manualIntervention → u.tables.effects[i]? = some e) := by
  obtain ⟨hinv, hl⟩ := reach_inv h
  refine ⟨fun r hr => ?_, fun i d e he hd hstarted => ?_, fun k c hc => ⟨?_, ?_, ?_⟩, ?_⟩
  · obtain ⟨i, e, he, hrun, hgo⟩ := hinv.not_wedged hr
    refine ⟨i, e, he, hrun, ?_⟩
    rcases hgo with hp | ⟨hq, hdone⟩
    · simp only [EffectRow.isPending, decide_eq_true_eq] at hp
      exact hp.imp_right .inl
    · refine .inr (.inr ⟨hq, fun d hd => ?_⟩)
      simpa [Tables.dependencyDone, hd, Option.any_eq_true] using hdone
  · obtain ⟨x, hx, -, -, hfirst⟩ := hinv.dependency i d e he hd
    exact ⟨x, hx, hfirst (by simpa [EffectRow.hasStarted] using hstarted)⟩
  · exact (hinv.command k c hc).succeeded
  · exact fun hall => (hinv.succeeds hc hall).imp_right And.right
  · intro act s' c' hstep hc' hold hnew
    exact (step_tables hl hstep).1.resumes hinv hc hc' hold hnew
  · intro u i e hpath he hend
    exact path_keeps h hpath he (EffectRow.isLive_eq_false.2 hend)

/-- A design that asks for a draft, and for a treatment if it has a specification. -/
def exampleDesign (spec : String) : Item :=
  ⟨some "checkout", none, some "approve", some ⟨some true, true, some "low", some true, some true⟩,
    "checkout", spec⟩

/-- A run stops at the gate of such a design, and the design is approved. -/
def exampleApproval (spec : String) : List Act :=
  [.trigger "shop", .acquire 0 1, .update 0 1 .running "experiment_design",
    .persist 0 1 "experiment_design" "experiment_designs" [some (exampleDesign spec)] true,
    .update 0 1 .waitingApproval "experiment_design_approval",
    .enqueue ⟨0, "shop", [⟨"checkout", true⟩], none, true⟩]

/-- A worker claims the draft, calls Config and records the draft. -/
def exampleDraft : List Act :=
  [.claim 5 0, .reserve 0, .authorize 0, .send 0, .deliver 0 true, .reply 0, .record 0]

/-- The draft of an approved design with a treatment is being staged: the run is queued, and has an
effect to go on with. -/
theorem effects_settle_staging : ∃ s : State, machine.Reach s ∧
    s.tables.statusOf 0 = some .approvalQueued ∧
    ∃ (i : ℕ) (e : EffectRow), s.tables.effects[i]? = some e ∧ e.plan.run = 0 ∧
      (e.status = .processing ∨ e.status = .retryableFailed ∨
        (e.status = .queued ∧ ∀ d : ℕ, e.plan.dependsOn = some d →
          ∃ x : EffectRow, s.tables.effects[d]? = some x ∧ x.status = .succeeded)) := by
  have hrun : (machine.run machine.init (exampleApproval "new button" ++ exampleDraft)).map
      (fun s => decide (s.tables.statusOf 0 = some .approvalQueued)) = some true := by
    decide +kernel
  obtain ⟨s, hs, hqueued⟩ := Option.map_eq_some_iff.1 hrun
  have hreach := StepMachine.reach_of_run hs
  have hstatus := of_decide_eq_true hqueued
  exact ⟨s, hreach, hstatus, (effects_settle hreach).1 0 (.inl hstatus)⟩

/-- The run is cancelled while its only effect is processed, and the effect then succeeds: the command
does not. -/
theorem effects_settle_cancelled : ¬ ∀ s : State, machine.Reach s →
    ∀ (k : ℕ) (c : CommandRow), s.tables.commands[k]? = some c →
      (c.status = .succeeded ↔ ∀ e ∈ s.tables.effectsOfCommand k, e.status = .succeeded) := by
  intro hall
  have hrun : (machine.run machine.init
      (exampleApproval "" ++ exampleDraft ++ [.cancel 0 "shop", .complete 0])).map
      (fun s => decide (s.tables.commands.map CommandRow.status = [.manualIntervention] ∧
        ∀ e ∈ s.tables.effectsOfCommand 0, e.status = .succeeded)) = some true := by
    decide +kernel
  obtain ⟨s, hs, hend⟩ := Option.map_eq_some_iff.1 hrun
  obtain ⟨hcommands, hdone⟩ := of_decide_eq_true hend
  obtain ⟨c, hc, hst⟩ : ∃ c, s.tables.commands[0]? = some c ∧ c.status = .manualIntervention := by
    refine Option.map_eq_some_iff.1 ?_
    rw [← List.getElem?_map, hcommands]
    rfl
  have hsucceeded := (hall s (StepMachine.reach_of_run hs) 0 c hc).2 hdone
  rw [hst] at hsucceeded
  cases hsucceeded

end Apdl.Agents.Approval
