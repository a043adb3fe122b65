import Apdl.Agents.Approval.Settlement

set_option autoImplicit false

/-!
# Calls after a cancellation

`cancel_run` gives up the effects that are still queued, and lets those that were claimed settle. A
claimed effect has not necessarily made its call: the worker may not have come to it, or the quota may
have turned it back. This file determines when a call starts after the cancellation.

## Main results

* `cancellation_starts_call` — a run whose effect was claimed and not called is cancelled, and the
  call starts.
-/

namespace Apdl.Agents.Approval

open Rows Tables

/-! ## Calls -/

/-- A worker has the capability for the call of an effect, and has not sent it. -/
def State.Authorized (s : State) (i : ℕ) : Prop :=
  ∃ work ∈ s.works, work.effect = i ∧ work.stage = .authorized

variable {s s' : State} {w i run now : ℕ}

lemma authorized_setStage {stage : WorkStage} (h : (s.setStage w stage).Authorized i) :
    s.Authorized i ∨ (stage = .authorized ∧ ∃ work : Work, s.works[w]? = some work ∧ work.effect = i) := by
  obtain ⟨work, hmem, heffect, hstage⟩ := h
  obtain ⟨j, hj⟩ := List.mem_iff_getElem?.1 hmem
  simp only [State.setStage, List.getElem?_modify, Option.map_eq_map, Option.map_eq_some_iff] at hj
  obtain ⟨x, hx, rfl⟩ := hj
  split_ifs at heffect hstage with hw
  · subst hw
    exact .inr ⟨hstage, x, hx, heffect⟩
  · exact .inl ⟨x, List.mem_of_getElem? hx, heffect, hstage⟩

/-- Where authorizations, calls and created objects come from: an authorization is for an external
effect that is processed, a call is made by an authorized worker, and an object is created by a call. -/
structure Outbound (s s' : State) : Prop where
  authorized : ∀ i : ℕ, s'.Authorized i → s.Authorized i ∨
    ∃ e : EffectRow, s.tables.effects[i]? = some e ∧ e.status = .processing ∧
      e.plan.effectType.isExternal = true
  issued : ∀ i ∈ s'.issued, i ∈ s.issued ∨ s.Authorized i
  calls : ∀ i ∈ s'.calls, i ∈ s.calls ∨ s.Authorized i
  created : ∀ i ∈ s'.created, i ∈ s.created ∨ i ∈ s.calls

lemma Outbound.of_same (hworks : s'.works = s.works) (hissued : s'.issued = s.issued)
    (hcalls : s'.calls = s.calls) (hcreated : s'.created = s.created) : Outbound s s' := by
  refine ⟨fun i hi => .inl ?_, fun i hi => .inl ?_, fun i hi => .inl ?_, fun i hi => .inl ?_⟩
  · rwa [State.Authorized, hworks] at hi
  · rwa [hissued] at hi
  · rwa [hcalls] at hi
  · rwa [hcreated] at hi

lemma Outbound.of_setStage (stage : WorkStage) (hstage : stage ≠ .authorized)
    (hworks : s'.works = (s.setStage w stage).works) (hissued : s'.issued = s.issued)
    (hcalls : s'.calls = s.calls) (hcreated : s'.created = s.created) : Outbound s s' := by
  refine ⟨fun i hi => .inl ?_, fun i hi => .inl ?_, fun i hi => .inl ?_, fun i hi => .inl ?_⟩
  · rw [State.Authorized, hworks] at hi
    exact (authorized_setStage hi).resolve_right fun hnew => hstage hnew.1
  · rwa [hissued] at hi
  · rwa [hcalls] at hi
  · rwa [hcreated] at hi

variable {e : EffectRow} {act : Act}

lemma stepWork_outbound {work : Work}
    (hw : s.works[w]? = some work) (he : s.tables.effects[work.effect]? = some e)
    (hact : ∀ w', act = .authorize w' → w' = w)
    (h : s.stepWork work e.plan act = some s') : Outbound s s' := by
  cases act <;> simp only [State.stepWork, reduceCtorEq] at h
  case reserve w' =>
    split_ifs at h
    cases hq : e.plan.quotaAction with
    | none =>
      simp only [hq, Option.some.injEq] at h
      subst h
      exact .of_setStage (w := w') .reserved (by simp) rfl rfl rfl rfl
    | some action =>
      simp only [hq] at h
      split at h <;> cases h
      · exact .of_setStage (w := w') (.raised false (some (15 * 60))) (by simp) rfl rfl rfl rfl
      · exact .of_setStage (w := w') .reserved (by simp) rfl rfl rfl rfl
  case authorize w' =>
    obtain rfl := hact w' rfl
    split_ifs at h with hcond hactive <;> cases h
    · refine ⟨fun i hi => ?_, fun i hi => .inl hi, fun i hi => .inl hi, fun i hi => .inl hi⟩
      refine (authorized_setStage hi).imp_right ?_
      rintro ⟨-, x, hx, rfl⟩
      obtain rfl := Option.some.inj (hx.symm.trans hw)
      refine ⟨e, he, ?_, hcond.2⟩
      simp only [executionIsActive, he, Bool.and_eq_true] at hactive
      exact EffectRow.processing_of_isHeldBy hactive.1.1
    · exact .of_setStage (w := w') (.raised false none) (by simp) rfl rfl rfl rfl
  case send w' =>
    split_ifs at h with hstage
    cases h
    have hown : s.Authorized work.effect := ⟨work, List.mem_of_getElem? hw, rfl, hstage⟩
    refine ⟨fun i hi => .inl ?_, fun i hi => ?_, fun i hi => ?_, fun i hi => .inl hi⟩
    · exact (authorized_setStage hi).resolve_right fun hnew => by cases hnew.1
    · rcases List.mem_append.1 hi with hold | hnew
      · exact .inl hold
      · exact .inr (List.mem_singleton.1 hnew ▸ hown)
    · rcases List.mem_append.1 hi with hold | hnew
      · exact .inl hold
      · exact .inr (List.mem_singleton.1 hnew ▸ hown)
  case reply w' =>
    split_ifs at h
    cases h
    exact .of_setStage (w := w') .replied (by simp) rfl rfl rfl rfl
  case record w' =>
    split_ifs at h <;> cases h <;>
      exact .of_setStage (w := w') .recorded (by simp) rfl rfl rfl rfl
  case raise w' permanent delay =>
    split at h <;> cases h <;>
      exact .of_setStage (w := w') (.raised permanent delay) (by simp) rfl rfl rfl rfl
  case complete w' =>
    split_ifs at h
    split at h <;> cases h <;>
      exact .of_setStage (w := w') .ended (by simp) rfl rfl rfl rfl
  case fail w' =>
    split at h
    · split at h <;> cases h <;>
        exact .of_setStage (w := w') .ended (by simp) rfl rfl rfl rfl
    · cases h
  case abandon w' =>
    cases h
    exact .of_setStage (w := w') .ended (by simp) rfl rfl rfl rfl

/-- **Where calls come from.** -/
lemma step_outbound (h : s.step act = some s') : Outbound s s' := by
  have database : (s.stepTables act).map (fun tables => { s with tables := tables }) = some s' →
      Outbound s s' := by
    intro hmap
    obtain ⟨t', -, rfl⟩ := Option.map_eq_some_iff.1 hmap
    exact .of_same rfl rfl rfl rfl
  have worker : ∀ w, (∀ w', act = .authorize w' → w' = w) → s.stepWorker w act = some s' →
      Outbound s s' := by
    intro w hact hwork
    obtain ⟨work, e, hw, he, hstep⟩ := stepWorker_cases hwork
    exact stepWork_outbound hw he hact hstep
  cases act <;> simp only [State.step] at h
  case tick duration =>
    cases h
    exact .of_same rfl rfl rfl rfl
  case claimProposals run ids =>
    split_ifs at h
    cases h
    exact .of_same rfl rfl rfl rfl
  case claim owner i =>
    split_ifs at h
    split at h
    · cases h
      refine ⟨fun j hj => .inl ?_, fun j hj => .inl hj, fun j hj => .inl hj, fun j hj => .inl hj⟩
      obtain ⟨work, hmem, heffect, hstage⟩ := hj
      rcases List.mem_append.1 hmem with hold | hnew
      · exact ⟨work, hold, heffect, hstage⟩
      · rw [List.mem_singleton.1 hnew] at hstage
        cases hstage
    · cases h
  case deliver i accepted =>
    split at h
    · cases h
    · rename_i effect heffect
      cases h
      refine ⟨fun j hj => .inl hj, fun j hj => .inl hj, fun j hj => .inl ?_, fun j hj => ?_⟩
      · exact List.mem_of_mem_eraseIdx hj
      · split_ifs at hj
        · rcases List.mem_append.1 hj with hold | hnew
          · exact .inl hold
          · exact .inr (List.mem_singleton.1 hnew ▸ List.mem_of_getElem? heffect)
        · exact .inl hj
  all_goals first
    | exact database h
    | exact worker _ (fun w' heq => by cases heq <;> rfl) h

def Tables.IsCancelled (t : Tables) (run : ℕ) : Prop :=
  t.statusOf run = some .cancelling ∨ t.statusOf run = some .cancelled

variable {t t' : Tables}

lemma Tables.Step.isCancelled (h : t.Step t') (hinv : t.Inv)
    (hrun : t.IsCancelled run) : t'.IsCancelled run := by
  have unchanged : t'.statusOf run = t.statusOf run → t'.IsCancelled run := by
    intro heq
    rwa [Tables.IsCancelled, heq]
  cases h with
  | quiet _ _ hruns =>
    rcases hruns run with hsame | ⟨hquiet, -⟩
    · exact unchanged hsame
    · rcases hrun with hrun | hrun
      · exact absurd hrun hquiet.2.1
      · exact absurd hrun hquiet.2.2
  | claim owner j now hclaim =>
    obtain ⟨x, c, status, -, -, -, -, -, -, rfl⟩ := claimEffect_cases hclaim
    exact hrun
  | settle owner j now f hplan _ hsettle =>
    obtain ⟨x, hx, hheld, ⟨hst, rfl⟩ | ⟨hst, rfl⟩⟩ := settle_cases hsettle
    · rcases finalizeCancellation_cases (t := { t with effects := t.effects.set j (f x) }) now
        hst with ⟨-, hleaves⟩ | ⟨-, hleaves⟩
      · exact unchanged (hleaves.status run)
      · rw [Tables.IsCancelled, hleaves.status]
        split_ifs
        · exact .inr rfl
        · exact hrun
    · have hlive : x.isLive = true := by
        simp [EffectRow.isLive, EffectRow.isPending, EffectRow.processing_of_isHeldBy hheld]
      obtain ⟨c, hc, hcr⟩ := hinv.parent j x hx
      have hqueued : t.statusOf c.run = some .approvalQueued :=
        hcr.symm ▸ (hinv.status_of_live hx hlive).resolve_right hst
      have hne : run ≠ c.run := by
        rintro rfl
        rcases hrun with hrun | hrun <;> rw [hqueued] at hrun <;> cases hrun
      rcases finalizeCommand_cases (t := { t with effects := t.effects.set j (f x) }) now hc
        (hinv.open_of_live hx hlive hc) hqueued with
        ⟨-, hleaves⟩ | ⟨-, hleaves⟩ | ⟨-, hleaves⟩ | ⟨-, hleaves⟩
      · exact unchanged ((hleaves.status run).trans (if_neg hne))
      · exact unchanged (hleaves.status run)
      · exact unchanged ((hleaves.status run).trans (if_neg hne))
      · rw [hleaves]
        exact hrun
  | enqueue q now k henqueue =>
    rcases enqueue_cases henqueue with ⟨-, rfl⟩ | ⟨-, -, gate, items, hgate, -, -, rfl⟩
    · exact hrun
    · have hwaiting := statusOf_waitingGate hgate
      have hne : run ≠ q.run := by
        rintro rfl
        rcases hrun with hrun | hrun <;> rw [hwaiting] at hrun <;> cases hrun
      exact unchanged ((statusOf_insertCommand gate _ now hwaiting run).trans (if_neg hne))
  | cancel r now project hcancel =>
    obtain ⟨status, -, ⟨-, rfl⟩ | ⟨-, ⟨-, -, hleaves⟩ | ⟨-, -, hleaves⟩⟩⟩ := cancelRun_cases hcancel
    · exact hrun
    all_goals
      rw [Tables.IsCancelled, hleaves.status]
      split_ifs
      · simp
      · exact hrun

/-! ## The fence -/

/-- The external effects of the run that are claimed have made their calls. -/
def State.CallsSent (s : State) (run : ℕ) : Prop :=
  ∀ (i : ℕ) (e : EffectRow), s.tables.effects[i]? = some e → e.plan.run = run →
    e.plan.effectType.isExternal = true → i ∉ s.issued → e.isPending = false ∧ ¬ s.Authorized i

/-- The run is cancelled, and the effects that had not made their calls have ended. -/
structure State.Fenced (s : State) (run : ℕ) (sent : List ℕ) : Prop where
  cancelled : s.tables.IsCancelled run
  ended : ∀ (i : ℕ) (e : EffectRow), s.tables.effects[i]? = some e → e.plan.run = run →
    e.plan.effectType.isExternal = true → i ∉ sent →
      i ∉ s.issued ∧ e.isLive = false ∧ ¬ s.Authorized i

lemma State.Fenced.step {sent : List ℕ} (h : s.Fenced run sent)
    (hinv : s.tables.Inv) (hl : s.tables.Leased) (hstep : s.step act = some s') :
    s'.Fenced run sent := by
  have htables := (step_tables hl hstep).1
  have hout := step_outbound hstep
  refine ⟨htables.isCancelled hinv h.cancelled, fun i e' he' hrun hext hi => ?_⟩
  obtain ⟨e, he, hplan⟩ : ∃ e : EffectRow, s.tables.effects[i]? = some e ∧ e.plan = e'.plan := by
    refine (htables.origin he').resolve_right fun hwaiting => ?_
    rw [hrun] at hwaiting
    rcases h.cancelled with hc | hc <;> rw [hwaiting] at hc <;> cases hc
  obtain ⟨hissued, hend, hauth⟩ := h.ended i e he (hplan ▸ hrun) (hplan ▸ hext) hi
  refine ⟨fun hnew => ?_, ?_, fun hnew => ?_⟩
  · exact (hout.issued i hnew).elim hissued hauth
  · rw [htables.keeps he hend] at he'
    exact Option.some.inj he' ▸ hend
  · rcases hout.authorized i hnew with hold | ⟨x, hx, hprocessing, -⟩
    · exact hauth hold
    · obtain rfl := Option.some.inj (hx.symm.trans he)
      simp [EffectRow.isLive, EffectRow.isPending, hprocessing] at hend

lemma State.Fenced.path {u : State} {sent : List ℕ} (h : s.Fenced run sent)
    (hreach : machine.Reach s) (hpath : machine.Path s u) : u.Fenced run sent := by
  refine StepMachine.Path.induct (M := machine) (I := fun s => s.tables.Inv ∧ s.tables.Leased)
    (R := fun s u => s.Fenced run sent → u.Fenced run sent) ?_ ?_ ?_ ?_ (reach_inv hreach) hpath h
  · rintro s act s' ⟨hinv, hl⟩ hstep
    obtain ⟨htables, hl'⟩ := step_tables hl hstep
    exact ⟨htables.inv hinv, hl'⟩
  · exact fun _ hs => hs
  · exact fun _ _ _ h₁ h₂ hs => h₂ (h₁ hs)
  · exact fun _ _ _ hI hstep hs => hs.step hI.1 hI.2 hstep

variable {project : String}

lemma step_cancel (h : s.step (.cancel run project) = some s') :
    ∃ t' : Tables, s.tables.cancelRun run project s.clock = some t' ∧ s' = { s with tables := t' } := by
  simp only [State.step, State.stepTables, Option.map_eq_some_iff] at h
  obtain ⟨t', ht', rfl⟩ := h
  exact ⟨t', ht', rfl⟩

lemma Tables.cancelRun_effects (hinv : t.Inv)
    (h : t.cancelRun run project now = some t') {e' : EffectRow}
    (he' : t'.effects[i]? = some e') (hrun : e'.plan.run = run) :
    e'.status ≠ .queued ∧ ∃ e : EffectRow, t.effects[i]? = some e ∧ e.plan = e'.plan ∧
      (e'.isPending = true → e = e') := by
  obtain ⟨status, hst, ⟨rfl, rfl⟩ | ⟨-, ⟨-, -, hleaves⟩ | ⟨-, -, hleaves⟩⟩⟩ := cancelRun_cases h
  · refine ⟨fun hq => ?_, e', he', rfl, fun _ => rfl⟩
    have hend := hinv.not_live run (by simp [hst]) (by simp [hst])
      (mem_effectsOf.2 ⟨List.mem_of_getElem? he', hrun⟩)
    simp [EffectRow.isLive, hq] at hend
  all_goals
    rw [hleaves.effects, abandonRun, List.getElem?_map, Option.map_eq_some_iff] at he'
    obtain ⟨y, hy, rfl⟩ := he'
    rw [abandonWhere_plan] at hrun
    refine ⟨abandonWhere_ne_queued hrun, y, hy, (abandonWhere_plan _ y).symm, fun hp => ?_⟩
    refine (abandonWhere_eq_of fun hm => ?_).symm
    simp [EffectRow.isPending, hm] at hp

lemma Tables.cancelRun_keeps (hinv : t.Inv) (h : t.cancelRun run project now = some t')
    (he : t.effects[i]? = some e) (hrun : e.plan.run = run) :
    ∃ e' : EffectRow, t'.effects[i]? = some e' ∧ e'.plan = e.plan ∧
      (e.isPending = true → e' = e ∧ t'.statusOf run = some .cancelling) := by
  have hmem : e ∈ t.effectsOf run := mem_effectsOf.2 ⟨List.mem_of_getElem? he, hrun⟩
  have hnew : e.isPending = true → abandonWhere (fun plan => plan.run = run) e = e := by
    refine fun hp => abandonWhere_of_ne fun hq => ?_
    simp [EffectRow.isPending, hq] at hp
  obtain ⟨status, hst, ⟨rfl, rfl⟩ | ⟨-, ⟨-, -, hleaves⟩ | ⟨hnone, -, hleaves⟩⟩⟩ := cancelRun_cases h
  · refine ⟨e, he, rfl, fun hp => ?_⟩
    have hend := hinv.not_live _ (by simp [hst]) (by simp [hst]) hmem
    simp [EffectRow.isLive, hp] at hend
  · refine ⟨abandonWhere (fun plan => plan.run = run) e, ?_, abandonWhere_plan _ e, fun hp => ?_⟩
    · rw [hleaves.effects, abandonRun, List.getElem?_map, he, Option.map_some]
    · exact ⟨hnew hp, (hleaves.status run).trans (if_pos rfl)⟩
  · refine ⟨abandonWhere (fun plan => plan.run = run) e, ?_, abandonWhere_plan _ e, fun hp => ?_⟩
    · rw [hleaves.effects, abandonRun, List.getElem?_map, he, Option.map_some]
    · rw [hnone e hmem] at hp
      cases hp

lemma Tables.isCancelled_of_cancelRun
    (h : t.cancelRun run project now = some t') : t'.IsCancelled run := by
  obtain ⟨status, hst, ⟨rfl, rfl⟩ | ⟨-, ⟨-, -, hleaves⟩ | ⟨-, -, hleaves⟩⟩⟩ := cancelRun_cases h
  · exact .inr hst
  all_goals
    rw [Tables.IsCancelled, hleaves.status, if_pos rfl]
    simp

lemma fenced_of_cancel (hinv : s.tables.Inv)
    (hsent : s.CallsSent run) (h : s.step (.cancel run project) = some s') :
    s'.Fenced run s.issued := by
  obtain ⟨t', ht', rfl⟩ := step_cancel h
  refine ⟨isCancelled_of_cancelRun ht', fun i e' he' hrun hext hi => ?_⟩
  obtain ⟨hq, e, he, hplan, hpending⟩ := cancelRun_effects hinv ht' he' hrun
  obtain ⟨hp, hauth⟩ := hsent i e he (hplan ▸ hrun) (hplan ▸ hext) hi
  refine ⟨hi, ?_, hauth⟩
  cases hl : e'.isLive with
  | false => rfl
  | true =>
    rcases EffectRow.isLive_iff.1 hl with h' | h'
    · exact absurd h' hq
    · rw [hpending h', h'] at hp
      cases hp

/-! ## Without the fence -/

/-- An effect that is processed is leased. -/
def Tables.Held (t : Tables) : Prop :=
  ∀ (i : ℕ) (e : EffectRow), t.effects[i]? = some e → e.status = .processing → e.lease.isSome = true

lemma Tables.Step.held (h : t.Step t') (hheld : t.Held) : t'.Held := by
  intro i e' he' hst
  have abandoned : ∀ (p : PlannedEffect → Prop) [DecidablePred p] (e : EffectRow),
      (abandonWhere p e).status = .processing → abandonWhere p e = e :=
    fun p _ e hp => abandonWhere_eq_of (by simp [hp])
  cases h with
  | quiet heffects =>
    rw [heffects] at he'
    exact hheld i e' he' hst
  | claim owner j now hclaim =>
    obtain ⟨x, c, status, hx, -, -, -, -, -, rfl⟩ := claimEffect_cases hclaim
    rw [getElem?_set_of_some hx] at he'
    split_ifs at he' with hij
    · obtain rfl := Option.some.inj he'
      rfl
    · exact hheld i e' he' hst
  | settle owner j now f _ hprocessing hsettle =>
    obtain ⟨x, p, hx, -, heffects⟩ := settle_effects hsettle
    rw [heffects, List.getElem?_map, Option.map_eq_some_iff] at he'
    obtain ⟨y, hy, rfl⟩ := he'
    have hsame := abandoned _ y hst
    rw [hsame] at hst ⊢
    rw [getElem?_set_of_some hx] at hy
    split_ifs at hy with hij
    · obtain rfl := Option.some.inj hy
      exact absurd hst (hprocessing x)
    · exact hheld i y hy hst
  | enqueue q now k henqueue =>
    rcases enqueue_cases henqueue with ⟨-, rfl⟩ | ⟨-, -, gate, items, -, -, -, rfl⟩
    · exact hheld i e' he' hst
    · rcases getElem?_append_cases he' with hold | ⟨j, -, hnew⟩
      · exact hheld i e' hold hst
      · obtain ⟨p, -, rfl⟩ := List.mem_map.1 (List.mem_of_getElem? hnew)
        cases hst
  | cancel run now project hcancel =>
    obtain ⟨status, -, ⟨-, rfl⟩ | ⟨-, ⟨-, -, hleaves⟩ | ⟨-, -, hleaves⟩⟩⟩ := cancelRun_cases hcancel
    · exact hheld i e' he' hst
    all_goals
      rw [hleaves.effects, abandonRun, List.getElem?_map, Option.map_eq_some_iff] at he'
      obtain ⟨y, hy, rfl⟩ := he'
      have hsame := abandoned _ y hst
      rw [hsame] at hst ⊢
      exact hheld i y hy hst

lemma reach_held (h : machine.Reach s) : s.tables.Held := by
  refine StepMachine.Reach.induct (P := fun s => s.tables.Held) ?_ ?_ h
  · intro i e he
    simp [machine, State.initial] at he
  · intro s act s' hreach hheld hstep
    exact (step_tables (reach_inv hreach).2 hstep).1.held hheld

lemma exists_bound (l : List ℕ) : ∃ n : ℕ, ∀ x ∈ l, x < n := by
  induction l with
  | nil => exact ⟨0, by simp⟩
  | cons a l ih =>
    obtain ⟨n, hn⟩ := ih
    refine ⟨max n (a + 1), fun x hx => ?_⟩
    rcases List.mem_cons.1 hx with rfl | hx
    · exact Nat.lt_of_lt_of_le (Nat.lt_succ_self x) (Nat.le_max_right _ _)
    · exact Nat.lt_of_lt_of_le (hn x hx) (Nat.le_max_left _ _)

lemma reserveMutation_of_old {rs : List Reservation} (project : String) (action : QuotaAction)
    (i : ℕ) (h : ∀ r ∈ rs, r.occurredAt + quotaWindow < now) :
    ∃ rs' : List Reservation, reserveMutation rs project action i now = some rs' := by
  unfold reserveMutation
  dsimp only
  split_ifs with hsame hfull
  · exact ⟨_, rfl⟩
  · have hnone : (rs.filter fun r => decide (r.project = project ∧ r.action = action)).filter
        (fun r => decide (now ≤ r.occurredAt + quotaWindow)) = [] := by
      refine List.filter_eq_nil_iff.2 fun r hr => ?_
      have hold := h r (List.mem_of_mem_filter hr)
      simpa using hold
    rw [hnone] at hfull
    cases action <;> simp [QuotaAction.limit] at hfull
  · exact ⟨_, rfl⟩

/-- The effect with the given plan makes its call on some path. -/
def State.CanCall (s : State) (i : ℕ) (plan : PlannedEffect) : Prop :=
  ∃ u : State, machine.Path s u ∧ i ∈ u.issued ∧
    ∃ e : EffectRow, u.tables.effects[i]? = some e ∧ e.plan = plan

lemma path_of_authorized (he : s.tables.effects[i]? = some e)
    (h : s.Authorized i) : s.CanCall i e.plan := by
  obtain ⟨work, hmem, rfl, hstage⟩ := h
  obtain ⟨w, hw⟩ := List.mem_iff_getElem?.1 hmem
  have hstep : s.step (.send w) = some { s.setStage w .called with
      calls := s.calls ++ [work.effect], issued := s.issued ++ [work.effect] } := by
    simp only [State.step, State.stepWorker, hw, he, State.stepWork, if_pos hstage]
  exact ⟨_, .single ⟨.send w, hstep⟩, by simp, e, he, rfl⟩

lemma getElem?_setStage {work : Work} (hw : s.works[w]? = some work)
    (stage : WorkStage) : (s.setStage w stage).works[w]? = some { work with stage := stage } := by
  simp [State.setStage, hw]

lemma path_of_claimed {owner : ℕ} {attempt expiry : ℕ}
    (hw : s.works[w]? = some ⟨owner, i, attempt, .claimed⟩) (he : s.tables.effects[i]? = some e)
    (hst : e.status = .processing) (hlease : e.lease = some (owner, expiry)) (hexp : s.clock < expiry)
    (hrun : s.tables.statusOf e.plan.run = some .cancelling)
    (hext : e.plan.effectType.isExternal = true)
    (hquota : ∀ r ∈ s.reservations, r.occurredAt + quotaWindow < s.clock) : s.CanCall i e.plan := by
  obtain ⟨s₁, hs₁, htables, hclock, hworks⟩ : ∃ s₁ : State, s.step (.reserve w) = some s₁ ∧
      s₁.tables = s.tables ∧ s₁.clock = s.clock ∧ s₁.works = (s.setStage w .reserved).works := by
    cases hq : e.plan.quotaAction with
    | none =>
      refine ⟨s.setStage w .reserved, ?_, rfl, rfl, rfl⟩
      simp [State.step, State.stepWorker, hw, he, State.stepWork, hq]
    | some action =>
      obtain ⟨rs, hrs⟩ := reserveMutation_of_old (s.projectOf e.plan.run) action i hquota
      refine ⟨{ s.setStage w .reserved with reservations := rs }, ?_, rfl, rfl, rfl⟩
      simp [State.step, State.stepWorker, hw, he, State.stepWork, hq, hrs]
  have hw₁ : s₁.works[w]? = some ⟨owner, i, attempt, .reserved⟩ := by
    rw [hworks, getElem?_setStage hw]
  have hactive : s₁.tables.executionIsActive owner i s₁.clock = true := by
    have hlive : ¬ expiry ≤ s.clock := Nat.not_le.2 hexp
    simp [executionIsActive, htables, hclock, he, EffectRow.isHeldBy, EffectRow.isExpired, hst, hlease,
      hlive, hrun]
  have hs₂ : s₁.step (.authorize w) = some (s₁.setStage w .authorized) := by
    simp [State.step, State.stepWorker, hw₁, htables ▸ he, State.stepWork, hext, hactive]
  have hauth : (s₁.setStage w .authorized).Authorized i :=
    ⟨_, List.mem_of_getElem? (getElem?_setStage hw₁ .authorized), rfl, rfl⟩
  obtain ⟨u, hpath, hissued⟩ := path_of_authorized (s := s₁.setStage w .authorized) (e := e)
    (by rw [← he, ← htables]; rfl) hauth
  exact ⟨u, .head ⟨.reserve w, hs₁⟩ (.head ⟨.authorize w, hs₂⟩ hpath), hissued⟩

lemma path_of_pending (hinv : s.tables.Inv) (hheld : s.tables.Held) (he : s.tables.effects[i]? = some e)
    (hrun : s.tables.statusOf e.plan.run = some .cancelling) (hp : e.isPending = true)
    (hext : e.plan.effectType.isExternal = true) : s.CanCall i e.plan := by
  obtain ⟨c, hc, -⟩ := hinv.parent i e he
  have ho := hinv.open_of_live he (EffectRow.isLive_iff.2 (.inr hp)) hc
  obtain ⟨owner, howner⟩ := exists_bound (s.works.map Work.owner)
  obtain ⟨n, hn⟩ := exists_bound (s.reservations.map fun r => r.occurredAt + quotaWindow)
  -- all times are over
  set wait := n + e.nextAttemptAt + (e.lease.map Prod.snd).getD 0 with hwait
  set now := s.clock + wait with hnow
  have hclaimable : e.isClaimable .cancelling now = true := by
    simp only [EffectRow.isPending, decide_eq_true_eq] at hp
    rcases hp with hp | hp
    · obtain ⟨⟨o, expiry⟩, hlease⟩ := Option.isSome_iff_exists.1 (hheld i e he hp)
      have hexp : expiry ≤ now := by
        simp only [hlease, Option.map_some, Option.getD_some] at hwait
        omega
      simp [EffectRow.isClaimable, EffectRow.isExpired, hp, hlease, hexp]
    · have hdue : e.nextAttemptAt ≤ now := by omega
      simp [EffectRow.isClaimable, EffectRow.isDue, hp, hdue]
  have hdone : s.tables.dependencyDone e.plan = true := by
    unfold dependencyDone
    cases hd : e.plan.dependsOn with
    | none => rfl
    | some d =>
      obtain ⟨x, hx, -, -, hfirst⟩ := hinv.dependency i d e he hd
      have hstarted : e.hasStarted = true := by
        simp only [EffectRow.isPending, decide_eq_true_eq] at hp
        rcases hp with hp | hp <;> simp [EffectRow.hasStarted, hp]
      simp [hx, hfirst hstarted]
  set e' : EffectRow := { e with
    status := .processing, lease := some (owner, now + effectLease)
    attemptCount := e.attemptCount + 1 } with he'
  set t' : Tables := { s.tables with
    effects := s.tables.effects.set i e'
    commands := s.tables.commands.set e.plan.command { c with status := .processing } } with ht'
  have hclaim : s.tables.claimEffect owner i now = some t' := by
    have hlane : RunStatus.cancelling.holdsLane = true := rfl
    simp only [claimEffect, he, hc, hrun, hclaimable, hdone, ho, hlane, Bool.and_self, if_true]
    rfl
  set s₁ : State := { s with clock := now } with hs₁
  set s₂ : State := { s₁ with
    tables := t', works := s.works ++ [⟨owner, i, e.attemptCount + 1, .claimed⟩] } with hs₂
  have htick : s.step (.tick wait) = some s₁ := rfl
  have hstep : s₁.step (.claim owner i) = some s₂ := by
    have hfree : (s.works.all fun work => decide (work.owner = owner → work.stage = .ended)) = true := by
      refine List.all_eq_true.2 fun work hwork => decide_eq_true fun hsame => ?_
      have hlt := howner work.owner (List.mem_map_of_mem hwork)
      omega
    have hclaim₁ : s₁.tables.claimEffect owner i s₁.clock = some t' := hclaim
    have he₁ : s₁.tables.effects[i]? = some e := he
    unfold State.step
    dsimp only
    rw [if_pos hfree, hclaim₁, he₁]
  have hw : s₂.works[s.works.length]? = some ⟨owner, i, e.attemptCount + 1, .claimed⟩ :=
    getElem?_append_add s.works [_] 0
  have hrow : s₂.tables.effects[i]? = some e' := (getElem?_set_of_some he).trans (if_pos rfl)
  have hexp : s₂.clock < now + effectLease := Nat.lt_add_of_pos_right (by decide)
  have hquota : ∀ r ∈ s₂.reservations, r.occurredAt + quotaWindow < s₂.clock := by
    intro r hr
    have hold : r.occurredAt + quotaWindow < n := hn _ (List.mem_map_of_mem hr)
    show r.occurredAt + quotaWindow < now
    omega
  obtain ⟨u, hpath, hissued⟩ := path_of_claimed hw hrow rfl rfl hexp hrun hext hquota
  exact ⟨u, .head ⟨.tick wait, htick⟩ (.head ⟨.claim owner i, hstep⟩ hpath), hissued⟩

/-- **A cancellation starts no call, exactly if the claimed effects had made theirs.** In every
reachable state, the effects of a run without its lane have ended; and after `cancel_run`, no external
effect of the run makes its first call in any later state, if and only if the external effects that
were processed or waited for a retry, or whose worker had its capability, had made their calls.

**Proof sketch.** If they had, the other external effects of the run have ended, and this and the
cancelled status are kept by every step. If one had not, its worker sends the call, or the effect is
claimed again when its lease and its delay are over and an hour has passed for the quota. -/
theorem cancellation_starts_no_call {s : State} (h : machine.Reach s) :
    (∀ (r : ℕ) (status : RunStatus), s.tables.statusOf r = some status → status.holdsLane = false →
      ∀ (i : ℕ) (e : EffectRow), s.tables.effects[i]? = some e → e.plan.run = r →
        e.status ≠ .queued ∧ e.status ≠ .processing ∧ e.status ≠ .retryableFailed) ∧
    ∀ (run : ℕ) (project : String) (s' : State), s.step (.cancel run project) = some s' →
      ((∀ (u : State) (i : ℕ) (e : EffectRow), machine.Path s' u → u.tables.effects[i]? = some e →
        e.plan.run = run → e.plan.effectType.isExternal = true → i ∉ s'.issued → i ∉ u.issued) ↔
      s.CallsSent run) := by
  obtain ⟨hinv, hl⟩ := reach_inv h
  refine ⟨fun r status hst hlane i e he hrun => ?_, fun run project s' hstep => ⟨fun hall => ?_, ?_⟩⟩
  · have hend := hinv.not_live r (by rw [hst]; rintro ⟨⟩; cases hlane)
      (by rw [hst]; rintro ⟨⟩; cases hlane) (mem_effectsOf.2 ⟨List.mem_of_getElem? he, hrun⟩)
    rcases EffectRow.isLive_eq_false.1 hend with hst | hst <;> simp [hst]
  · intro i e he hrun hext hi
    have hreach : machine.Reach s' := h.next (a := Act.cancel run project) hstep
    obtain ⟨t', ht', rfl⟩ := step_cancel hstep
    obtain ⟨e', he', hplan, hpending⟩ := cancelRun_keeps hinv ht' he hrun
    have hno : ¬ State.CanCall { s with tables := t' } i e'.plan := by
      rintro ⟨u, hpath, hissued, x, hx, hxp⟩
      rw [hplan] at hxp
      exact hall u i x hpath hx (hxp ▸ hrun) (hxp ▸ hext) hi hissued
    refine ⟨?_, fun hauth => hno (path_of_authorized he' hauth)⟩
    cases hp : e.isPending with
    | false => rfl
    | true =>
      obtain ⟨rfl, hcancelling⟩ := hpending hp
      exact (hno (path_of_pending (reach_inv hreach).1 (reach_held hreach) he'
        (hrun ▸ hcancelling) hp hext)).elim
  · intro hsent u i e hpath he hrun hext hi
    obtain ⟨t', ht', heq⟩ := step_cancel hstep
    have hfence := (fenced_of_cancel hinv hsent hstep).path
      (h.next (a := .cancel run project) hstep) hpath
    rw [heq] at hi
    exact (hfence.ended i e he hrun hext hi).1

/-- The draft of a design is staged and Config is called before the run is cancelled: no call starts
afterwards. -/
theorem cancellation_starts_no_call_sent : ∃ s s' : State, machine.Reach s ∧
    s.step (.cancel 0 "shop") = some s' ∧ s.CallsSent 0 ∧
    ∀ (u : State) (i : ℕ) (e : EffectRow), machine.Path s' u → u.tables.effects[i]? = some e →
      e.plan.run = 0 → e.plan.effectType.isExternal = true → i ∉ s'.issued → i ∉ u.issued := by
  have hrun : (machine.run machine.init
      (exampleApproval "" ++ [.claim 5 0, .reserve 0, .authorize 0, .send 0])).map
      (fun s => decide ((s.step (.cancel 0 "shop")).isSome = true ∧ s.tables.effects.length = 1 ∧
        0 ∈ s.issued)) = some true := by
    decide +kernel
  obtain ⟨s, hs, hend⟩ := Option.map_eq_some_iff.1 hrun
  obtain ⟨hcancel, hlength, hissued⟩ := of_decide_eq_true hend
  obtain ⟨s', hs'⟩ := Option.isSome_iff_exists.1 hcancel
  have hreach := StepMachine.reach_of_run hs
  have hsent : s.CallsSent 0 := by
    intro i e he _ _ hi
    have hlt := (List.getElem?_eq_some_iff.1 he).1
    obtain rfl : i = 0 := by omega
    exact absurd hissued hi
  exact ⟨s, s', hreach, hs', hsent, ((cancellation_starts_no_call hreach).2 0 "shop" s' hs').2 hsent⟩

/-- The draft is claimed when the run is cancelled, and Config is called for it afterwards. -/
theorem cancellation_starts_call : ¬ ∀ s s' : State, machine.Reach s →
    s.step (.cancel 0 "shop") = some s' →
    ∀ (u : State) (i : ℕ) (e : EffectRow), machine.Path s' u → u.tables.effects[i]? = some e →
      e.plan.run = 0 → e.plan.effectType.isExternal = true → i ∉ s'.issued → i ∉ u.issued := by
  intro hall
  have hrun : ((machine.run machine.init (exampleApproval "" ++ [.claim 5 0])).bind fun s =>
      (s.step (.cancel 0 "shop")).bind fun s' =>
        (machine.run s' [.reserve 0, .authorize 0, .send 0]).map fun u =>
          decide (0 ∉ s'.issued ∧ 0 ∈ u.issued ∧ (u.tables.effects[0]?.any fun e =>
            decide (e.plan.run = 0) && e.plan.effectType.isExternal) = true)) = some true := by
    decide +kernel
  obtain ⟨s, hs, hrun⟩ := Option.bind_eq_some_iff.1 hrun
  obtain ⟨s', hs', hrun⟩ := Option.bind_eq_some_iff.1 hrun
  obtain ⟨u, hu, hend⟩ := Option.map_eq_some_iff.1 hrun
  obtain ⟨hbefore, hafter, hrow⟩ := of_decide_eq_true hend
  obtain ⟨e, he, hplan⟩ := (Option.any_eq_true _ _).1 hrow
  simp only [Bool.and_eq_true, decide_eq_true_eq] at hplan
  exact hall s s' (StepMachine.reach_of_run hs) hs' u 0 e (StepMachine.path_of_run hu) he hplan.1
    hplan.2 hbefore hafter

end Apdl.Agents.Approval
