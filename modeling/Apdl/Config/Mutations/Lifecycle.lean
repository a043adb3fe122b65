import Apdl.Config.Mutations.Backing

set_option autoImplicit false

/-!
# The frozen analysis contract

Once an experiment has left draft its analysis fields stay as they are, whatever requests, deletions
and scheduler ticks follow; only its end moves, and only when it is stopped or cancelled.

## Main results

* `frozen_contract` — the law for steps and for histories.

## Design

The router checks the requested transition against the row it read, in a transaction of its own; the
command only checks the version. A row with the version that was read is that row: every write
increments the version, and a deleted draft cannot be created again with the same flag, because its
archived flag keeps the key.
-/

namespace Apdl.Config.Mutations

open Flags Check

/-! ## What a step may do to a row -/

/-- The two rows agree in a frozen field. -/
def FrozenField.Same (f : FrozenField) (e e' : Experiment) : Prop := f.differs e e' = false

lemma FrozenField.Same.refl (f : FrozenField) (e : Experiment) : f.Same e e := by
  cases f <;> simp [FrozenField.Same, FrozenField.differs]

lemma FrozenField.Same.trans {f : FrozenField} {e₁ e₂ e₃ : Experiment} (h₁ : f.Same e₁ e₂)
    (h₂ : f.Same e₂ e₃) : f.Same e₁ e₃ := by
  cases f <;> simp_all [FrozenField.Same, FrozenField.differs]

lemma FrozenField.mem_all (f : FrozenField) : f ∈ FrozenField.all := by
  cases f <;> decide

/-- What the action `a` may make of the row `e`. -/
structure Amends (a : Act) (e e' : Experiment) : Prop where
  status : e'.status ∈ allowedStatusTransitions e.status
  frozen : e.status ≠ .draft → ∀ f : FrozenField, f ≠ .endDate → f.Same e e'
  endDate : e.status ≠ .draft → e'.endDate = e.endDate ∨
    (e.status = .scheduled ∧ e'.status = .stopped ∧ e'.endDate = none) ∨
    (∃ now plannedEnd, a.commitClock = some now ∧ e.status = .running ∧ e'.status = .stopped ∧
      e.endDate = some plannedEnd ∧ e'.endDate = some (min now plannedEnd))

namespace Amends

lemma refl (a : Act) (e : Experiment) : Amends a e e := by
  refine ⟨?_, fun _ f _ => .refl f e, fun _ => .inl rfl⟩
  cases e.status <;> decide

lemma endDate_of_completed {a : Act} {e e' : Experiment} (h : Amends a e e')
    (hdraft : e.status ≠ .draft) (hdone : e'.status = .completed) : e'.endDate = e.endDate := by
  rcases h.endDate hdraft with heq | ⟨-, hstop, -⟩ | ⟨_, _, -, -, hstop, -⟩
  · exact heq
  · rw [hdone] at hstop
    cases hstop
  · rw [hdone] at hstop
    cases hstop

end Amends

variable {before final desired e : Experiment} {allowed : Bool}

lemma same_of_ensureAnalysisFieldsImmutable
    (h : ensureAnalysisFieldsImmutable before final allowed = .ok ())
    (hdraft : before.status ≠ .draft) (f : FrozenField)
    (hf : (allowed && decide (f = .endDate)) = false) : f.Same before final := by
  simp only [ensureAnalysisFieldsImmutable, hdraft, if_false, ensure_eq_ok,
    decide_eq_true_eq, changedFields, List.filter_eq_nil_iff] at h
  have hnot := h f f.mem_all
  simpa [FrozenField.Same, hf] using hnot

variable {now : Time}

lemma endDate_of_finalize {a : Act} (hclock : a.commitClock = some now)
    (hfinal : finalizeTerminalAnalysisWindow before desired now = .ok (final, allowed))
    (himm : ensureAnalysisFieldsImmutable before final allowed = .ok ())
    (hdraft : before.status ≠ .draft) :
    final.endDate = before.endDate ∨
      (before.status = .scheduled ∧ final.status = .stopped ∧ final.endDate = none) ∨
      (∃ now plannedEnd, a.commitClock = some now ∧ before.status = .running ∧
        final.status = .stopped ∧ before.endDate = some plannedEnd ∧
        final.endDate = some (min now plannedEnd)) := by
  rcases finalizeTerminalAnalysisWindow_cases hfinal with ⟨hfrom, hstop, rfl, rfl⟩ |
    ⟨-, rfl, rfl⟩ | ⟨plannedEnd, -, -, hend, -, rfl, rfl⟩ |
    ⟨plannedEnd, hrunning, hstop, hend, rfl, rfl⟩
  · exact .inr (.inl ⟨hfrom.resolve_left hdraft, hstop, rfl⟩)
  · have hsame := same_of_ensureAnalysisFieldsImmutable himm hdraft .endDate rfl
    left
    have hnot : ¬ before.endDate ≠ final.endDate := of_decide_eq_false hsame
    exact (not_not.1 hnot).symm
  · exact .inl hend.symm
  · exact .inr (.inr ⟨now, plannedEnd, hclock, hrunning, hstop, hend, rfl⟩)

lemma Amends.update {a : Act} (hclock : a.commitClock = some now)
    (hstatus : desired.status ∈ allowedStatusTransitions before.status)
    (hfinal : finalizeTerminalAnalysisWindow before desired now = .ok (final, allowed))
    (himm : ensureAnalysisFieldsImmutable before final allowed = .ok ()) (v : ℕ) :
    Amends a before (updatedExperiment before final v) := by
  refine ⟨?_, ?_, ?_⟩
  · have heq : final.status = desired.status := by
      rw [finalizeTerminalAnalysisWindow_endDate hfinal]
    change final.status ∈ allowedStatusTransitions before.status
    rw [heq]
    exact hstatus
  · intro hdraft f hf
    have hsame := same_of_ensureAnalysisFieldsImmutable himm hdraft f (by simp [hf])
    cases f <;> exact hsame
  · intro hdraft
    have hend := endDate_of_finalize hclock hfinal himm hdraft
    exact hend

lemma Amends.archive {a : Act} {removed : Experiment} {actor : Text}
    (hclock : a.commitClock = some now)
    (hremoved : archiveExperiment before actor now = .ok removed) : Amends a before removed := by
  obtain ⟨desired, hcases, rfl⟩ := archiveExperiment_cases hremoved
  have hfrozen : ∀ (status : ExperimentStatus) (finish : Option Time) (f : FrozenField),
      f ≠ .endDate → f.Same before { before with
        status := status, endDate := finish, archivedAt := some now, archivedBy := some actor,
        version := before.version + 1 } := by
    intro status finish f hf
    cases f <;> simp_all [FrozenField.Same, FrozenField.differs]
  rcases hcases with ⟨-, rfl⟩ | ⟨hlaunched, allowed, hfinal⟩
  · exact ⟨(Amends.refl a desired).status, fun _ => hfrozen _ _, fun _ => .inl rfl⟩
  · simp only [ExperimentStatus.isLaunched, Bool.or_eq_true, decide_eq_true_eq] at hlaunched
    have hstop : desired.status = .stopped := by
      rw [finalizeTerminalAnalysisWindow_endDate hfinal]
      rfl
    refine ⟨?_, fun _ => hfrozen _ _, fun hdraft => ?_⟩
    · change desired.status ∈ allowedStatusTransitions before.status
      rw [hstop]
      rcases hlaunched with h | h <;> rw [h] <;> decide
    · rcases finalizeTerminalAnalysisWindow_cases hfinal with ⟨hfrom, hs, rfl, -⟩ | ⟨-, rfl, -⟩ |
        ⟨_, -, hdone, -⟩ | ⟨plannedEnd, hrunning, hs, hend, rfl, -⟩
      · exact .inr (.inl ⟨hfrom.resolve_left hdraft, hs, rfl⟩)
      · exact .inl rfl
      · cases hdone
      · exact .inr (.inr ⟨now, plannedEnd, hclock, hrunning, hs, hend, rfl⟩)

lemma dueTarget_allowed {target : ExperimentStatus}
    (h : dueTarget e now = some target) : target ∈ allowedStatusTransitions e.status := by
  unfold dueTarget at h
  split at h
  · rename_i hstatus
    rw [hstatus]
    split at h
    · split at h
      · cases h
      split at h <;> cases h <;> decide
    · cases h
  · rename_i hstatus
    rw [hstatus]
    split at h
    · split at h <;> cases h
      decide
    · cases h
  · cases h

/-! ## Requests in flight -/

/-- A planned request against the tables: its target was allowed for the row it read, it names that
row and its version, and a current row under the same key and flag is that row or a later version of
it. The flag's key stays taken, so no other experiment can come to have both. -/
structure Current (db : Db) (p : Pending) : Prop where
  status : p.desired.status ∈ allowedStatusTransitions p.existing.status
  pk : experimentPk p.desired = experimentPk p.existing
  flagKey : p.desired.flagKey = p.existing.flagKey
  version : p.expectedVersion = p.existing.version
  taken : (db.flags.get (backingPk p.existing)).isSome = true
  later : ∀ e ∈ db.experiments.rows, experimentPk e = experimentPk p.existing →
    e.flagKey = p.existing.flagKey → e = p.existing ∨ p.existing.version < e.version

lemma planExperimentUpdate_spec {sampleSize : SampleSize} {existing : Experiment}
    {u : ExperimentUpdate}
    (h : planExperimentUpdate sampleSize existing u now = .ok desired) :
    desired = u.apply existing ∧ u.version = existing.version ∧
      desired.status ∈ allowedStatusTransitions existing.status := by
  simp only [planExperimentUpdate, bind_eq_ok, checkVersion, ensure_eq_ok, decide_eq_true_eq,
    Except.ok.injEq] at h
  obtain ⟨_, -, _, hversion, _, -, _, hstatus, _, -, _, -, _, -, _, -, rfl⟩ := h
  exact ⟨rfl, hversion.symm, hstatus⟩

namespace Current

variable {sampleSize : SampleSize} {s s' : State} {a : Act} {p : Pending}

lemma of_plan {existing desired : Experiment} {u : ExperimentUpdate} {now : Time}
    (howned : Owned s.db)
    (hget : s.db.experiments.get (experimentPk existing) = some existing)
    (hplan : planExperimentUpdate sampleSize existing u now = .ok desired) :
    Current s.db ⟨existing, desired, u.version⟩ := by
  obtain ⟨rfl, hversion, hstatus⟩ := planExperimentUpdate_spec hplan
  obtain ⟨f, hf, -⟩ := howned.serves existing (Table.mem_of_get hget)
  refine ⟨hstatus, rfl, rfl, hversion, ?_, ?_⟩
  · simp [hf]
  · intro e he hpk _
    left
    have hgete := Table.mem_rows_iff.1 he
    rw [hpk, hget] at hgete
    exact (Option.some.inj hgete).symm

variable {db : Db}

lemma rewrite {db' : Db} (h : Current db p) {before after : Experiment}
    (hget : db.experiments.get (experimentPk before) = some before)
    (hpk : experimentPk after = experimentPk before) (hkey : after.flagKey = before.flagKey)
    (hversion : after.version = before.version + 1)
    (hexp : db'.experiments = db.experiments.replace after)
    (htaken : (db'.flags.get (backingPk p.existing)).isSome = true) : Current db' p := by
  refine { h with taken := htaken, later := ?_ }
  rw [hexp]
  intro e he hepk hekey
  rcases Table.mem_replace he with rfl | ⟨he, -⟩
  · right
    rcases h.later before (Table.mem_of_get hget) (hpk ▸ hepk) (hkey ▸ hekey) with rfl | hlt
    · omega
    · omega
  · exact h.later e he hepk hekey

lemma before_eq {before : Experiment} (h : Current db p)
    (hget : db.experiments.get (p.desired.projectId, p.desired.key) = some before)
    (hversion : before.version = p.expectedVersion) (hkey : p.desired.flagKey = before.flagKey) :
    before = p.existing := by
  have hpk : experimentPk before = experimentPk p.desired := Table.get_key hget
  rcases h.later before (Table.mem_of_get hget) (hpk.trans h.pk) (hkey.symm.trans h.flagKey) with
    heq | hlt
  · exact heq
  · rw [hversion, h.version] at hlt
    exact absurd hlt (lt_irrefl _)

lemma taken_of_replace (h : Current db p) (f : Flag) :
    ((db.flags.replace f).get (backingPk p.existing)).isSome = true := by
  rw [Table.get_replace]
  split
  · simpa using h.taken
  · exact h.taken

lemma taken_of_insert {flags : Table flagPk} (h : Current db p) {f : Flag}
    (hins : db.flags.insert f = some flags) :
    (flags.get (backingPk p.existing)).isSome = true := by
  rw [Table.get_insert hins]
  split
  · rfl
  · exact h.taken

theorem next (h : Current s.db p) (hst : Mutations.step sampleSize s a = some s') :
    Current s'.db p := by
  cases step_effect hst with
  | idle hs => exact hs ▸ h
  | read existing desired u now hact hget hplan hdb hpend => exact hdb ▸ h
  | insertFlag f hins hexp hpend =>
    exact { h with taken := h.taken_of_insert hins, later := hexp ▸ h.later }
  | standalone before after hget howner hpk hflags hexp hpend =>
    exact { h with taken := hflags ▸ h.taken_of_replace after, later := hexp ▸ h.later }
  | create body flag pr salt actor now hact hval hbuild hflags hexp hpend =>
    refine { h with taken := h.taken_of_insert hflags, later := ?_ }
    intro e he hepk hekey
    rcases Table.mem_insert hexp he with rfl | he
    · -- the created flag would have the key that is taken
      exfalso
      have hpk : flagPk (flag.flagRow pr salt) = backingPk p.existing := by
        rw [(Serves.create hval hbuild pr salt).1]
        have hproject : (body.experimentRow pr).projectId = p.existing.projectId :=
          congrArg Prod.fst hepk
        exact Prod.ext hproject hekey
      have hnone := Table.get_of_insert hflags
      rw [hpk] at hnone
      simpa [hnone] using h.taken
    · exact h.later e he hepk hekey
  | update before desired final v allowed beforeFlag merged now hact hclock hsource hget hversion
      harch hkey hfinal himm hflag hflagOpen hderive hflags hexp hpend =>
    have hrow : s.db.experiments.get (experimentPk before) = some before :=
      Table.mem_rows_iff.1 (Table.mem_of_get hget)
    exact h.rewrite hrow (by rfl) (by rfl) (by rfl) hexp (hflags ▸ h.taken_of_replace _)
  | deleteDraft before beforeFlag now hact hget harch hdraft hflag hflags hexp hpend =>
    refine { h with taken := hflags ▸ h.taken_of_replace _, later := ?_ }
    rw [hexp]
    exact fun e he => h.later e (Table.mem_erase he).1
  | archive before removed beforeFlag actor now hact hclock hget harch hleft hflag hremoved hflags
      hexp hpend =>
    obtain ⟨_, -, rfl⟩ := archiveExperiment_cases hremoved
    exact h.rewrite hget (by rfl) (by rfl) (by rfl) hexp (hflags ▸ h.taken_of_replace _)

lemma of_reach (h : (machine sampleSize).Reach s) : ∀ p ∈ s.pending, Current s.db p := by
  refine StepMachine.Reach.induct (P := fun s => ∀ p ∈ s.pending, Current s.db p) ?_ ?_ h
  · exact fun p hp => absurd hp List.not_mem_nil
  intro s a s' hreach ih hst p hp
  have hold : p ∈ s.pending → Current s'.db p := fun hmem => (ih p hmem).next hst
  cases step_effect hst with
  | idle hs => exact hold (hs ▸ hp)
  | read existing desired u now hact hget hplan hdb hpend =>
    rw [hpend, List.mem_append, List.mem_singleton] at hp
    rcases hp with hp | rfl
    · exact hold hp
    · rw [hdb]
      exact of_plan (Owned.of_reach hreach) hget hplan
  | insertFlag f hins hexp hpend => exact hold (hpend ▸ hp)
  | standalone before after hget howner hpk hflags hexp hpend => exact hold (hpend ▸ hp)
  | create body flag pr salt actor now hact hval hbuild hflags hexp hpend =>
    exact hold (hpend ▸ hp)
  | update before desired final v allowed beforeFlag merged now hact hclock hsource hget hversion
      harch hkey hfinal himm hflag hflagOpen hderive hflags hexp hpend =>
    exact hold (hpend p hp)
  | deleteDraft before beforeFlag now hact hget harch hdraft hflag hflags hexp hpend =>
    exact hold (hpend ▸ hp)
  | archive before removed beforeFlag actor now hact hclock hget harch hleft hflag hremoved hflags
      hexp hpend =>
    exact hold (hpend ▸ hp)

end Current

/-! ## Steps and histories -/

lemma amends_of_step {sampleSize : SampleSize} {s s' : State} {a : Act}
    (h : (machine sampleSize).Reach s) (hst : step sampleSize s a = some s') {e' : Experiment}
    (he : e ∈ s.db.experiments.rows) (he' : e' ∈ s'.db.experiments.rows)
    (hpk : experimentPk e' = experimentPk e) : Amends a e e' := by
  -- a row that the step did not write is the row that was there
  have hkept : e' ∈ s.db.experiments.rows → Amends a e e' := by
    intro hmem
    have hsame : e' = e := by
      have hgete' := Table.mem_rows_iff.1 hmem
      rw [hpk, Table.mem_rows_iff.1 he] at hgete'
      exact (Option.some.inj hgete').symm
    exact hsame ▸ .refl a e
  -- a row that the step wrote for `before` is the one that `before` was
  have hbefore : ∀ before, s.db.experiments.get (experimentPk before) = some before →
      experimentPk e' = experimentPk before → before = e := by
    intro before hget hpk'
    rw [← hpk', hpk, Table.mem_rows_iff.1 he] at hget
    exact (Option.some.inj hget).symm
  cases step_effect hst with
  | idle hs => exact hkept (hs ▸ he')
  | read existing desired u now hact hget hplan hdb hpend => exact hkept (hdb ▸ he')
  | insertFlag f hins hexp hpend => exact hkept (hexp ▸ he')
  | standalone before after hget howner hpk' hflags hexp hpend => exact hkept (hexp ▸ he')
  | create body flag pr salt actor now hact hval hbuild hflags hexp hpend =>
    rcases Table.mem_insert hexp he' with rfl | hmem
    · have hnone := Table.get_of_insert hexp
      rw [hpk, Table.mem_rows_iff.1 he] at hnone
      cases hnone
    · exact hkept hmem
  | update before desired final v allowed beforeFlag merged now hact hclock hsource hget hversion
      harch hkey hfinal himm hflag hflagOpen hderive hflags hexp hpend =>
    rw [hexp] at he'
    rcases Table.mem_replace he' with rfl | ⟨hmem, -⟩
    · have hrow : s.db.experiments.get (experimentPk before) = some before :=
        Table.mem_rows_iff.1 (Table.mem_of_get hget)
      obtain rfl := hbefore before hrow rfl
      refine Amends.update hclock ?_ hfinal himm _
      cases hsource with
      | request p hp hd hv =>
        subst hd hv
        have hcurrent := Current.of_reach h p hp
        rw [hcurrent.before_eq hget hversion hkey]
        exact hcurrent.status
      | scheduler now' target hdue hd =>
        rw [hd]
        exact dueTarget_allowed hdue
    · exact hkept hmem
  | deleteDraft before beforeFlag now hact hget harch hdraft hflag hflags hexp hpend =>
    rw [hexp] at he'
    exact hkept (Table.mem_erase he').1
  | archive before removed beforeFlag actor now hact hclock hget harch hleft hflag hremoved hflags
      hexp hpend =>
    rw [hexp] at he'
    rcases Table.mem_replace he' with rfl | ⟨hmem, -⟩
    · obtain rfl := hbefore before hget (archiveExperiment_spec hremoved).1.symm.symm
      exact .archive hclock hremoved
    · exact hkept hmem

lemma kept_of_step {sampleSize : SampleSize} {s s' : State} {a : Act}
    (hst : step sampleSize s a = some s') (he : e ∈ s.db.experiments.rows)
    (hleft : e.status ≠ .draft) :
    ∃ e' ∈ s'.db.experiments.rows, experimentPk e' = experimentPk e := by
  have hget := Table.mem_rows_iff.1 he
  suffices h : (s'.db.experiments.get (experimentPk e)).isSome = true by
    obtain ⟨e', he'⟩ := Option.isSome_iff_exists.1 h
    exact ⟨e', Table.mem_of_get he', Table.get_key he'⟩
  cases step_effect hst with
  | idle hs => simp [hs, hget]
  | read existing desired u now hact hget' hplan hdb hpend => simp [hdb, hget]
  | insertFlag f hins hexp hpend => simp [hexp, hget]
  | standalone before after hget' howner hpk hflags hexp hpend => simp [hexp, hget]
  | create body flag pr salt actor now hact hval hbuild hflags hexp hpend =>
    rw [Table.get_insert hexp]
    split <;> simp [hget]
  | update before desired final v allowed beforeFlag merged now hact hclock hsource hget' hversion
      harch hkey hfinal himm hflag hflagOpen hderive hflags hexp hpend =>
    rw [hexp, Table.get_replace]
    split <;> simp [hget]
  | deleteDraft before beforeFlag now hact hget' harch hdraft hflag hflags hexp hpend =>
    rw [hexp, Table.get_erase, if_neg]
    · simp [hget]
    · intro hpk
      rw [hpk, hget'] at hget
      exact hleft (Option.some.inj hget ▸ hdraft)
  | archive before removed beforeFlag actor now hact hclock hget' harch hleft' hflag hremoved
      hflags hexp hpend =>
    rw [hexp, Table.get_replace]
    split <;> simp [hget]

/-- One allowed change of status. -/
def Allowed (s t : ExperimentStatus) : Prop := t ∈ allowedStatusTransitions s

lemma stopped_of_reaches {t : ExperimentStatus} (h : Relation.ReflTransGen Allowed .stopped t) :
    t = .stopped := by
  induction h with
  | refl => rfl
  | tail _ hstep ih =>
    rw [ih] at hstep
    simpa [Allowed, allowedStatusTransitions] using hstep

lemma scheduled_of_reaches {s : ExperimentStatus} (hs : s ≠ .draft)
    (h : Relation.ReflTransGen Allowed s .scheduled) : s = .scheduled := by
  induction h using Relation.ReflTransGen.head_induction_on with
  | refl => rfl
  | @head s t hstep _ ih =>
    cases s <;> cases t <;> simp_all [Allowed, allowedStatusTransitions]

/-- What became of an experiment that left draft, after any history. -/
structure Continues (e e' : Experiment) : Prop where
  status : Relation.ReflTransGen Allowed e.status e'.status
  left : e'.status ≠ .draft
  frozen : ∀ f : FrozenField, f ≠ .endDate → f.Same e e'
  endDate : e'.endDate = e.endDate ∨
    (e.status ≠ .stopped ∧ e'.status = .stopped ∧
      ((e.status = .scheduled ∧ e'.endDate = none) ∨
        ∃ now plannedEnd, e.endDate = some plannedEnd ∧ e'.endDate = some (min now plannedEnd)))

namespace Continues

lemma refl {e : Experiment} (h : e.status ≠ .draft) : Continues e e :=
  ⟨.refl, h, fun f _ => .refl f e, .inl rfl⟩

lemma of_amends {a : Act} {e e' : Experiment} (h : Amends a e e') (hleft : e.status ≠ .draft) :
    Continues e e' := by
  refine ⟨.single h.status, ?_, h.frozen hleft, ?_⟩
  · intro hdraft
    have hstatus := h.status
    rw [hdraft] at hstatus
    cases hs : e.status <;> simp_all [allowedStatusTransitions]
  · rcases h.endDate hleft with heq | ⟨hfrom, hto, hnone⟩ |
      ⟨now, plannedEnd, -, hfrom, hto, hplan, hend⟩
    · exact .inl heq
    · exact .inr ⟨by simp [hfrom], hto, .inl ⟨hfrom, hnone⟩⟩
    · exact .inr ⟨by simp [hfrom], hto, .inr ⟨now, plannedEnd, hplan, hend⟩⟩

lemma trans {e₁ e₂ e₃ : Experiment} (hleft : e₁.status ≠ .draft) (h₁ : Continues e₁ e₂)
    (h₂ : Continues e₂ e₃) : Continues e₁ e₃ := by
  refine ⟨h₁.status.trans h₂.status, h₂.left,
    fun f hf => (h₁.frozen f hf).trans (h₂.frozen f hf), ?_⟩
  rcases h₁.endDate with heq₁ | ⟨hne, hstop, hmoved⟩
  · rcases h₂.endDate with heq₂ | ⟨hne, hstop, hmoved⟩
    · exact .inl (heq₂.trans heq₁)
    · refine .inr ⟨?_, hstop, ?_⟩
      · intro hs
        have hreach := h₁.status
        rw [hs] at hreach
        exact hne (stopped_of_reaches hreach)
      · rcases hmoved with ⟨hfrom, hnone⟩ | ⟨now, plannedEnd, hplan, hend⟩
        · have hreach := h₁.status
          rw [hfrom] at hreach
          exact .inl ⟨scheduled_of_reaches hleft hreach, hnone⟩
        · exact .inr ⟨now, plannedEnd, heq₁ ▸ hplan, hend⟩
  · rcases h₂.endDate with heq₂ | ⟨hne₂, -, -⟩
    · have hreach := h₂.status
      rw [hstop] at hreach
      rw [heq₂]
      exact .inr ⟨hne, stopped_of_reaches hreach, hmoved⟩
    · exact absurd hstop hne₂

end Continues

lemma continues_of_path {sampleSize : SampleSize} {s s' : State}
    (h : (machine sampleSize).Reach s) (hpath : (machine sampleSize).Path s s') :
    ∀ e ∈ s.db.experiments.rows, e.status ≠ .draft →
      ∃ e' ∈ s'.db.experiments.rows, experimentPk e' = experimentPk e ∧ Continues e e' := by
  refine StepMachine.Path.induct (I := (machine sampleSize).Reach)
    (R := fun s s' => ∀ e ∈ s.db.experiments.rows, e.status ≠ .draft →
      ∃ e' ∈ s'.db.experiments.rows, experimentPk e' = experimentPk e ∧ Continues e e')
    ?_ ?_ ?_ ?_ h hpath
  · exact fun s a s' hr hst => hr.next hst
  · exact fun s e he hleft => ⟨e, he, rfl, .refl hleft⟩
  · intro s t u hst htu e he hleft
    obtain ⟨e₁, he₁, hpk₁, hc₁⟩ := hst e he hleft
    obtain ⟨e₂, he₂, hpk₂, hc₂⟩ := htu e₁ he₁ hc₁.left
    exact ⟨e₂, he₂, hpk₂.trans hpk₁, hc₁.trans hleft hc₂⟩
  · intro s a s' hr hst e he hleft
    obtain ⟨e', he', hpk⟩ := kept_of_step hst he hleft
    exact ⟨e', he', hpk, .of_amends (amends_of_step hr hst he he' hpk) hleft⟩

/-- **The frozen analysis contract.** In every run of config mutations, at any clock values: a step
changes the status of an experiment only along `_ALLOWED_STATUS_TRANSITIONS`; once the experiment
has left draft a step changes none of its frozen fields but `end_date`, and that only when it stops a
running experiment (to the earlier of now and the planned end) or cancels a scheduled one, and an
experiment that becomes completed keeps its planned end. Over whole histories, an experiment that
left draft is never removed and keeps its frozen fields, with its end moved at most once, into
`stopped`.

**Proof sketch.** The command re-checks the frozen fields against the row it locks, and only lets
`end_date` pass when `finalize_terminal_analysis_window` computed it. The status was checked against
the row the router read, which is the locked row because a request in flight stays `Current`. The law
for histories is the step law along a path (`Continues.trans`). -/
theorem frozen_contract {sampleSize : SampleSize} {s : State}
    (h : (machine sampleSize).Reach s) :
    (∀ a s', step sampleSize s a = some s' → ∀ e ∈ s.db.experiments.rows,
      ∀ e' ∈ s'.db.experiments.rows, e'.projectId = e.projectId → e'.key = e.key →
        e'.status ∈ allowedStatusTransitions e.status ∧
        (e.status ≠ .draft →
          (∀ f : FrozenField, f ≠ .endDate → f.differs e e' = false) ∧
          (e'.endDate = e.endDate ∨
            (e.status = .scheduled ∧ e'.status = .stopped ∧ e'.endDate = none) ∨
            (∃ now plannedEnd, a.commitClock = some now ∧ e.status = .running ∧
              e'.status = .stopped ∧ e.endDate = some plannedEnd ∧
              e'.endDate = some (min now plannedEnd))) ∧
          (e'.status = .completed → e'.endDate = e.endDate))) ∧
    (∀ s', (machine sampleSize).Path s s' → ∀ e ∈ s.db.experiments.rows, e.status ≠ .draft →
      ∃ e' ∈ s'.db.experiments.rows, e'.projectId = e.projectId ∧ e'.key = e.key ∧
        Continues e e' ∧ (e'.status = .completed → e'.endDate = e.endDate)) := by
  refine ⟨?_, ?_⟩
  · intro a s' hst e he e' he' hproject hkey
    have hamends := amends_of_step h hst he he' (Prod.ext hproject hkey)
    exact ⟨hamends.status, fun hleft => ⟨hamends.frozen hleft, hamends.endDate hleft,
      hamends.endDate_of_completed hleft⟩⟩
  · intro s' hpath e he hleft
    obtain ⟨e', he', hpk, hcont⟩ := continues_of_path h hpath e he hleft
    refine ⟨e', he', congrArg Prod.fst hpk, congrArg Prod.snd hpk, hcont, fun hdone => ?_⟩
    rcases hcont.endDate with heq | ⟨-, hstop, -⟩
    · exact heq
    · rw [hdone] at hstop
      cases hstop

/-- A running experiment: from `0` to `1000`, with a plan that needs 313 actors in each arm. -/
def launchedExperiment : ExperimentCreate :=
  { sampleExperiment [planIsPro] with
    status := .running, startDate := some 0, endDate := some 1000,
    primaryMetric := some ⟨Text.ofString "purchase", .increase⟩,
    statisticalPlan := some
      { baselineConversionRate := 1 / 5, minimumDetectableEffect := 1 / 10,
        significanceLevel := 1 / 20, nominalPower := 4 / 5, requiredSampleSizePerArm := 400,
        dataSettlementSeconds := 60 } }

/-- The experiment is launched at `10`; a request to stop it is planned at `20`. -/
def stopPlannedRun : List Act :=
  [.createExperiment (Text.ofString "p") launchedExperiment (Text.ofString "salt")
      (Text.ofString "admin") 10,
    .readUpdate (Text.ofString "p") (Text.ofString "exp") stopRequest 20]

/-- The row of the experiment after the stop. -/
def stoppedRow : Experiment :=
  { launchedExperiment.experimentRow (Text.ofString "p") with
    status := .stopped, endDate := some 30, version := 2 }

/-- The planned stop commits at `30`: the end moves from `1000` to `30` and the rest stays. -/
theorem frozen_contract_stopped :
    ∃ s s' e e', (machine fun _ _ _ => .ok 313).run initial stopPlannedRun = some s ∧
      step (fun _ _ _ => .ok 313) s (.commitUpdate 0 (Text.ofString "admin") 30) = some s' ∧
      s.db.experiments.rows = [e] ∧ s'.db.experiments.rows = [e'] ∧
      e.status = .running ∧ e.endDate = some 1000 ∧
      e'.status = .stopped ∧ e'.endDate = some 30 ∧
      e'.status ∈ allowedStatusTransitions e.status ∧
      ∀ f : FrozenField, f ≠ .endDate → f.differs e e' = false := by
  have hrun : ((machine fun _ _ _ => .ok 313).run initial stopPlannedRun).map
      (fun s => (s.db.experiments.rows,
        (step (fun _ _ _ => .ok 313) s (.commitUpdate 0 (Text.ofString "admin") 30)).map
          fun s' => s'.db.experiments.rows)) =
      some ([launchedExperiment.experimentRow (Text.ofString "p")], some [stoppedRow]) := by
    decide +kernel
  obtain ⟨s, hs, hrows⟩ := Option.map_eq_some_iff.1 hrun
  obtain ⟨hrow, hnext⟩ := Prod.mk.inj hrows
  obtain ⟨s', hst, hrow'⟩ := Option.map_eq_some_iff.1 hnext
  have hmem : launchedExperiment.experimentRow (Text.ofString "p") ∈ s.db.experiments.rows := by
    rw [hrow]
    exact List.mem_singleton.2 rfl
  have hmem' : stoppedRow ∈ s'.db.experiments.rows := by
    rw [hrow']
    exact List.mem_singleton.2 rfl
  have hlaw := (frozen_contract (StepMachine.reach_of_run hs)).1 _ s' hst _ hmem _ hmem' rfl rfl
  exact ⟨s, s', _, _, hs, hst, hrow, hrow', rfl, rfl, rfl, rfl, hlaw.1,
    (hlaw.2 (by decide)).1⟩

end Apdl.Config.Mutations
