import Apdl.Config.Mutations.Model

set_option autoImplicit false

/-!
# What a mutation does to the tables

Every step of the mutation system is one of a few changes to `flags` and `experiments`; this file
proves it once, so that invariants are proved by cases on the change and not on the commands.

## Main results

* `step_effect` — every step is one of them.
-/

namespace Apdl.Config.Mutations

open Flags Check

/-! ## Records do not touch the tables -/

@[simp] lemma recordFlag_flags (db : Db) (a : ChangeAction) (actor : Text) (b : Option Flag)
    (d : ChangeAction) (f : Flag) : (recordFlag db a actor b d f).flags = db.flags := rfl

@[simp] lemma recordFlag_experiments (db : Db) (a : ChangeAction) (actor : Text) (b : Option Flag)
    (d : ChangeAction) (f : Flag) :
    (recordFlag db a actor b d f).experiments = db.experiments := rfl

section Bundle

variable (db : Db) (actor : Text) (origin : Origin) (ea : ChangeAction)
  (be ae : Option Experiment) (fa : ChangeAction) (bf : Option Flag) (af : Flag)
  (da : ChangeAction) (de : Experiment)

@[simp] lemma recordBundle_flags :
    (recordBundle db actor origin ea be ae fa bf af da de).flags = db.flags := rfl

@[simp] lemma recordBundle_experiments :
    (recordBundle db actor origin ea be ae fa bf af da de).experiments = db.experiments := rfl

end Bundle

/-! ## Guards -/

@[simp] lemma liftSchema_eq_ok {α : Type} {x : Except SchemaError α} {a : α} :
    liftSchema x = .ok a ↔ x = .ok a := by
  cases x <;> simp [liftSchema]

variable {p k : Text} {f : Flag}

lemma lockedFlag_eq_ok {db : Db} :
    lockedFlag db p k = .ok f ↔ db.flags.get (p, k) = some f ∧ f.archivedAt = none := by
  unfold lockedFlag
  cases h : db.flags.get (p, k) with
  | none => simp
  | some f' =>
    cases ha : f'.archivedAt with
    | none =>
      simp only [ha, Option.isSome_none, Bool.false_eq_true, if_false, Except.ok.injEq,
        Option.some.injEq]
      exact ⟨fun heq => ⟨heq, heq ▸ ha⟩, fun hand => hand.1⟩
    | some t =>
      simp only [ha, Option.isSome_some, if_true, Option.some.injEq]
      constructor
      · intro herr
        cases herr
      · rintro ⟨rfl, hnone⟩
        rw [ha] at hnone
        cases hnone

lemma lockedExperiment_eq_ok {db : Db} {e : Experiment} :
    lockedExperiment db p k = .ok e ↔ db.experiments.get (p, k) = some e := by
  unfold lockedExperiment
  cases db.experiments.get (p, k) <;> simp

lemma rejectExperimentOwned_eq_ok {db : Db} {u : Unit} :
    rejectExperimentOwned db p k = .ok u ↔ ownerOf db p k = none := by
  unfold rejectExperimentOwned
  cases ownerOf db p k <;> simp

lemma ownerOf_eq_none {db : Db} :
    ownerOf db p k = none ↔ ∀ e ∈ db.experiments.rows, e.projectId = p → e.flagKey ≠ k := by
  simp [ownerOf]

variable {v : ℕ}

lemma standaloneFlag_eq_ok {db : Db} :
    standaloneFlag db p k v = .ok f ↔
      db.flags.get (p, k) = some f ∧ f.archivedAt = none ∧ ownerOf db p k = none ∧
        f.version = v := by
  simp only [standaloneFlag, bind_eq_ok, lockedFlag_eq_ok, rejectExperimentOwned_eq_ok,
    checkVersion, ensure_eq_ok, decide_eq_true_eq, Except.ok.injEq]
  constructor
  · rintro ⟨f', ⟨hg, ha⟩, _, ho, _, hv, rfl⟩
    exact ⟨hg, ha, ho, hv⟩
  · rintro ⟨hg, ha, ho, hv⟩
    exact ⟨f, ⟨hg, ha⟩, (), ho, (), hv, rfl⟩

variable {before desired : Experiment} {now : Time}

lemma finalizeTerminalAnalysisWindow_cases {final : Experiment} {allowed : Bool}
    (h : finalizeTerminalAnalysisWindow before desired now = .ok (final, allowed)) :
    ((before.status = .draft ∨ before.status = .scheduled) ∧ desired.status = .stopped ∧
      final = { desired with endDate := none } ∧ allowed = true) ∨
    ((before.status ≠ .running ∨ desired.status ≠ .completed ∧ desired.status ≠ .stopped) ∧
      final = desired ∧ allowed = false) ∨
    (∃ plannedEnd, before.status = .running ∧ desired.status = .completed ∧
      before.endDate = some plannedEnd ∧ plannedEnd ≤ now ∧
      final = { desired with endDate := some plannedEnd } ∧ allowed = false) ∨
    (∃ plannedEnd, before.status = .running ∧ desired.status = .stopped ∧
      before.endDate = some plannedEnd ∧
      final = { desired with endDate := some (min now plannedEnd) } ∧ allowed = true) := by
  unfold finalizeTerminalAnalysisWindow at h
  split at h
  · rename_i hcancel
    cases h
    exact .inl ⟨hcancel.1, hcancel.2, rfl, rfl⟩
  split at h
  · rename_i hother
    cases h
    exact .inr (.inl ⟨by simpa [not_or] using hother, rfl, rfl⟩)
  rename_i hterminal
  obtain ⟨hrunning, htarget⟩ := not_or.1 hterminal
  rw [not_not] at hrunning htarget
  split at h
  · rename_i start plannedEnd hstart hend
    split at h
    · rename_i hcompleted
      split at h
      · cases h
      · rename_i hnow
        cases h
        exact .inr (.inr (.inl ⟨plannedEnd, hrunning, hcompleted, hend, not_lt.1 hnow, rfl, rfl⟩))
    · rename_i hcompleted
      split at h
      · cases h
      · cases h
        exact .inr (.inr (.inr ⟨plannedEnd, hrunning, htarget.resolve_left hcompleted, hend, rfl,
          rfl⟩))
  · cases h

lemma finalizeTerminalAnalysisWindow_endDate {final : Experiment} {allowed : Bool}
    (h : finalizeTerminalAnalysisWindow before desired now = .ok (final, allowed)) :
    final = { desired with endDate := final.endDate } := by
  rcases finalizeTerminalAnalysisWindow_cases h with ⟨-, -, rfl, -⟩ | ⟨-, rfl, -⟩ |
    ⟨_, -, -, -, -, rfl, -⟩ | ⟨_, -, -, -, rfl, -⟩ <;> rfl

lemma archiveExperiment_cases {removed : Experiment} {actor : Text}
    (h : archiveExperiment before actor now = .ok removed) :
    ∃ desired : Experiment,
      ((before.status.isLaunched = false ∧ desired = before) ∨
        (before.status.isLaunched = true ∧ ∃ allowed,
          finalizeTerminalAnalysisWindow before (before.setStatus .stopped) now =
            .ok (desired, allowed))) ∧
      removed = { before with
        status := desired.status, endDate := desired.endDate, archivedAt := some now,
        archivedBy := some actor, version := before.version + 1 } := by
  unfold archiveExperiment at h
  split at h
  · rename_i hlaunched
    simp only [bind_eq_ok, Except.ok.injEq] at h
    obtain ⟨⟨desired, allowed⟩, hfinal, rfl⟩ := h
    exact ⟨desired, .inr ⟨hlaunched, allowed, hfinal⟩, rfl⟩
  · rename_i hlaunched
    cases h
    exact ⟨before, .inl ⟨by simpa using hlaunched, rfl⟩, rfl⟩

/-! ## Effects -/

/-- Where the experiment an update wants comes from: a planned request, or the scheduler moving
the current row to the status that is due. -/
inductive Source (s : State) (before desired : Experiment) (expectedVersion : ℕ) : Prop
  | request (p : Pending) (hp : p ∈ s.pending) (hd : desired = p.desired)
      (hv : expectedVersion = p.expectedVersion)
  | scheduler (now : Time) (target : ExperimentStatus) (hdue : dueTarget before now = some target)
      (hd : desired = before.setStatus target)

/-- The changes the action `a` can make to the tables and to the requests in flight. -/
inductive Effect (sampleSize : SampleSize) (s s' : State) (a : Act) : Prop
  /-- Nothing changes. -/
  | idle (h : s' = s)
  | read (existing desired : Experiment) (u : ExperimentUpdate) (now : Time)
      (hact : a.onFlag = false)
      (hget : s.db.experiments.get (experimentPk existing) = some existing)
      (hplan : planExperimentUpdate sampleSize existing u now = .ok desired)
      (hdb : s'.db = s.db) (hpend : s'.pending = s.pending ++ [⟨existing, desired, u.version⟩])
  | insertFlag (f : Flag) (hins : s.db.flags.insert f = some s'.db.flags)
      (hexp : s'.db.experiments = s.db.experiments) (hpend : s'.pending = s.pending)
  | standalone (before after : Flag)
      (hget : s.db.flags.get (flagPk before) = some before)
      (howner : ownerOf s.db before.projectId before.key = none)
      (hpk : flagPk after = flagPk before) (hflags : s'.db.flags = s.db.flags.replace after)
      (hexp : s'.db.experiments = s.db.experiments) (hpend : s'.pending = s.pending)
  | create (body : ExperimentCreate) (flag : FlagCreate) (projectId salt actor : Text) (now : Time)
      (hact : a = .createExperiment projectId body salt actor now)
      (hval : body.validate sampleSize now = .ok ())
      (hbuild : buildFlagCreate body.projectionArgs = .ok flag)
      (hflags : s.db.flags.insert (flag.flagRow projectId salt) = some s'.db.flags)
      (hexp : s.db.experiments.insert (body.experimentRow projectId) = some s'.db.experiments)
      (hpend : s'.pending = s.pending)
  | update (before desired final : Experiment) (expectedVersion : ℕ) (allowed : Bool)
      (beforeFlag merged : Flag) (now : Time) (hact : a.onFlag = false)
      (hclock : a.commitClock = some now)
      (hsource : Source s before desired expectedVersion)
      (hget : s.db.experiments.get (desired.projectId, desired.key) = some before)
      (hversion : before.version = expectedVersion) (harch : before.archivedAt = none)
      (hkey : desired.flagKey = before.flagKey)
      (hfinal : finalizeTerminalAnalysisWindow before desired now = .ok (final, allowed))
      (himm : ensureAnalysisFieldsImmutable before final allowed = .ok ())
      (hflag : s.db.flags.get (final.projectId, before.flagKey) = some beforeFlag)
      (hflagOpen : beforeFlag.archivedAt = none)
      (hderive : derivedExperimentFlag final beforeFlag = .ok merged)
      (hflags : s'.db.flags = s.db.flags.replace (updatedFlag merged))
      (hexp : s'.db.experiments = s.db.experiments.replace
        (updatedExperiment before final (updatedFlag merged).version))
      (hpend : ∀ p ∈ s'.pending, p ∈ s.pending)
  | deleteDraft (before : Experiment) (beforeFlag : Flag) (now : Time) (hact : a.onFlag = false)
      (hget : s.db.experiments.get (experimentPk before) = some before)
      (harch : before.archivedAt = none) (hdraft : before.status = .draft)
      (hflag : s.db.flags.get (before.projectId, before.flagKey) = some beforeFlag)
      (hflags : s'.db.flags = s.db.flags.replace (archivedFlag beforeFlag now))
      (hexp : s'.db.experiments = s.db.experiments.erase (experimentPk before))
      (hpend : s'.pending = s.pending)
  | archive (before removed : Experiment) (beforeFlag : Flag) (actor : Text) (now : Time)
      (hact : a.onFlag = false) (hclock : a.commitClock = some now)
      (hget : s.db.experiments.get (experimentPk before) = some before)
      (harch : before.archivedAt = none) (hleft : before.status ≠ .draft)
      (hflag : s.db.flags.get (before.projectId, before.flagKey) = some beforeFlag)
      (hremoved : archiveExperiment before actor now = .ok removed)
      (hflags : s'.db.flags = s.db.flags.replace (archivedFlag beforeFlag now))
      (hexp : s'.db.experiments = s.db.experiments.replace removed)
      (hpend : s'.pending = s.pending)

variable {s : State}

lemma run_eq_some {s' : State} {c : Command} (h : s.run c = some s') :
    ∃ db, c s.db = .ok db ∧ s' = { s with db := db } := by
  unfold State.run at h
  split at h
  · rename_i db hdb
    cases h
    exact ⟨db, hdb, rfl⟩
  · cases h

lemma insertFlag_eq_ok {db db' : Db} (h : insertFlag db f = .ok db') :
    ∃ flags, db.flags.insert f = some flags ∧ db' = { db with flags := flags } := by
  simp only [Mutations.insertFlag, bind_eq_ok] at h
  obtain ⟨_, -, h⟩ := h
  split at h
  · cases h
  · rename_i flags hins
    cases h
    exact ⟨flags, hins, rfl⟩

lemma updateExperimentBundle_eq_ok {db db' : Db} {actor : Text} {origin : Origin}
    (h : updateExperimentBundle desired v actor origin now db = .ok db') :
    ∃ before final allowed beforeFlag merged,
      db.experiments.get (desired.projectId, desired.key) = some before ∧ before.version = v ∧
      before.archivedAt = none ∧ desired.flagKey = before.flagKey ∧
      finalizeTerminalAnalysisWindow before desired now = .ok (final, allowed) ∧
      ensureAnalysisFieldsImmutable before final allowed = .ok () ∧
      db.flags.get (final.projectId, before.flagKey) = some beforeFlag ∧
      beforeFlag.archivedAt = none ∧ derivedExperimentFlag final beforeFlag = .ok merged ∧
      db'.flags = db.flags.replace (updatedFlag merged) ∧
      db'.experiments =
        db.experiments.replace (updatedExperiment before final (updatedFlag merged).version) := by
  simp only [updateExperimentBundle, bind_eq_ok, lockedExperiment_eq_ok, checkVersion,
    ensure_eq_ok, decide_eq_true_eq, Option.isNone_iff_eq_none, lockedFlag_eq_ok,
    liftSchema_eq_ok, Except.ok.injEq] at h
  obtain ⟨before, hget, _, hv, _, harch, _, hkey, ⟨final, allowed⟩, hfinal, _, himm, beforeFlag,
    ⟨hflag, hopen⟩, merged, hderive, rfl⟩ := h
  exact ⟨before, final, allowed, beforeFlag, merged, hget, hv, harch, hkey, hfinal, himm, hflag,
    hopen, hderive, rfl, rfl⟩

variable {sampleSize : SampleSize}

lemma effect_standalone {a : Act}
    {before : Flag} {db : Db} (hok : standaloneFlag s.db p k v = .ok before) (after : Flag)
    (hpk : flagPk after = flagPk before) (hflags : db.flags = s.db.flags.replace after)
    (hexp : db.experiments = s.db.experiments) : Effect sampleSize s { s with db := db } a := by
  obtain ⟨hget, -, howner, -⟩ := standaloneFlag_eq_ok.1 hok
  have hkey : flagPk before = (p, k) := Table.get_key hget
  obtain ⟨rfl, rfl⟩ := Prod.mk.inj hkey
  exact .standalone before after hget howner hpk hflags hexp rfl

lemma effect_delete {actor : Text} {db : Db} (h : deleteExperimentBundle p k v actor now s.db = .ok db) :
    Effect sampleSize s { s with db := db } (.deleteExperiment p k v actor now) := by
  simp only [deleteExperimentBundle, bind_eq_ok, lockedExperiment_eq_ok, checkVersion,
    ensure_eq_ok, decide_eq_true_eq, Option.isNone_iff_eq_none, lockedFlag_eq_ok] at h
  obtain ⟨before, hget, _, hv, _, harch, beforeFlag, ⟨hflag, hopen⟩, h⟩ := h
  have hkey : experimentPk before = (p, k) := Table.get_key hget
  obtain ⟨rfl, rfl⟩ := Prod.mk.inj hkey
  split at h
  · rename_i hdraft
    cases h
    exact .deleteDraft before beforeFlag now rfl hget harch hdraft hflag rfl rfl rfl
  · rename_i hleft
    simp only [bind_eq_ok, Except.ok.injEq] at h
    obtain ⟨removed, hremoved, rfl⟩ := h
    exact .archive before removed beforeFlag actor now rfl rfl hget harch hleft hflag hremoved rfl rfl
      rfl

lemma effect_create {salt actor : Text} {body : ExperimentCreate} {db : Db}
    (h : createExperiment sampleSize p body salt actor now s.db = .ok db) :
    Effect sampleSize s { s with db := db } (.createExperiment p body salt actor now) := by
  simp only [createExperiment, bind_eq_ok, liftSchema_eq_ok] at h
  obtain ⟨_, hval, flag, hbuild, h⟩ := h
  simp only [createExperimentBundle, bind_eq_ok] at h
  obtain ⟨db1, hins, h⟩ := h
  obtain ⟨flags, hflags, rfl⟩ := insertFlag_eq_ok hins
  split at h
  · cases h
  split at h
  · cases h
  rename_i experiments hexp
  cases h
  exact .create body flag p salt actor now rfl hval hbuild hflags hexp rfl

lemma effect_transitionDue {actor : Text} {commitNow : Time} {db : Db}
    (h : transitionDueExperiment sampleSize p k v actor now commitNow s.db = .ok db) :
    Effect sampleSize s { s with db := db } (.transitionDue p k v actor now commitNow) := by
  simp only [transitionDueExperiment, bind_eq_ok, lockedExperiment_eq_ok] at h
  obtain ⟨current, hget, h⟩ := h
  have hkey : experimentPk current = (p, k) := Table.get_key hget
  obtain ⟨rfl, rfl⟩ := Prod.mk.inj hkey
  split at h
  · cases h
    exact .idle rfl
  split at h
  · cases h
    exact .idle rfl
  rename_i target hdue
  simp only [bind_eq_ok] at h
  obtain ⟨_, -, h⟩ := h
  obtain ⟨before, final, allowed, beforeFlag, merged, hget', hv, harch, hfk, hfinal, himm, hflag,
    hopen, hderive, hflags, hexp⟩ := updateExperimentBundle_eq_ok h
  -- the row the update locks is the one the scheduler read, in the same transaction
  have hsame : before = current := by
    have hcur : s.db.experiments.get
        ((current.setStatus target).projectId, (current.setStatus target).key) = some current :=
      hget
    rw [hcur] at hget'
    simpa using hget'.symm
  subst hsame
  exact .update before (before.setStatus target) final v allowed beforeFlag merged commitNow rfl
    rfl (.scheduler now target hdue rfl) hget' hv harch hfk hfinal himm hflag hopen hderive hflags hexp
    (fun _ hp => hp)

theorem step_effect {s' : State} {a : Act}
    (h : step sampleSize s a = some s') : Effect sampleSize s s' a := by
  cases a with
  | createFlag p body salt actor =>
    obtain ⟨db, hdb, rfl⟩ := run_eq_some h
    simp only [createFlag, createStandaloneFlag, bind_eq_ok, Except.ok.injEq] at hdb
    obtain ⟨_, -, db1, hins, rfl⟩ := hdb
    obtain ⟨flags, hflags, rfl⟩ := insertFlag_eq_ok hins
    exact .insertFlag _ hflags rfl rfl
  | updateFlag p k v updates actor =>
    obtain ⟨db, hdb, rfl⟩ := run_eq_some h
    simp only [updateStandaloneFlag, bind_eq_ok, Except.ok.injEq] at hdb
    obtain ⟨before, hok, _, -, rfl⟩ := hdb
    exact effect_standalone hok (updatedFlag (updates.apply before)) rfl rfl rfl
  | transitionFlag p k v target actor =>
    simp only [step] at h
    split at h
    · obtain ⟨db, hdb, rfl⟩ := run_eq_some h
      simp only [transitionStandaloneFlag, bind_eq_ok, Except.ok.injEq] at hdb
      obtain ⟨before, hok, rfl⟩ := hdb
      exact effect_standalone hok (transitionedFlag before target) rfl rfl rfl
    · cases h
  | disableFlag p k v reason actor now =>
    obtain ⟨db, hdb, rfl⟩ := run_eq_some h
    simp only [disableStandaloneFlag, bind_eq_ok] at hdb
    obtain ⟨before, hok, hdb⟩ := hdb
    split at hdb
    · cases hdb
      exact effect_standalone hok (disabledFlag before reason actor now) rfl rfl rfl
    · cases hdb
      exact .idle rfl
  | archiveFlag p k v actor now =>
    obtain ⟨db, hdb, rfl⟩ := run_eq_some h
    simp only [archiveStandaloneFlag, bind_eq_ok, Except.ok.injEq] at hdb
    obtain ⟨before, hok, rfl⟩ := hdb
    exact effect_standalone hok (archivedFlag before now) rfl rfl rfl
  | cleanupFlag p k v actor now =>
    obtain ⟨db, hdb, rfl⟩ := run_eq_some h
    simp only [cleanupStandaloneFlag, bind_eq_ok, Except.ok.injEq] at hdb
    obtain ⟨before, hok, _, -, rfl⟩ := hdb
    exact effect_standalone hok (archivedFlag before now) rfl rfl rfl
  | createExperiment p body salt actor now =>
    obtain ⟨db, hdb, rfl⟩ := run_eq_some h
    exact effect_create hdb
  | readUpdate p k body now =>
    simp only [step] at h
    split at h
    · cases h
    rename_i existing hget
    split at h
    · cases h
    rename_i desired hplan
    cases h
    have hkey : experimentPk existing = (p, k) := Table.get_key hget
    exact .read existing desired body now rfl (hkey ▸ hget) hplan rfl rfl
  | commitUpdate index actor now =>
    simp only [step] at h
    split at h
    · cases h
    rename_i p hp
    obtain ⟨s1, hrun, rfl⟩ := Option.map_eq_some_iff.1 h
    obtain ⟨db, hdb, rfl⟩ := run_eq_some hrun
    obtain ⟨before, final, allowed, beforeFlag, merged, hget, hv, harch, hfk, hfinal, himm, hflag,
      hopen, hderive, hflags, hexp⟩ := updateExperimentBundle_eq_ok hdb
    exact .update before p.desired final p.expectedVersion allowed beforeFlag merged now rfl rfl
      (.request p (List.mem_of_getElem? hp) rfl rfl) hget hv harch hfk hfinal himm hflag hopen
      hderive hflags hexp (fun _ hq => List.mem_of_mem_eraseIdx hq)
  | deleteExperiment p k v actor now =>
    obtain ⟨db, hdb, rfl⟩ := run_eq_some h
    exact effect_delete hdb
  | transitionDue p k v actor now commitNow =>
    obtain ⟨db, hdb, rfl⟩ := run_eq_some h
    exact effect_transitionDue hdb

end Apdl.Config.Mutations
