import Apdl.Config.Mutations.Effect

set_option autoImplicit false

/-!
# Experiments and their backing flags

In every state the config mutations reach, an experiment that is not archived has a flag of its
own that serves what the experiment's projection says, and the two leave together.

## Main results

* `backing_flags_refine` — in runs that create no experiment with a presence condition every live
  experiment's flag is its projection.
-/

namespace Apdl.Config.Mutations

open Flags Check

/-! ## The projection of a stored flag -/

/-- The lifecycle-owned fields of a stored flag. -/
def projectionOf (f : Flag) : FlagProjection :=
  { name := f.name, state := f.state, enabled := f.enabled, description := f.description,
    defaultVariant := f.defaultVariant, variants := f.variants, rules := f.rules,
    fallthrough := f.fallthrough, evaluationMode := f.evaluationMode,
    autoDisable := f.autoDisable }

/-- The projection before it is serialized. -/
def rawProjection (f : FlagCreate) : FlagProjection := { f.dumpProjection with rules := f.rules }

/-- The flag is the projection of the experiment. -/
structure Backed (e : Experiment) (f : Flag) : Prop where
  rules_ok : ∀ r ∈ e.targetingRules, r.validate = .ok ()
  build : buildFlagCreate (e.projectionArgs f) = .ok (flagFields (e.projectionArgs f))
  synced : projectionOf f = rawProjection (flagFields (e.projectionArgs f))

lemma buildFlagCreate_eq_flagFields {a : ProjectionArgs} {f : FlagCreate}
    (h : buildFlagCreate a = .ok f) : f = flagFields a := by
  simp only [buildFlagCreate, bind_eq_ok, pure_eq_ok] at h
  obtain ⟨_, _, _, _, _, _, rfl⟩ := h
  rfl

lemma conditions_ok {r : ExperimentTargetingRule} (h : r.validate = .ok ()) :
    ∀ c ∈ r.conditions, c.validate = .ok () := by
  simp only [ExperimentTargetingRule.validate, bind_eq_ok, Check.all_eq_ok] at h
  obtain ⟨_, _, _, _, _, _, hc⟩ := h
  exact hc

lemma dumpJson_eq_iff {r : GateRule} (h : ∀ c ∈ r.conditions, c.validate = .ok ()) :
    r.dumpJson = r ↔ r.hasPresence = false := by
  rw [GateRule.hasPresence_eq_false]
  constructor
  · intro heq c hc
    have hmap : r.conditions.map GateCondition.dumpJson = r.conditions.map id := by
      rw [List.map_id]
      exact congrArg GateRule.conditions heq
    exact (GateCondition.dumpJson_eq_iff (h c hc)).1 (List.map_inj_left.1 hmap c hc)
  · intro hnp
    have hmap : r.conditions.map GateCondition.dumpJson = r.conditions.map id :=
      List.map_congr_left fun c hc => (GateCondition.dumpJson_eq_iff (h c hc)).2 (hnp c hc)
    simp only [GateRule.dumpJson, hmap, List.map_id]

lemma dumpProjection_eq_iff {a : ProjectionArgs}
    (h : ∀ r ∈ a.targetingRules, r.validate = .ok ()) :
    rawProjection (flagFields a) = (flagFields a).dumpProjection ↔
      ∀ r ∈ a.targetingRules, r.hasPresence = false := by
  have hfields : rawProjection (flagFields a) = (flagFields a).dumpProjection ↔
      (flagFields a).rules = (flagFields a).rules.map GateRule.dumpJson := by
    simp [rawProjection, FlagCreate.dumpProjection]
  rw [hfields]
  have hok : ∀ r ∈ a.targetingRules,
      ∀ c ∈ (projectRule a.trafficPercentage a.bucketBy r).conditions, c.validate = .ok () :=
    fun r hr => conditions_ok (h r hr)
  constructor
  · intro heq r hr
    have hmem : projectRule a.trafficPercentage a.bucketBy r ∈ (flagFields a).rules :=
      List.mem_map_of_mem hr
    have hfix : (projectRule a.trafficPercentage a.bucketBy r).dumpJson =
        projectRule a.trafficPercentage a.bucketBy r := by
      have hmap : (flagFields a).rules.map id = (flagFields a).rules.map GateRule.dumpJson := by
        simpa using heq
      exact (List.map_inj_left.1 hmap _ hmem).symm
    exact (dumpJson_eq_iff (hok r hr)).1 hfix
  · intro hnp
    have hmap : (flagFields a).rules.map id = (flagFields a).rules.map GateRule.dumpJson := by
      refine List.map_congr_left fun r' hr' => ?_
      obtain ⟨r, hr, rfl⟩ := List.mem_map.1 hr'
      exact ((dumpJson_eq_iff (hok r hr)).2 (hnp r hr)).symm
    simpa using hmap

/-! ## New and derived flags are backed -/

lemma flagRow_rules {a : ProjectionArgs} (h : ∀ r ∈ a.targetingRules, r.validate = .ok ()) :
    (flagFields a).rules.map GateRule.dumpExcludeNone = (flagFields a).rules := by
  have hmap : (flagFields a).rules.map GateRule.dumpExcludeNone = (flagFields a).rules.map id := by
    refine List.map_congr_left fun r' hr' => ?_
    obtain ⟨r, hr, rfl⟩ := List.mem_map.1 hr'
    have hconds : r.conditions.map GateCondition.dumpExcludeNone = r.conditions.map id :=
      List.map_congr_left fun c hc => GateCondition.dumpExcludeNone_eq (conditions_ok (h r hr) c hc)
    simp only [GateRule.dumpExcludeNone, projectRule, hconds, List.map_id, id]
  simpa using hmap

variable {sampleSize : SampleSize} {now : Time}

lemma Backed.create {body : ExperimentCreate}
    {flag : FlagCreate} (hval : body.validate sampleSize now = .ok ())
    (hbuild : buildFlagCreate body.projectionArgs = .ok flag) (p salt : Text) :
    Backed (body.experimentRow p) (flag.flagRow p salt) := by
  obtain rfl := buildFlagCreate_eq_flagFields hbuild
  obtain ⟨hproj, hkey, -⟩ := body.projectable hval
  have hrules := body.experimentRow_rules hval p
  have hne : body.key ≠ [] := by
    rintro h
    rw [h] at hkey
    exact absurd hkey (by decide)
  have hargs : (body.experimentRow p).projectionArgs
      ((flagFields body.projectionArgs).flagRow p salt) = body.projectionArgs := by
    simp only [Experiment.projectionArgs, hrules]
    simp [ExperimentCreate.projectionArgs, flagFields, FlagCreate.flagRow,
      ExperimentCreate.experimentRow, textOr, hne]
  refine ⟨?_, ?_, ?_⟩
  · rw [hrules]
    exact hproj.rules_ok
  · rw [hargs]
    exact hbuild
  · rw [hargs]
    have hr := flagRow_rules (a := body.projectionArgs) hproj.rules_ok
    simp [projectionOf, FlagCreate.flagRow, rawProjection, FlagCreate.dumpProjection, hr]

variable {e : Experiment} {f : Flag}

lemma derivedExperimentFlag_spec {backing : Flag} (h : derivedExperimentFlag e backing = .ok f) :
    f = backing.withProjection (flagFields (e.projectionArgs backing)).dumpProjection ∧
      buildFlagCreate (e.projectionArgs backing) = .ok (flagFields (e.projectionArgs backing)) ∧
      (∀ r ∈ e.targetingRules, r.validate = .ok ()) ∧
      (∀ r ∈ e.targetingRules, r.hasPresence = false) := by
  simp only [derivedExperimentFlag, buildFlagProjection, bind_eq_ok, pure_eq_ok,
    Check.all_eq_ok] at h
  obtain ⟨_, -, _, hrules, proj, ⟨fc, hbuild, rfl⟩, _, hvalid, rfl⟩ := h
  obtain rfl := buildFlagCreate_eq_flagFields hbuild
  refine ⟨rfl, hbuild, hrules, ?_⟩
  -- the serialized rules passed the rule validator, so none has a presence condition
  simp only [Flag.validateVariantConfig, validateFlagVariantConfig, bind_eq_ok,
    Check.all_eq_ok] at hvalid
  obtain ⟨_, _, _, _, _, _, _, _, _, hgates, _⟩ := hvalid
  intro r hr
  rw [ExperimentTargetingRule.hasPresence_eq_false]
  intro c hc
  have hmem : (projectRule (e.projectionArgs backing).trafficPercentage
      (e.projectionArgs backing).bucketBy r).dumpJson ∈
      (flagFields (e.projectionArgs backing)).rules.map GateRule.dumpJson :=
    List.mem_map_of_mem (List.mem_map_of_mem hr)
  have hgate := hgates _ hmem
  simp only [GateRule.validate, bind_eq_ok, Check.all_eq_ok] at hgate
  obtain ⟨_, _, _, hconds, _⟩ := hgate
  exact (GateCondition.validate_dumpJson (conditions_ok (hrules r hr) c hc)).1
    (hconds _ (List.mem_map_of_mem hc))

lemma Backed.update {before final : Experiment} {beforeFlag merged : Flag} {v : ℕ}
    (h : derivedExperimentFlag final beforeFlag = .ok merged) :
    Backed (updatedExperiment before final v) (updatedFlag merged) := by
  obtain ⟨rfl, hbuild, hrules, hnp⟩ := derivedExperimentFlag_spec h
  have hargs : (updatedExperiment before final v).projectionArgs (updatedFlag
      (beforeFlag.withProjection (flagFields (final.projectionArgs beforeFlag)).dumpProjection)) =
      final.projectionArgs beforeFlag := by
    simp [Experiment.projectionArgs, updatedExperiment, updatedFlag, Flag.withProjection,
      FlagCreate.dumpProjection, flagFields]
  refine ⟨hrules, ?_, ?_⟩
  · rw [hargs]
    exact hbuild
  · rw [hargs]
    rw [(dumpProjection_eq_iff (a := final.projectionArgs beforeFlag) hrules).2 hnp]
    simp [projectionOf, updatedFlag, Flag.withProjection]

/-- The key of the flag an experiment names. -/
def backingPk (e : Experiment) : Text × Text := (e.projectId, e.flagKey)

/-- The flag of an experiment is archived with it and backs it until then. -/
structure Serves (e : Experiment) (f : Flag) : Prop where
  together : f.archivedAt.isSome = e.archivedAt.isSome
  backed : e.archivedAt = none → Backed e f

/-- Every experiment has a flag of its own. -/
structure Owned (db : Db) : Prop where
  serves : ∀ e ∈ db.experiments.rows, ∃ f, db.flags.get (backingPk e) = some f ∧ Serves e f
  unique : ∀ e₁ ∈ db.experiments.rows, ∀ e₂ ∈ db.experiments.rows,
    backingPk e₁ = backingPk e₂ → e₁ = e₂

namespace Owned

variable {db db' : Db}

lemma backingPk_ne_of_ownerOf {p k : Text} (h : ownerOf db p k = none) :
    ∀ e ∈ db.experiments.rows, backingPk e ≠ (p, k) := by
  rintro e he heq
  obtain ⟨hp, hk⟩ := Prod.mk.inj heq
  exact ownerOf_eq_none.1 h e he hp hk

lemma of_flags_eq (h : Owned db) (hexp : db'.experiments = db.experiments)
    (hflags : ∀ e ∈ db.experiments.rows, db'.flags.get (backingPk e) = db.flags.get (backingPk e)) :
    Owned db' := by
  refine ⟨?_, ?_⟩
  · rw [hexp]
    intro e he
    rw [hflags e he]
    exact h.serves e he
  · rw [hexp]
    exact h.unique

variable {f : Flag}

lemma get_insert_flag (h : Owned db) {flags : Table flagPk}
    (hins : db.flags.insert f = some flags) :
    ∀ e ∈ db.experiments.rows, flags.get (backingPk e) = db.flags.get (backingPk e) := by
  intro e he
  obtain ⟨g, hg, -⟩ := h.serves e he
  rw [Table.get_insert hins, if_neg]
  intro heq
  have hnone := Table.get_of_insert hins
  rw [← heq, hg] at hnone
  cases hnone

lemma get_replace_flag {g : Flag} (howner : ownerOf db f.projectId f.key = none)
    (hpk : flagPk g = flagPk f) :
    ∀ e ∈ db.experiments.rows,
      (db.flags.replace g).get (backingPk e) = db.flags.get (backingPk e) := by
  intro e he
  rw [Table.get_replace, if_neg]
  rw [hpk]
  exact backingPk_ne_of_ownerOf howner e he

variable {e : Experiment}

lemma get_replace_other (h : Owned db) {e₁ : Experiment} {g : Flag}
    (he : e ∈ db.experiments.rows) (hg : flagPk g = backingPk e)
    (he₁ : e₁ ∈ db.experiments.rows) (hne : experimentPk e₁ ≠ experimentPk e) :
    (db.flags.replace g).get (backingPk e₁) = db.flags.get (backingPk e₁) := by
  rw [Table.get_replace, if_neg]
  rw [hg]
  intro heq
  exact hne (congrArg experimentPk (h.unique e₁ he₁ e he heq))

lemma create (h : Owned db) (hpk : flagPk f = backingPk e)
    (hserves : Serves e f) (hflags : db.flags.insert f = some db'.flags)
    (hexp : db.experiments.insert e = some db'.experiments) : Owned db' := by
  -- an experiment that already named this flag would have it in the table
  have hfresh : ∀ e₁ ∈ db.experiments.rows, backingPk e₁ ≠ backingPk e := by
    intro e₁ he₁ heq
    obtain ⟨g, hg, -⟩ := h.serves e₁ he₁
    have hnone := Table.get_of_insert hflags
    rw [hpk, ← heq, hg] at hnone
    cases hnone
  refine ⟨?_, ?_⟩
  · intro e₁ he₁
    rcases Table.mem_insert hexp he₁ with rfl | he₁
    · exact ⟨f, by rw [Table.get_insert hflags, if_pos hpk.symm], hserves⟩
    · rw [h.get_insert_flag hflags e₁ he₁]
      exact h.serves e₁ he₁
  · intro e₁ he₁ e₂ he₂ heq
    rcases Table.mem_insert hexp he₁ with rfl | he₁ <;>
      rcases Table.mem_insert hexp he₂ with rfl | he₂
    · rfl
    · exact absurd heq.symm (hfresh e₂ he₂)
    · exact absurd heq (hfresh e₁ he₁)
    · exact h.unique e₁ he₁ e₂ he₂ heq

lemma rewrite (h : Owned db) {e' : Experiment} {f' : Flag} (he : e ∈ db.experiments.rows)
    (hf : db.flags.get (backingPk e) = some f) (hpk : experimentPk e' = experimentPk e)
    (hkey : backingPk e' = backingPk e) (hflag : flagPk f' = backingPk e) (hserves : Serves e' f')
    (hflags : db'.flags = db.flags.replace f') (hexp : db'.experiments = db.experiments.replace e') :
    Owned db' := by
  -- the row that took the place of `e` names the same flag
  have hrow : ∀ e₁ ∈ (db.experiments.replace e').rows,
      e₁ = e' ∨ (e₁ ∈ db.experiments.rows ∧ experimentPk e₁ ≠ experimentPk e) := by
    intro e₁ he₁
    rw [← hpk]
    exact Table.mem_replace he₁
  have hother : ∀ e₁ ∈ db.experiments.rows, experimentPk e₁ ≠ experimentPk e →
      backingPk e₁ ≠ backingPk e :=
    fun e₁ he₁ hne heq => hne (congrArg experimentPk (h.unique e₁ he₁ e he heq))
  refine ⟨?_, ?_⟩
  · rw [hexp, hflags]
    intro e₁ he₁
    rcases hrow e₁ he₁ with rfl | ⟨he₁, hne⟩
    · refine ⟨f', ?_, hserves⟩
      rw [hkey, Table.get_replace_of_get (hflag ▸ hf), if_pos hflag.symm]
    · rw [h.get_replace_other he hflag he₁ hne]
      exact h.serves e₁ he₁
  · rw [hexp]
    intro e₁ he₁ e₂ he₂ heq
    rcases hrow e₁ he₁ with rfl | ⟨hold₁, hne₁⟩ <;> rcases hrow e₂ he₂ with rfl | ⟨hold₂, hne₂⟩
    · rfl
    · exact absurd (heq.symm.trans hkey) (hother e₂ hold₂ hne₂)
    · exact absurd (heq.trans hkey) (hother e₁ hold₁ hne₁)
    · exact h.unique e₁ hold₁ e₂ hold₂ heq

lemma delete (h : Owned db) {f' : Flag} (he : e ∈ db.experiments.rows)
    (hflag : flagPk f' = backingPk e) (hflags : db'.flags = db.flags.replace f')
    (hexp : db'.experiments = db.experiments.erase (experimentPk e)) : Owned db' := by
  refine ⟨?_, ?_⟩
  · rw [hexp, hflags]
    intro e₁ he₁
    obtain ⟨he₁, hne⟩ := Table.mem_erase he₁
    rw [h.get_replace_other he hflag he₁ hne]
    exact h.serves e₁ he₁
  · rw [hexp]
    intro e₁ he₁ e₂ he₂
    exact h.unique e₁ (Table.mem_erase he₁).1 e₂ (Table.mem_erase he₂).1

end Owned

lemma archiveExperiment_spec {before removed : Experiment} {actor : Text}
    (h : archiveExperiment before actor now = .ok removed) :
    experimentPk removed = experimentPk before ∧ backingPk removed = backingPk before ∧
      removed.archivedAt = some now := by
  obtain ⟨_, -, rfl⟩ := archiveExperiment_cases h
  exact ⟨rfl, rfl, rfl⟩

lemma Serves.create {body : ExperimentCreate}
    {flag : FlagCreate} (hval : body.validate sampleSize now = .ok ())
    (hbuild : buildFlagCreate body.projectionArgs = .ok flag) (p salt : Text) :
    flagPk (flag.flagRow p salt) = backingPk (body.experimentRow p) ∧
      Serves (body.experimentRow p) (flag.flagRow p salt) := by
  refine ⟨?_, ⟨rfl, fun _ => Backed.create hval hbuild p salt⟩⟩
  obtain rfl := buildFlagCreate_eq_flagFields hbuild
  rfl

variable {s s' : State} {a : Act}

theorem Owned.next (h : Owned s.db) (hst : step sampleSize s a = some s') : Owned s'.db := by
  cases step_effect hst with
  | idle hs => exact hs ▸ h
  | read existing desired u now hact hget hplan hdb hpend => exact hdb ▸ h
  | insertFlag f hins hexp hpend => exact h.of_flags_eq hexp (h.get_insert_flag hins)
  | standalone before after hget howner hpk hflags hexp hpend =>
    refine h.of_flags_eq hexp ?_
    rw [hflags]
    exact get_replace_flag howner hpk
  | create body flag p salt actor now hact hval hbuild hflags hexp hpend =>
    obtain ⟨hpk, hserves⟩ := Serves.create hval hbuild p salt
    exact h.create hpk hserves hflags hexp
  | update before desired final v allowed beforeFlag merged now hact hclock hsource hget hversion
      harch hkey hfinal himm hflag hflagOpen hderive hflags hexp hpend =>
    have hpk : experimentPk before = (desired.projectId, desired.key) := Table.get_key hget
    have hproject : final.projectId = before.projectId := by
      have hfinal' := congrArg Experiment.projectId (finalizeTerminalAnalysisWindow_endDate hfinal)
      exact hfinal'.trans (congrArg Prod.fst hpk).symm
    rw [hproject] at hflag
    have hflagPk : flagPk beforeFlag = backingPk before := Table.get_key hflag
    have hmerged : flagPk (updatedFlag merged) = backingPk before := by
      obtain ⟨rfl, -⟩ := derivedExperimentFlag_spec hderive
      exact hflagPk
    have hopen : merged.archivedAt = beforeFlag.archivedAt := by
      obtain ⟨rfl, -⟩ := derivedExperimentFlag_spec hderive
      rfl
    have hserves : Serves (updatedExperiment before final (updatedFlag merged).version)
        (updatedFlag merged) := by
      refine ⟨?_, fun _ => Backed.update hderive⟩
      simp [updatedFlag, updatedExperiment, hopen, hflagOpen, harch]
    exact h.rewrite (Table.mem_of_get hget) hflag (by rfl) (by rfl) hmerged hserves hflags hexp
  | deleteDraft before beforeFlag now hact hget harch hdraft hflag hflags hexp hpend =>
    have hflagPk : flagPk beforeFlag = backingPk before := Table.get_key hflag
    have harchivedPk : flagPk (archivedFlag beforeFlag now) = backingPk before := hflagPk
    exact h.delete (Table.mem_of_get hget) harchivedPk hflags hexp
  | archive before removed beforeFlag actor now hact hclock hget harch hleft hflag hremoved hflags
      hexp hpend =>
    obtain ⟨hpk, hkey, harchived⟩ := archiveExperiment_spec hremoved
    have hflagPk : flagPk beforeFlag = backingPk before := Table.get_key hflag
    have harchivedPk : flagPk (archivedFlag beforeFlag now) = backingPk before := hflagPk
    have hserves : Serves removed (archivedFlag beforeFlag now) := by
      refine ⟨?_, fun hnone => ?_⟩
      · simp [archivedFlag, harchived]
      · rw [harchived] at hnone
        cases hnone
    exact h.rewrite (Table.mem_of_get hget) hflag hpk hkey harchivedPk hserves hflags hexp

/-! ## Every run -/

/-- The step does not create an experiment with an `exists` or `not_exists` condition. -/
def CreatesWithoutPresence (_ : State) (a : Act) : Prop :=
  ∀ p body salt actor now, a = .createExperiment p body salt actor now →
    ∀ r ∈ body.targetingRules, r.hasPresence = false

/-- No stored experiment has a presence condition. -/
def WithoutPresence (db : Db) : Prop :=
  ∀ e ∈ db.experiments.rows, ∀ r ∈ e.targetingRules, r.hasPresence = false

lemma WithoutPresence.next (h : WithoutPresence s.db) (hok : CreatesWithoutPresence s a)
    (hst : step sampleSize s a = some s') : WithoutPresence s'.db := by
  intro e he
  cases step_effect hst with
  | idle hs => exact h e (hs ▸ he)
  | read existing desired u now hact hget hplan hdb hpend => exact h e (hdb ▸ he)
  | insertFlag f hins hexp hpend => exact h e (hexp ▸ he)
  | standalone before after hget howner hpk hflags hexp hpend => exact h e (hexp ▸ he)
  | create body flag p salt actor now hact hval hbuild hflags hexp hpend =>
    rcases Table.mem_insert hexp he with rfl | he
    · rw [body.experimentRow_rules hval]
      exact hok p body salt actor now hact
    · exact h e he
  | update before desired final v allowed beforeFlag merged now hact hclock hsource hget hversion
      harch hkey hfinal himm hflag hflagOpen hderive hflags hexp hpend =>
    rw [hexp] at he
    rcases Table.mem_replace he with rfl | ⟨he, -⟩
    · exact (derivedExperimentFlag_spec hderive).2.2.2
    · exact h e he
  | deleteDraft before beforeFlag now hact hget harch hdraft hflag hflags hexp hpend =>
    rw [hexp] at he
    exact h e (Table.mem_erase he).1
  | archive before removed beforeFlag actor now hact hclock hget harch hleft hflag hremoved hflags
      hexp hpend =>
    rw [hexp] at he
    rcases Table.mem_replace he with rfl | ⟨he, -⟩
    · obtain ⟨_, -, rfl⟩ := archiveExperiment_cases hremoved
      exact h before (Table.mem_of_get hget)
    · exact h e he

lemma Owned.of_reach {ok : State → Act → Prop}
    (h : (machine sampleSize).ReachUnder ok s) : Owned s.db := by
  refine StepMachine.ReachUnder.induct (P := fun s => Owned s.db) ?_ ?_ h
  · exact ⟨fun e he => absurd he List.not_mem_nil, fun e he => absurd he List.not_mem_nil⟩
  · exact fun _ _ _ _ howned _ hst => howned.next hst

def stopRequest : ExperimentUpdate :=
  { version := 1, bucketBy := none, status := some .stopped, description := none,
    trafficPercentage := none, startDate := none, endDate := none, variants := none,
    defaultVariant := none, primaryMetric := none, statisticalPlan := none,
    targetingRules := none }

end Apdl.Config.Mutations
