import Apdl.Config.Mutations.Backing
import Apdl.Config.Outbox.Model
import Apdl.Lib.Decimal
import Apdl.Lib.Placeholder

set_option autoImplicit false

/-!
# The identity of outbox rows

`config_outbox` has one row for each project, kind and `dedup_key`, and the key of a config change is
built from the key of the entity, its version and the action. The versions of a flag never restart,
since a flag row is archived and not deleted. A draft experiment is deleted, so an experiment created
under its key starts again at version one, while the rows of the first one may still be stored.

## Main results

* `deleted_draft_blocks_key` — a deleted draft whose key is used again.

## Design

Rows leave the outbox by retention or by an operator; here any row may leave at any time.
-/

namespace Apdl.Config.Mutations

open Flags Check

/-! ## Identities -/

/-- The `action` of a change, as its dedup key has it. -/
def ChangeAction.name : ChangeAction → Text
  | .flagCreated => Text.ofString "flag_created"
  | .flagUpdated => Text.ofString "flag_updated"
  | .flagDisabled => Text.ofString "flag_disabled"
  | .flagArchived => Text.ofString "flag_archived"
  | .flagCleanupArchived => Text.ofString "flag_cleanup_archived"
  | .experimentCreated => Text.ofString "experiment_created"
  | .experimentUpdated => Text.ofString "experiment_updated"
  | .experimentStatusChanged => Text.ofString "experiment_status_changed"
  | .experimentDeleted => Text.ofString "experiment_deleted"
  | .experimentArchived => Text.ofString "experiment_archived"

/-- The code unit of `:`. -/
def colon : CodeUnit := 58

/-- `f"{key}:{version}:{action}"`. -/
def dedupKey (key : Text) (version : ℕ) (action : ChangeAction) : Text :=
  key ++ colon :: (Decimal.text version ++ colon :: action.name)

/-- The columns of `UNIQUE (project_id, kind, dedup_key)`. -/
def Intent.identity : Intent → Text × Outbox.Kind × Text
  | .flagChange action f _ => (f.projectId, .flagChange, dedupKey f.key f.version action)
  | .experimentChange action e _ => (e.projectId, .experimentChange, dedupKey e.key e.version action)

lemma colon_not_mem_name (action : ChangeAction) : colon ∉ action.name := by
  cases action <;> decide +kernel

lemma colon_not_mem_text (n : ℕ) : colon ∉ Decimal.text n := by
  intro h
  have hdigit := (Decimal.text_units colon h).2
  revert hdigit
  decide

lemma append_cons_inj_last {a a' rest rest' : Text} (hrest : colon ∉ rest) (hrest' : colon ∉ rest')
    (h : a ++ colon :: rest = a' ++ colon :: rest') : a = a' ∧ rest = rest' := by
  have hreverse := congrArg List.reverse h
  simp only [List.reverse_append, List.reverse_cons, List.append_assoc, List.singleton_append] at hreverse
  obtain ⟨hlast, hfirst⟩ := Placeholder.append_cons_inj (by simpa using hrest) (by simpa using hrest')
    hreverse
  exact ⟨List.reverse_injective hfirst, List.reverse_injective hlast⟩

variable {version : ℕ}

lemma dedupKey_inj {key key' : Text} {version' : ℕ} {action action' : ChangeAction}
    (h : dedupKey key version action = dedupKey key' version' action') :
    key = key' ∧ version = version' := by
  have hsplit : (key ++ colon :: Decimal.text version) ++ colon :: action.name =
      (key' ++ colon :: Decimal.text version') ++ colon :: action'.name := by
    simpa [dedupKey] using h
  obtain ⟨hfirst, -⟩ := append_cons_inj_last (colon_not_mem_name _) (colon_not_mem_name _) hsplit
  obtain ⟨hkey, hversion⟩ :=
    append_cons_inj_last (colon_not_mem_text _) (colon_not_mem_text _) hfirst
  refine ⟨hkey, ?_⟩
  rw [← Decimal.value_text version, hversion, Decimal.value_text]

/-! ## The rows that a mutation writes -/

/-- The primary key that an action creates an experiment under. -/
def Act.createdPk : Act → Option (Text × Text)
  | .createExperiment projectId body _ _ _ => some (projectId, body.key)
  | _ => none

/-- What a step adds to the outbox, and what it does to the versions in the tables. -/
structure Written (s s' : State) (a : Act) (new : List Intent) : Prop where
  outbox : s'.db.outbox = s.db.outbox ++ new
  flagNew : ∀ (action : ChangeAction) (f : Flag) (v : ℕ), .flagChange action f v ∈ new →
    (∀ g, s.db.flags.get (flagPk f) = some g → g.version < f.version) ∧
    s'.db.flags.get (flagPk f) = some f
  experimentNew : ∀ (action : ChangeAction) (e : Experiment) (v : ℕ),
    .experimentChange action e v ∈ new →
    (∀ g, s.db.experiments.get (experimentPk e) = some g → g.version < e.version) ∧
    (∀ g, s'.db.experiments.get (experimentPk e) = some g → g.version = e.version) ∧
    ((∃ g, s.db.experiments.get (experimentPk e) = some g) ∨ a.createdPk = some (experimentPk e))
  /-- Flags stay, and their versions do not fall. -/
  flagKept : ∀ pk g, s.db.flags.get pk = some g →
    ∃ g', s'.db.flags.get pk = some g' ∧ g.version ≤ g'.version
  /-- The versions of experiments do not fall, unless one is created. -/
  experimentKept : ∀ pk g', s'.db.experiments.get pk = some g' →
    (∃ g, s.db.experiments.get pk = some g ∧ g.version ≤ g'.version) ∨ a.createdPk = some pk

lemma Written.idle {s s' : State} (a : Act) (h : s'.db = s.db) : Written s s' a [] where
  outbox := by rw [h, List.append_nil]
  flagNew := fun _ _ _ hmem => by cases hmem
  experimentNew := fun _ _ _ hmem => by cases hmem
  flagKept := fun pk g hg => ⟨g, by rw [h]; exact hg, le_rfl⟩
  experimentKept := fun pk g hg => .inl ⟨g, by rw [← h]; exact hg, le_rfl⟩

lemma flagKept_of_replace {flags : Table flagPk} {f f' : Flag} (hget : flags.get (flagPk f') = some f)
    (hversion : f.version ≤ f'.version) : ∀ pk g, flags.get pk = some g →
    ∃ g', (flags.replace f').get pk = some g' ∧ g.version ≤ g'.version := by
  intro pk g hg
  rw [Table.get_replace_of_get hget]
  by_cases hpk : pk = flagPk f'
  · subst hpk
    obtain rfl := Option.some.inj (hg.symm.trans hget)
    exact ⟨f', if_pos rfl, hversion⟩
  · exact ⟨g, by rw [if_neg hpk, hg], le_rfl⟩

lemma flagKept_of_insert {flags flags' : Table flagPk} {f : Flag} (h : flags.insert f = some flags') :
    ∀ pk g, flags.get pk = some g → ∃ g', flags'.get pk = some g' ∧ g.version ≤ g'.version := by
  intro pk g hg
  rw [Table.get_insert h]
  by_cases hpk : pk = flagPk f
  · rw [hpk, Table.get_of_insert h] at hg
    cases hg
  · exact ⟨g, by rw [if_neg hpk, hg], le_rfl⟩

section Rows

variable {s s' : State} (a : Act) {action : ChangeAction} {v : ℕ}

lemma Written.insertFlag {f : Flag} (hins : s.db.flags.insert f = some s'.db.flags)
    (hexp : s'.db.experiments = s.db.experiments)
    (hout : s'.db.outbox = s.db.outbox ++ [.flagChange action f v]) :
    Written s s' a [.flagChange action f v] where
  outbox := hout
  flagNew := by
    intro action' f' v' hmem
    obtain ⟨-, rfl, -⟩ := Intent.flagChange.inj (List.mem_singleton.1 hmem)
    refine ⟨fun g hg => ?_, ?_⟩
    · rw [Table.get_of_insert hins] at hg
      cases hg
    · rw [Table.get_insert hins, if_pos rfl]
  experimentNew := by
    intro action' e v' hmem
    cases List.mem_singleton.1 hmem
  flagKept := flagKept_of_insert hins
  experimentKept := fun pk g hg => .inl ⟨g, by rw [← hexp]; exact hg, le_rfl⟩

lemma Written.standalone {f f' : Flag} (hget : s.db.flags.get (flagPk f') = some f)
    (hversion : f'.version = f.version + 1) (hflags : s'.db.flags = s.db.flags.replace f')
    (hexp : s'.db.experiments = s.db.experiments)
    (hout : s'.db.outbox = s.db.outbox ++ [.flagChange action f' v]) :
    Written s s' a [.flagChange action f' v] where
  outbox := hout
  flagNew := by
    intro action' g v' hmem
    obtain ⟨-, rfl, -⟩ := Intent.flagChange.inj (List.mem_singleton.1 hmem)
    refine ⟨fun g hg => ?_, ?_⟩
    · obtain rfl := Option.some.inj (hg.symm.trans hget)
      omega
    · rw [hflags, Table.get_replace_of_get hget, if_pos rfl]
  experimentNew := by
    intro action' e v' hmem
    cases List.mem_singleton.1 hmem
  flagKept := by
    rw [hflags]
    exact flagKept_of_replace hget (by omega)
  experimentKept := fun pk g hg => .inl ⟨g, by rw [← hexp]; exact hg, le_rfl⟩

variable {action' : ChangeAction} {e e' : Experiment} {f f' : Flag}

lemma Written.bundle (hflag : s.db.flags.get (flagPk f') = some f)
    (hversion : f'.version = f.version + 1) (hflags : s'.db.flags = s.db.flags.replace f')
    (hget : s.db.experiments.get (experimentPk e') = some e) (hversion' : e'.version = e.version + 1)
    (hrow : s'.db.experiments.get (experimentPk e') = none ∨
      s'.db.experiments.get (experimentPk e') = some e')
    (hothers : ∀ pk, pk ≠ experimentPk e' → s'.db.experiments.get pk = s.db.experiments.get pk)
    (hout : s'.db.outbox =
      s.db.outbox ++ [.flagChange action f' v, .experimentChange action' e' v]) :
    Written s s' a [.flagChange action f' v, .experimentChange action' e' v] where
  outbox := hout
  flagNew := by
    intro action₁ g v' hmem
    rcases List.mem_cons.1 hmem with heq | hmem
    · obtain ⟨-, rfl, -⟩ := Intent.flagChange.inj heq
      refine ⟨fun g hg => ?_, ?_⟩
      · obtain rfl := Option.some.inj (hg.symm.trans hflag)
        omega
      · rw [hflags, Table.get_replace_of_get hflag, if_pos rfl]
    · cases List.mem_singleton.1 hmem
  experimentNew := by
    intro action₁ x v' hmem
    rcases List.mem_cons.1 hmem with heq | hmem
    · cases heq
    · obtain ⟨-, rfl, -⟩ := Intent.experimentChange.inj (List.mem_singleton.1 hmem)
      refine ⟨fun g hg => ?_, fun g hg => ?_, .inl ⟨e, hget⟩⟩
      · obtain rfl := Option.some.inj (hg.symm.trans hget)
        omega
      · rcases hrow with hnone | hsome
        · rw [hnone] at hg
          cases hg
        · rw [Option.some.inj (hg.symm.trans hsome)]
  flagKept := by
    rw [hflags]
    exact flagKept_of_replace hflag (by omega)
  experimentKept := by
    intro pk g hg
    by_cases hpk : pk = experimentPk e'
    · subst hpk
      rcases hrow with hnone | hsome
      · rw [hnone] at hg
        cases hg
      · obtain rfl := Option.some.inj (hg.symm.trans hsome)
        exact .inl ⟨e, hget, by omega⟩
    · rw [hothers pk hpk] at hg
      exact .inl ⟨g, hg, le_rfl⟩

lemma Written.create (hcreated : a.createdPk = some (experimentPk e))
    (hins : s.db.flags.insert f = some s'.db.flags)
    (hexp : s.db.experiments.insert e = some s'.db.experiments)
    (hout : s'.db.outbox =
      s.db.outbox ++ [.flagChange action f v, .experimentChange action' e v]) :
    Written s s' a [.flagChange action f v, .experimentChange action' e v] where
  outbox := hout
  flagNew := by
    intro action₁ g v' hmem
    rcases List.mem_cons.1 hmem with heq | hmem
    · obtain ⟨-, rfl, -⟩ := Intent.flagChange.inj heq
      refine ⟨fun g hg => ?_, ?_⟩
      · rw [Table.get_of_insert hins] at hg
        cases hg
      · rw [Table.get_insert hins, if_pos rfl]
    · cases List.mem_singleton.1 hmem
  experimentNew := by
    intro action₁ x v' hmem
    rcases List.mem_cons.1 hmem with heq | hmem
    · cases heq
    · obtain ⟨-, rfl, -⟩ := Intent.experimentChange.inj (List.mem_singleton.1 hmem)
      refine ⟨fun g hg => ?_, fun g hg => ?_, .inr hcreated⟩
      · rw [Table.get_of_insert hexp] at hg
        cases hg
      · rw [Table.get_insert hexp, if_pos rfl] at hg
        rw [Option.some.inj hg]
  flagKept := flagKept_of_insert hins
  experimentKept := by
    intro pk g hg
    rw [Table.get_insert hexp] at hg
    by_cases hpk : pk = experimentPk e
    · exact .inr (hpk ▸ hcreated)
    · rw [if_neg hpk] at hg
      exact .inl ⟨g, hg, le_rfl⟩

end Rows

/-! ## Commands -/

variable {p actor : Text} {db : Db}

lemma written_standalone {s : State} (a : Act) {k : Text} {before : Flag}
    {action : ChangeAction} {v : ℕ} (hok : standaloneFlag s.db p k version = .ok before) (after : Flag)
    (hpk : flagPk after = flagPk before) (hversion : after.version = before.version + 1)
    (hflags : db.flags = s.db.flags.replace after) (hexp : db.experiments = s.db.experiments)
    (hout : db.outbox = s.db.outbox ++ [.flagChange action after v]) :
    ∃ new, Written s { s with db := db } a new := by
  obtain ⟨hget, -⟩ := standaloneFlag_eq_ok.1 hok
  have hkey : flagPk before = (p, k) := Table.get_key hget
  exact ⟨_, .standalone a (by rw [hpk, hkey]; exact hget) hversion hflags hexp hout⟩

lemma derivedExperimentFlag_identity {e : Experiment} {backing merged : Flag}
    (h : derivedExperimentFlag e backing = .ok merged) :
    flagPk merged = flagPk backing ∧ merged.version = backing.version := by
  obtain ⟨rfl, -⟩ := derivedExperimentFlag_spec h
  exact ⟨rfl, rfl⟩

variable {now : Time}

lemma written_update {s s' : State} (a : Act) {desired : Experiment}
    {origin : Origin} (hdb : s'.db = db)
    (h : updateExperimentBundle desired version actor origin now s.db = .ok db) :
    ∃ new, Written s s' a new := by
  simp only [updateExperimentBundle, bind_eq_ok, lockedExperiment_eq_ok, checkVersion,
    ensure_eq_ok, decide_eq_true_eq, Option.isNone_iff_eq_none, lockedFlag_eq_ok,
    liftSchema_eq_ok, Except.ok.injEq] at h
  obtain ⟨before, hget, _, -, _, -, _, -, ⟨final, allowed⟩, -, _, -, beforeFlag, ⟨hflag, -⟩, merged,
    hderive, rfl⟩ := h
  obtain ⟨hpk, hversion⟩ := derivedExperimentFlag_identity hderive
  have hkey : flagPk beforeFlag = (final.projectId, before.flagKey) := Table.get_key hflag
  have hexpKey : experimentPk before = (desired.projectId, desired.key) := Table.get_key hget
  set e' := updatedExperiment before final (updatedFlag merged).version
  have hrow : s.db.experiments.get (experimentPk e') = some before := by
    rw [show experimentPk e' = experimentPk before from rfl, hexpKey]
    exact hget
  have hout : s'.db.outbox = s.db.outbox ++
      [.flagChange .flagUpdated (updatedFlag merged)
        (s.db.projectVersions (updatedFlag merged).projectId + 1),
      .experimentChange .experimentUpdated e'
        (s.db.projectVersions (updatedFlag merged).projectId + 1)] := by
    rw [hdb]
    exact List.append_assoc ..
  refine ⟨_, .bundle a (f := beforeFlag) (e := before) ?_ ?_ (by rw [hdb]; rfl) hrow rfl (.inr ?_)
    (fun pk hne => ?_) hout⟩
  · rw [show flagPk (updatedFlag merged) = flagPk merged from rfl, hpk, hkey]
    exact hflag
  · rw [show (updatedFlag merged).version = merged.version + 1 from rfl, hversion]
  · rw [hdb, recordBundle_experiments]
    exact (Table.get_replace_of_get hrow _).trans (if_pos rfl)
  · rw [hdb, recordBundle_experiments]
    exact (Table.get_replace_of_get hrow pk).trans (if_neg hne)

lemma written_delete {s : State} (a : Act) {k : Text} (h : deleteExperimentBundle p k version actor now s.db = .ok db) :
    ∃ new, Written s { s with db := db } a new := by
  simp only [deleteExperimentBundle, bind_eq_ok, lockedExperiment_eq_ok, checkVersion,
    ensure_eq_ok, decide_eq_true_eq, Option.isNone_iff_eq_none, lockedFlag_eq_ok] at h
  obtain ⟨before, hget, _, hv, _, -, beforeFlag, ⟨hflag, -⟩, h⟩ := h
  have hkey : experimentPk before = (p, k) := Table.get_key hget
  have hflagKey : flagPk beforeFlag = (p, before.flagKey) := Table.get_key hflag
  split at h
  · cases h
    refine ⟨_, .bundle a (f := beforeFlag) (e := before) ?_ rfl rfl ?_ (by rw [hv]) (.inl ?_)
      (fun pk hne => ?_) (List.append_assoc ..)⟩
    · rw [show flagPk (archivedFlag beforeFlag now) = flagPk beforeFlag from rfl, hflagKey]
      exact hflag
    · rw [show experimentPk { before with version := version + 1 } = experimentPk before from rfl, hkey]
      exact hget
    · exact (Table.get_erase ..).trans (if_pos rfl)
    · exact (Table.get_erase ..).trans (if_neg hne)
  · simp only [bind_eq_ok, Except.ok.injEq] at h
    obtain ⟨removed, hremoved, rfl⟩ := h
    obtain ⟨desired, -, rfl⟩ := archiveExperiment_cases hremoved
    refine ⟨_, .bundle a (f := beforeFlag) (e := before) ?_ rfl rfl ?_ rfl (.inr ?_)
      (fun pk hne => ?_) (List.append_assoc ..)⟩
    · rw [show flagPk (archivedFlag beforeFlag now) = flagPk beforeFlag from rfl, hflagKey]
      exact hflag
    · exact hkey ▸ hget
    · exact (Table.get_replace_of_get (hkey ▸ hget) _).trans (if_pos rfl)
    · exact (Table.get_replace_of_get (hkey ▸ hget) pk).trans (if_neg hne)

variable {sampleSize : SampleSize}

lemma written_create {s : State} {salt : Text} {body : ExperimentCreate}
    (h : createExperiment sampleSize p body salt actor now s.db = .ok db) :
    ∃ new, Written s { s with db := db } (.createExperiment p body salt actor now) new := by
  simp only [createExperiment, bind_eq_ok, liftSchema_eq_ok] at h
  obtain ⟨_, -, flag, -, h⟩ := h
  simp only [createExperimentBundle, bind_eq_ok] at h
  obtain ⟨db1, hins, h⟩ := h
  obtain ⟨flags, hflags, rfl⟩ := insertFlag_eq_ok hins
  split at h
  · cases h
  split at h
  · cases h
  rename_i experiments hexp
  cases h
  exact ⟨_, .create _ rfl hflags hexp (List.append_assoc ..)⟩

theorem Written.of_step {s s' : State} {a : Act}
    (h : step sampleSize s a = some s') : ∃ new, Written s s' a new := by
  cases a with
  | createFlag p body salt actor =>
    obtain ⟨db, hdb, rfl⟩ := run_eq_some h
    simp only [createFlag, createStandaloneFlag, bind_eq_ok, Except.ok.injEq] at hdb
    obtain ⟨_, -, db1, hins, rfl⟩ := hdb
    obtain ⟨flags, hflags, rfl⟩ := insertFlag_eq_ok hins
    exact ⟨_, .insertFlag _ hflags rfl rfl⟩
  | updateFlag p k v updates actor =>
    obtain ⟨db, hdb, rfl⟩ := run_eq_some h
    simp only [updateStandaloneFlag, bind_eq_ok, Except.ok.injEq] at hdb
    obtain ⟨before, hok, _, -, rfl⟩ := hdb
    exact written_standalone _ hok (updatedFlag (updates.apply before)) rfl rfl rfl rfl rfl
  | transitionFlag p k v target actor =>
    simp only [step] at h
    split at h
    · obtain ⟨db, hdb, rfl⟩ := run_eq_some h
      simp only [transitionStandaloneFlag, bind_eq_ok, Except.ok.injEq] at hdb
      obtain ⟨before, hok, rfl⟩ := hdb
      exact written_standalone _ hok (transitionedFlag before target) rfl rfl rfl rfl rfl
    · cases h
  | disableFlag p k v reason actor now =>
    obtain ⟨db, hdb, rfl⟩ := run_eq_some h
    simp only [disableStandaloneFlag, bind_eq_ok] at hdb
    obtain ⟨before, hok, hdb⟩ := hdb
    split at hdb
    · cases hdb
      exact written_standalone _ hok (disabledFlag before reason actor now) rfl rfl rfl rfl rfl
    · cases hdb
      exact ⟨_, .idle _ rfl⟩
  | archiveFlag p k v actor now =>
    obtain ⟨db, hdb, rfl⟩ := run_eq_some h
    simp only [archiveStandaloneFlag, bind_eq_ok, Except.ok.injEq] at hdb
    obtain ⟨before, hok, rfl⟩ := hdb
    exact written_standalone _ hok (archivedFlag before now) rfl rfl rfl rfl rfl
  | cleanupFlag p k v actor now =>
    obtain ⟨db, hdb, rfl⟩ := run_eq_some h
    simp only [cleanupStandaloneFlag, bind_eq_ok, Except.ok.injEq] at hdb
    obtain ⟨before, hok, _, -, rfl⟩ := hdb
    exact written_standalone _ hok (archivedFlag before now) rfl rfl rfl rfl rfl
  | createExperiment p body salt actor now =>
    obtain ⟨db, hdb, rfl⟩ := run_eq_some h
    exact written_create hdb
  | readUpdate p k body now =>
    simp only [step] at h
    split at h
    · cases h
    split at h
    · cases h
    cases h
    exact ⟨_, .idle _ rfl⟩
  | commitUpdate index actor now =>
    simp only [step] at h
    split at h
    · cases h
    obtain ⟨s1, hrun, rfl⟩ := Option.map_eq_some_iff.1 h
    obtain ⟨db, hdb, rfl⟩ := run_eq_some hrun
    exact written_update _ rfl hdb
  | deleteExperiment p k v actor now =>
    obtain ⟨db, hdb, rfl⟩ := run_eq_some h
    exact written_delete _ hdb
  | transitionDue p k v actor now commitNow =>
    obtain ⟨db, hdb, rfl⟩ := run_eq_some h
    simp only [transitionDueExperiment, bind_eq_ok, lockedExperiment_eq_ok] at hdb
    obtain ⟨current, -, hdb⟩ := hdb
    split at hdb
    · cases hdb
      exact ⟨_, .idle _ rfl⟩
    split at hdb
    · cases hdb
      exact ⟨_, .idle _ rfl⟩
    simp only [bind_eq_ok] at hdb
    obtain ⟨_, -, hdb⟩ := hdb
    exact written_update _ rfl hdb

/-! ## The rows that are still stored -/

/-- The tables, and the rows of `config_outbox`. -/
structure Stored where
  state : State
  rows : List Intent

/-- What can happen to them. -/
inductive StoreAct
  | mutate (a : Act)
  | leave (i : ℕ)

/-- The rows that a step adds. -/
def added (s s' : State) : List Intent := s'.db.outbox.drop s.db.outbox.length

/-- The outbox has no row with the identity of a new one. -/
def Stored.admits (x : Stored) (new : List Intent) : Bool :=
  new.all fun i => x.rows.all fun r => decide (i.identity ≠ r.identity)

/-- One step; a mutation that the outbox refuses is rolled back. -/
def Stored.step (sampleSize : SampleSize) (x : Stored) : StoreAct → Option Stored
  | .mutate a =>
    match Mutations.step sampleSize x.state a with
    | none => none
    | some s' =>
      if x.admits (added x.state s') then some ⟨s', x.rows ++ added x.state s'⟩ else none
  | .leave i => some { x with rows := x.rows.eraseIdx i }

/-- The mutations with the outbox, from empty tables. -/
def store (sampleSize : SampleSize) : StepMachine Stored StoreAct where
  init := ⟨initial, []⟩
  step := Stored.step sampleSize

/-- The row is of an experiment with the given primary key. -/
def Intent.names (pk : Text × Text) : Intent → Bool
  | .experimentChange _ e _ => decide (experimentPk e = pk)
  | .flagChange _ _ _ => false

/-- The action creates an experiment under a key that stored rows name. -/
def Stored.reusesKey (x : Stored) (a : Act) : Bool :=
  a.createdPk.any fun pk => x.rows.any (Intent.names pk)

/-- The condition on a step. -/
def KeepsKeys (x : Stored) : StoreAct → Prop
  | .mutate a => x.reusesKey a = false
  | .leave _ => True

instance (x : Stored) (act : StoreAct) : Decidable (KeepsKeys x act) :=
  match act with
  | .mutate a => inferInstanceAs (Decidable (x.reusesKey a = false))
  | .leave _ => inferInstanceAs (Decidable True)

/-- The stored rows are of versions that the tables have reached. -/
structure Stored.Inv (x : Stored) : Prop where
  flag : ∀ (action : ChangeAction) (f : Flag) (v : ℕ), .flagChange action f v ∈ x.rows →
    ∃ g, x.state.db.flags.get (flagPk f) = some g ∧ f.version ≤ g.version
  experiment : ∀ (action : ChangeAction) (e : Experiment) (v : ℕ),
    .experimentChange action e v ∈ x.rows →
    ∀ g, x.state.db.experiments.get (experimentPk e) = some g → e.version ≤ g.version

variable {x : Stored}

lemma not_names {a : Act} (h : x.reusesKey a = false) {pk : Text × Text}
    (hpk : a.createdPk = some pk) {action : ChangeAction} {e : Experiment} {v : ℕ}
    (he : .experimentChange action e v ∈ x.rows) : experimentPk e ≠ pk := by
  intro heq
  simp only [Stored.reusesKey, hpk, Option.any_some, List.any_eq_false] at h
  exact absurd (decide_eq_true heq) (h _ he)

variable {new : List Intent}

/-- **New rows are new**, if no key is reused. -/
lemma Stored.Inv.fresh (h : x.Inv) {a : Act} {s' : State}
    (hw : Written x.state s' a new) (hkeys : x.reusesKey a = false) :
    ∀ i ∈ new, ∀ r ∈ x.rows, i.identity ≠ r.identity := by
  intro i hi r hr heq
  cases i with
  | flagChange action f v =>
    cases r with
    | experimentChange action' e v' => simp [Intent.identity] at heq
    | flagChange action' f' v' =>
      simp only [Intent.identity, Prod.mk.injEq, true_and] at heq
      obtain ⟨hkey, hversion⟩ := dedupKey_inj heq.2
      obtain ⟨g, hg, hle⟩ := h.flag action' f' v' hr
      have hpk : flagPk f' = flagPk f := by rw [flagPk, flagPk, heq.1, hkey]
      have hlt := (hw.flagNew action f v hi).1 g (hpk ▸ hg)
      omega
  | experimentChange action e v =>
    cases r with
    | flagChange action' f' v' => simp [Intent.identity] at heq
    | experimentChange action' e' v' =>
      simp only [Intent.identity, Prod.mk.injEq, true_and] at heq
      obtain ⟨hkey, hversion⟩ := dedupKey_inj heq.2
      have hpk : experimentPk e' = experimentPk e := by rw [experimentPk, experimentPk, heq.1, hkey]
      obtain ⟨hnew, -, ⟨g, hg⟩ | hcreated⟩ := hw.experimentNew action e v hi
      · have hle := h.experiment action' e' v' hr g (hpk ▸ hg)
        have hlt := hnew g hg
        omega
      · exact not_names hkeys hcreated hr hpk

lemma Stored.Inv.mutate (h : x.Inv) {a : Act} {s' : State}
    (hw : Written x.state s' a new) (hkeys : x.reusesKey a = false) :
    Stored.Inv ⟨s', x.rows ++ new⟩ where
  flag := by
    intro action f v hmem
    rcases List.mem_append.1 hmem with hold | hnew
    · obtain ⟨g, hg, hle⟩ := h.flag action f v hold
      obtain ⟨g', hg', hle'⟩ := hw.flagKept _ g hg
      exact ⟨g', hg', hle.trans hle'⟩
    · exact ⟨f, (hw.flagNew action f v hnew).2, le_rfl⟩
  experiment := by
    intro action e v hmem g' hg'
    rcases List.mem_append.1 hmem with hold | hnew
    · rcases hw.experimentKept _ g' hg' with ⟨g, hg, hle⟩ | hcreated
      · exact (h.experiment action e v hold g hg).trans hle
      · exact absurd rfl (not_names hkeys hcreated hold)
    · rw [(hw.experimentNew action e v hnew).2.1 g' hg']

lemma Written.added_eq {s s' : State} {a : Act} (h : Written s s' a new) :
    added s s' = new := by
  rw [added, h.outbox, List.drop_left]

lemma Stored.Inv.of_reach (h : (store sampleSize).ReachUnder KeepsKeys x) : x.Inv := by
  refine StepMachine.ReachUnder.induct (P := Stored.Inv) ?_ ?_ h
  · exact ⟨fun _ _ _ hmem => (by cases hmem), fun _ _ _ hmem => (by cases hmem)⟩
  · intro x act x' _ hinv hok hstep
    cases act with
    | leave i =>
      obtain rfl := Option.some.inj hstep
      exact ⟨fun action f v hmem => hinv.flag action f v (List.mem_of_mem_eraseIdx hmem),
        fun action e v hmem => hinv.experiment action e v (List.mem_of_mem_eraseIdx hmem)⟩
    | mutate a =>
      simp only [store, Stored.step] at hstep
      cases hs : Mutations.step sampleSize x.state a with
      | none => simp [hs] at hstep
      | some s' =>
        simp only [hs, Option.ite_none_right_eq_some, Option.some.injEq] at hstep
        obtain ⟨-, rfl⟩ := hstep
        obtain ⟨new, hw⟩ := Written.of_step hs
        rw [hw.added_eq]
        exact hinv.mutate hw hok

/-- **The outbox refuses no mutation that the tables admit**, in every run that creates no experiment
under a key of which the outbox still has rows: the rows of the mutation differ from every stored row
in project, kind or dedup key. -/
theorem outbox_admits_mutations {sampleSize : SampleSize} {x : Stored}
    (h : (store sampleSize).ReachUnder KeepsKeys x) {a : Act} {s' : State}
    (hstep : Mutations.step sampleSize x.state a = some s') (hkeys : KeepsKeys x (.mutate a)) :
    (∀ i ∈ added x.state s', ∀ r ∈ x.rows, i.identity ≠ r.identity) ∧
    Stored.step sampleSize x (.mutate a) = some ⟨s', x.rows ++ added x.state s'⟩ := by
  obtain ⟨new, hw⟩ := Written.of_step hstep
  have hfresh := (Stored.Inv.of_reach h).fresh hw hkeys
  rw [← hw.added_eq] at hfresh
  refine ⟨hfresh, ?_⟩
  simp only [Stored.step, hstep]
  refine if_pos (List.all_eq_true.2 fun i hi => List.all_eq_true.2 fun r hr => ?_)
  exact decide_eq_true (hfresh i hi r hr)

/-- The draft `exp`, created with the given flag key. -/
def createDraft (flagKey : String) : Act :=
  .createExperiment (Text.ofString "p")
    { sampleExperiment [] with flagKey := some (Text.ofString flagKey) } (Text.ofString "salt")
    (Text.ofString "admin") 0

def deletedDraft : List StoreAct :=
  [.mutate (createDraft "first"),
    .mutate (.deleteExperiment (Text.ofString "p") (Text.ofString "exp") 1 (Text.ofString "admin") 0)]

/-- Once its rows have left, the key of a deleted draft can be used again. -/
theorem outbox_admits_mutations_later : ∃ (x : Stored) (s' : State),
    (store fun _ _ _ => .ok 2).ReachUnder KeepsKeys x ∧
    Mutations.step (fun _ _ _ => .ok 2) x.state (createDraft "second") = some s' ∧
    Stored.step (fun _ _ _ => .ok 2) x (.mutate (createDraft "second")) =
      some ⟨s', x.rows ++ added x.state s'⟩ := by
  have hrun : (((store fun _ _ _ => .ok 2).runUnder KeepsKeys (store fun _ _ _ => .ok 2).init
      (deletedDraft ++ [.leave 0, .leave 0, .leave 0, .leave 0])).bind fun x =>
        (Mutations.step (fun _ _ _ => .ok 2) x.state (createDraft "second")).map fun _ =>
          x.reusesKey (createDraft "second")) = some false := by
    decide +kernel
  obtain ⟨x, hx, hnext⟩ := Option.bind_eq_some_iff.1 hrun
  obtain ⟨s', hs', hkeys⟩ := Option.map_eq_some_iff.1 hnext
  have hreach := StepMachine.reachUnder_of_runUnder .init hx
  exact ⟨x, s', hreach, hs', (outbox_admits_mutations hreach hs' hkeys).2⟩

/-- A draft is created and deleted, and the key is used again with another flag: the tables admit the
new experiment, and the outbox has its first row already. -/
theorem deleted_draft_blocks_key : ¬ ∀ x : Stored, (store fun _ _ _ => .ok 2).Reach x →
    ∀ (a : Act) (s' : State), Mutations.step (fun _ _ _ => .ok 2) x.state a = some s' →
      ∀ i ∈ added x.state s', ∀ r ∈ x.rows, i.identity ≠ r.identity := by
  intro hall
  have hrun : (((store fun _ _ _ => .ok 2).run (store fun _ _ _ => .ok 2).init deletedDraft).bind
      fun x => (Mutations.step (fun _ _ _ => .ok 2) x.state (createDraft "second")).map fun s' =>
        x.admits (added x.state s')) = some false := by
    decide +kernel
  obtain ⟨x, hx, hnext⟩ := Option.bind_eq_some_iff.1 hrun
  obtain ⟨s', hs', hrefused⟩ := Option.map_eq_some_iff.1 hnext
  have hfresh := hall x (StepMachine.reach_of_run hx) _ s' hs'
  refine absurd hrefused (by
    rw [Bool.not_eq_false]
    exact List.all_eq_true.2 fun i hi => List.all_eq_true.2 fun r hr =>
      decide_eq_true (hfresh i hi r hr))

end Apdl.Config.Mutations
