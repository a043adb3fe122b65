import Apdl.Pipeline.Postgres.Migrate

set_option autoImplicit false

/-!
# The ledger is one release at a time

A migrator plans from a ledger that may be old, and each of its transactions looks at one version only.
What makes this enough is that a plan is worked off in order: the files of a migrator up to the one in
hand are the first entries of the ledger, so a migrator with a file that differs from an entry stops at
that entry or before it.

## Main results

* `ledger_of_reach` — the ledger is contiguous, each entry was executed once and in order, and a migrator
  executes nothing from the first entry on that it does not have.
-/

namespace Apdl.Pipeline.Postgres

variable {sha256 : String → String}

variable {migrations rest : List Migration}

lemma versions_of_migrationsFrom {expected : ℕ} {files : List File}
    (h : migrationsFrom sha256 expected files = .ok migrations) :
    migrations.map Migration.version = List.range' expected migrations.length ∧
      ∀ m ∈ migrations, m.checksum = sha256 m.sql := by
  induction files generalizing expected migrations with
  | nil =>
    obtain rfl : [] = migrations := by simpa [migrationsFrom] using h
    simp
  | cons file rest ih =>
    unfold migrationsFrom at h
    cases hname : matchName file.name with
    | none => simp [hname] at h
    | some version =>
      simp only [hname] at h
      split_ifs at h with hv
      cases hrest : migrationsFrom sha256 (expected + 1) rest with
      | error message => simp [hrest, Except.map] at h
      | ok later =>
        rw [not_not] at hv
        simp only [hrest, Except.map, Except.ok.injEq] at h
        obtain ⟨hversions, hsums⟩ := ih hrest
        subst h
        refine ⟨?_, ?_⟩
        · rw [List.map_cons, hversions, List.length_cons, List.range'_succ, hv]
        · intro m hm
          rcases List.mem_cons.1 hm with rfl | hm
          · rfl
          · exact hsums m hm

lemma versions_of_discover {files : List File}
    (h : discoverMigrations sha256 files = .ok migrations) :
    migrations.map Migration.version = List.range' 1 migrations.length ∧
      ∀ m ∈ migrations, m.checksum = sha256 m.sql := by
  unfold discoverMigrations at h
  split_ifs at h
  exact versions_of_migrationsFrom h

variable {m : Migration}

lemma version_eq {before : List Migration}
    (h : (before ++ m :: rest).map Migration.version = List.range' 1 (before ++ m :: rest).length) :
    m.version = before.length + 1 := by
  have hat := congrArg (fun l : List ℕ => l[before.length]?) h
  simp only [List.map_append, List.map_cons] at hat
  rw [List.getElem?_append_right (by simp), List.getElem?_range' (by simp)] at hat
  simp only [List.length_map, Nat.sub_self, List.getElem?_cons_zero, Option.some.injEq] at hat
  omega

variable {ledger : List AppliedMigration}

lemma getElem?_of_mem
    (h : ledger.map AppliedMigration.version = List.range' 1 ledger.length) {r : AppliedMigration}
    (hr : r ∈ ledger) : 1 ≤ r.version ∧ ledger[r.version - 1]? = some r := by
  obtain ⟨p, hp⟩ := List.mem_iff_getElem?.1 hr
  have hlt : p < ledger.length := (List.getElem?_eq_some_iff.1 hp).1
  have hat := congrArg (fun l : List ℕ => l[p]?) h
  simp only [List.getElem?_map, hp, Option.map_some] at hat
  rw [List.getElem?_range' hlt, Option.some.injEq] at hat
  have hv : r.version = p + 1 := by omega
  exact ⟨by omega, by rw [hv, Nat.add_sub_cancel]; exact hp⟩

lemma exists_version (h : ledger.map AppliedMigration.version = List.range' 1 ledger.length) {v : ℕ}
    (hv : v < ledger.length) : ∃ r ∈ ledger, r.version = v + 1 := by
  have hmem : v + 1 ∈ ledger.map AppliedMigration.version := by
    rw [h, List.mem_range'_1]
    omega
  obtain ⟨r, hr, heq⟩ := List.mem_map.1 hmem
  exact ⟨r, hr, heq⟩

lemma insertionSort_eq (h : ledger.map AppliedMigration.version = List.range' 1 ledger.length) :
    ledger.insertionSort (fun a b => a.version ≤ b.version) = ledger := by
  refine List.Pairwise.insertionSort_eq ?_
  have hsorted : (ledger.map AppliedMigration.version).Pairwise (· < ·) := by
    rw [h]
    exact List.pairwise_lt_range'
  exact (List.pairwise_map.1 hsorted).imp fun hlt => hlt.le

lemma take_of_drift
    (hlen : ledger.length ≤ migrations.length) (h : drift migrations ledger = none) :
    (migrations.take ledger.length).map Migration.applied = ledger := by
  induction ledger generalizing migrations with
  | nil => rfl
  | cons item applied ih =>
    cases migrations with
    | nil => simp at hlen
    | cons expected rest =>
      unfold drift at h
      split_ifs at h with hv hn hc
      rw [not_not] at hv hn hc
      have hitem : expected.applied = item := by
        rw [Migration.applied, ← hv, ← hn, ← hc]
      rw [List.length_cons, List.take_succ_cons, List.map_cons, hitem,
        ih (Nat.le_of_succ_le_succ hlen) h]

lemma split_of_plan {pending : List Migration}
    (hledger : ledger.map AppliedMigration.version = List.range' 1 ledger.length)
    (h : planMigrations migrations ledger = .ok pending) :
    ∃ before, migrations = before ++ pending ∧ before.map Migration.applied = ledger := by
  unfold planMigrations at h
  rw [insertionSort_eq hledger] at h
  dsimp only at h
  split_ifs at h with hv hn hlen
  cases hd : drift migrations ledger with
  | some message => simp [hd] at h
  | none =>
    simp only [hd, Except.ok.injEq] at h
    subst h
    exact ⟨migrations.take ledger.length, (List.take_append_drop _ _).symm,
      take_of_drift (Nat.le_of_not_lt hlen) hd⟩

/-! ## Migrators -/

/-- What a migrator at a stage knows of the ledger: the files before the one in hand are its first
entries. While the SQL of a file is executed they are all entries. -/
def Stage.Ok (ledger : List AppliedMigration) (migrations : List Migration) : Stage → Prop
  | .discovered | .finished | .failed => True
  | .applying rest =>
    ∃ before, migrations = before ++ rest ∧ before.map Migration.applied <+: ledger
  | .locked m rest =>
    ∃ before, migrations = before ++ m :: rest ∧ before.map Migration.applied <+: ledger
  | .skipping m rest =>
    ∃ before, migrations = before ++ m :: rest ∧ (before ++ [m]).map Migration.applied <+: ledger
  | .executing m rest =>
    ∃ before, migrations = before ++ m :: rest ∧ before.map Migration.applied = ledger

variable {stage : Stage}

lemma Stage.Ok.append
    (h : stage.Ok ledger migrations) (hlock : stage.holds = false) (r : AppliedMigration) :
    stage.Ok (ledger ++ [r]) migrations := by
  cases stage with
  | applying rest =>
    obtain ⟨before, hsplit, hpre⟩ := h
    exact ⟨before, hsplit, hpre.trans (List.prefix_append _ _)⟩
  | discovered | finished | failed => trivial
  | locked | skipping | executing => simp [Stage.holds] at hlock

lemma mem_of_applied (h : checkLedger ledger m = .applied) : m.applied ∈ ledger := by
  unfold checkLedger at h
  split_ifs at h with hdrift horder happlied
  obtain ⟨r, hr, heq⟩ := List.any_eq_true.1 happlied
  simp only [Bool.and_eq_true, beq_iff_eq] at heq
  obtain ⟨⟨hv, hn⟩, hc⟩ := heq
  have hrow : r = m.applied := by
    rw [Migration.applied, ← hv, ← hn, ← hc]
  exact hrow ▸ hr

lemma version_ne_of_pending
    (h : checkLedger ledger m = .pending) : ∀ r ∈ ledger, r.version ≠ m.version := by
  unfold checkLedger at h
  split_ifs at h with hdrift horder happlied
  intro r hr hv
  by_cases heq : r.name = m.name ∧ r.checksum = m.checksum
  · exact happlied (List.any_eq_true.2 ⟨r, hr, by simp [hv, heq]⟩)
  · refine hdrift (List.any_eq_true.2 ⟨r, hr, ?_⟩)
    simp only [hv, beq_self_eq_true, Bool.true_and, Bool.or_eq_true, bne_iff_ne]
    by_contra hboth
    push Not at hboth
    exact heq hboth

/-- **The second check.** A transaction skips a file that is the next entry, executes a file when all
entries come before it, and fails otherwise. -/
lemma checkStage_ok (hledger : ledger.map AppliedMigration.version = List.range' 1 ledger.length)
    (hversions : migrations.map Migration.version = List.range' 1 migrations.length)
    (h : (Stage.locked m rest).Ok ledger migrations) :
    (checkStage ledger m rest).Ok ledger migrations := by
  obtain ⟨before, rfl, hpre⟩ := h
  have hm : m.version = before.length + 1 := version_eq hversions
  unfold checkStage
  cases hfound : checkLedger ledger m with
  | drift | outOfOrder => trivial
  | applied =>
    -- the row of the file is the entry after those of the files before it
    have hat := (getElem?_of_mem hledger (mem_of_applied hfound)).2
    rw [show m.applied.version = m.version from rfl, hm, Nat.add_sub_cancel] at hat
    refine ⟨before, rfl, ?_⟩
    obtain ⟨later, rfl⟩ := hpre
    rw [List.getElem?_append_right (by simp), List.length_map, Nat.sub_self] at hat
    cases later with
    | nil => simp at hat
    | cons q later =>
      obtain rfl : q = m.applied := by simpa using hat
      exact ⟨later, by simp⟩
  | pending =>
    dsimp only
    split_ifs
    · -- the ledger ends before the version
      have hlen : ledger.length ≤ before.length := by
        by_contra hlt
        obtain ⟨r, hr, hv⟩ := exists_version hledger (Nat.lt_of_not_le hlt)
        exact version_ne_of_pending hfound r hr (hv.trans hm.symm)
      refine ⟨before, rfl, hpre.eq_of_length_le ?_⟩
      rwa [List.length_map]
    · trivial

/-- A migrator that has executed a migration has the entries of the ledger up to it. -/
def Ran (ledger : List AppliedMigration) (migrators : List Migrator) (e : ℕ × Migration) : Prop :=
  ∃ g before rest, migrators[e.1]? = some g ∧ g.migrations = before ++ e.2 :: rest ∧
    (before ++ [e.2]).map Migration.applied <+: ledger

variable {s : State} {i : ℕ} {g : Migrator}

lemma Ran.setStage {e : ℕ × Migration} (hget : s.migrators[i]? = some g) (stage : Stage) (h : Ran ledger s.migrators e) :
    Ran ledger (s.setStage i g stage).migrators e := by
  obtain ⟨u, before, rest, hu, hsplit, hpre⟩ := h
  by_cases hi : e.1 = i
  · obtain rfl : u = g := Option.some.inj (hu.symm.trans (hi ▸ hget))
    refine ⟨{ u with stage := stage }, before, rest, ?_, hsplit, hpre⟩
    rw [State.setStage, Rows.getElem?_set_of_some hget, if_pos hi]
  · refine ⟨u, before, rest, ?_, hsplit, hpre⟩
    rw [State.setStage, Rows.getElem?_set_of_some hget, if_neg hi, hu]

lemma Ran.append {migrators : List Migrator} {e : ℕ × Migration}
    (h : Ran ledger migrators e) (r : AppliedMigration) : Ran (ledger ++ [r]) migrators e := by
  obtain ⟨g, before, rest, hget, hsplit, hpre⟩ := h
  exact ⟨g, before, rest, hget, hsplit, hpre.trans (List.prefix_append _ _)⟩

/-! ## The invariant -/

/-- What holds between any two steps of any migrators. -/
structure Inv (sha256 : String → String) (s : State) : Prop where
  contiguous : s.ledger.map AppliedMigration.version = List.range' 1 s.ledger.length
  /-- The entries are the migrations that were executed, in order. -/
  executed : s.executed.map (fun e => e.2.applied) = s.ledger
  versions : ∀ g ∈ s.migrators,
    g.migrations.map Migration.version = List.range' 1 g.migrations.length
  checksums : ∀ g ∈ s.migrators, ∀ m ∈ g.migrations, m.checksum = sha256 m.sql
  stages : ∀ g ∈ s.migrators, g.stage.Ok s.ledger g.migrations
  /-- One transaction at a time has the lock. -/
  exclusive : ∀ (i j : ℕ) (g g' : Migrator), s.migrators[i]? = some g → s.migrators[j]? = some g' →
    g.stage.holds = true → g'.stage.holds = true → i = j
  ran : ∀ e ∈ s.executed, Ran s.ledger s.migrators e

lemma inv_init : Inv sha256 (machine sha256).init := by
  constructor <;> simp [machine]

lemma Inv.start (h : Inv sha256 s)
    (hversions : migrations.map Migration.version = List.range' 1 migrations.length)
    (hsums : ∀ m ∈ migrations, m.checksum = sha256 m.sql) :
    Inv sha256 { s with migrators := s.migrators ++ [⟨migrations, .discovered⟩] } where
  contiguous := h.contiguous
  executed := h.executed
  versions := by
    intro g hg
    rcases List.mem_append.1 hg with hg | hg
    · exact h.versions g hg
    · rw [List.mem_singleton.1 hg]
      exact hversions
  checksums := by
    intro g hg
    rcases List.mem_append.1 hg with hg | hg
    · exact h.checksums g hg
    · rw [List.mem_singleton.1 hg]
      exact hsums
  stages := by
    intro g hg
    rcases List.mem_append.1 hg with hg | hg
    · exact h.stages g hg
    · rw [List.mem_singleton.1 hg]
      trivial
  exclusive := by
    have hold : ∀ {i : ℕ} {g : Migrator}, (s.migrators ++ [⟨migrations, .discovered⟩])[i]? = some g →
        g.stage.holds = true → s.migrators[i]? = some g := by
      intro i g hg hlock
      rcases Rows.getElem?_append_cases hg with hg | ⟨j, -, hg⟩
      · exact hg
      · obtain rfl := List.mem_singleton.1 (List.mem_of_getElem? hg)
        simp [Stage.holds] at hlock
    intro i j g g' hg hg' hlock hlock'
    exact h.exclusive i j g g' (hold hg hlock) (hold hg' hlock') hlock hlock'
  ran := by
    intro e he
    obtain ⟨g, before, rest, hget, hsplit, hpre⟩ := h.ran e he
    exact ⟨g, before, rest, Rows.getElem?_append_of_some _ hget, hsplit, hpre⟩

lemma Inv.setStage (h : Inv sha256 s)
    (hget : s.migrators[i]? = some g) (hok : stage.Ok s.ledger g.migrations)
    (hlock : stage.holds = true → g.stage.holds = true ∨ s.isLocked = false) :
    Inv sha256 (s.setStage i g stage) where
  contiguous := h.contiguous
  executed := h.executed
  versions := by
    intro u hu
    rcases List.mem_or_eq_of_mem_set hu with hu | rfl
    · exact h.versions u hu
    · exact h.versions g (List.mem_of_getElem? hget)
  checksums := by
    intro u hu
    rcases List.mem_or_eq_of_mem_set hu with hu | rfl
    · exact h.checksums u hu
    · exact h.checksums g (List.mem_of_getElem? hget)
  stages := by
    intro u hu
    rcases List.mem_or_eq_of_mem_set hu with hu | rfl
    · exact h.stages u hu
    · exact hok
  exclusive := by
    -- a migrator with the lock had it before, or takes it while nobody has it
    have hothers : ∀ {j : ℕ} {u : Migrator}, stage.holds = true → s.migrators[j]? = some u →
        u.stage.holds = true → j = i := by
      intro j u hstage hu hholds
      rcases hlock hstage with hg | hfree
      · exact h.exclusive j i u g hu hget hholds hg
      · have hlocked : s.isLocked = true := List.any_eq_true.2 ⟨u, List.mem_of_getElem? hu, hholds⟩
        rw [hfree] at hlocked
        exact absurd hlocked Bool.false_ne_true
    intro a b u u' hu hu' hholds hholds'
    rw [State.setStage, Rows.getElem?_set_of_some hget] at hu hu'
    split_ifs at hu hu' with ha hb hb
    · exact ha.trans hb.symm
    · obtain rfl := Option.some.inj hu
      exact ha.trans (hothers hholds hu' hholds').symm
    · obtain rfl := Option.some.inj hu'
      exact (hothers hholds' hu hholds).trans hb.symm
    · exact h.exclusive a b u u' hu hu' hholds hholds'
  ran := fun e he => (h.ran e he).setStage hget stage

lemma Inv.commit (h : Inv sha256 s) (hget : s.migrators[i]? = some g)
    (hg : g.stage = .executing m rest) (hstage : stage = .failed ∨ stage = .applying rest) :
    Inv sha256 { (s.setStage i g stage) with
      ledger := s.ledger ++ [m.applied]
      executed := s.executed ++ [(i, m)] } := by
  have hin : g ∈ s.migrators := List.mem_of_getElem? hget
  have hok : (Stage.executing m rest).Ok s.ledger g.migrations := hg ▸ h.stages g hin
  obtain ⟨before, hsplit, hledger⟩ := hok
  have hm : m.version = s.ledger.length + 1 := by
    have hversions := h.versions g hin
    rw [hsplit] at hversions
    rw [version_eq hversions, ← hledger, List.length_map]
  have hnew : (before ++ [m]).map Migration.applied = s.ledger ++ [m.applied] := by
    rw [List.map_append, hledger, List.map_singleton]
  have hstageOk : stage.Ok (s.ledger ++ [m.applied]) g.migrations := by
    rcases hstage with rfl | rfl
    · trivial
    · refine ⟨before ++ [m], ?_, hnew ▸ List.prefix_rfl⟩
      rw [hsplit, List.append_assoc, List.singleton_append]
  have hfree : stage.holds = false := by
    rcases hstage with rfl | rfl <;> rfl
  have hset : Inv sha256 (s.setStage i g .failed) :=
    h.setStage hget trivial fun hholds => absurd hholds Bool.false_ne_true
  refine ⟨?_, ?_, ?_, ?_, ?_, ?_, ?_⟩
  · rw [List.map_append, h.contiguous, List.length_append, List.length_singleton, List.range'_concat]
    simp [Migration.applied, hm, Nat.add_comm]
  · rw [List.map_append, h.executed, List.map_singleton]
  · intro u hu
    rcases List.mem_or_eq_of_mem_set hu with hu | rfl
    · exact h.versions u hu
    · exact h.versions g hin
  · intro u hu
    rcases List.mem_or_eq_of_mem_set hu with hu | rfl
    · exact h.checksums u hu
    · exact h.checksums g hin
  · -- the others do not have the lock
    intro u hu
    obtain ⟨j, hj⟩ := List.mem_iff_getElem?.1 hu
    rw [State.setStage, Rows.getElem?_set_of_some hget] at hj
    split_ifs at hj with hji
    · obtain rfl := Option.some.inj hj
      exact hstageOk
    · have hlock : u.stage.holds = false := by
        by_contra hholds
        rw [Bool.not_eq_false] at hholds
        exact hji (h.exclusive j i u g hj hget hholds (by rw [hg]; rfl))
      exact (h.stages u (List.mem_of_getElem? hj)).append hlock _
  · intro a b u u' hu hu' hholds hholds'
    rw [State.setStage, Rows.getElem?_set_of_some hget] at hu hu'
    split_ifs at hu hu' with ha hb hb
    · exact ha.trans hb.symm
    · obtain rfl := Option.some.inj hu
      exact absurd (hfree.symm.trans hholds) Bool.false_ne_true
    · obtain rfl := Option.some.inj hu'
      exact absurd (hfree.symm.trans hholds') Bool.false_ne_true
    · exact h.exclusive a b u u' hu hu' hholds hholds'
  · intro e he
    rcases List.mem_append.1 he with he | he
    · exact ((h.ran e he).append _).setStage hget stage
    · rw [List.mem_singleton.1 he]
      refine Ran.setStage hget stage ⟨g, before, rest, hget, hsplit, ?_⟩
      exact hnew ▸ List.prefix_rfl

lemma inv_step {s' : State} {a : Act} (h : Inv sha256 s) (hst : step sha256 s a = some s') :
    Inv sha256 s' := by
  cases a with
  | start files =>
    simp only [step] at hst
    split at hst
    · rename_i migrations hd
      obtain rfl := Option.some.inj hst
      obtain ⟨hversions, hsums⟩ := versions_of_discover hd
      exact h.start hversions hsums
    · exact absurd hst (by simp)
  | plan i =>
    simp only [step] at hst
    split at hst
    · rename_i g hget
      split_ifs at hst
      split at hst
      · rename_i pending hplan
        obtain rfl := Option.some.inj hst
        obtain ⟨before, hsplit, hledger⟩ := split_of_plan h.contiguous hplan
        exact h.setStage hget ⟨before, hsplit, hledger ▸ List.prefix_rfl⟩
          fun hholds => absurd hholds Bool.false_ne_true
      · obtain rfl := Option.some.inj hst
        exact h.setStage hget trivial fun hholds => absurd hholds Bool.false_ne_true
    · exact absurd hst (by simp)
  | lock i =>
    simp only [step] at hst
    split at hst
    · rename_i g hget
      split at hst
      · rename_i m rest hg
        split_ifs at hst with hfree
        obtain rfl := Option.some.inj hst
        have hok : (Stage.applying (m :: rest)).Ok s.ledger g.migrations :=
          hg ▸ h.stages g (List.mem_of_getElem? hget)
        exact h.setStage hget hok fun _ => .inr (by simpa using hfree)
      · exact absurd hst (by simp)
    · exact absurd hst (by simp)
  | check i =>
    simp only [step] at hst
    split at hst
    · rename_i g hget
      split at hst
      · rename_i m rest hg
        obtain rfl := Option.some.inj hst
        have hin := List.mem_of_getElem? hget
        have hok : (Stage.locked m rest).Ok s.ledger g.migrations := hg ▸ h.stages g hin
        exact h.setStage hget (checkStage_ok h.contiguous (h.versions g hin) hok)
          fun _ => .inl (by rw [hg]; rfl)
      · exact absurd hst (by simp)
    · exact absurd hst (by simp)
  | commit i lost =>
    simp only [step] at hst
    split at hst
    · rename_i g hget
      split at hst
      · rename_i m rest hg
        obtain rfl := Option.some.inj hst
        have hok : (Stage.skipping m rest).Ok s.ledger g.migrations :=
          hg ▸ h.stages g (List.mem_of_getElem? hget)
        obtain ⟨before, hsplit, hpre⟩ := hok
        cases lost with
        | true => exact h.setStage hget trivial fun hholds => absurd hholds Bool.false_ne_true
        | false =>
          refine h.setStage hget ⟨before ++ [m], ?_, hpre⟩
            fun hholds => absurd hholds Bool.false_ne_true
          rw [hsplit, List.append_assoc, List.singleton_append]
      · rename_i m rest hg
        obtain rfl := Option.some.inj hst
        cases lost with
        | true => exact h.commit hget hg (.inl rfl)
        | false => exact h.commit hget hg (.inr rfl)
      · exact absurd hst (by simp)
    · exact absurd hst (by simp)
  | finish i =>
    simp only [step] at hst
    split at hst
    · rename_i g hget
      split at hst
      · obtain rfl := Option.some.inj hst
        exact h.setStage hget trivial fun hholds => absurd hholds Bool.false_ne_true
      · exact absurd hst (by simp)
    · exact absurd hst (by simp)
  | fail i =>
    simp only [step] at hst
    split at hst
    · rename_i g hget
      obtain rfl := Option.some.inj hst
      exact h.setStage hget trivial fun hholds => absurd hholds Bool.false_ne_true
    · exact absurd hst (by simp)

theorem inv_reach (h : (machine sha256).Reach s) : Inv sha256 s :=
  h.induct inv_init fun _ _ _ _ hinv hst => inv_step hinv hst

/-! ## What migrators do together -/

lemma Inv.version_lt (h : Inv sha256 s) {before : List Migration}
    (hversion : m.version = before.length + 1)
    (hpre : (before ++ [m]).map Migration.applied <+: s.ledger) {r : AppliedMigration}
    (hr : r ∈ s.ledger) (hmiss : ∀ u ∈ before ++ [m], u.applied ≠ r) : m.version < r.version := by
  by_contra hle
  obtain ⟨hpos, hat⟩ := getElem?_of_mem h.contiguous hr
  obtain ⟨later, hlater⟩ := hpre
  have hin : r.version - 1 < ((before ++ [m]).map Migration.applied).length := by
    simp only [List.length_map, List.length_append, List.length_singleton]
    omega
  rw [← hlater, List.getElem?_append_left hin] at hat
  obtain ⟨u, hu, heq⟩ := List.mem_map.1 (List.mem_of_getElem? hat)
  exact hmiss u hu heq

/-- **The migration ledger.** Whatever migrators of whatever releases run at once, and wherever they fail:
the versions of the ledger are 1 to its length; its entries are the migrations whose SQL was executed, each
once and in order; and a migrator that does not have an entry has executed, and executes, no SQL from the
version of the entry on. -/
theorem ledger_of_reach {s : State} (h : (machine sha256).Reach s) :
    s.ledger.map AppliedMigration.version = List.range' 1 s.ledger.length ∧
    s.executed.map (fun e => e.2.applied) = s.ledger ∧
    (∀ e ∈ s.executed, e.2.checksum = sha256 e.2.sql) ∧
    ∀ (i : ℕ) (g : Migrator), s.migrators[i]? = some g →
      ∀ r ∈ s.ledger, (∀ m ∈ g.migrations, m.applied ≠ r) →
        (∀ m, (i, m) ∈ s.executed → m.version < r.version) ∧
        ∀ m rest, g.stage = .executing m rest → m.version < r.version := by
  have hinv := inv_reach h
  refine ⟨hinv.contiguous, hinv.executed, ?_, ?_⟩
  · intro e he
    obtain ⟨g, before, rest, hget, hsplit, -⟩ := hinv.ran e he
    exact hinv.checksums g (List.mem_of_getElem? hget) e.2 (by rw [hsplit]; simp)
  · intro i g hget r hr hmiss
    have hin : g ∈ s.migrators := List.mem_of_getElem? hget
    refine ⟨?_, ?_⟩
    · intro m hm
      obtain ⟨u, before, rest, hu, hsplit, hpre⟩ := hinv.ran _ hm
      obtain rfl : u = g := Option.some.inj (hu.symm.trans hget)
      have hversions := hinv.versions u hin
      rw [hsplit] at hversions
      refine hinv.version_lt (version_eq hversions) hpre hr fun v hv => hmiss v ?_
      rw [hsplit]
      rcases List.mem_append.1 hv with hv | hv
      · exact List.mem_append_left _ hv
      · exact List.mem_append_right _ (List.mem_cons.2 (.inl (List.mem_singleton.1 hv)))
    · intro m rest hstage
      have hok : (Stage.executing m rest).Ok s.ledger g.migrations := hstage ▸ hinv.stages g hin
      obtain ⟨before, hsplit, hledger⟩ := hok
      rw [← hledger] at hr
      obtain ⟨u, hu, heq⟩ := List.mem_map.1 hr
      exact absurd heq (hmiss u (by rw [hsplit]; exact List.mem_append_left _ hu))

/-- Two releases that share their first file, and their migrators side by side: the second one finds the
first file applied, and another file in place of its own second one. -/
def sideBySide : List Act :=
  [.start [⟨"002_flags.sql", "B"⟩, ⟨"001_base.sql", "A"⟩],
    .start [⟨"001_base.sql", "A"⟩, ⟨"002_runs.sql", "C"⟩],
    .plan 0, .plan 1, .lock 0, .check 0, .commit 0 false, .lock 1, .check 1, .commit 1 false,
    .lock 0, .check 0, .commit 0 true, .lock 1, .check 1]

/-- The second of the two migrators has executed nothing. -/
theorem ledger_of_reach_sideBySide :
    ∃ s, (machine id).Reach s ∧ s.ledger.map AppliedMigration.version = [1, 2] ∧
      ∀ m, (1, m) ∈ s.executed → m.version < 2 := by
  have hrun : ((machine id).run (machine id).init sideBySide).map
      (fun s => (s.ledger, s.migrators[1]?)) =
        some ([⟨1, "001_base.sql", "A"⟩, ⟨2, "002_flags.sql", "B"⟩],
          some ⟨[⟨1, "001_base.sql", "A", "A"⟩, ⟨2, "002_runs.sql", "C", "C"⟩], .failed⟩) := by
    decide +kernel
  obtain ⟨s, hs, heq⟩ := Option.map_eq_some_iff.1 hrun
  have hreach : (machine id).Reach s := StepMachine.reach_of_run hs
  rw [Prod.mk.injEq] at heq
  refine ⟨s, hreach, by rw [heq.1]; rfl, ?_⟩
  have hmiss := (ledger_of_reach hreach).2.2.2 1 _ heq.2 ⟨2, "002_flags.sql", "B"⟩
    (by rw [heq.1]; exact List.mem_cons_of_mem _ List.mem_cons_self) (by decide)
  exact hmiss.1

end Apdl.Pipeline.Postgres
