import Apdl.Config.Outbox.Model

set_option autoImplicit false

/-!
# Order and completeness of config broadcasts

Config rows of one project are broadcast in the order of their ids, and ids are in the order of
the project versions they carry, whatever the transactions, the worker and the operators do.

## Main results

* `broadcasts_in_order` — versions are broadcast in non-decreasing order, no row overtakes an
  earlier one that is never quarantined, and no committed row is lost.
-/

namespace Apdl.Config.Outbox

variable {D : Type}

/-! ## Rows and the log -/

/-- Two states of the same row: the columns no statement writes agree. -/
structure SameRow (r c : Row D) : Prop where
  id : r.id = c.id
  projectId : r.projectId = c.projectId
  kind : r.kind = c.kind
  payload : r.payload = c.payload

namespace SameRow

lemma refl (r : Row D) : SameRow r r := ⟨rfl, rfl, rfl, rfl⟩

lemma trans {a b c : Row D} (h : SameRow a b) (h' : SameRow b c) : SameRow a c :=
  ⟨h.id.trans h'.id, h.projectId.trans h'.projectId, h.kind.trans h'.kind,
    h.payload.trans h'.payload⟩

lemma isConfig {r c : Row D} (h : SameRow r c) : r.isConfig = c.isConfig := by
  simp only [Row.isConfig, h.kind]

lemma version {r c : Row D} (h : SameRow r c) : r.version = c.version := by
  simp only [Row.version, h.payload]

end SameRow

lemma Row.isConfig_of_exposure {r : Row D} (h : r.kind = .exposure) : r.isConfig = false := by
  simp [Row.isConfig, h, Kind.isConfig]

/-- The ids of the rows broadcast so far. -/
def Sys.deliveredIds (s : Sys D) : List ℕ := s.broadcasts.map Broadcast.rowId

lemma Row.closed_iff {r : Row D} :
    r.isOpen = false ↔ r.processedAt.isSome ∨ r.quarantinedAt.isSome := by
  cases hp : r.processedAt <;> cases hq : r.quarantinedAt <;> simp [Row.isOpen, hp, hq]

/-! ## The transactions -/

/-- The rows that exist: committed, or inserted by an open transaction. -/
def Sys.Known (s : Sys D) (r : Row D) : Prop :=
  r ∈ s.committed ∨ ∃ tid t, s.txns tid = some t ∧ r ∈ t.rows

/-- What holds of an open transaction: it holds the counter once it has a version, the version
is the next one, and its rows are new config rows of that version above every committed one. -/
structure TxnOk (s : Sys D) (tid : ℕ) (t : Txn D) : Prop where
  lock : t.version.isSome → s.db.versionLock t.projectId = some tid
  next : ∀ v, t.version = some v → v = s.db.versions t.projectId + 1
  row_project : ∀ r ∈ t.rows, r.projectId = t.projectId
  row_open : ∀ r ∈ t.rows, r.isOpen
  row_version : ∀ r ∈ t.rows, r.isConfig → t.version = some r.version
  above : ∀ r ∈ t.rows, r.isConfig → ∀ c ∈ s.committed, c.isConfig →
    c.projectId = t.projectId → c.id < r.id

/-- The invariant of ids, versions and the counter lock. -/
structure Ledger (s : Sys D) : Prop where
  known_lt : ∀ r, s.Known r → r.id < s.db.nextId
  known_inj : ∀ r r', s.Known r → s.Known r' → r.id = r'.id → r = r'
  txn : ∀ tid t, s.txns tid = some t → TxnOk s tid t
  committed_le : ∀ c ∈ s.committed, c.isConfig → c.version ≤ s.db.versions c.projectId
  committed_mono : ∀ c ∈ s.committed, ∀ c' ∈ s.committed, c.isConfig → c'.isConfig →
    c.projectId = c'.projectId → c.id < c'.id → c.version ≤ c'.version

lemma Sys.setTxn_cases {s : Sys D} {tid tid' : ℕ} {x : Option (Txn D)} {t : Txn D}
    (h : (s.setTxn tid x).txns tid' = some t) :
    (tid' = tid ∧ x = some t) ∨ (tid' ≠ tid ∧ s.txns tid' = some t) := by
  unfold Sys.setTxn at h
  by_cases heq : tid' = tid
  · subst heq
    left
    exact ⟨rfl, by simpa using h⟩
  · right
    exact ⟨heq, by simpa [Function.update_of_ne heq] using h⟩

namespace Ledger

lemma congr {s s' : Sys D} (h : Ledger s) (ht : s'.txns = s.txns)
    (hc : s'.committed = s.committed) (hv : s'.db.versions = s.db.versions)
    (hl : s'.db.versionLock = s.db.versionLock) (hn : s'.db.nextId = s.db.nextId) : Ledger s' := by
  have hk : ∀ r, s'.Known r ↔ s.Known r := by
    intro r
    simp only [Sys.Known, ht, hc]
  refine ⟨?_, ?_, ?_, ?_, ?_⟩
  · exact fun r hr => hn ▸ h.known_lt r ((hk r).1 hr)
  · exact fun r r' hr hr' => h.known_inj r r' ((hk r).1 hr) ((hk r').1 hr')
  · intro tid t htid
    obtain ⟨h1, h2, h3, h4, h5, h6⟩ := h.txn tid t (ht ▸ htid)
    exact ⟨hl ▸ h1, hv ▸ h2, h3, h4, h5, hc ▸ h6⟩
  · rw [hc, hv]
    exact h.committed_le
  · rw [hc]
    exact h.committed_mono

lemma initial : Ledger (initial : Sys D) := by
  constructor <;> simp [Outbox.initial, Sys.Known]

variable {tid : ℕ}

lemma lock_unique {s : Sys D} (h : Ledger s) {tid' : ℕ} {t t' : Txn D}
    (ht : s.txns tid = some t) (ht' : s.txns tid' = some t') (hp : t.projectId = t'.projectId)
    (hv : t.version.isSome) (hv' : t'.version.isSome) : tid = tid' := by
  have h1 := (h.txn tid t ht).lock hv
  have h2 := (h.txn tid' t' ht').lock hv'
  rw [hp, h2] at h1
  simpa using h1.symm

lemma known_setTxn {s : Sys D} {x : Option (Txn D)}
    (hx : ∀ t, x = some t → ∀ r ∈ t.rows, s.Known r) {r : Row D}
    (hr : (s.setTxn tid x).Known r) : s.Known r := by
  rcases hr with hr | ⟨tid', t, ht, hr⟩
  · exact .inl hr
  · rcases Sys.setTxn_cases ht with ⟨-, heq⟩ | ⟨-, ht⟩
    · exact hx t heq r hr
    · exact .inr ⟨tid', t, ht, hr⟩

lemma begin {s : Sys D} (h : Ledger s) (tid : ℕ) (p : String) :
    Ledger (s.setTxn tid (some ⟨p, s.now, none, []⟩)) := by
  have hk : ∀ r, (s.setTxn tid (some ⟨p, s.now, none, []⟩)).Known r → s.Known r := by
    refine fun r hr => known_setTxn ?_ hr
    intro t heq r hr
    cases heq
    simp at hr
  refine ⟨?_, ?_, ?_, h.committed_le, h.committed_mono⟩
  · exact fun r hr => h.known_lt r (hk r hr)
  · exact fun r r' hr hr' => h.known_inj r r' (hk r hr) (hk r' hr')
  · intro tid' t ht
    rcases Sys.setTxn_cases ht with ⟨-, heq⟩ | ⟨-, ht⟩
    · cases heq
      constructor <;> simp
    · obtain ⟨h1, h2, h3, h4, h5, h6⟩ := h.txn tid' t ht
      exact ⟨h1, h2, h3, h4, h5, h6⟩

lemma allocate {s s' : Sys D} (h : Ledger s) (hs : s.allocate tid = some s') :
    Ledger s' := by
  unfold Sys.allocate at hs
  split at hs
  · cases hs
  rename_i t ht
  split at hs
  · cases hs
  rename_i hfree
  simp only [Bool.or_eq_true, not_or, Bool.not_eq_true, Option.isSome_eq_false_iff,
    Option.isNone_iff_eq_none] at hfree
  obtain ⟨hver, hlock⟩ := hfree
  cases hs
  have hold := h.txn tid t ht
  -- without a version the transaction has inserted exposures only
  have hnocfg : ∀ r ∈ t.rows, r.isConfig = false := by
    intro r hr
    by_contra hcfg
    have := hold.row_version r hr (by simpa using hcfg)
    simp [hver] at this
  have hk : ∀ r, (s.setTxn tid
      (some { t with version := some (s.db.versions t.projectId + 1) })).Known r → s.Known r := by
    refine fun r hr => known_setTxn ?_ hr
    intro t' heq r hr
    cases heq
    exact .inr ⟨tid, t, ht, hr⟩
  refine ⟨?_, ?_, ?_, h.committed_le, h.committed_mono⟩
  · exact fun r hr => h.known_lt r (hk r hr)
  · exact fun r r' hr hr' => h.known_inj r r' (hk r hr) (hk r' hr')
  · intro tid' t' ht'
    rcases Sys.setTxn_cases ht' with ⟨rfl, heq⟩ | ⟨hne, ht'⟩
    · cases heq
      refine ⟨?_, ?_, hold.row_project, hold.row_open, ?_, hold.above⟩
      · simp
      · simp
      · intro r hr hcfg
        simp [hnocfg r hr] at hcfg
    · obtain ⟨h1, h2, h3, h4, h5, h6⟩ := h.txn tid' t' ht'
      refine ⟨?_, h2, h3, h4, h5, h6⟩
      intro hv
      have hp : t'.projectId ≠ t.projectId := by
        intro hp
        have := h1 hv
        simp [hp, hlock] at this
      simpa [Function.update_of_ne hp] using h1 hv

lemma insertRow {s : Sys D} (h : Ledger s) {t : Txn D} (ht : s.txns tid = some t)
    (kind : Kind) (dedupKey : String) (payload : Payload D)
    (hcfg : kind.isConfig → t.version = some payload.version) :
    Ledger (s.insertRow tid t kind dedupKey payload) := by
  set r₀ := insertOutbox s.db.nextId t.startedAt t.projectId kind dedupKey payload with hr₀
  have hk : ∀ r, (s.insertRow tid t kind dedupKey payload).Known r → s.Known r ∨ r = r₀ := by
    rintro r (hr | ⟨tid', t', ht', hr⟩)
    · exact .inl (.inl hr)
    · rcases Sys.setTxn_cases ht' with ⟨-, heq⟩ | ⟨-, ht'⟩
      · cases heq
        rcases List.mem_append.1 hr with hr | hr
        · exact .inl (.inr ⟨tid, t, ht, hr⟩)
        · exact .inr (by simpa using hr)
      · exact .inl (.inr ⟨tid', t', ht', hr⟩)
  have hold := h.txn tid t ht
  refine ⟨?_, ?_, ?_, h.committed_le, h.committed_mono⟩
  · intro r hr
    rcases hk r hr with hr | rfl
    · exact Nat.lt_succ_of_lt (h.known_lt r hr)
    · exact Nat.lt_succ_self _
  · intro r r' hr hr' hid
    rcases hk r hr with hr | rfl <;> rcases hk r' hr' with hr' | rfl
    · exact h.known_inj r r' hr hr' hid
    · have := h.known_lt r hr
      simp only [hr₀, insertOutbox] at hid
      omega
    · have := h.known_lt r' hr'
      simp only [hr₀, insertOutbox] at hid
      omega
    · rfl
  · intro tid' t' ht'
    rcases Sys.setTxn_cases ht' with ⟨rfl, heq⟩ | ⟨-, ht'⟩
    · cases heq
      refine ⟨hold.lock, hold.next, ?_, ?_, ?_, ?_⟩ <;> intro r hr <;>
        rcases List.mem_append.1 hr with hr | hr
      · exact hold.row_project r hr
      · simp only [List.mem_singleton] at hr
        subst hr
        rfl
      · exact hold.row_open r hr
      · simp only [List.mem_singleton] at hr
        subst hr
        rfl
      · exact hold.row_version r hr
      · simp only [List.mem_singleton] at hr
        subst hr
        exact hcfg
      · exact hold.above r hr
      · simp only [List.mem_singleton] at hr
        subst hr
        intro _ c hc _ _
        exact h.known_lt c (.inl hc)
    · obtain ⟨h1, h2, h3, h4, h5, h6⟩ := h.txn tid' t' ht'
      exact ⟨h1, h2, h3, h4, h5, h6⟩

lemma releaseLock_other {s : Sys D} (h : Ledger s) {tid' : ℕ} {t t' : Txn D}
    (ht' : s.txns tid' = some t') (hne : tid' ≠ tid) (hv : t'.version.isSome) :
    releaseLock s.db.versionLock tid t.projectId t'.projectId = some tid' := by
  have hl := (h.txn tid' t' ht').lock hv
  unfold releaseLock
  split
  · rename_i htid
    have hp : t'.projectId ≠ t.projectId := by
      intro hp
      rw [hp, htid] at hl
      simp only [Option.some.injEq] at hl
      exact hne hl.symm
    simpa [Function.update_of_ne hp] using hl
  · exact hl

lemma rollback {s s' : Sys D} (h : Ledger s) (hs : s.rollback tid = some s') :
    Ledger s' := by
  unfold Sys.rollback at hs
  obtain ⟨t, ht, rfl⟩ := Option.map_eq_some_iff.1 hs
  have hk : ∀ r, (s.setTxn tid none).Known r → s.Known r :=
    fun r hr => known_setTxn (by simp) hr
  refine ⟨?_, ?_, ?_, h.committed_le, h.committed_mono⟩
  · exact fun r hr => h.known_lt r (hk r hr)
  · exact fun r r' hr hr' => h.known_inj r r' (hk r hr) (hk r' hr')
  · intro tid' t' ht'
    rcases Sys.setTxn_cases ht' with ⟨-, heq⟩ | ⟨hne, ht'⟩
    · cases heq
    · obtain ⟨h1, h2, h3, h4, h5, h6⟩ := h.txn tid' t' ht'
      exact ⟨fun hv => h.releaseLock_other ht' hne hv, h2, h3, h4, h5, h6⟩

lemma versions_le {s : Sys D} (h : Ledger s) {t : Txn D} (ht : s.txns tid = some t)
    (p : String) : s.db.versions p ≤ t.commitVersions s.db.versions p := by
  unfold Txn.commitVersions
  cases hv : t.version with
  | none => exact le_rfl
  | some v =>
    by_cases hp : p = t.projectId
    · subst hp
      have := (h.txn tid t ht).next v hv
      simp [this]
    · simp [Function.update_of_ne hp]

lemma version_le_commit {s : Sys D} (h : Ledger s) {t : Txn D}
    (ht : s.txns tid = some t) {r : Row D} (hr : r ∈ t.rows) (hcfg : r.isConfig) :
    r.version ≤ t.commitVersions s.db.versions r.projectId := by
  have hok := h.txn tid t ht
  have hv := hok.row_version r hr hcfg
  simp [Txn.commitVersions, hv, hok.row_project r hr]

lemma committed_lt_txn {s : Sys D} (h : Ledger s) {t : Txn D} (ht : s.txns tid = some t)
    {r : Row D} (hr : r ∈ t.rows) (hcfg : r.isConfig) {c : Row D} (hc : c ∈ s.committed)
    (hccfg : c.isConfig) (hp : c.projectId = r.projectId) : c.version < r.version := by
  have hok := h.txn tid t ht
  have hnext := hok.next _ (hok.row_version r hr hcfg)
  have hle := h.committed_le c hc hccfg
  rw [hp, hok.row_project r hr] at hle
  omega

lemma commit {s s' : Sys D} (h : Ledger s) (hs : s.commit tid = some s') :
    Ledger s' := by
  unfold Sys.commit at hs
  obtain ⟨t, ht, rfl⟩ := Option.map_eq_some_iff.1 hs
  have hok := h.txn tid t ht
  have hk : ∀ r, r ∈ s.committed ++ t.rows ∨
      (∃ tid' t', (s.setTxn tid none).txns tid' = some t' ∧ r ∈ t'.rows) → s.Known r := by
    rintro r (hr | ⟨tid', t', ht', hr⟩)
    · rcases List.mem_append.1 hr with hr | hr
      · exact .inl hr
      · exact .inr ⟨tid, t, ht, hr⟩
    · rcases Sys.setTxn_cases ht' with ⟨-, heq⟩ | ⟨-, ht'⟩
      · cases heq
      · exact .inr ⟨tid', t', ht', hr⟩
  refine ⟨?_, ?_, ?_, ?_, ?_⟩
  · exact fun r hr => h.known_lt r (hk r hr)
  · exact fun r r' hr hr' => h.known_inj r r' (hk r hr) (hk r' hr')
  · intro tid' t' ht'
    rcases Sys.setTxn_cases ht' with ⟨-, heq⟩ | ⟨hne, ht'⟩
    · cases heq
    · have hok' := h.txn tid' t' ht'
      -- both transactions cannot have a version if they are of one project
      have hother : t'.version.isSome → t.version.isSome → t'.projectId ≠ t.projectId :=
        fun hv' hv hp => hne (h.lock_unique ht' ht hp hv' hv)
      refine ⟨fun hv => h.releaseLock_other ht' hne hv, ?_, hok'.row_project, hok'.row_open,
        hok'.row_version, ?_⟩
      · intro v hv
        have hnext := hok'.next v hv
        change v = t.commitVersions s.db.versions t'.projectId + 1
        unfold Txn.commitVersions
        cases htv : t.version with
        | none => exact hnext
        | some w =>
          have hp := hother (by simp [hv]) (by simp [htv])
          simpa [Function.update_of_ne hp] using hnext
      · intro r hr hcfg c hc hccfg hp
        rcases List.mem_append.1 hc with hc | hc
        · exact hok'.above r hr hcfg c hc hccfg hp
        · have hv' := hok'.row_version r hr hcfg
          have hv := hok.row_version c hc hccfg
          rw [hok.row_project c hc] at hp
          exact absurd hp.symm (hother (by simp [hv']) (by simp [hv]))
  · intro c hc hcfg
    rcases List.mem_append.1 hc with hc | hc
    · exact (h.committed_le c hc hcfg).trans (h.versions_le ht c.projectId)
    · exact h.version_le_commit ht hc hcfg
  · intro c hc c' hc' hcfg hcfg' hp hlt
    rcases List.mem_append.1 hc with hc | hc <;> rcases List.mem_append.1 hc' with hc' | hc'
    · exact h.committed_mono c hc c' hc' hcfg hcfg' hp hlt
    · exact (h.committed_lt_txn ht hc' hcfg' hc hcfg hp).le
    · have := hok.above c hc hcfg c' hc' hcfg' (by rw [← hp, hok.row_project c hc])
      omega
    · have hv := hok.row_version c hc hcfg
      have hv' := hok.row_version c' hc' hcfg'
      rw [hv] at hv'
      simp only [Option.some.injEq] at hv'
      exact hv'.le

lemma crash {s : Sys D} (h : Ledger s) : Ledger s.crash := by
  have hk : ∀ r, s.crash.Known r → s.Known r := by
    rintro r (hr | ⟨tid, t, ht, -⟩)
    · exact .inl hr
    · simp [Sys.crash] at ht
  refine ⟨?_, ?_, ?_, h.committed_le, h.committed_mono⟩
  · exact fun r hr => h.known_lt r (hk r hr)
  · exact fun r r' hr hr' => h.known_inj r r' (hk r hr) (hk r' hr')
  · intro tid t ht
    simp [Sys.crash] at ht

lemma setRows {s : Sys D} (h : Ledger s) (rows : List (Row D)) : Ledger (s.setRows rows) :=
  h.congr rfl rfl rfl rfl rfl

theorem step {eventError : D → Option String} {s s' : Sys D} {a : Act D} (h : Ledger s)
    (hs : Outbox.step eventError s a = some s') : Ledger s' := by
  cases a with
  | tick n =>
    cases hs
    exact h.congr rfl rfl rfl rfl rfl
  | begin tid p =>
    simp only [Outbox.step] at hs
    split at hs
    · cases hs
      exact h.begin tid p
    · cases hs
  | allocate tid => exact h.allocate hs
  | insertConfig tid kind key data =>
    simp only [Outbox.step, Sys.insertConfig] at hs
    split at hs
    · cases hs
    rename_i t ht
    split at hs
    · cases hs
    rename_i v hv
    cases hs
    exact h.insertRow ht _ _ _ fun _ => hv
  | insertExposure tid messageId streamKey event =>
    simp only [Outbox.step, Sys.insertExposure] at hs
    obtain ⟨t, ht, rfl⟩ := Option.map_eq_some_iff.1 hs
    exact h.insertRow ht _ _ _ (by simp [Kind.isConfig])
  | commit tid => exact h.commit hs
  | rollback tid => exact h.rollback hs
  | claim replied =>
    simp only [Outbox.step, Sys.claim] at hs
    split at hs
    · obtain ⟨x, -, rfl⟩ := Option.map_eq_some_iff.1 hs
      exact h.congr rfl rfl rfl rfl rfl
    · cases hs
  | deliver redis =>
    simp only [Outbox.step, Sys.deliver] at hs
    split at hs
    · split at hs <;> cases hs <;> exact h.congr rfl rfl rfl rfl rfl
    · cases hs
  | settle applied =>
    simp only [Outbox.step, Sys.settle] at hs
    split at hs
    · split at hs <;> cases hs <;> exact h.congr rfl rfl rfl rfl rfl
    · cases hs
  | crash =>
    cases hs
    exact h.crash
  | sweep =>
    cases hs
    exact h.setRows _
  | cleanup =>
    cases hs
    exact h.setRows _
  | resolve p rowId action =>
    simp only [Outbox.step] at hs
    obtain ⟨rows, -, rfl⟩ := Option.map_eq_some_iff.1 hs
    exact h.setRows rows

end Ledger

/-! ## The table, the worker and the log -/

/-- A committed config row that is accounted for without being in the table: it was broadcast,
or it was quarantined. -/
def Sys.Done (s : Sys D) (id : ℕ) : Prop := id ∈ s.deliveredIds ∨ id ∈ s.everQuarantined

/-- A row value in the worker's hands is a state of a committed row. -/
def Sys.Sourced (s : Sys D) (w : Row D) : Prop := ∃ c ∈ s.committed, SameRow w c

/-- What the claim of a config row guarantees until its delivery: the row is at or below every
open config row of the project, at or above every broadcast one, and the committed ones below it
are done. -/
structure Front (s : Sys D) (w : Row D) : Prop where
  le_open : ∀ r ∈ s.db.rows, r.isConfig → r.isOpen → r.projectId = w.projectId → w.id ≤ r.id
  above : ∀ b ∈ s.broadcasts, b.projectId = w.projectId → b.rowId ≤ w.id
  earlier : ∀ c ∈ s.committed, c.isConfig → c.projectId = w.projectId → c.id < w.id → s.Done c.id

/-- What holds of the worker's state. -/
def WorkerOk (s : Sys D) : Worker D → Prop
  | .idle => True
  | .claimed w => s.Sourced w ∧ (w.isConfig → Front s w)
  | .delivered w result =>
    s.Sourced w ∧ (result = .ok () → w.isConfig → w.id ∈ s.deliveredIds)

/-- The invariant of the table, the worker and the broadcasts. -/
structure Lane (s : Sys D) : Prop where
  row_committed : ∀ r ∈ s.db.rows, s.Sourced r
  kept : ∀ c ∈ s.committed, c.isConfig → (∃ r ∈ s.db.rows, SameRow r c) ∨ s.Done c.id
  processed : ∀ r ∈ s.db.rows, r.isConfig → r.processedAt.isSome → r.id ∈ s.deliveredIds
  quarantined : ∀ r ∈ s.db.rows, r.quarantinedAt.isSome → r.id ∈ s.everQuarantined
  worker : WorkerOk s s.worker
  log_front : ∀ b ∈ s.broadcasts, ∀ r ∈ s.db.rows, r.isConfig → r.isOpen →
    r.projectId = b.projectId → b.rowId ≤ r.id
  log_source : ∀ b ∈ s.broadcasts, ∃ c ∈ s.committed, c.isConfig ∧ c.id = b.rowId ∧
    c.projectId = b.projectId ∧ c.version = b.projectVersion
  log_sorted : s.broadcasts.Pairwise fun b b' => b.projectId = b'.projectId → b.rowId ≤ b'.rowId
  log_earlier : ∀ i b, s.broadcasts[i]? = some b → ∀ c ∈ s.committed, c.isConfig →
    c.projectId = b.projectId → c.id < b.rowId →
    c.id ∈ (s.broadcasts.take i).map Broadcast.rowId ∨ c.id ∈ s.everQuarantined

namespace Lane

lemma congr {s s' : Sys D} (h : Lane s) (hr : s'.db.rows = s.db.rows) (hw : s'.worker = s.worker)
    (hb : s'.broadcasts = s.broadcasts) (hc : s'.committed = s.committed)
    (hq : s'.everQuarantined = s.everQuarantined) : Lane s' := by
  obtain ⟨now, ⟨rows, versions, lock, nextId⟩, txns, worker, broadcasts, committed, ever⟩ := s
  obtain ⟨now', ⟨rows', versions', lock', nextId'⟩, txns', worker', broadcasts', committed',
    ever'⟩ := s'
  simp only at hr hw hb hc hq
  subst hr hw hb hc hq
  obtain ⟨h1, h2, h3, h4, h5, h6, h7, h8, h9⟩ := h
  refine ⟨h1, h2, h3, h4, ?_, h6, h7, h8, h9⟩
  cases worker' with
  | idle => trivial
  | claimed w => exact ⟨h5.1, fun hw => ⟨(h5.2 hw).1, (h5.2 hw).2, (h5.2 hw).3⟩⟩
  | delivered w result => exact h5

lemma initial : Lane (initial : Sys D) := by
  constructor <;> simp [Outbox.initial, WorkerOk]

lemma setWorker {s : Sys D} (h : Lane s) {w : Worker D} (hw : WorkerOk s w) :
    Lane { s with worker := w } := by
  obtain ⟨h1, h2, h3, h4, -, h6, h7, h8, h9⟩ := h
  refine ⟨h1, h2, h3, h4, ?_, h6, h7, h8, h9⟩
  cases w with
  | idle => trivial
  | claimed w => exact ⟨hw.1, fun hc => ⟨(hw.2 hc).1, (hw.2 hc).2, (hw.2 hc).3⟩⟩
  | delivered w result => exact hw

/-- How a statement may change a row: the fixed columns stay, a closed config row does not open
again, and a config row becomes processed only once it was broadcast. -/
structure Evolves (s : Sys D) (r' r : Row D) : Prop where
  same : SameRow r' r
  not_reopened : r'.isConfig → r'.isOpen → r.isOpen
  processed : r'.isConfig → r'.processedAt.isSome → r.processedAt.isSome ∨ r'.id ∈ s.deliveredIds

lemma setRows {s : Sys D} (h : Lane s) {rows : List (Row D)}
    (hsub : ∀ r' ∈ rows, ∃ r ∈ s.db.rows, Evolves s r' r)
    (hkept : ∀ r ∈ s.db.rows, r.isConfig → (∃ r' ∈ rows, SameRow r' r) ∨ s.Done r.id) :
    Lane (s.setRows rows) := by
  have hopen : ∀ r' ∈ rows, r'.isConfig → r'.isOpen → ∃ r ∈ s.db.rows, r.isConfig ∧ r.isOpen ∧
      r.projectId = r'.projectId ∧ r.id = r'.id := by
    intro r' hr' hcfg hop
    obtain ⟨r, hr, hev⟩ := hsub r' hr'
    exact ⟨r, hr, hev.same.isConfig ▸ hcfg, hev.not_reopened hcfg hop, hev.same.projectId.symm,
      hev.same.id.symm⟩
  have hdone : ∀ id, s.Done id → (s.setRows rows).Done id := by
    rintro id (hid | hid)
    · exact .inl hid
    · exact .inr (List.mem_append_left _ hid)
  refine ⟨?_, ?_, ?_, ?_, ?_, ?_, h.log_source, h.log_sorted, ?_⟩
  · intro r' hr'
    obtain ⟨r, hr, hev⟩ := hsub r' hr'
    obtain ⟨c, hc, hsame⟩ := h.row_committed r hr
    exact ⟨c, hc, hev.same.trans hsame⟩
  · intro c hc hcfg
    rcases h.kept c hc hcfg with ⟨r, hr, hsame⟩ | hd
    · rcases hkept r hr (hsame.isConfig ▸ hcfg) with ⟨r', hr', hsame'⟩ | hd
      · exact .inl ⟨r', hr', hsame'.trans hsame⟩
      · exact .inr (hdone _ (hsame.id ▸ hd))
    · exact .inr (hdone _ hd)
  · intro r' hr' hcfg hproc
    obtain ⟨r, hr, hev⟩ := hsub r' hr'
    rcases hev.processed hcfg hproc with hp | hd
    · rw [hev.same.id]
      exact h.processed r hr (hev.same.isConfig ▸ hcfg) hp
    · exact hd
  · intro r' hr' hq
    refine List.mem_append_right _ (List.mem_map.2 ⟨r', ?_, rfl⟩)
    exact List.mem_filter.2 ⟨hr', hq⟩
  · have hw := h.worker
    change WorkerOk (s.setRows rows) s.worker
    cases hwk : s.worker with
    | idle => trivial
    | claimed w =>
      rw [hwk] at hw
      refine ⟨hw.1, fun hcfg => ⟨?_, (hw.2 hcfg).above, ?_⟩⟩
      · intro r' hr' hcfg' hop hp
        obtain ⟨r, hr, hrc, hro, hrp, hid⟩ := hopen r' hr' hcfg' hop
        have := (hw.2 hcfg).le_open r hr hrc hro (hrp.trans hp)
        omega
      · exact fun c hc hcc hp hlt => hdone _ ((hw.2 hcfg).earlier c hc hcc hp hlt)
    | delivered w result =>
      rw [hwk] at hw
      exact hw
  · intro b hb r' hr' hcfg hop hp
    obtain ⟨r, hr, hrc, hro, hrp, hid⟩ := hopen r' hr' hcfg hop
    have := h.log_front b hb r hr hrc hro (hrp.trans hp)
    omega
  · intro i b hb c hc hcfg hp hlt
    rcases h.log_earlier i b hb c hc hcfg hp hlt with hd | hq
    · exact .inl hd
    · exact .inr (List.mem_append_left _ hq)

lemma updateWhere {s : Sys D} (h : Lane s) {p : Row D → Bool} {f : Row D → Row D}
    (hf : ∀ r ∈ s.db.rows, p r → Evolves s (f r) r) :
    Lane (s.setRows (Outbox.updateWhere s.db.rows p f)) := by
  have hev : ∀ r ∈ s.db.rows, Evolves s (if p r then f r else r) r := by
    intro r hr
    split
    · exact hf r hr ‹_›
    · exact ⟨.refl r, fun _ ho => ho, fun _ hp => .inl hp⟩
  refine h.setRows ?_ ?_
  · intro r' hr'
    obtain ⟨r, hr, rfl⟩ := List.mem_map.1 hr'
    exact ⟨r, hr, hev r hr⟩
  · intro r hr _
    exact .inl ⟨_, List.mem_map.2 ⟨r, hr, rfl⟩, (hev r hr).same⟩

lemma filter {s : Sys D} (h : Lane s) {q : Row D → Bool}
    (hq : ∀ r ∈ s.db.rows, r.isConfig → q r = false → s.Done r.id) :
    Lane (s.setRows (s.db.rows.filter q)) := by
  refine h.setRows ?_ ?_
  · intro r hr
    exact ⟨r, (List.mem_filter.1 hr).1, .refl r, fun _ ho => ho, fun _ hp => .inl hp⟩
  · intro r hr hcfg
    by_cases hqr : q r
    · exact .inl ⟨r, List.mem_filter.2 ⟨hr, hqr⟩, .refl r⟩
    · exact .inr (hq r hr hcfg (by simpa using hqr))

lemma same_of_id {s : Sys D} (hl : Ledger s) {r w : Row D} (hr : s.Sourced r) (hw : s.Sourced w)
    (hid : r.id = w.id) : SameRow r w := by
  obtain ⟨c, hc, hrc⟩ := hr
  obtain ⟨c', hc', hwc⟩ := hw
  have heq : c = c' :=
    hl.known_inj c c' (.inl hc) (.inl hc') (by rw [← hrc.id, hid, hwc.id])
  subst heq
  exact ⟨hid, hrc.projectId.trans hwc.projectId.symm, hrc.kind.trans hwc.kind.symm,
    hrc.payload.trans hwc.payload.symm⟩

lemma pruneBy_done {s : Sys D} (hl : Ledger s) (h : Lane s) {terminalAt : Row D → Option ℕ}
    (ht : ∀ r ∈ s.db.rows, r.isConfig → (terminalAt r).isSome → s.Done r.id)
    {rows : List (Row D)} (hsub : ∀ r ∈ rows, r ∈ s.db.rows) (retention now : ℕ) :
    ∀ r ∈ rows, r.isConfig → r ∉ pruneBy terminalAt retention now rows → s.Done r.id := by
  intro r hr hcfg hout
  simp only [pruneBy, List.mem_filter, hr, true_and, Bool.not_eq_true', Bool.not_eq_false,
    List.any_eq_true, decide_eq_true_eq] at hout
  obtain ⟨b, hb, hid⟩ := hout
  have hb' := (List.mem_mergeSort.1 (List.mem_of_mem_take hb))
  obtain ⟨hbm, hbt⟩ := List.mem_filter.1 hb'
  have hsame := same_of_id hl (h.row_committed b (hsub b hbm)) (h.row_committed r (hsub r hr)) hid
  rw [← hid]
  refine ht b (hsub b hbm) (hsame.isConfig ▸ hcfg) ?_
  cases hterm : terminalAt b with
  | none => simp [hterm] at hbt
  | some _ => rfl

lemma cleanup {s : Sys D} (hl : Ledger s) (h : Lane s) :
    Lane (s.setRows (cleanupOnce s.now s.db.rows)) := by
  have hproc : ∀ r ∈ s.db.rows, r.isConfig → r.processedAt.isSome → s.Done r.id :=
    fun r hr hcfg hp => .inl (h.processed r hr hcfg hp)
  have hquar : ∀ r ∈ s.db.rows, r.isConfig → r.quarantinedAt.isSome → s.Done r.id :=
    fun r hr _ hq => .inr (h.quarantined r hr hq)
  have hsub : ∀ r ∈ pruneBy Row.processedAt processedRetentionSeconds s.now s.db.rows,
      r ∈ s.db.rows := fun r hr => (List.mem_filter.1 hr).1
  refine h.setRows ?_ ?_
  · intro r hr
    exact ⟨r, hsub r (List.mem_filter.1 hr).1, .refl r, fun _ ho => ho, fun _ hp => .inl hp⟩
  · intro r hr hcfg
    by_cases h1 : r ∈ pruneBy Row.processedAt processedRetentionSeconds s.now s.db.rows
    · by_cases h2 : r ∈ cleanupOnce s.now s.db.rows
      · exact .inl ⟨r, h2, .refl r⟩
      · exact .inr (pruneBy_done hl h hquar hsub _ _ r h1 hcfg h2)
    · exact .inr (pruneBy_done hl h hproc (fun _ hr => hr) _ _ r hr hcfg h1)

lemma sweep {s : Sys D} (h : Lane s) : Lane (s.setRows (quarantineExhausted s.now s.db.rows)) := by
  refine h.updateWhere fun r _ _ => ⟨⟨rfl, rfl, rfl, rfl⟩, ?_, fun _ hp => .inl hp⟩
  intro _ hop
  simp [Row.isOpen] at hop

lemma resolve {s : Sys D} (hl : Ledger s) (h : Lane s) {p : String} {rowId : ℕ}
    {action : Resolution} {rows : List (Row D)}
    (hr : resolveQuarantined s.now s.db.rows p rowId action = some rows) : Lane (s.setRows rows) := by
  unfold resolveQuarantined at hr
  split at hr
  · cases hr
  rename_i row hrow
  have hmem := List.mem_of_find?_eq_some hrow
  have hfound := List.find?_some hrow
  cases action with
  | replay =>
    simp only at hr
    split at hr
    · rename_i hkind
      cases hr
      refine h.updateWhere fun r hmr hpr => ?_
      -- every row the statement updates is the exposure that was found
      have hid : r.id = row.id := by
        simp only [isQuarantinedRow, Bool.and_eq_true, decide_eq_true_eq] at hpr hfound
        rw [hpr.1.1, hfound.1.1]
      have hsame := same_of_id hl (h.row_committed r hmr) (h.row_committed row hmem) hid
      have hcfg : r.isConfig = false := Row.isConfig_of_exposure (hsame.kind.trans hkind)
      refine ⟨⟨rfl, rfl, rfl, rfl⟩, fun hc => ?_, fun hc => ?_⟩
      · exact absurd hc (by simpa [Row.isConfig] using hcfg)
      · exact absurd hc (by simpa [Row.isConfig] using hcfg)
    · cases hr
  | discard =>
    cases hr
    refine h.filter fun r hmr _ hq => .inr (h.quarantined r hmr ?_)
    simp only [isQuarantinedRow, Bool.not_eq_false', Bool.and_eq_true] at hq
    exact hq.2

lemma settle {s : Sys D} (hl : Ledger s) (h : Lane s) {w : Row D}
    {result : Except DeliveryError Unit} (hw : WorkerOk s (.delivered w result)) :
    Lane (s.setRows (Outbox.settle s.now s.db.rows w result)) := by
  have hquarantine : ∀ cls code error,
      Lane (s.setRows (markQuarantined s.now s.db.rows w.id cls code error)) := by
    intro cls code error
    refine h.updateWhere fun r _ _ => ⟨⟨rfl, rfl, rfl, rfl⟩, ?_, fun _ hp => .inl hp⟩
    intro _ hop
    simp [Row.isOpen] at hop
  cases result with
  | ok u =>
    refine h.updateWhere fun r hr hpr => ⟨⟨rfl, rfl, rfl, rfl⟩, ?_, ?_⟩
    · intro _ hop
      simp [Row.isOpen] at hop
    · intro hcfg _
      simp only [Bool.and_eq_true, decide_eq_true_eq] at hpr
      have hsame := same_of_id hl (h.row_committed r hr) hw.1 hpr.1
      right
      change r.id ∈ s.deliveredIds
      rw [hpr.1]
      exact hw.2 rfl (hsame.isConfig ▸ hcfg)
  | error e =>
    cases e with
    | permanent code message => exact hquarantine _ _ _
    | transient message =>
      simp only [Outbox.settle]
      split
      · exact hquarantine _ _ _
      · refine h.updateWhere fun r _ _ => ⟨⟨rfl, rfl, rfl, rfl⟩, ?_, fun _ hp => .inl hp⟩
        exact fun _ hop => hop

lemma candidate_spec {now : ℕ} {rows : List (Row D)} {c : Row D}
    (h : candidate now rows = some c) : c ∈ rows ∧ c.isOpen ∧ blocked rows c = false := by
  have hmem := List.argmin_mem h
  obtain ⟨hrow, hcl⟩ := List.mem_filter.1 hmem
  simp only [claimable, Bool.and_eq_true, Bool.not_eq_true'] at hcl
  exact ⟨hrow, hcl.1.1.1.1, hcl.2⟩

lemma le_of_not_blocked {rows : List (Row D)} {c r : Row D} (hb : blocked rows c = false)
    (hcfg : c.isConfig) (hr : r ∈ rows) (hrc : r.isConfig) (hro : r.isOpen)
    (hp : r.projectId = c.projectId) : c.id ≤ r.id := by
  by_contra hlt
  have : blocked rows c = true := by
    simp only [blocked, List.any_eq_true]
    refine ⟨r, hr, ?_⟩
    simp [hp, hro, Row.sameLane, hcfg, hrc]
    omega
  rw [hb] at this
  cases this

lemma front_of_candidate {s : Sys D} (h : Lane s) {c : Row D}
    (hc : candidate s.now s.db.rows = some c) (hcfg : c.isConfig) : Front s c := by
  obtain ⟨hmem, hopen, hnb⟩ := candidate_spec hc
  refine ⟨?_, ?_, ?_⟩
  · exact fun r hr hrc hro hp => le_of_not_blocked hnb hcfg hr hrc hro hp
  · exact fun b hb hp => h.log_front b hb c hmem hcfg hopen hp.symm
  · intro e he hecfg hp hlt
    rcases h.kept e he hecfg with ⟨r, hr, hsame⟩ | hd
    · -- an earlier row still in the table is not open, or the claim would have been blocked
      have hrc : r.isConfig := hsame.isConfig ▸ hecfg
      have hclosed : r.isOpen = false := by
        by_contra hro
        have := le_of_not_blocked hnb hcfg hr hrc (by simpa using hro)
          (hsame.projectId.trans hp)
        rw [hsame.id] at this
        omega
      rw [← hsame.id]
      rcases Row.closed_iff.1 hclosed with hp | hq
      · exact .inl (h.processed r hr hrc hp)
      · exact .inr (h.quarantined r hr hq)
    · exact hd

lemma claim {s s' : Sys D} (h : Lane s) {replied : Bool} (hs : s.claim replied = some s') :
    Lane s' := by
  unfold Sys.claim at hs
  split at hs
  · rename_i hidle
    obtain ⟨⟨rows, row⟩, hcl, rfl⟩ := Option.map_eq_some_iff.1 hs
    unfold claimNext at hcl
    obtain ⟨c, hc, hcr⟩ := Option.map_eq_some_iff.1 hcl
    obtain ⟨rfl, rfl⟩ := Prod.mk.inj hcr
    -- the table with the claim recorded, under the worker that is about to hold the row
    have hclaimed : WorkerOk s (if replied then .claimed (c.claim s.now) else .idle) := by
      split
      · obtain ⟨c', hc', hsame⟩ := h.row_committed c (candidate_spec hc).1
        refine ⟨⟨c', hc', hsame.id, hsame.projectId, hsame.kind, hsame.payload⟩, fun hcfg => ?_⟩
        obtain ⟨h1, h2, h3⟩ := front_of_candidate h hc hcfg
        exact ⟨h1, h2, h3⟩
      · trivial
    refine (h.setWorker hclaimed).updateWhere fun r _ _ => ⟨⟨rfl, rfl, rfl, rfl⟩, ?_, ?_⟩
    · exact fun _ hop => hop
    · exact fun _ hp => .inl hp
  · cases hs

variable {redis : RedisReply}

lemma deliver_broadcast {eventError : D → Option String} {w : Row D}
    {b : Broadcast D} (h : deliver eventError w redis = .ok (some b)) :
    w.isConfig ∧ b.rowId = w.id ∧ b.projectId = w.projectId ∧ b.projectVersion = w.version := by
  have hcfg : ∀ expected, deliverConfig w expected redis = .ok (some b) →
      b.rowId = w.id ∧ b.projectId = w.projectId ∧ b.projectVersion = w.version := by
    intro expected hd
    unfold deliverConfig configDeliveryPayload at hd
    cases hpay : w.payload with
    | exposure k e => simp [hpay] at hd
    | config et v d =>
      simp only [hpay] at hd
      by_cases hne : et ≠ expected
      · simp [hne] at hd
      by_cases hv : v < 1
      · simp [hne, hv] at hd
      cases redis with
      | error m => simp [hne, hv] at hd
      | ok =>
        simp only [hne, hv, if_false] at hd
        cases hd
        simp [Row.version, hpay, Payload.version]
  unfold deliver at h
  cases hk : w.kind with
  | flagChange =>
    rw [hk] at h
    exact ⟨by simp [Row.isConfig, hk, Kind.isConfig], hcfg _ h⟩
  | experimentChange =>
    rw [hk] at h
    exact ⟨by simp [Row.isConfig, hk, Kind.isConfig], hcfg _ h⟩
  | exposure =>
    rw [hk] at h
    simp only [deliverExposure] at h
    repeat' split at h
    all_goals simp at h

lemma deliver_silent {eventError : D → Option String} {w : Row D}
    (h : deliver eventError w redis = .ok none) : w.isConfig = false := by
  have hcfg : ∀ expected, deliverConfig w expected redis ≠ .ok none := by
    intro expected hd
    unfold deliverConfig at hd
    repeat' split at hd
    all_goals simp at hd
  unfold deliver at h
  cases hk : w.kind with
  | flagChange =>
    rw [hk] at h
    exact absurd h (hcfg _)
  | experimentChange =>
    rw [hk] at h
    exact absurd h (hcfg _)
  | exposure => exact Row.isConfig_of_exposure hk

lemma broadcast {s : Sys D} (h : Lane s) {w : Row D} (hw : WorkerOk s (.claimed w))
    (hcfg : w.isConfig) {b : Broadcast D} (hid : b.rowId = w.id) (hp : b.projectId = w.projectId)
    (hv : b.projectVersion = w.version) :
    Lane { s with worker := .delivered w (.ok ()), broadcasts := s.broadcasts ++ [b] } := by
  obtain ⟨⟨c, hc, hsame⟩, hfront⟩ := hw
  have hf := hfront hcfg
  have hdel : ∀ id, id ∈ s.deliveredIds → id ∈ (s.broadcasts ++ [b]).map Broadcast.rowId := by
    intro id hin
    rw [List.map_append]
    exact List.mem_append_left _ hin
  refine ⟨h.row_committed, ?_, ?_, h.quarantined, ?_, ?_, ?_, ?_, ?_⟩
  · intro c hc hcc
    rcases h.kept c hc hcc with hr | hd | hq
    · exact .inl hr
    · exact .inr (.inl (hdel _ hd))
    · exact .inr (.inr hq)
  · exact fun r hr hrc hproc => hdel _ (h.processed r hr hrc hproc)
  · refine ⟨⟨c, hc, hsame⟩, fun _ _ => ?_⟩
    simp [Sys.deliveredIds, hid]
  · intro b' hb' r hr hrc hro hrp
    rcases List.mem_append.1 hb' with hb' | hb'
    · exact h.log_front b' hb' r hr hrc hro hrp
    · simp only [List.mem_singleton] at hb'
      subst hb'
      rw [hid]
      exact hf.le_open r hr hrc hro (hrp.trans hp)
  · intro b' hb'
    rcases List.mem_append.1 hb' with hb' | hb'
    · exact h.log_source b' hb'
    · simp only [List.mem_singleton] at hb'
      subst hb'
      exact ⟨c, hc, hsame.isConfig ▸ hcfg, by rw [hid, hsame.id], by rw [hp, hsame.projectId],
        by rw [hv, hsame.version]⟩
  · refine List.pairwise_append.2 ⟨h.log_sorted, List.pairwise_singleton _ _, ?_⟩
    intro b' hb' b'' hb'' hpp
    simp only [List.mem_singleton] at hb''
    subst hb''
    rw [hid]
    exact hf.above b' hb' (hpp.trans hp)
  · intro i b' hb' e he hec hep hlt
    rcases Nat.lt_trichotomy i s.broadcasts.length with hi | hi | hi
    · rw [List.getElem?_append_left hi] at hb'
      rw [List.take_append_of_le_length hi.le]
      exact h.log_earlier i b' hb' e he hec hep hlt
    · -- the new broadcast: everything below the front is done
      subst hi
      have hb : b = b' := by simpa using hb'
      subst hb
      simp only [List.take_left']
      exact hf.earlier e he hec (hep.trans hp) (hid ▸ hlt)
    · rw [List.getElem?_eq_none (by simp; omega)] at hb'
      cases hb'

lemma deliver {eventError : D → Option String} {s s' : Sys D} (h : Lane s)
    (hs : s.deliver eventError redis = some s') : Lane s' := by
  unfold Sys.deliver at hs
  split at hs
  · rename_i w hwk
    have hw := h.worker
    rw [hwk] at hw
    split at hs
    · rename_i hd
      cases hs
      refine h.setWorker ⟨hw.1, fun _ hcfg => ?_⟩
      rw [deliver_silent hd] at hcfg
      cases hcfg
    · rename_i b hd
      cases hs
      obtain ⟨hcfg, hid, hp, hv⟩ := deliver_broadcast hd
      exact h.broadcast hw hcfg hid hp hv
    · cases hs
      exact h.setWorker ⟨hw.1, fun hres => by cases hres⟩
  · cases hs

lemma commit {s s' : Sys D} (hl : Ledger s) (h : Lane s) {tid : ℕ} (hs : s.commit tid = some s') :
    Lane s' := by
  unfold Sys.commit at hs
  obtain ⟨t, ht, rfl⟩ := Option.map_eq_some_iff.1 hs
  have hok := hl.txn tid t ht
  have habove : ∀ c ∈ s.committed, c.isConfig → ∀ r ∈ t.rows, r.isConfig →
      r.projectId = c.projectId → c.id < r.id := by
    intro c hc hcc r hr hrc hp
    exact hok.above r hr hrc c hc hcc (by rw [← hp, hok.row_project r hr])
  have hsourced : ∀ w, s.Sourced w → w.isConfig → ∀ r ∈ t.rows, r.isConfig →
      r.projectId = w.projectId → w.id < r.id := by
    rintro w ⟨c, hc, hsame⟩ hw r hr hrc hp
    have := habove c hc (hsame.isConfig ▸ hw) r hr hrc (hp.trans hsame.projectId)
    rw [hsame.id]
    exact this
  have hlog : ∀ b ∈ s.broadcasts, ∀ r ∈ t.rows, r.isConfig → r.projectId = b.projectId →
      b.rowId < r.id := by
    intro b hb r hr hrc hp
    obtain ⟨c, hc, hcc, hid, hcp, -⟩ := h.log_source b hb
    rw [← hid]
    exact habove c hc hcc r hr hrc (hp.trans hcp.symm)
  have hfresh : ∀ r ∈ t.rows, r.processedAt = none ∧ r.quarantinedAt = none := by
    intro r hr
    have hop := hok.row_open r hr
    simpa [Row.isOpen] using hop
  have hsrc : ∀ w, s.Sourced w → ∃ c ∈ s.committed ++ t.rows, SameRow w c := by
    rintro w ⟨c, hc, hsame⟩
    exact ⟨c, List.mem_append_left _ hc, hsame⟩
  refine ⟨?_, ?_, ?_, ?_, ?_, ?_, ?_, h.log_sorted, ?_⟩
  · intro r hr
    rcases List.mem_append.1 hr with hr | hr
    · exact hsrc r (h.row_committed r hr)
    · exact ⟨r, List.mem_append_right _ hr, .refl r⟩
  · intro c hc hcc
    rcases List.mem_append.1 hc with hc | hc
    · rcases h.kept c hc hcc with ⟨r, hr, hsame⟩ | hd
      · exact .inl ⟨r, List.mem_append_left _ hr, hsame⟩
      · exact .inr hd
    · exact .inl ⟨c, List.mem_append_right _ hc, .refl c⟩
  · intro r hr hrc hproc
    rcases List.mem_append.1 hr with hr | hr
    · exact h.processed r hr hrc hproc
    · rw [(hfresh r hr).1] at hproc
      cases hproc
  · intro r hr hq
    rcases List.mem_append.1 hr with hr | hr
    · exact h.quarantined r hr hq
    · rw [(hfresh r hr).2] at hq
      cases hq
  · have hw := h.worker
    change WorkerOk _ s.worker
    cases hwk : s.worker with
    | idle => trivial
    | claimed w =>
      rw [hwk] at hw
      refine ⟨hsrc w hw.1, fun hcfg => ⟨?_, (hw.2 hcfg).above, ?_⟩⟩
      · intro r hr hrc hro hp
        rcases List.mem_append.1 hr with hr | hr
        · exact (hw.2 hcfg).le_open r hr hrc hro hp
        · exact (hsourced w hw.1 hcfg r hr hrc hp).le
      · intro c hc hcc hp hlt
        rcases List.mem_append.1 hc with hc | hc
        · exact (hw.2 hcfg).earlier c hc hcc hp hlt
        · have := hsourced w hw.1 hcfg c hc hcc hp
          omega
    | delivered w result =>
      rw [hwk] at hw
      exact ⟨hsrc w hw.1, hw.2⟩
  · intro b hb r hr hrc hro hp
    rcases List.mem_append.1 hr with hr | hr
    · exact h.log_front b hb r hr hrc hro hp
    · exact (hlog b hb r hr hrc hp).le
  · intro b hb
    obtain ⟨c, hc, hrest⟩ := h.log_source b hb
    exact ⟨c, List.mem_append_left _ hc, hrest⟩
  · intro i b hb c hc hcc hp hlt
    rcases List.mem_append.1 hc with hc | hc
    · exact h.log_earlier i b hb c hc hcc hp hlt
    · have := hlog b (List.mem_of_getElem? hb) c hc hcc hp
      omega

theorem step {eventError : D → Option String} {s s' : Sys D} {a : Act D} (hl : Ledger s)
    (h : Lane s) (hs : Outbox.step eventError s a = some s') : Lane s' := by
  cases a with
  | tick n =>
    cases hs
    exact h.congr rfl rfl rfl rfl rfl
  | begin tid p =>
    simp only [Outbox.step] at hs
    split at hs
    · cases hs
      exact h.congr rfl rfl rfl rfl rfl
    · cases hs
  | allocate tid =>
    simp only [Outbox.step, Sys.allocate] at hs
    split at hs
    · cases hs
    split at hs
    · cases hs
    cases hs
    exact h.congr rfl rfl rfl rfl rfl
  | insertConfig tid kind key data =>
    simp only [Outbox.step, Sys.insertConfig] at hs
    split at hs
    · cases hs
    split at hs
    · cases hs
    cases hs
    exact h.congr rfl rfl rfl rfl rfl
  | insertExposure tid messageId streamKey event =>
    simp only [Outbox.step, Sys.insertExposure] at hs
    obtain ⟨t, -, rfl⟩ := Option.map_eq_some_iff.1 hs
    exact h.congr rfl rfl rfl rfl rfl
  | commit tid => exact h.commit hl hs
  | rollback tid =>
    simp only [Outbox.step, Sys.rollback] at hs
    obtain ⟨t, -, rfl⟩ := Option.map_eq_some_iff.1 hs
    exact h.congr rfl rfl rfl rfl rfl
  | claim replied => exact h.claim hs
  | deliver redis => exact h.deliver hs
  | settle applied =>
    simp only [Outbox.step, Sys.settle] at hs
    split at hs
    · rename_i w result hwk
      have hw := h.worker
      rw [hwk] at hw
      split at hs
      · cases hs
        exact (h.settle hl hw).setWorker trivial
      · cases hs
        exact h.setWorker trivial
    · cases hs
  | crash =>
    cases hs
    exact (h.setWorker (w := .idle) trivial).congr rfl rfl rfl rfl rfl
  | sweep =>
    cases hs
    exact h.sweep
  | cleanup =>
    cases hs
    exact h.cleanup hl
  | resolve p rowId action =>
    simp only [Outbox.step] at hs
    obtain ⟨rows, hrows, rfl⟩ := Option.map_eq_some_iff.1 hs
    exact h.resolve hl hrows

end Lane

/-! ## The result -/

theorem reach_inv {eventError : D → Option String} {s : Sys D}
    (h : (machine eventError).Reach s) : Ledger s ∧ Lane s := by
  refine StepMachine.Reach.induct (P := fun s => Ledger s ∧ Lane s)
    ⟨Ledger.initial, Lane.initial⟩ ?_ h
  intro s a s' _ hinv hs
  exact ⟨hinv.1.step hs, hinv.2.step hinv.1 hs⟩

theorem Ledger.step_extends {eventError : D → Option String} {s s' : Sys D} {a : Act D}
    (h : Ledger s) (hs : Outbox.step eventError s a = some s') :
    (∀ p, s.db.versions p ≤ s'.db.versions p) ∧
    (∀ c ∈ s'.committed, c ∈ s.committed ∨
      (c.isConfig → s.db.versions c.projectId < c.version)) ∧
    (s'.broadcasts = s.broadcasts ∨ ∃ b, s'.broadcasts = s.broadcasts ++ [b]) := by
  have hsame : ∀ t : Sys D, t.db.versions = s.db.versions → t.committed = s.committed →
      (t.broadcasts = s.broadcasts ∨ ∃ b, t.broadcasts = s.broadcasts ++ [b]) →
      (∀ p, s.db.versions p ≤ t.db.versions p) ∧
      (∀ c ∈ t.committed, c ∈ s.committed ∨
        (c.isConfig → s.db.versions c.projectId < c.version)) ∧
      (t.broadcasts = s.broadcasts ∨ ∃ b, t.broadcasts = s.broadcasts ++ [b]) := by
    intro t hv hc hb
    exact ⟨fun p => by rw [hv], fun c hct => .inl (hc ▸ hct), hb⟩
  cases a with
  | tick n =>
    cases hs
    exact hsame _ rfl rfl (.inl rfl)
  | begin tid p =>
    simp only [Outbox.step] at hs
    split at hs
    · cases hs
      exact hsame _ rfl rfl (.inl rfl)
    · cases hs
  | allocate tid =>
    simp only [Outbox.step, Sys.allocate] at hs
    split at hs
    · cases hs
    split at hs
    · cases hs
    cases hs
    exact hsame _ rfl rfl (.inl rfl)
  | insertConfig tid kind key data =>
    simp only [Outbox.step, Sys.insertConfig] at hs
    split at hs
    · cases hs
    split at hs
    · cases hs
    cases hs
    exact hsame _ rfl rfl (.inl rfl)
  | insertExposure tid messageId streamKey event =>
    simp only [Outbox.step, Sys.insertExposure] at hs
    obtain ⟨t, -, rfl⟩ := Option.map_eq_some_iff.1 hs
    exact hsame _ rfl rfl (.inl rfl)
  | commit tid =>
    simp only [Outbox.step, Sys.commit] at hs
    obtain ⟨t, ht, rfl⟩ := Option.map_eq_some_iff.1 hs
    refine ⟨h.versions_le ht, ?_, .inl rfl⟩
    intro c hc
    rcases List.mem_append.1 hc with hc | hc
    · exact .inl hc
    · right
      intro hcc
      have hok := h.txn tid t ht
      have hnext := hok.next _ (hok.row_version c hc hcc)
      rw [hok.row_project c hc]
      omega
  | rollback tid =>
    simp only [Outbox.step, Sys.rollback] at hs
    obtain ⟨t, -, rfl⟩ := Option.map_eq_some_iff.1 hs
    exact hsame _ rfl rfl (.inl rfl)
  | claim replied =>
    simp only [Outbox.step, Sys.claim] at hs
    split at hs
    · obtain ⟨x, -, rfl⟩ := Option.map_eq_some_iff.1 hs
      exact hsame _ rfl rfl (.inl rfl)
    · cases hs
  | deliver redis =>
    simp only [Outbox.step, Sys.deliver] at hs
    split at hs
    · split at hs <;> cases hs
      · exact hsame _ rfl rfl (.inl rfl)
      · exact hsame _ rfl rfl (.inr ⟨_, rfl⟩)
      · exact hsame _ rfl rfl (.inl rfl)
    · cases hs
  | settle applied =>
    simp only [Outbox.step, Sys.settle] at hs
    split at hs
    · split at hs <;> cases hs <;> exact hsame _ rfl rfl (.inl rfl)
    · cases hs
  | crash =>
    cases hs
    exact hsame _ rfl rfl (.inl rfl)
  | sweep =>
    cases hs
    exact hsame _ rfl rfl (.inl rfl)
  | cleanup =>
    cases hs
    exact hsame _ rfl rfl (.inl rfl)
  | resolve p rowId action =>
    simp only [Outbox.step] at hs
    obtain ⟨rows, -, rfl⟩ := Option.map_eq_some_iff.1 hs
    exact hsame _ rfl rfl (.inl rfl)

lemma Lane.versions_sorted {s : Sys D} (hl : Ledger s) (h : Lane s) :
    s.broadcasts.Pairwise fun b b' =>
      b.projectId = b'.projectId → b.projectVersion ≤ b'.projectVersion := by
  refine h.log_sorted.imp_of_mem ?_
  intro b b' hb hb' hle hp
  obtain ⟨c, hc, hcc, hid, hcp, hv⟩ := h.log_source b hb
  obtain ⟨c', hc', hcc', hid', hcp', hv'⟩ := h.log_source b' hb'
  rw [← hv, ← hv']
  rcases Nat.lt_or_eq_of_le (hle hp) with hlt | heq
  · exact hl.committed_mono c hc c' hc' hcc hcc' (by rw [hcp, hcp', hp]) (by omega)
  · have : c = c' := hl.known_inj c c' (.inl hc) (.inl hc') (by omega)
    rw [this]

lemma Lane.pending_or_delivered {s : Sys D} (h : Lane s) {c : Row D} (hc : c ∈ s.committed)
    (hcc : c.isConfig) (hq : c.id ∉ s.everQuarantined) :
    (∃ r ∈ s.db.rows, SameRow r c ∧ r.isOpen) ∨ c.id ∈ s.deliveredIds := by
  rcases h.kept c hc hcc with ⟨r, hr, hsame⟩ | hd | hq'
  · by_cases hop : r.isOpen
    · exact .inl ⟨r, hr, hsame, hop⟩
    · rcases Row.closed_iff.1 (by simpa using hop) with hp | hqr
      · right
        rw [← hsame.id]
        exact h.processed r hr (hsame.isConfig ▸ hcc) hp
      · exact absurd (hsame.id ▸ h.quarantined r hr hqr) hq
  · exact .inr hd
  · exact absurd hq' hq

/-- **Order and completeness of config broadcasts.** In every reachable state of the outbox:

* the versions broadcast for one project are non-decreasing;
* before a broadcast, every committed config row of the project with a smaller id that was never
  quarantined had been broadcast;
* a committed config row that was never quarantined is still open in the table or was broadcast.

**Proof sketch.** The counter lock orders the transactions of a project, so ids and versions of
committed config rows grow together (`Ledger`). A claim takes a config row only when no earlier
config row of the project is open, and a closed config row is never opened again, so broadcasts
follow the ids and leave only processed or quarantined rows behind (`Lane`). -/
theorem broadcasts_in_order {eventError : D → Option String} {s : Sys D}
    (h : (machine eventError).Reach s) :
    (s.broadcasts.Pairwise fun b b' =>
      b.projectId = b'.projectId → b.projectVersion ≤ b'.projectVersion) ∧
    (∀ i b, s.broadcasts[i]? = some b → ∀ c ∈ s.committed, c.isConfig →
      c.projectId = b.projectId → c.id < b.rowId → c.id ∉ s.everQuarantined →
      ∃ b' ∈ s.broadcasts.take i, b'.rowId = c.id) ∧
    (∀ c ∈ s.committed, c.isConfig → c.id ∉ s.everQuarantined →
      (∃ r ∈ s.db.rows, SameRow r c ∧ r.isOpen) ∨ ∃ b ∈ s.broadcasts, b.rowId = c.id) := by
  obtain ⟨hl, hlane⟩ := reach_inv h
  refine ⟨hlane.versions_sorted hl, ?_, ?_⟩
  · intro i b hb c hc hcc hp hlt hq
    rcases hlane.log_earlier i b hb c hc hcc hp hlt with hd | hq'
    · obtain ⟨b', hb', hid⟩ := List.mem_map.1 hd
      exact ⟨b', hb', hid⟩
    · exact absurd hq' hq
  · intro c hc hcc hq
    rcases hlane.pending_or_delivered hc hcc hq with hopen | hd
    · exact .inl hopen
    · obtain ⟨b, hb, hid⟩ := List.mem_map.1 hd
      exact .inr ⟨b, hb, hid⟩

/-- Two transactions of one project; the first row is broadcast but its outcome is lost, the
process restarts, and the row is delivered again before the second one. -/
def retriedRun : List (Act String) :=
  [.begin 0 "p", .allocate 0, .insertConfig 0 .flag "f:1:flag_created" "f1", .commit 0,
    .begin 1 "p", .allocate 1, .insertConfig 1 .flag "f:2:flag_updated" "f2", .commit 1,
    .claim true, .deliver .ok, .crash, .tick 61, .claim true, .deliver .ok, .settle true,
    .claim true, .deliver .ok, .settle true]

/-- The run with a retry broadcasts rows `1, 1, 2`, in the order of versions. -/
theorem broadcasts_in_order_retriedRun :
    ∃ s : Sys String, (machine fun _ => none).run initial retriedRun = some s ∧
      s.broadcasts.map Broadcast.rowId = [1, 1, 2] ∧
      s.broadcasts.Pairwise fun b b' =>
        b.projectId = b'.projectId → b.projectVersion ≤ b'.projectVersion := by
  have hrun : ((machine fun _ => none).run initial retriedRun).map
      (fun s => s.broadcasts.map Broadcast.rowId) = some [1, 1, 2] := by decide +kernel
  obtain ⟨s, hs, hids⟩ := Option.map_eq_some_iff.1 hrun
  exact ⟨s, hs, hids, (broadcasts_in_order (StepMachine.reach_of_run hs)).1⟩

end Apdl.Config.Outbox
