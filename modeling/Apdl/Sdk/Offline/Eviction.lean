import Apdl.Lib.Packing
import Apdl.Sdk.Offline.Model

set_option autoImplicit false

/-!
# Eviction from the offline storage

`enforceIndexedDBBounds` walks a cursor over the object store, `enforceFallbackBounds` an index over
the queue in memory. Both go from the newest record to the oldest, drop stale records and evict
records of the scope that exceed the bound on their number or on their bytes.

## Main results

* `offline_eviction` — the database and the queue in memory evict alike.
-/

namespace Apdl.Sdk.Offline

variable {E : Type} (p : Platform E) (tab : Tab) (now : ℤ) (clock : Clock)

/-! ## The two loops -/

/-- What a scan does with rows, newest first. An evicted record is reported by its event and, in the
database, by its id. -/
structure Scan (E : Type) where
  retained : List (ℤ × Value E)
  evicted : List (ℤ × StoredOfflineEvent E × EvictionReason)
  stale : List (ℤ × Value E)

namespace Scan

/-- A row that stays. -/
def retain (row : ℤ × Value E) (s : Scan E) : Scan E := { s with retained := row :: s.retained }

/-- A row that is deleted as stale. -/
def drop (row : ℤ × Value E) (s : Scan E) : Scan E := { s with stale := row :: s.stale }

def evict (id : ℤ) (r : StoredOfflineEvent E) (reason : EvictionReason) (s : Scan E) : Scan E :=
  { s with evicted := (id, r, reason) :: s.evicted }

def evictedRows (s : Scan E) : List (ℤ × StoredOfflineEvent E) :=
  s.evicted.map fun e => (e.1, e.2.1)

/-- The records, without their ids. -/
def records (s : Scan E) :
    List (Value E) × List (StoredOfflineEvent E × EvictionReason) × List (Value E) :=
  (s.retained.map Prod.snd, s.evicted.map Prod.snd, s.stale.map Prod.snd)

end Scan

/-- The class of a row. -/
def classify (row : ℤ × Value E) : RecordDisposition :=
  classifyRecord p tab.scope (clock 0 row.1) now row.1 row.2

/-- The loop of `enforceIndexedDBBounds`, from a count and bytes that are retained already. -/
def indexedDBScan : ℕ → ℤ → List (ℤ × Value E) → Scan E
  | _, _, [] => ⟨[], [], []⟩
  | retainedCount, retainedBytes, (id, v) :: rows =>
    match classify p tab now clock (id, v), v with
    | .stale, _ => (indexedDBScan retainedCount retainedBytes rows).drop (id, v)
    | .current, some r =>
      let exceedsCount := decide (maxOfflineEvents ≤ retainedCount)
      let exceedsBytes := decide (maxOfflineBytes < retainedBytes + r.serializedBytes)
      if (exceedsCount || exceedsBytes) && !hasActiveLease now r then
        (indexedDBScan retainedCount retainedBytes rows).evict id r
          (if exceedsCount then .countLimit else .byteLimit)
      else
        (indexedDBScan (retainedCount + 1) (retainedBytes + r.serializedBytes) rows).retain (id, v)
    | .current, none => (indexedDBScan retainedCount retainedBytes rows).retain (id, v)
    | .mismatched, _ => (indexedDBScan retainedCount retainedBytes rows).retain (id, v)

/-- The loop of `enforceFallbackBounds`. -/
def fallbackScan : ℕ → ℤ → List (ℤ × Value E) → Scan E
  | _, _, [] => ⟨[], [], []⟩
  | retainedCount, retainedBytes, (id, v) :: rows =>
    if classify p tab now clock (id, v) = .mismatched then
      (fallbackScan retainedCount retainedBytes rows).retain (id, v)
    else if classify p tab now clock (id, v) = .stale then
      (fallbackScan retainedCount retainedBytes rows).drop (id, v)
    else
      match v with
      | none => (fallbackScan retainedCount retainedBytes rows).retain (id, v)
      | some r =>
        let exceedsCount := decide (maxOfflineEvents ≤ retainedCount)
        let exceedsBytes := decide (maxOfflineBytes < retainedBytes + r.serializedBytes)
        if (!exceedsCount && !exceedsBytes) || hasActiveLease now r then
          (fallbackScan (retainedCount + 1) (retainedBytes + r.serializedBytes) rows).retain (id, v)
        else
          (fallbackScan retainedCount retainedBytes rows).evict id r
            (if exceedsCount then .countLimit else .byteLimit)

variable {p tab now clock} {rows : List (ℤ × Value E)} {count : ℕ} {bytes : ℤ}

lemma tests_opposite (a b lease : Bool) : ((!a && !b) || lease) = !((a || b) && !lease) := by
  cases a <;> cases b <;> cases lease <;> rfl

theorem fallbackScan_eq (count : ℕ) (bytes : ℤ) (rows : List (ℤ × Value E)) :
    fallbackScan p tab now clock count bytes rows =
      indexedDBScan p tab now clock count bytes rows := by
  induction rows generalizing count bytes with
  | nil => rfl
  | cons row rows ih =>
    obtain ⟨id, v⟩ := row
    rw [fallbackScan.eq_def, indexedDBScan.eq_def]
    dsimp only
    cases hclass : classify p tab now clock (id, v) with
    | stale => simp [ih]
    | mismatched => simp [ih]
    | current =>
      cases v with
      | none => simp [ih]
      | some r =>
        simp only [reduceCtorEq, if_false, tests_opposite, ih]
        generalize ((decide (maxOfflineEvents ≤ count) ||
          decide (maxOfflineBytes < bytes + r.serializedBytes)) && !hasActiveLease now r) = exceeds
        cases exceeds <;> rfl

def SameRow (p : Platform E) (tab : Tab) (now : ℤ) (clock clock' : Clock)
    (a b : ℤ × Value E) : Prop :=
  a.2 = b.2 ∧ classify p tab now clock a = classify p tab now clock' b

theorem scan_congr {clock' : Clock} {rows' : List (ℤ × Value E)}
    (h : List.Forall₂ (SameRow p tab now clock clock') rows rows') (count : ℕ) (bytes : ℤ) :
    (indexedDBScan p tab now clock count bytes rows).records =
      (indexedDBScan p tab now clock' count bytes rows').records := by
  induction h generalizing count bytes with
  | nil => rfl
  | @cons a b _ _ hab _ ih =>
    obtain ⟨id, v⟩ := a
    obtain ⟨id', v'⟩ := b
    have hv : v = v' := hab.1
    subst hv
    have hclass : classify p tab now clock (id, v) = classify p tab now clock' (id', v) := hab.2
    simp only [Scan.records, Prod.mk.injEq] at ih
    rw [indexedDBScan.eq_def, indexedDBScan.eq_def p tab now clock']
    dsimp only
    rw [← hclass]
    cases classify p tab now clock (id, v) with
    | stale => simp [Scan.records, Scan.drop, ih]
    | mismatched => simp [Scan.records, Scan.retain, ih]
    | current =>
      cases v with
      | none => simp [Scan.records, Scan.retain, ih]
      | some r =>
        dsimp only
        split_ifs <;> simp [Scan.records, Scan.retain, Scan.evict, ih]

/-! ## What eviction must do -/

/-- A record of the scope, with its id. -/
def currentRow (p : Platform E) (tab : Tab) (now : ℤ) (clock : Clock) (row : ℤ × Value E) :
    Option (ℤ × StoredOfflineEvent E) :=
  if classify p tab now clock row = .current then row.2.map fun r => (row.1, r) else none

def recordBytes (x : ℤ × StoredOfflineEvent E) : ℤ := x.2.serializedBytes

/-- The record is under an active lease. -/
def leased (now : ℤ) (x : ℤ × StoredOfflineEvent E) : Bool := hasActiveLease now x.2

/-- The choice of the scans among the records of the scope, newest first. -/
def keptMask (now : ℤ) (count : ℕ) (bytes : ℤ) (records : List (ℤ × StoredOfflineEvent E)) :
    List Bool :=
  Packing.greedy recordBytes (leased now) maxOfflineEvents maxOfflineBytes count bytes records

/-- Eviction from rows, newest first: retained, evicted and stale rows are all rows; stale are those
that are classified so; rows of other scopes and leased records are retained; of the records of the
scope, the newest that fit are retained. -/
structure Evicts (p : Platform E) (tab : Tab) (now : ℤ) (clock : Clock)
    (rows : List (ℤ × Value E)) (s : Scan E) : Prop where
  parts : (s.retained ++ s.evictedRows.map (fun x => (x.1, some x.2)) ++ s.stale).Perm rows
  stale_eq : s.stale = rows.filter fun row => decide (classify p tab now clock row = .stale)
  mismatched : ∀ row ∈ rows, classify p tab now clock row = .mismatched → row ∈ s.retained
  leased : ∀ row ∈ rows, ∀ x, currentRow p tab now clock row = some x → leased now x = true →
    row ∈ s.retained
  /-- The retained records are a choice that fits, and the best one: where another choice that fits
  differs first, going from the newest record, it leaves the record that is retained. -/
  newest : ∃ mask, s.retained.filterMap (currentRow p tab now clock) =
      Packing.pick mask (rows.filterMap (currentRow p tab now clock)) ∧
    Packing.Admissible recordBytes (Offline.leased now) maxOfflineEvents maxOfflineBytes 0 0
      (rows.filterMap (currentRow p tab now clock)) mask ∧
    ∀ other, Packing.Admissible recordBytes (Offline.leased now) maxOfflineEvents maxOfflineBytes 0 0
      (rows.filterMap (currentRow p tab now clock)) other → Packing.NoBetter other mask
  within : ((s.retained.filterMap (currentRow p tab now clock)).filter fun x =>
      !Offline.leased now x).length ≤ maxOfflineEvents ∧
    (((s.retained.filterMap (currentRow p tab now clock)).filter fun x =>
      !Offline.leased now x).map recordBytes).sum ≤ maxOfflineBytes

variable {id : ℤ}

lemma currentRow_of_current {v : Value E} (h : classify p tab now clock (id, v) = .current) :
    ∃ r, v = some r ∧ currentRow p tab now clock (id, v) = some (id, r) ∧
      0 < r.serializedBytes := by
  cases v with
  | none => cases h
  | some r =>
    refine ⟨r, rfl, by rw [currentRow, if_pos h]; rfl, ?_⟩
    unfold classify classifyRecord at h
    dsimp only at h
    split_ifs at h with hstored
    rw [Bool.not_eq_false] at hstored
    simp only [isStoredOfflineEvent, Bool.and_eq_true, decide_eq_true_eq] at hstored
    exact hstored.1.1.1.1.2

lemma currentRow_of_not_current {row : ℤ × Value E}
    (h : classify p tab now clock row ≠ .current) : currentRow p tab now clock row = none :=
  if_neg h

/-- What a scan does, from a count and bytes on. -/
structure Scans (p : Platform E) (tab : Tab) (now : ℤ) (clock : Clock) (count : ℕ) (bytes : ℤ)
    (rows : List (ℤ × Value E)) (s : Scan E) : Prop where
  parts : (s.retained ++ s.evictedRows.map (fun x => (x.1, some x.2)) ++ s.stale).Perm rows
  stale_eq : s.stale = rows.filter fun row => decide (classify p tab now clock row = .stale)
  mismatched : ∀ row ∈ rows, classify p tab now clock row = .mismatched → row ∈ s.retained
  leased : ∀ row ∈ rows, ∀ x, currentRow p tab now clock row = some x → leased now x = true →
    row ∈ s.retained
  kept : s.retained.filterMap (currentRow p tab now clock) =
    Packing.pick (keptMask now count bytes (rows.filterMap (currentRow p tab now clock)))
      (rows.filterMap (currentRow p tab now clock))

lemma Scans.drop {v : Value E} {s : Scan E} (h : Scans p tab now clock count bytes rows s)
    (hclass : classify p tab now clock (id, v) = .stale) :
    Scans p tab now clock count bytes ((id, v) :: rows) (s.drop (id, v)) := by
  have hrow : currentRow p tab now clock (id, v) = none :=
    currentRow_of_not_current (by rw [hclass]; decide)
  refine ⟨?_, ?_, ?_, ?_, ?_⟩
  · exact List.perm_middle.trans (h.parts.cons (id, v))
  · rw [List.filter_cons_of_pos (by simp [hclass]), ← h.stale_eq]
    rfl
  · intro row hmem hmis
    rcases List.mem_cons.1 hmem with rfl | hmem
    · rw [hclass] at hmis
      cases hmis
    · exact h.mismatched row hmem hmis
  · intro row hmem x hx hlease
    rcases List.mem_cons.1 hmem with rfl | hmem
    · rw [hrow] at hx
      cases hx
    · exact h.leased row hmem x hx hlease
  · rw [List.filterMap_cons_none hrow]
    exact h.kept

lemma Scans.other {v : Value E} {s : Scan E} (h : Scans p tab now clock count bytes rows s)
    (hclass : classify p tab now clock (id, v) = .mismatched) :
    Scans p tab now clock count bytes ((id, v) :: rows) (s.retain (id, v)) := by
  have hrow : currentRow p tab now clock (id, v) = none :=
    currentRow_of_not_current (by rw [hclass]; decide)
  refine ⟨h.parts.cons (id, v), ?_, ?_, ?_, ?_⟩
  · rw [List.filter_cons_of_neg (by simp [hclass])]
    exact h.stale_eq
  · intro row hmem hmis
    rcases List.mem_cons.1 hmem with rfl | hmem
    · exact List.mem_cons_self
    · exact List.mem_cons_of_mem _ (h.mismatched row hmem hmis)
  · intro row hmem x hx hlease
    rcases List.mem_cons.1 hmem with rfl | hmem
    · exact List.mem_cons_self
    · exact List.mem_cons_of_mem _ (h.leased row hmem x hx hlease)
  · rw [Scan.retain, List.filterMap_cons_none hrow, List.filterMap_cons_none hrow]
    exact h.kept

lemma Scans.retain {r : StoredOfflineEvent E} {s : Scan E}
    (h : Scans p tab now clock (count + 1) (bytes + r.serializedBytes) rows s)
    (hrow : currentRow p tab now clock (id, some r) = some (id, r))
    (hclass : classify p tab now clock (id, some r) = .current)
    (hkeep : (hasActiveLease now r || Packing.fits recordBytes maxOfflineEvents maxOfflineBytes
      count bytes (id, r)) = true) :
    Scans p tab now clock count bytes ((id, some r) :: rows) (s.retain (id, some r)) := by
  refine ⟨h.parts.cons _, ?_, ?_, ?_, ?_⟩
  · rw [List.filter_cons_of_neg (by simp [hclass])]
    exact h.stale_eq
  · intro row hmem hmis
    rcases List.mem_cons.1 hmem with rfl | hmem
    · exact List.mem_cons_self
    · exact List.mem_cons_of_mem _ (h.mismatched row hmem hmis)
  · intro row hmem x hx hlease
    rcases List.mem_cons.1 hmem with rfl | hmem
    · exact List.mem_cons_self
    · exact List.mem_cons_of_mem _ (h.leased row hmem x hx hlease)
  · rw [Scan.retain, List.filterMap_cons_some hrow, List.filterMap_cons_some hrow, h.kept,
      keptMask, keptMask, Packing.greedy, Offline.leased, if_pos hkeep]
    rfl

lemma Scans.evict {r : StoredOfflineEvent E} {s : Scan E} {reason : EvictionReason}
    (h : Scans p tab now clock count bytes rows s)
    (hrow : currentRow p tab now clock (id, some r) = some (id, r))
    (hclass : classify p tab now clock (id, some r) = .current)
    (hleave : (hasActiveLease now r || Packing.fits recordBytes maxOfflineEvents maxOfflineBytes
      count bytes (id, r)) = false) :
    Scans p tab now clock count bytes ((id, some r) :: rows) (s.evict id r reason) := by
  refine ⟨?_, ?_, ?_, ?_, ?_⟩
  · refine List.Perm.trans ?_ (h.parts.cons (id, some r))
    simp only [Scan.evict, Scan.evictedRows, List.map_cons, List.append_assoc, List.cons_append]
    exact List.perm_middle
  · rw [List.filter_cons_of_neg (by simp [hclass])]
    exact h.stale_eq
  · intro row hmem hmis
    rcases List.mem_cons.1 hmem with rfl | hmem
    · rw [hclass] at hmis
      cases hmis
    · exact h.mismatched row hmem hmis
  · intro row hmem x hx hlease
    rcases List.mem_cons.1 hmem with rfl | hmem
    · rw [hrow] at hx
      obtain rfl := Option.some.inj hx
      rw [Bool.or_eq_false_iff] at hleave
      rw [Offline.leased, hleave.1] at hlease
      cases hlease
    · exact h.leased row hmem x hx hlease
  · rw [Scan.evict, List.filterMap_cons_some hrow, h.kept, keptMask, keptMask, Packing.greedy,
      Offline.leased, if_neg (by rw [hleave]; exact Bool.false_ne_true)]
    rfl

lemma exceeds_eq (count : ℕ) (bytes now id : ℤ) (r : StoredOfflineEvent E) :
    ((decide (maxOfflineEvents ≤ count) ||
        decide (maxOfflineBytes < bytes + r.serializedBytes)) && !hasActiveLease now r) =
      !(hasActiveLease now r || Packing.fits recordBytes maxOfflineEvents maxOfflineBytes
        count bytes (id, r)) := by
  have hcount : decide (maxOfflineEvents ≤ count) = !decide (count < maxOfflineEvents) := by
    rw [← decide_not, decide_eq_decide, not_lt]
  have hbytes : decide (maxOfflineBytes < bytes + r.serializedBytes) =
      !decide (bytes + r.serializedBytes ≤ maxOfflineBytes) := by
    rw [← decide_not, decide_eq_decide, not_le]
  rw [hcount, hbytes, Packing.fits, recordBytes]
  cases hasActiveLease now r <;> simp [Bool.not_and]

variable (p tab now clock) in
theorem scans_indexedDB (count : ℕ) (bytes : ℤ) (rows : List (ℤ × Value E)) :
    Scans p tab now clock count bytes rows (indexedDBScan p tab now clock count bytes rows) := by
  induction rows generalizing count bytes with
  | nil => exact ⟨.refl _, rfl, by simp, by simp, rfl⟩
  | cons row rows ih =>
    obtain ⟨id, v⟩ := row
    rw [indexedDBScan.eq_def]
    dsimp only
    cases hclass : classify p tab now clock (id, v) with
    | stale => exact (ih count bytes).drop hclass
    | mismatched => exact (ih count bytes).other hclass
    | current =>
      obtain ⟨r, rfl, hrow, -⟩ := currentRow_of_current hclass
      dsimp only
      rw [exceeds_eq count bytes now id r]
      cases hkeep : (hasActiveLease now r || Packing.fits recordBytes maxOfflineEvents
        maxOfflineBytes count bytes (id, r)) with
      | true => exact (ih _ _).retain hrow hclass hkeep
      | false => exact (ih _ _).evict hrow hclass hkeep

lemma recordBytes_nonneg {x : ℤ × StoredOfflineEvent E}
    (h : x ∈ rows.filterMap (currentRow p tab now clock)) : 0 ≤ recordBytes x := by
  obtain ⟨⟨id, v⟩, -, hx⟩ := List.mem_filterMap.1 h
  have hclass : classify p tab now clock (id, v) = .current := by
    by_contra hne
    rw [currentRow_of_not_current hne] at hx
    cases hx
  obtain ⟨r, -, hrow, hpos⟩ := currentRow_of_current hclass
  rw [hrow] at hx
  obtain rfl := Option.some.inj hx
  exact hpos.le

theorem evicts_scan (p : Platform E) (tab : Tab) (now : ℤ) (clock : Clock)
    (rows : List (ℤ × Value E)) :
    Evicts p tab now clock rows (indexedDBScan p tab now clock 0 0 rows) := by
  have h := scans_indexedDB p tab now clock 0 0 rows
  have hadm : Packing.Admissible recordBytes (Offline.leased now) maxOfflineEvents maxOfflineBytes
      0 0 (rows.filterMap (currentRow p tab now clock))
      (keptMask now 0 0 (rows.filterMap (currentRow p tab now clock))) :=
    Packing.admissible_greedy 0 0 _
  refine ⟨h.parts, h.stale_eq, h.mismatched, h.leased, ⟨_, h.kept, hadm, fun other ho =>
    Packing.noBetter_greedy ho⟩, ?_⟩
  rw [h.kept]
  by_cases hne : (Packing.pick (keptMask now 0 0 (rows.filterMap (currentRow p tab now clock)))
      (rows.filterMap (currentRow p tab now clock))).filter (fun x => !Offline.leased now x) = []
  · rw [hne]
    exact ⟨Nat.zero_le _, by rw [List.map_nil, List.sum_nil]; decide⟩
  · obtain ⟨hcount, hbytes⟩ := hadm.within (fun _ => recordBytes_nonneg) hne
    rw [zero_add] at hcount hbytes
    exact ⟨hcount, hbytes⟩

/-! ## The storage -/

/-- The events that a scan reports, newest first. -/
def Scan.report (s : Scan E) : List (E × EvictionReason) := s.evicted.map fun e => (e.2.1.data, e.2.2)

lemma boundsVisit_current {r : StoredOfflineEvent E} (acc : Retained E)
    (hclass : classify p tab now clock (id, some r) = .current) :
    boundsVisit p tab now clock acc id (some r) =
      if ((decide (maxOfflineEvents ≤ acc.count) ||
          decide (maxOfflineBytes < acc.bytes + r.serializedBytes)) &&
            !hasActiveLease now r) = true then
        ({ acc with evicted := acc.evicted ++ [(id, r.data,
          if decide (maxOfflineEvents ≤ acc.count) = true then .countLimit else .byteLimit)] },
          .delete)
      else ({ acc with count := acc.count + 1, bytes := acc.bytes + r.serializedBytes }, .keep) := by
  have hclassify : classifyRecord p tab.scope (clock 0 id) now id (some r) = .current := hclass
  rw [boundsVisit.eq_def, hclassify]
  dsimp only
  simp only [Retained.exceeds, Bool.and_eq_true, Bool.not_eq_true', decide_eq_true_eq]
  exact if_congr Iff.rfl rfl rfl

variable (p tab now clock) in
lemma walk_boundsVisit (acc : Retained E) (rows : List (ℤ × Value E)) :
    (Cursor.walk (boundsVisit p tab now clock) acc rows).2 =
        (indexedDBScan p tab now clock acc.count acc.bytes rows).retained ∧
      (Cursor.walk (boundsVisit p tab now clock) acc rows).1.evicted =
        acc.evicted ++ (indexedDBScan p tab now clock acc.count acc.bytes rows).evicted.map
          fun e => (e.1, e.2.1.data, e.2.2) := by
  induction rows generalizing acc with
  | nil => exact ⟨rfl, (List.append_nil _).symm⟩
  | cons row rows ih =>
    obtain ⟨id, v⟩ := row
    rw [Cursor.walk, indexedDBScan.eq_def]
    dsimp only
    cases hclass : classify p tab now clock (id, v) with
    | stale =>
      have hvisit : boundsVisit p tab now clock acc id v = (acc, .delete) := by
        have hclassify : classifyRecord p tab.scope (clock 0 id) now id v = .stale := hclass
        rw [boundsVisit.eq_def, hclassify]
      rw [hvisit]
      exact ih acc
    | mismatched =>
      have hvisit : boundsVisit p tab now clock acc id v = (acc, .keep) := by
        have hclassify : classifyRecord p tab.scope (clock 0 id) now id v = .mismatched := hclass
        rw [boundsVisit.eq_def, hclassify]
      rw [hvisit]
      obtain ⟨hrows, hevicted⟩ := ih acc
      exact ⟨congrArg ((id, v) :: ·) hrows, hevicted⟩
    | current =>
      obtain ⟨r, rfl, -, -⟩ := currentRow_of_current hclass
      rw [boundsVisit_current acc hclass]
      dsimp only
      split
      · obtain ⟨hrows, hevicted⟩ := ih { acc with evicted := acc.evicted ++ [(id, r.data,
          if decide (maxOfflineEvents ≤ acc.count) = true then .countLimit else .byteLimit)] }
        refine ⟨hrows, hevicted.trans ?_⟩
        rw [List.append_assoc]
        rfl
      · obtain ⟨hrows, hevicted⟩ := ih
          { acc with count := acc.count + 1, bytes := acc.bytes + r.serializedBytes }
        exact ⟨congrArg ((id, some r) :: ·) hrows, hevicted⟩

variable (p tab now clock) in
theorem enforceBounds_eq {stride : ℤ} (s : Shelf E stride) :
    (enforceBounds p tab now clock s).2.rows =
        (indexedDBScan p tab now clock 0 0 s.rows.reverse).retained.reverse ∧
      (enforceBounds p tab now clock s).1.evicted.map Prod.snd =
        (indexedDBScan p tab now clock 0 0 s.rows.reverse).report := by
  obtain ⟨hrows, hevicted⟩ := walk_boundsVisit p tab now clock Retained.none s.rows.reverse
  refine ⟨congrArg List.reverse hrows, ?_⟩
  calc (enforceBounds p tab now clock s).1.evicted.map Prod.snd
      = ((indexedDBScan p tab now clock 0 0 s.rows.reverse).evicted.map
          fun e => (e.1, e.2.1.data, e.2.2)).map Prod.snd :=
        congrArg (List.map Prod.snd) hevicted
    _ = (indexedDBScan p tab now clock 0 0 s.rows.reverse).report := List.map_map

/-- Two rows hold the same record under ids of one sign, validated at the same reading. -/
def SameRecord (clock clock' : Clock) (a b : ℤ × Value E) : Prop :=
  a.2 = b.2 ∧ (0 < a.1 ↔ 0 < b.1) ∧ clock 0 a.1 = clock' 0 b.1

lemma SameRecord.sameRow {clock' : Clock} {a b : ℤ × Value E} (h : SameRecord clock clock' a b) :
    SameRow p tab now clock clock' a b := by
  obtain ⟨id, v⟩ := a
  obtain ⟨id', v'⟩ := b
  obtain ⟨hv, hid, hclock⟩ := h
  dsimp only at hv hid hclock
  subst hv
  refine ⟨rfl, ?_⟩
  unfold classify classifyRecord
  cases v with
  | none => rfl
  | some r =>
    have hstored : isStoredOfflineEvent p (clock 0 id) id r =
        isStoredOfflineEvent p (clock' 0 id') id' r := by
      unfold isStoredOfflineEvent
      rw [hclock, decide_eq_decide.2 hid]
    dsimp only
    rw [hstored]

variable (p tab now clock) in
/-- **Offline eviction.** From the same records and the same events to store, the database and the
queue in memory retain, evict and drop the same records. Both evict as they must, and what they
leave and report is what the storage leaves and reports. -/
theorem offline_eviction {clock' : Clock} (candidates : List (StoredOfflineEvent E))
    (rejected : List E) (db : Database E) (m : Memory E)
    (hsame : List.Forall₂ (SameRecord clock clock') (db.addAll (by decide) candidates).rows
      (m.addAll (by decide) candidates).rows) :
    let database := indexedDBScan p tab now clock 0 0 (db.addAll (by decide) candidates).rows.reverse
    let memory := fallbackScan p tab now clock' 0 0 (m.addAll (by decide) candidates).rows.reverse
    database.records = memory.records ∧
      Evicts p tab now clock (db.addAll (by decide) candidates).rows.reverse database ∧
      Evicts p tab now clock' (m.addAll (by decide) candidates).rows.reverse memory ∧
      (storeInDatabase p tab candidates rejected false now clock db).2.rows =
        database.retained.reverse ∧
      (storeInDatabase p tab candidates rejected false now clock db).1.evicted =
        database.report.reverse ∧
      (storeInFallback p tab candidates rejected now clock' m).2.rows = memory.retained.reverse ∧
      (storeInFallback p tab candidates rejected now clock' m).1.evicted =
        memory.report.reverse := by
  intro database memory
  have hmemory : memory = indexedDBScan p tab now clock' 0 0
      (m.addAll (by decide) candidates).rows.reverse := fallbackScan_eq _ _ _
  have hrows : List.Forall₂ (SameRow p tab now clock clock')
      (db.addAll (by decide) candidates).rows.reverse
      (m.addAll (by decide) candidates).rows.reverse :=
    (List.rel_reverse hsame).imp fun _ _ h => h.sameRow
  obtain ⟨hdbRows, hdbEvicted⟩ :=
    enforceBounds_eq p tab now clock (db.addAll (by decide) candidates)
  obtain ⟨hmRows, hmEvicted⟩ :=
    enforceBounds_eq p tab now clock' (m.addAll (by decide) candidates)
  rw [hmemory]
  exact ⟨scan_congr hrows 0 0, evicts_scan _ _ _ _ _, evicts_scan _ _ _ _ _, hdbRows,
    congrArg List.reverse hdbEvicted, hmRows, congrArg List.reverse hmEvicted⟩

/-- Events that are their own sizes. -/
def sizes : Platform ℕ where
  canonicalizeTrackEvent _ e := some e
  serializedEventBytes e := some e
  messageId e := toString e
  isCanonicalOrigin _ := true

/-- A record of two million bytes, and one of half a million. -/
def demoRecords : List (StoredOfflineEvent ℕ) :=
  [2000000, 2000000, 500000, 2000000].map fun bytes : ℕ =>
    ⟨recordSchemaVersion, "https://a", "p", 1, bytes, none, none, bytes⟩

/-- Of four records the oldest exceeds the bound on bytes, in the database and in memory. -/
theorem offline_eviction_oldest :
    let tab : Tab := ⟨"lease", ⟨"https://a", "p"⟩⟩
    let database := storeInDatabase sizes tab demoRecords [] false 1 (fun _ _ => 1) (Shelf.empty 1)
    let memory := storeInFallback sizes tab demoRecords [] 1 (fun _ _ => 1)
      (Shelf.empty maxSafeInteger)
    database.1.evicted = [(2000000, .byteLimit)] ∧ memory.1.evicted = database.1.evicted ∧
      memory.2.rows.map Prod.snd = database.2.rows.map Prod.snd := by
  intro tab database memory
  have hsame : List.Forall₂ (SameRecord (E := ℕ) (fun _ _ => 1) (fun _ _ => 1))
      (((Shelf.empty 1 : Database ℕ).addAll (by decide) demoRecords).rows)
      (((Shelf.empty maxSafeInteger : Memory ℕ).addAll (by decide) demoRecords).rows) := by
    simp [Shelf.addAll, Shelf.add, Shelf.empty, demoRecords, SameRecord, maxSafeInteger]
  obtain ⟨hrecords, -, -, hrows, hevicted, hrows', hevicted'⟩ :=
    offline_eviction sizes tab 1 _ demoRecords [] _ _ hsame
  refine ⟨by decide +kernel, ?_, ?_⟩
  · rw [hevicted, hevicted']
    have := congrArg (fun x => x.2.1) hrecords
    simp only [Scan.records] at this
    rw [Scan.report, Scan.report]
    have hmap := congrArg (List.map fun e : StoredOfflineEvent ℕ × EvictionReason =>
      (e.1.data, e.2)) this.symm
    rw [List.map_map, List.map_map] at hmap
    exact congrArg List.reverse hmap
  · rw [hrows, hrows', List.map_reverse, List.map_reverse]
    exact congrArg List.reverse (congrArg Prod.fst hrecords).symm

end Apdl.Sdk.Offline
