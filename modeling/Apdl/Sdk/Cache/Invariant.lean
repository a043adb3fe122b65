import Mathlib.Data.Nat.Cast.Order.Ring
import Mathlib.Tactic.Linarith
import Apdl.Sdk.Cache.Converge

set_option autoImplicit false

/-!
# The ledger and the active flags

In a cache in use the ledger records the version of every active flag, no active key is marked
invalid, and the version of a key only grows until the cache is cleared. The first two need that a
snapshot does not list an active key again behind a newer version of it, and does not list a key
both as a flag and as invalid: the loop of `set` compares with the ledger it has just advanced, but
falls back to the flag from before the snapshot.

## Main results

* `cache_invariant` — a cache in use is consistent and its ledger grows.
-/

namespace Apdl.Sdk.Cache

open Flags (ClientFlagConfig)

/-! ## The invariant -/

/-- The version of an active flag is the recorded one, and its key is not marked invalid. -/
def Slot.Ok (s : Slot) : Prop :=
  ∀ flag, s.flag = some flag →
    s.authoritativeVersion = some (flag.version : ℚ) ∧ s.invalidSource = none

/-- Every active flag has its version in the ledger and is not marked invalid. -/
def Consistent (c : FlagCache) : Prop := ∀ key, (c.slot key).Ok

/-- The version recorded for a key does not decrease. -/
def LedgerLe (c c' : FlagCache) : Prop :=
  ∀ key v, c.authoritativeVersions key = some v →
    ∃ v', c'.authoritativeVersions key = some v' ∧ v ≤ v'

lemma LedgerLe.of_eq {c c' : FlagCache} (h : c'.authoritativeVersions = c.authoritativeVersions) :
    LedgerLe c c' := fun _ v hv => ⟨v, h ▸ hv, le_rfl⟩

lemma Consistent.apply {c : FlagCache} (h : Consistent c) (e : Event) : Consistent (e.apply c) := by
  intro key
  rw [Event.slot_apply]
  split_ifs with hon
  · unfold Register.apply
    split_ifs with hnew
    · have hwf : e.wellFormed = true := by
        simp only [Event.on, Bool.and_eq_true] at hon
        exact hon.2
      cases e with
      | upsertIfNewer flag v source =>
        simp only [Event.wellFormed, Bool.and_eq_true, decide_eq_true_eq] at hwf
        rintro _ ⟨⟩
        exact ⟨congrArg some hwf.1.symm, rfl⟩
      | removeIfNewer key v => rintro _ ⟨⟩
      | markInvalidIfNewer key v source => rintro _ ⟨⟩
    · exact h key
  · exact h key

lemma ledgerLe_apply (c : FlagCache) (e : Event) : LedgerLe c (e.apply c) := by
  intro key v hv
  have hslot := Event.slot_apply c e key
  have hledger : (e.apply c).authoritativeVersions key =
      ((e.apply c).slot key).authoritativeVersion := rfl
  rw [hledger, hslot]
  split_ifs with hon
  · unfold Register.apply
    split_ifs with hnew
    · refine ⟨e.version, by cases e <;> rfl, ?_⟩
      have hrank : slotRegister.rank (c.slot key) = v := by
        show (c.authoritativeVersions key).getD 0 = v
        rw [hv, Option.getD_some]
      exact (hrank ▸ hnew : v < e.version).le
    · exact ⟨v, hv, le_rfl⟩
  · exact ⟨v, hv, le_rfl⟩

/-! ## Snapshots -/

/-- The flags of a snapshot for a key, in order. -/
def listed (flags : List ClientFlagConfig) (key : Text) : List ClientFlagConfig :=
  flags.filter fun f => decide (f.key = key)

/-- A snapshot that a cache takes without losing track of versions. -/
structure SnapshotOk (c : FlagCache) (payload : ParseResult) : Prop where
  /-- If a snapshot has a newer version of an active key, then the last of its flags for the key is
  newer than the others. -/
  last_newest : ∀ key previous, c.flags key = some previous →
    ∀ front last, listed payload.flags key = front ++ [last] →
      (∃ f ∈ front ++ [last], previous.version < f.version) →
        ∀ f ∈ previous :: front, f.version < last.version
  /-- A key that is listed as invalid is not listed as a flag too, unless the key is not active and
  the ledger already has that version. -/
  not_invalid : ∀ key ∈ payload.invalidKeys, ∀ f ∈ listed payload.flags key,
    c.flags key = none ∧ (f.version : ℚ) ≤ (c.authoritativeVersions key).getD 0

lemma nextOf_concat (c : FlagCache) (flags : List ClientFlagConfig) (source : Source)
    (f : ClientFlagConfig) :
    c.nextOf (flags ++ [f]) source = c.setFlag source (c.nextOf flags source) f := by
  simp [FlagCache.nextOf, List.foldl_append]

lemma listed_concat (flags : List ClientFlagConfig) (f : ClientFlagConfig) (key : Text) :
    listed (flags ++ [f]) key =
      if f.key = key then listed flags key ++ [f] else listed flags key := by
  by_cases h : f.key = key <;> simp [listed, h]

lemma setFlag_cases (c : FlagCache) (source : Source) (next : FlagCache.Next) (f : ClientFlagConfig)
    (key : Text) :
    (f.key ≠ key ∧ (c.setFlag source next f).flags key = next.flags key ∧
        (c.setFlag source next f).authoritativeVersions key = next.authoritativeVersions key) ∨
      (f.key = key ∧ (c.setFlag source next f).flags key = (c.flags key).or (next.flags key) ∧
        ∃ m, next.authoritativeVersions key = some m ∧ (f.version : ℚ) ≤ m ∧
          (c.setFlag source next f).authoritativeVersions key = some m) ∨
      (f.key = key ∧ (c.setFlag source next f).flags key = some f ∧
        (∀ m, next.authoritativeVersions key = some m → m < (f.version : ℚ)) ∧
          (c.setFlag source next f).authoritativeVersions key = some (f.version : ℚ)) := by
  unfold FlagCache.setFlag
  by_cases hkey : f.key = key
  · subst hkey
    split_ifs with hold
    · obtain ⟨m, hm, hle⟩ := hold
      refine .inr (.inl ⟨rfl, ?_⟩)
      cases c.flags f.key with
      | none => exact ⟨rfl, m, hm, hle, hm⟩
      | some previous => exact ⟨Function.update_self _ _ _, m, hm, hle, hm⟩
    · refine .inr (.inr ⟨rfl, Function.update_self _ _ _, fun m hm => ?_, Function.update_self _ _ _⟩)
      exact not_le.1 fun hle => hold ⟨m, hm, hle⟩
  · refine .inl ⟨hkey, ?_⟩
    split_ifs with hold
    · cases c.flags f.key with
      | none => exact ⟨rfl, rfl⟩
      | some previous => exact ⟨Function.update_of_ne (Ne.symm hkey) _ _, rfl⟩
    · exact ⟨Function.update_of_ne (Ne.symm hkey) _ _, Function.update_of_ne (Ne.symm hkey) _ _⟩

lemma ledger_nextOf (c : FlagCache) (flags : List ClientFlagConfig) (source : Source) {key : Text}
    {v : ℚ} (hv : c.authoritativeVersions key = some v) :
    ∃ v', (c.nextOf flags source).authoritativeVersions key = some v' ∧ v ≤ v' := by
  induction flags using List.reverseRecOn with
  | nil => exact ⟨v, hv, le_rfl⟩
  | append_singleton flags f ih =>
    obtain ⟨v', hv', hle⟩ := ih
    rw [nextOf_concat]
    obtain ⟨-, -, hledger⟩ | ⟨-, -, m, hm, -, hledger⟩ | ⟨-, -, hnew, hledger⟩ :=
      setFlag_cases c source (c.nextOf flags source) f key
    · exact ⟨v', hledger.trans hv', hle⟩
    · rw [hv', Option.some.injEq] at hm
      exact ⟨m, hledger, hm ▸ hle⟩
    · exact ⟨f.version, hledger, hle.trans (hnew v' hv').le⟩

lemma nextOf_inactive {c : FlagCache} {key : Text} (hkey : c.flags key = none)
    (flags : List ClientFlagConfig) (source : Source) {flag : ClientFlagConfig}
    (h : (c.nextOf flags source).flags key = some flag) :
    (c.nextOf flags source).authoritativeVersions key = some (flag.version : ℚ) := by
  induction flags using List.reverseRecOn generalizing flag with
  | nil => simp [FlagCache.nextOf] at h
  | append_singleton flags f ih =>
    rw [nextOf_concat] at h ⊢
    obtain ⟨-, hflags, hledger⟩ | ⟨-, hflags, m, hm, -, hledger⟩ | ⟨-, hflags, -, hledger⟩ :=
      setFlag_cases c source (c.nextOf flags source) f key
    · rw [hledger, ih (hflags ▸ h)]
    · rw [hflags, hkey, Option.none_or] at h
      rw [hledger, ← hm, ih h]
    · rw [hflags, Option.some.injEq] at h
      rw [hledger, h]

lemma nextOf_known {c : FlagCache} {key : Text} (hkey : c.flags key = none)
    (flags : List ClientFlagConfig) (source : Source)
    (hknown : ∀ f ∈ listed flags key,
      1 ≤ f.version ∧ (f.version : ℚ) ≤ (c.authoritativeVersions key).getD 0) :
    (c.nextOf flags source).flags key = none ∧
      (c.nextOf flags source).authoritativeVersions key = c.authoritativeVersions key := by
  induction flags using List.reverseRecOn with
  | nil => exact ⟨rfl, rfl⟩
  | append_singleton flags f ih =>
    rw [listed_concat] at hknown
    have hbefore : ∀ g ∈ listed flags key,
        1 ≤ g.version ∧ (g.version : ℚ) ≤ (c.authoritativeVersions key).getD 0 := by
      intro g hg
      split_ifs at hknown
      · exact hknown g (List.mem_append_left _ hg)
      · exact hknown g hg
    obtain ⟨hnone, hsame⟩ := ih hbefore
    rw [nextOf_concat]
    obtain ⟨-, hflags, hledger⟩ | ⟨-, hflags, m, hm, -, hledger⟩ | ⟨hf, -, hnew, -⟩ :=
      setFlag_cases c source (c.nextOf flags source) f key
    · exact ⟨hflags.trans hnone, hledger.trans hsame⟩
    · exact ⟨by rw [hflags, hkey, hnone]; rfl, hledger.trans (hm.symm.trans hsame)⟩
    · rw [if_pos hf] at hknown
      obtain ⟨hpos, hle⟩ := hknown f (by simp)
      -- the ledger has a version, since the flag's is positive
      cases hv : c.authoritativeVersions key with
      | none =>
        rw [hv, Option.getD_none] at hle
        have : (1 : ℚ) ≤ f.version := by exact_mod_cast hpos
        linarith
      | some v =>
        rw [hv, Option.getD_some] at hle
        exact absurd hle (not_le.2 (hnew v (hsame.trans hv)))

lemma nextOf_active {c : FlagCache} {key : Text} {previous : ClientFlagConfig}
    (hkey : c.flags key = some previous)
    (hledger : c.authoritativeVersions key = some (previous.version : ℚ))
    (flags : List ClientFlagConfig) (source : Source) :
    (listed flags key = [] ∧ (c.nextOf flags source).flags key = none ∧
        (c.nextOf flags source).authoritativeVersions key = some (previous.version : ℚ)) ∨
      ∃ front last, listed flags key = front ++ [last] ∧
        ∃ m : ℕ, (∃ f ∈ previous :: front, f.version = m) ∧
          ((last.version ≤ m ∧ (c.nextOf flags source).flags key = some previous ∧
              (c.nextOf flags source).authoritativeVersions key = some (m : ℚ)) ∨
            ((c.nextOf flags source).flags key = some last ∧
              (c.nextOf flags source).authoritativeVersions key = some (last.version : ℚ))) := by
  induction flags using List.reverseRecOn with
  | nil => exact .inl ⟨rfl, rfl, hledger⟩
  | append_singleton flags f ih =>
    -- the ledger has the version of the active flag or of a listed one
    have hhigh : ∃ m : ℕ, (c.nextOf flags source).authoritativeVersions key = some (m : ℚ) ∧
        ∃ g ∈ previous :: listed flags key, g.version = m := by
      obtain ⟨-, -, hm⟩ | ⟨front, last, hlast, m, hm, ⟨-, -, hledger'⟩ | ⟨-, hledger'⟩⟩ := ih
      · exact ⟨previous.version, hm, previous, List.mem_cons_self, rfl⟩
      · obtain ⟨g, hg, rfl⟩ := hm
        refine ⟨g.version, hledger', g, ?_, rfl⟩
        rw [hlast]
        exact List.mem_cons.2 ((List.mem_cons.1 hg).imp_right (List.mem_append_left _))
      · exact ⟨last.version, hledger', last, by rw [hlast]; simp, rfl⟩
    obtain ⟨m, hm, g, hg, hgm⟩ := hhigh
    rw [nextOf_concat, listed_concat]
    obtain ⟨hf, hflags, hsame⟩ | ⟨hf, hflags, m', hm', hle, hledger'⟩ | ⟨hf, hflags, -, hledger'⟩ :=
      setFlag_cases c source (c.nextOf flags source) f key
    · rw [if_neg hf, hflags, hsame]
      exact ih
    · rw [hm, Option.some.injEq] at hm'
      subst hm'
      rw [if_pos hf]
      refine .inr ⟨_, f, rfl, m, ⟨g, hg, hgm⟩, .inl ⟨by exact_mod_cast hle, ?_, hledger'⟩⟩
      rw [hflags, hkey, Option.some_or]
    · rw [if_pos hf]
      exact .inr ⟨_, f, rfl, previous.version, ⟨previous, List.mem_cons_self, rfl⟩,
        .inr ⟨hflags, hledger'⟩⟩

lemma foldl_update_some (source : Source) (keys : List Text) (m : Text → Option Source)
    (key : Text) :
    keys.foldl (fun m key => Function.update m key (some source)) m key =
      if key ∈ keys then some source else m key := by
  induction keys generalizing m with
  | nil => simp
  | cons k keys ih =>
    rw [List.foldl_cons, ih]
    by_cases hmem : key ∈ keys
    · simp [hmem]
    · by_cases hk : key = k
      · subst hk
        simp
      · simp [hmem, hk]

lemma one_le_version {f : ClientFlagConfig} (h : Flags.JavaScript.isFlagConfig f = true) :
    1 ≤ f.version := by
  simp only [Flags.JavaScript.isFlagConfig, Bool.and_eq_true, decide_eq_true_eq] at h
  exact h.2

lemma SnapshotOk.ledger {c : FlagCache} {payload : ParseResult} (hok : SnapshotOk c payload)
    (h : Consistent c) (source : Source) {key : Text} {flag : ClientFlagConfig}
    (hflag : (c.nextOf payload.flags source).flags key = some flag) :
    (c.nextOf payload.flags source).authoritativeVersions key = some (flag.version : ℚ) := by
  cases hkey : c.flags key with
  | none => exact nextOf_inactive hkey _ _ hflag
  | some previous =>
    have hbefore := (h key previous hkey).1
    obtain ⟨-, hnone, -⟩ | ⟨front, last, hlast, m, hm, ⟨hle, hprev, hledger⟩ | ⟨hnew, hledger⟩⟩ :=
      nextOf_active hkey hbefore payload.flags source
    · rw [hnone] at hflag
      exact absurd hflag (by simp)
    · obtain rfl : previous = flag := by
        rw [hprev] at hflag
        exact Option.some.inj hflag
      obtain ⟨v, hv, hge⟩ := ledger_nextOf c payload.flags source hbefore
      rw [hledger, Option.some.injEq] at hv
      subst hv
      -- the recorded version is not a newer one, or the last flag would be newer still
      obtain ⟨g, hg, rfl⟩ := hm
      have hge' : previous.version ≤ g.version := by exact_mod_cast hge
      have hnot : ¬ previous.version < g.version := by
        intro hlt
        have hmem : g ∈ front := by
          obtain rfl | hmem := List.mem_cons.1 hg
          · exact absurd hlt (lt_irrefl _)
          · exact hmem
        have hlast' := hok.last_newest key previous hkey front last hlast
          ⟨g, List.mem_append_left _ hmem, hlt⟩ g hg
        omega
      rw [hledger, show g.version = previous.version by omega]
    · obtain rfl : last = flag := by
        rw [hnew] at hflag
        exact Option.some.inj hflag
      exact hledger

lemma SnapshotOk.inactive {c : FlagCache} {payload : ParseResult} (hok : SnapshotOk c payload)
    (h : Consistent c) (source : Source) {key : Text} (hkey : key ∈ payload.invalidKeys) :
    (c.nextOf payload.flags source).flags key = none := by
  cases hflag : c.flags key with
  | none =>
    refine (nextOf_known hflag _ _ fun f hf => ⟨?_, (hok.not_invalid key hkey f hf).2⟩).1
    exact one_le_version (payload.flags_valid f (List.mem_of_mem_filter hf))
  | some previous =>
    have hbefore := (h key previous hflag).1
    obtain ⟨-, hnone, -⟩ | ⟨front, last, hlast, -⟩ := nextOf_active hflag hbefore payload.flags source
    · exact hnone
    · have hnone := (hok.not_invalid key hkey last (by rw [hlast]; simp)).1
      rw [hnone] at hflag
      exact absurd hflag (by simp)

lemma Consistent.set {c : FlagCache} (h : Consistent c) {payload : ParseResult}
    (hok : SnapshotOk c payload) (source : Source) :
    Consistent (c.set payload.flags source payload.invalidKeys) := by
  intro key flag hflag
  replace hflag : (c.nextOf payload.flags source).flags key = some flag := hflag
  refine ⟨hok.ledger h source hflag, ?_⟩
  have hmem : key ∉ payload.invalidKeys := by
    intro hmem
    rw [hok.inactive h source hmem] at hflag
    exact absurd hflag (by simp)
  exact (foldl_update_some source payload.invalidKeys _ key).trans (if_neg hmem)

/-! ## The other operations -/

lemma markInvalid_slot (c : FlagCache) (keys : List Text) (source : Source) (key : Text) :
    (c.markInvalid keys source).slot key =
      if key ∈ keys then
        { flag := none, source := none, invalidSource := some source
          authoritativeVersion := c.authoritativeVersions key }
      else c.slot key := by
  show ((keys.foldl (FlagCache.invalidate source) c).slot key) = _
  induction keys generalizing c with
  | nil => simp
  | cons k keys ih =>
    rw [List.foldl_cons, ih]
    by_cases hmem : key ∈ keys
    · simp [hmem, FlagCache.invalidate]
    · by_cases hk : key = k
      · subst hk
        simp [hmem, FlagCache.slot, FlagCache.invalidate]
      · simp [hmem, hk, FlagCache.slot, FlagCache.invalidate]

lemma Consistent.markInvalid {c : FlagCache} (h : Consistent c) (keys : List Text)
    (source : Source) : Consistent (c.markInvalid keys source) := by
  intro key
  rw [markInvalid_slot]
  split_ifs
  · rintro _ ⟨⟩
  · exact h key

lemma lookup_of_mem {l : List (Text × ℚ)} (hnodup : (l.map Prod.fst).Nodup) {key : Text} {v : ℚ}
    (hmem : (key, v) ∈ l) : l.lookup key = some v := by
  induction l with
  | nil => simp at hmem
  | cons kv l ih =>
    obtain ⟨k, w⟩ := kv
    rw [List.map_cons, List.nodup_cons] at hnodup
    obtain heq | htail := List.mem_cons.1 hmem
    · obtain ⟨rfl, rfl⟩ := Prod.mk.inj heq
      exact List.lookup_cons_self
    · have hne : key ≠ k := by
        rintro rfl
        exact hnodup.1 (List.mem_map.2 ⟨_, htail, rfl⟩)
      rw [List.lookup_cons, beq_false_of_ne hne]
      exact ih hnodup.2 htail

/-- What a restore has read so far: active flags have the version of the record. -/
def Restored (p : Persisted) (c : FlagCache) : Prop :=
  ∀ key, c.invalidSources key = none ∧
    ∀ flag, c.flags key = some flag →
      c.authoritativeVersions key = some (flag.version : ℚ) ∧
        p.versions.lookup key = some (flag.version : ℚ)

lemma Restored.flag {p : Persisted} {c : FlagCache} (h : Restored p c) {flag : ClientFlagConfig}
    (hflag : p.versions.lookup flag.key = some (flag.version : ℚ)) :
    Restored p (FlagCache.restoreFlag p c flag) := by
  intro key
  have heq : FlagCache.restoreFlag p c flag =
      { c with
        authoritativeVersions :=
          Function.update c.authoritativeVersions flag.key (some (flag.version : ℚ))
        flags := Function.update c.flags flag.key (some flag)
        sources := Function.update c.sources flag.key (some .localStorage) } := by
    simp [FlagCache.restoreFlag, hflag]
  rw [heq]
  refine ⟨(h key).1, fun f hf => ?_⟩
  by_cases hkey : key = flag.key
  · subst hkey
    obtain rfl : flag = f := by simpa using hf
    exact ⟨Function.update_self _ _ _, hflag⟩
  · simp only [Function.update_of_ne hkey] at hf ⊢
    exact (h key).2 f hf

lemma Restored.tombstone {p : Persisted} {c : FlagCache} (h : Restored p c) {kv : Text × ℚ}
    (hkv : kv ∈ p.versions) : Restored p (FlagCache.restoreTombstone c kv) := by
  obtain ⟨k, v⟩ := kv
  unfold FlagCache.restoreTombstone
  split_ifs with hpos
  · intro key
    refine ⟨(h key).1, fun flag hflag => ?_⟩
    obtain ⟨hledger, hlookup⟩ := (h key).2 flag hflag
    refine ⟨?_, hlookup⟩
    by_cases hkey : key = k
    · subst hkey
      have hv := lookup_of_mem p.versions_nodup hkv
      rw [hlookup, Option.some.injEq] at hv
      replace hflag : c.flags key = some flag := hflag
      simp [hflag, hv]
    · simpa [Function.update_of_ne hkey] using hledger
  · exact h

lemma Consistent.restorePersisted {c : FlagCache} (h : Consistent c) (stored : Option Persisted) :
    Consistent (c.restorePersisted stored) := by
  unfold FlagCache.restorePersisted
  cases stored with
  | none => exact h
  | some p =>
    cases hparse : FlagCache.parsePersistedFlags p with
    | none => simpa [hparse] using h
    | some flags =>
      simp only [hparse]
      have hversions : ∀ f ∈ flags, p.versions.lookup f.key = some (f.version : ℚ) := by
        simp only [FlagCache.parsePersistedFlags] at hparse
        split_ifs at hparse with hok
        obtain rfl := Option.some.inj hparse
        simp only [Bool.and_eq_true, List.all_eq_true, decide_eq_true_eq] at hok
        exact hok.2
      have hstart : Restored p { FlagCache.empty with version := c.version } :=
        fun key => ⟨rfl, by rintro _ ⟨⟩⟩
      have hflags := List.foldlRecOn flags (FlagCache.restoreFlag p) hstart
        fun c hc f hf => hc.flag (hversions f hf)
      have hend := List.foldlRecOn p.versions FlagCache.restoreTombstone hflags
        fun c hc kv hkv => hc.tombstone hkv
      exact fun key flag hflag => ⟨((hend key).2 flag hflag).1, (hend key).1⟩

/-! ## Runs -/

/-- The operations that a run may take: any, with snapshots as in `SnapshotOk`. -/
def Permitted (c : FlagCache) : Act → Prop
  | .set payload _ => SnapshotOk c payload
  | _ => True

lemma Consistent.next {c c' : FlagCache} {a : Act} (h : Consistent c) (hok : Permitted c a)
    (hstep : next c a = some c') : Consistent c' := by
  cases a with
  | restore stored =>
    simp only [Cache.next] at hstep
    split_ifs at hstep
    exact Option.some.inj hstep ▸ h.restorePersisted stored
  | set payload source => exact Option.some.inj hstep ▸ h.set hok source
  | upsertIfNewer flag v source =>
    exact Option.some.inj hstep ▸ h.apply (.upsertIfNewer flag v source)
  | removeIfNewer key v => exact Option.some.inj hstep ▸ h.apply (.removeIfNewer key v)
  | markInvalid keys source => exact Option.some.inj hstep ▸ h.markInvalid keys source
  | markInvalidIfNewer key v source =>
    exact Option.some.inj hstep ▸ h.apply (.markInvalidIfNewer key v source)
  | clear =>
    obtain rfl := Option.some.inj hstep
    rintro key _ ⟨⟩

/-- Before any mutation the ledger is empty. -/
def Fresh (c : FlagCache) : Prop := c.version = 0 → ∀ key, c.authoritativeVersions key = none

lemma Fresh.apply {c : FlagCache} (h : Fresh c) (e : Event) : Fresh (e.apply c) := by
  cases e with
  | upsertIfNewer flag v source =>
    simp only [Event.apply, FlagCache.upsertIfNewer]
    split_ifs
    · exact h
    · exact fun h0 => absurd h0 (Nat.succ_ne_zero _)
  | removeIfNewer key v =>
    simp only [Event.apply, FlagCache.removeIfNewer]
    split_ifs
    · exact h
    · exact fun h0 => absurd h0 (Nat.succ_ne_zero _)
  | markInvalidIfNewer key v source =>
    simp only [Event.apply, FlagCache.markInvalidIfNewer]
    split_ifs
    · exact h
    · exact fun h0 => absurd h0 (Nat.succ_ne_zero _)

lemma Fresh.next {c c' : FlagCache} {a : Act} (h : Fresh c) (hstep : next c a = some c') :
    Fresh c' := by
  cases a with
  | restore stored =>
    simp only [Cache.next] at hstep
    split_ifs at hstep
    obtain rfl := Option.some.inj hstep
    cases stored with
    | none => exact h
    | some p =>
      unfold FlagCache.restorePersisted
      cases hparse : FlagCache.parsePersistedFlags p with
      | none => simpa [hparse] using h
      | some flags => simp [Fresh, hparse]
  | set payload source =>
    obtain rfl := Option.some.inj hstep
    exact fun h0 => absurd h0 (Nat.succ_ne_zero _)
  | upsertIfNewer flag v source =>
    exact Option.some.inj hstep ▸ h.apply (.upsertIfNewer flag v source)
  | removeIfNewer key v => exact Option.some.inj hstep ▸ h.apply (.removeIfNewer key v)
  | markInvalid keys source =>
    obtain rfl := Option.some.inj hstep
    exact fun h0 => absurd h0 (Nat.succ_ne_zero _)
  | markInvalidIfNewer key v source =>
    exact Option.some.inj hstep ▸ h.apply (.markInvalidIfNewer key v source)
  | clear =>
    obtain rfl := Option.some.inj hstep
    exact fun h0 => absurd h0 (Nat.succ_ne_zero _)

lemma LedgerLe.next {c c' : FlagCache} {a : Act} (hfresh : Fresh c) (ha : a ≠ .clear)
    (hstep : next c a = some c') : LedgerLe c c' := by
  cases a with
  | restore stored =>
    simp only [Cache.next] at hstep
    split_ifs at hstep with h0
    intro key v hv
    rw [hfresh h0 key] at hv
    exact absurd hv (by simp)
  | set payload source =>
    obtain rfl := Option.some.inj hstep
    exact fun key v hv => ledger_nextOf c payload.flags source hv
  | upsertIfNewer flag v source =>
    exact Option.some.inj hstep ▸ ledgerLe_apply c (.upsertIfNewer flag v source)
  | removeIfNewer key v => exact Option.some.inj hstep ▸ ledgerLe_apply c (.removeIfNewer key v)
  | markInvalid keys source =>
    obtain rfl := Option.some.inj hstep
    refine .of_eq (funext fun key => ?_)
    have hslot := congrArg Slot.authoritativeVersion (markInvalid_slot c keys source key)
    split_ifs at hslot
    · exact hslot
    · exact hslot
  | markInvalidIfNewer key v source =>
    exact Option.some.inj hstep ▸ ledgerLe_apply c (.markInvalidIfNewer key v source)
  | clear => exact absurd rfl ha

/-- **The flag cache's invariant.** In every state of a run whose snapshots are as in `SnapshotOk`,
each active flag has its version in the ledger and no active key is marked invalid, and no operation
but clearing takes the version of a key back. -/
theorem cache_invariant {c : FlagCache} (h : machine.ReachUnder Permitted c) :
    (∀ key flag, c.flags key = some flag →
        c.authoritativeVersions key = some (flag.version : ℚ) ∧ c.invalidSources key = none) ∧
      ∀ a c', machine.step c a = some c' → a ≠ .clear →
        ∀ key v, c.authoritativeVersions key = some v →
          ∃ v', c'.authoritativeVersions key = some v' ∧ v ≤ v' := by
  have hstart : Consistent machine.init ∧ Fresh machine.init :=
    ⟨by rintro key _ ⟨⟩, fun _ _ => rfl⟩
  have hinv : Consistent c ∧ Fresh c :=
    StepMachine.ReachUnder.induct (P := fun c => Consistent c ∧ Fresh c) hstart
      (fun s a s' _ hs hok hstep => ⟨hs.1.next hok hstep, hs.2.next hstep⟩) h
  exact ⟨hinv.1, fun a c' hstep ha => LedgerLe.next hinv.2 ha hstep⟩

/-- A snapshot with one newer flag and a malformed record of another key. -/
def newerSnapshot : ParseResult where
  flags := [plainFlag "checkout" 2]
  invalidKeys := [Text.ofString "banner"]
  flags_valid := by decide
  keys_valid := by decide

/-- A snapshot with two versions of a flag, the older one last. -/
def repeatedSnapshot : ParseResult where
  flags := [plainFlag "checkout" 3, plainFlag "checkout" 2]
  invalidKeys := []
  flags_valid := by decide
  keys_valid := by decide

/-- The cache after the first version of a flag. -/
def firstVersion : FlagCache := FlagCache.empty.upsertIfNewer (plainFlag "checkout" 1) 1 .sse

/-- The first version of a flag, then a snapshot with the second. -/
theorem cache_invariant_newerSnapshot :
    let c := firstVersion.set newerSnapshot.flags .initialFetch newerSnapshot.invalidKeys
    machine.ReachUnder Permitted c ∧
      c.flags (Text.ofString "checkout") = some (plainFlag "checkout" 2) ∧
      c.authoritativeVersions (Text.ofString "checkout") = some ((plainFlag "checkout" 2).version : ℚ) := by
  have hfirst : machine.ReachUnder Permitted firstVersion :=
    .step (a := .upsertIfNewer (plainFlag "checkout" 1) 1 .sse) .init trivial rfl
  have hok : SnapshotOk firstVersion newerSnapshot := by
    have hfirst : firstVersion.flags (Text.ofString "checkout") = some (plainFlag "checkout" 1) := by
      decide +kernel
    refine ⟨fun key previous hprev front last hlist _ f hf => ?_, fun key hkey f hf => ?_⟩
    · have hlisted : listed newerSnapshot.flags key =
          if Text.ofString "checkout" = key then [plainFlag "checkout" 2] else [] := by
        simp [newerSnapshot, listed, plainFlag, List.filter_cons]
      rw [hlisted] at hlist
      split_ifs at hlist with hkey
      · obtain ⟨rfl, rfl⟩ : front = [] ∧ last = plainFlag "checkout" 2 := by
          cases front with
          | nil => simpa [eq_comm] using hlist
          | cons g front => simp at hlist
        subst hkey
        rw [hfirst, Option.some.injEq] at hprev
        subst hprev
        obtain rfl : f = plainFlag "checkout" 1 := by simpa using hf
        decide
      · simp at hlist
    · obtain rfl : key = Text.ofString "banner" := by simpa [newerSnapshot] using hkey
      have hnone : listed newerSnapshot.flags (Text.ofString "banner") = [] := by decide +kernel
      rw [hnone] at hf
      exact absurd hf (by simp)
  have hreach : machine.ReachUnder Permitted
      (firstVersion.set newerSnapshot.flags .initialFetch newerSnapshot.invalidKeys) :=
    hfirst.step (a := .set newerSnapshot .initialFetch) hok rfl
  have hactive : (firstVersion.set newerSnapshot.flags .initialFetch
      newerSnapshot.invalidKeys).flags (Text.ofString "checkout") =
        some (plainFlag "checkout" 2) := by decide +kernel
  exact ⟨hreach, hactive, ((cache_invariant hreach).1 _ _ hactive).1⟩

/-- A snapshot with a flag and a malformed record of the same key. -/
def conflictingSnapshot : ParseResult where
  flags := [plainFlag "checkout" 2]
  invalidKeys := [Text.ofString "checkout"]
  flags_valid := by decide
  keys_valid := by decide

/-- After a snapshot that lists an active key twice, the older version last, the flag from before
the snapshot is active while the ledger has the newest version; and a snapshot that lists a key both
as a flag and as invalid makes it both. -/
theorem repeated_key_restores_old_flag :
    let c := firstVersion.set repeatedSnapshot.flags .initialFetch repeatedSnapshot.invalidKeys
    let d := firstVersion.set conflictingSnapshot.flags .initialFetch conflictingSnapshot.invalidKeys
    (machine.Reach c ∧
        c.flags (Text.ofString "checkout") = some (plainFlag "checkout" 1) ∧
        c.authoritativeVersions (Text.ofString "checkout") = some 3) ∧
      machine.Reach d ∧
        d.flags (Text.ofString "checkout") = some (plainFlag "checkout" 2) ∧
        d.invalidSources (Text.ofString "checkout") = some .initialFetch := by
  have hfirst : machine.Reach firstVersion :=
    .step (a := .upsertIfNewer (plainFlag "checkout" 1) 1 .sse) .init trivial rfl
  refine ⟨⟨hfirst.next (a := .set repeatedSnapshot .initialFetch) rfl, ?_⟩,
    hfirst.next (a := .set conflictingSnapshot .initialFetch) rfl, ?_⟩
  · decide +kernel
  · decide +kernel

end Apdl.Sdk.Cache
