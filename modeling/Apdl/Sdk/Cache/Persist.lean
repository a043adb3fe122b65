import Mathlib.Data.List.Dedup
import Apdl.Sdk.Cache.Invariant

set_option autoImplicit false

/-!
# Persisting the flag cache

`persistFlags` stores the active flags and the ledger, `restorePersisted` reads them into a fresh
cache. The reader refuses a record as a whole if one of its flags does not have its version in the
ledger, so that such a cache loses all its flags and tombstones.

## Main results

* `persistence_round_trip` — in runs with such snapshots the cache always does.
-/

namespace Apdl.Sdk.Cache

open Flags (ClientFlagConfig isIdentifier)

/-! ## What is stored -/

/-- The keys of a map in some order. -/
structure Lists {α : Type} (m : Text → Option α) (keys : List Text) : Prop where
  nodup : keys.Nodup
  mem_iff : ∀ key, key ∈ keys ↔ (m key).isSome = true

/-- The entries of a map at the listed keys. -/
def entries {α : Type} (m : Text → Option α) (keys : List Text) : List (Text × α) :=
  keys.filterMap fun key => (m key).map fun a => (key, a)

variable {key : Text}

lemma mem_entries {α : Type} {m : Text → Option α} {keys : List Text} {a : α} :
    (key, a) ∈ entries m keys ↔ key ∈ keys ∧ m key = some a := by
  simp only [entries, List.mem_filterMap, Option.map_eq_some_iff, Prod.mk.injEq]
  constructor
  · rintro ⟨k, hk, b, hb, rfl, rfl⟩
    exact ⟨hk, hb⟩
  · rintro ⟨hk, ha⟩
    exact ⟨key, hk, a, ha, rfl, rfl⟩

lemma entries_keys_sublist {α : Type} (m : Text → Option α) (keys : List Text) :
    ((entries m keys).map Prod.fst).Sublist keys := by
  induction keys with
  | nil => exact .refl _
  | cons key keys ih =>
    cases hm : m key with
    | none =>
      rw [entries, List.filterMap_cons_none (by rw [hm]; rfl)]
      exact ih.cons key
    | some a =>
      rw [entries, List.filterMap_cons_some (b := (key, a)) (by rw [hm]; rfl)]
      exact ih.cons_cons key

/-- `persistFlags`, for the orders of the two maps. -/
def FlagCache.persistFlags (c : FlagCache) (flagKeys versionKeys : List Text)
    (h : versionKeys.Nodup) : Persisted where
  flags := (entries c.flags flagKeys).map Prod.snd
  versions := entries c.authoritativeVersions versionKeys
  versions_nodup := (entries_keys_sublist _ _).nodup h

/-- An operation that cannot bring a flag back whose key has a version in the ledger: it carries no
newer one for the key. -/
def Stale (key : Text) (v : ℚ) : Act → Prop
  | .restore _ => False
  | .set payload _ => ∀ f ∈ payload.flags, f.key = key → (f.version : ℚ) ≤ v
  | .upsertIfNewer flag version _ => flag.key = key → version ≤ v
  | .removeIfNewer _ _ => True
  | .markInvalid _ _ => True
  | .markInvalidIfNewer _ _ _ => True
  | .clear => False

/-- What is stored of a cache restores its flags and its ledger, and a key that was not active stays
so through operations that are not newer than its version. -/
def RoundTrips (c : FlagCache) : Prop :=
  ∀ flagKeys versionKeys (_ : Lists c.flags flagKeys)
    (hversions : Lists c.authoritativeVersions versionKeys),
    let reloaded :=
      FlagCache.empty.restorePersisted (some (c.persistFlags flagKeys versionKeys hversions.nodup))
    reloaded.flags = c.flags ∧ reloaded.authoritativeVersions = c.authoritativeVersions ∧
      ∀ key v, c.flags key = none → c.authoritativeVersions key = some v →
        ∀ acts c', (∀ a ∈ acts, Stale key v a) → machine.run reloaded acts = some c' →
          c'.flags key = none

/-- Every active flag has its version in the ledger. -/
def LedgerMatches (c : FlagCache) : Prop :=
  ∀ key flag, c.flags key = some flag → c.authoritativeVersions key = some (flag.version : ℚ)

/-! ## What a cache holds -/

/-- What the callers have checked: flags and keys come from the parsers. -/
def Checked (_ : FlagCache) : Act → Prop
  | .upsertIfNewer flag _ _ => Flags.JavaScript.isFlagConfig flag = true
  | .removeIfNewer key _ => isIdentifier Text.unitLength key = true
  | .markInvalidIfNewer key _ _ => isIdentifier Text.unitLength key = true
  | _ => True

/-- What a key may hold: a valid flag of that key, whose version is recorded, and a positive integer
under an identifier. -/
structure Storable (key : Text) (s : Slot) : Prop where
  flag : ∀ f, s.flag = some f → f.key = key ∧ Flags.JavaScript.isFlagConfig f = true ∧
    s.authoritativeVersion.isSome = true
  version : ∀ v, s.authoritativeVersion = some v →
    isIdentifier Text.unitLength key = true ∧ isPositiveInteger v = true

/-- A cache whose keys can be stored, and are finitely many. -/
structure StorableCache (c : FlagCache) : Prop where
  slot : ∀ key, Storable key (c.slot key)
  finite : ∃ keys : List Text, ∀ key v, c.authoritativeVersions key = some v → key ∈ keys

lemma Storable.of_none {s : Slot} (hflag : s.flag = none)
    (hversion : s.authoritativeVersion = none) : Storable key s := by
  refine ⟨fun f hf => ?_, fun v hv => ?_⟩
  · rw [hflag] at hf
    cases hf
  · rw [hversion] at hv
    cases hv

lemma StorableCache.empty (version : ℕ) :
    StorableCache { FlagCache.empty with version := version } :=
  ⟨fun _ => .of_none rfl rfl, [], fun _ _ h => by cases h⟩

variable {f : ClientFlagConfig}

lemma isIdentifier_key (h : Flags.JavaScript.isFlagConfig f = true) :
    isIdentifier Text.unitLength f.key = true := by
  simp only [Flags.JavaScript.isFlagConfig, Bool.and_eq_true] at h
  exact h.1.1.1.1.1.1.1

lemma isPositiveInteger_version
    (h : Flags.JavaScript.isFlagConfig f = true) : isPositiveInteger (f.version : ℚ) = true := by
  have hpos : (1 : ℚ) ≤ f.version := by exact_mod_cast one_le_version h
  simp [isPositiveInteger, Rat.isInt, hpos]

def Event.Checked : Event → Prop
  | .upsertIfNewer flag _ _ => Flags.JavaScript.isFlagConfig flag = true
  | .removeIfNewer key _ => isIdentifier Text.unitLength key = true
  | .markInvalidIfNewer key _ _ => isIdentifier Text.unitLength key = true

lemma Event.storable_outcome {e : Event} (hchecked : e.Checked) (hwf : e.wellFormed = true) :
    Storable e.key e.outcome := by
  cases e with
  | upsertIfNewer flag v source =>
    simp only [Event.wellFormed, Bool.and_eq_true, decide_eq_true_eq] at hwf
    refine ⟨?_, ?_⟩
    · rintro _ ⟨⟩
      exact ⟨rfl, hchecked, rfl⟩
    · rintro _ ⟨⟩
      exact ⟨isIdentifier_key hchecked, hwf.2⟩
  | removeIfNewer key v =>
    refine ⟨?_, ?_⟩
    · rintro _ ⟨⟩
    · rintro _ ⟨⟩
      exact ⟨hchecked, hwf⟩
  | markInvalidIfNewer key v source =>
    refine ⟨?_, ?_⟩
    · rintro _ ⟨⟩
    · rintro _ ⟨⟩
      exact ⟨hchecked, hwf⟩

lemma Event.slot_apply_cases (c : FlagCache) (e : Event) (key : Text) :
    (e.apply c).slot key = c.slot key ∨
      (e.key = key ∧ e.wellFormed = true ∧ (e.apply c).slot key = e.outcome) := by
  rw [Event.slot_apply]
  split_ifs with hon
  · simp only [Event.on, Bool.and_eq_true, decide_eq_true_eq] at hon
    unfold Register.apply
    split_ifs
    · exact .inr ⟨hon.1, hon.2, rfl⟩
    · exact .inl rfl
  · exact .inl rfl

lemma StorableCache.apply {c : FlagCache} (h : StorableCache c) {e : Event}
    (hchecked : e.Checked) : StorableCache (e.apply c) := by
  refine ⟨fun key => ?_, ?_⟩
  · obtain hsame | ⟨rfl, hwf, hslot⟩ := e.slot_apply_cases c key
    · exact hsame ▸ h.slot key
    · exact hslot ▸ e.storable_outcome hchecked hwf
  · obtain ⟨keys, hkeys⟩ := h.finite
    refine ⟨e.key :: keys, fun key v hv => ?_⟩
    obtain hsame | ⟨rfl, -, -⟩ := e.slot_apply_cases c key
    · have hledger := congrArg Slot.authoritativeVersion hsame
      exact List.mem_cons_of_mem _ (hkeys key v (hledger.symm.trans hv))
    · exact List.mem_cons_self

lemma ledger_markInvalid (c : FlagCache) (keys : List Text) (source : Source) :
    (c.markInvalid keys source).authoritativeVersions = c.authoritativeVersions := by
  funext key
  have hslot := congrArg Slot.authoritativeVersion (markInvalid_slot c keys source key)
  split_ifs at hslot
  · exact hslot
  · exact hslot

lemma flags_markInvalid (c : FlagCache) (keys : List Text) (source : Source) (key : Text) :
    (c.markInvalid keys source).flags key = if key ∈ keys then none else c.flags key := by
  have hslot := congrArg Slot.flag (markInvalid_slot c keys source key)
  split_ifs at hslot ⊢
  · exact hslot
  · exact hslot

lemma StorableCache.markInvalid {c : FlagCache} (h : StorableCache c) (keys : List Text)
    (source : Source) : StorableCache (c.markInvalid keys source) := by
  refine ⟨fun key => ⟨fun f hf => ?_, fun v hv => ?_⟩, ?_⟩
  · replace hf : (c.markInvalid keys source).flags key = some f := hf
    rw [flags_markInvalid] at hf
    split_ifs at hf
    obtain ⟨hkey, hvalid, hsome⟩ := (h.slot key).flag f hf
    refine ⟨hkey, hvalid, ?_⟩
    show ((c.markInvalid keys source).authoritativeVersions key).isSome = true
    rw [ledger_markInvalid]
    exact hsome
  · replace hv : (c.markInvalid keys source).authoritativeVersions key = some v := hv
    rw [ledger_markInvalid] at hv
    exact (h.slot key).version v hv
  · rw [ledger_markInvalid]
    exact h.finite

lemma StorableCache.nextOf {c : FlagCache} (h : StorableCache c) (source : Source)
    (flags : List ClientFlagConfig)
    (hvalid : ∀ f ∈ flags, Flags.JavaScript.isFlagConfig f = true) :
    (∀ key f, (c.nextOf flags source).flags key = some f →
        f.key = key ∧ Flags.JavaScript.isFlagConfig f = true ∧
          ((c.nextOf flags source).authoritativeVersions key).isSome = true) ∧
      (∀ key v, (c.nextOf flags source).authoritativeVersions key = some v →
        isIdentifier Text.unitLength key = true ∧ isPositiveInteger v = true) ∧
      ∃ keys : List Text, ∀ key v,
        (c.nextOf flags source).authoritativeVersions key = some v → key ∈ keys := by
  induction flags using List.reverseRecOn with
  | nil => exact ⟨by rintro key f ⟨⟩, fun key => (h.slot key).version, h.finite⟩
  | append_singleton flags g ih =>
    obtain ⟨hflags, hversions, keys, hkeys⟩ := ih fun f hf => hvalid f (List.mem_append_left _ hf)
    have hg := hvalid g (by simp)
    rw [nextOf_concat]
    refine ⟨fun key f hf => ?_, fun key v hv => ?_, g.key :: keys, fun key v hv => ?_⟩
    · obtain ⟨-, hsame, hledger⟩ | ⟨rfl, hsame, m, hm, -, hledger⟩ | ⟨rfl, hnew, -, hledger⟩ :=
        setFlag_cases c source (c.nextOf flags source) g key
      · rw [hledger]
        exact hflags key f (hsame ▸ hf)
      · rw [hledger]
        rw [hsame] at hf
        cases hprev : c.flags g.key with
        | none =>
          rw [hprev, Option.none_or] at hf
          obtain ⟨hkey, hok, -⟩ := hflags g.key f hf
          exact ⟨hkey, hok, rfl⟩
        | some previous =>
          rw [hprev, Option.some_or, Option.some.injEq] at hf
          obtain ⟨hkey, hok, -⟩ := (h.slot g.key).flag f (hf ▸ hprev)
          exact ⟨hkey, hok, rfl⟩
      · rw [hnew, Option.some.injEq] at hf
        rw [hledger]
        exact ⟨hf ▸ rfl, hf ▸ hg, rfl⟩
    · obtain ⟨-, -, hledger⟩ | ⟨rfl, -, m, hm, -, hledger⟩ | ⟨rfl, -, -, hledger⟩ :=
        setFlag_cases c source (c.nextOf flags source) g key
      · exact hversions key v (hledger ▸ hv)
      · rw [hledger, Option.some.injEq] at hv
        exact hversions g.key v (hv ▸ hm)
      · rw [hledger, Option.some.injEq] at hv
        exact ⟨isIdentifier_key hg, hv ▸ isPositiveInteger_version hg⟩
    · obtain ⟨-, -, hledger⟩ | ⟨rfl, -⟩ | ⟨rfl, -⟩ :=
        setFlag_cases c source (c.nextOf flags source) g key
      · exact List.mem_cons_of_mem _ (hkeys key v (hledger ▸ hv))
      · exact List.mem_cons_self
      · exact List.mem_cons_self

lemma StorableCache.set {c : FlagCache} (h : StorableCache c) (payload : ParseResult)
    (source : Source) : StorableCache (c.set payload.flags source payload.invalidKeys) := by
  obtain ⟨hflags, hversions, hfinite⟩ := h.nextOf source payload.flags payload.flags_valid
  exact ⟨fun key => ⟨hflags key, hversions key⟩, hfinite⟩

/-! ## What a restore reads -/

variable {p : Persisted} {flags : List ClientFlagConfig}

lemma parsePersistedFlags_eq :
    FlagCache.parsePersistedFlags p = some flags ↔
      ((∀ kv ∈ p.versions, isIdentifier Text.unitLength kv.1 = true ∧
          isPositiveInteger kv.2 = true) ∧
        (∀ f ∈ p.flags, Flags.JavaScript.isFlagConfig f = true) ∧
        ∀ f ∈ p.flags, p.versions.lookup f.key = some (f.version : ℚ)) ∧ p.flags = flags := by
  unfold FlagCache.parsePersistedFlags
  split_ifs with hok
  · simp only [Bool.and_eq_true, List.all_eq_true, decide_eq_true_eq] at hok
    rw [Option.some.injEq]
    exact ⟨fun h => ⟨⟨hok.1.1, hok.1.2, hok.2⟩, h⟩, fun h => h.2⟩
  · refine ⟨False.elim, fun h => absurd ?_ hok⟩
    simp only [Bool.and_eq_true, List.all_eq_true, decide_eq_true_eq]
    exact ⟨⟨h.1.1, h.1.2.1⟩, h.1.2.2⟩

lemma restoreFlag_eq (hf : p.versions.lookup f.key = some (f.version : ℚ)) (r : FlagCache) :
    FlagCache.restoreFlag p r f =
      { r with
        authoritativeVersions :=
          Function.update r.authoritativeVersions f.key (some (f.version : ℚ))
        flags := Function.update r.flags f.key (some f)
        sources := Function.update r.sources f.key (some .localStorage) } := by
  simp [FlagCache.restoreFlag, hf]

lemma foldl_restoreFlag {c : FlagCache}
    (hledger : ∀ f ∈ flags, p.versions.lookup f.key = some (f.version : ℚ) ∧
      c.flags f.key = some f ∧ c.authoritativeVersions f.key = some (f.version : ℚ))
    (r : FlagCache) (key : Text) :
    (flags.foldl (FlagCache.restoreFlag p) r).flags key =
        (if key ∈ flags.map (·.key) then c.flags key else r.flags key) ∧
      (flags.foldl (FlagCache.restoreFlag p) r).authoritativeVersions key =
        if key ∈ flags.map (·.key) then c.authoritativeVersions key
        else r.authoritativeVersions key := by
  induction flags generalizing r with
  | nil => exact ⟨rfl, rfl⟩
  | cons f flags ih =>
    obtain ⟨hlookup, hflag, hversion⟩ := hledger f List.mem_cons_self
    obtain ⟨hflags, hversions⟩ :=
      ih (fun g hg => hledger g (List.mem_cons_of_mem f hg)) (FlagCache.restoreFlag p r f)
    rw [List.foldl_cons, hflags, hversions, restoreFlag_eq hlookup, List.map_cons]
    by_cases hmem : key ∈ flags.map (·.key)
    · rw [if_pos hmem, if_pos hmem, if_pos (List.mem_cons_of_mem _ hmem),
        if_pos (List.mem_cons_of_mem _ hmem)]
      exact ⟨rfl, rfl⟩
    · rw [if_neg hmem, if_neg hmem]
      by_cases hkey : key = f.key
      · subst hkey
        rw [if_pos List.mem_cons_self, if_pos List.mem_cons_self, hflag, hversion]
        exact ⟨Function.update_self _ _ _, Function.update_self _ _ _⟩
      · have hnot : key ∉ f.key :: flags.map (·.key) := by
          rw [List.mem_cons, not_or]
          exact ⟨hkey, hmem⟩
        rw [if_neg hnot, if_neg hnot]
        exact ⟨Function.update_of_ne hkey _ _, Function.update_of_ne hkey _ _⟩

variable {r : FlagCache}

lemma restoreTombstone_eq {kv : Text × ℚ} (hpos : isPositiveInteger kv.2 = true)
    (hactive : ∀ f, r.flags kv.1 = some f → (f.version : ℚ) = kv.2) :
    FlagCache.restoreTombstone r kv =
      { r with
        authoritativeVersions := Function.update r.authoritativeVersions kv.1 (some kv.2) } := by
  rw [FlagCache.restoreTombstone, if_pos hpos]
  cases hflag : r.flags kv.1 with
  | none =>
    have hnonneg : (0 : ℚ) ≤ kv.2 := by
      simp only [isPositiveInteger, Bool.and_eq_true, decide_eq_true_eq] at hpos
      linarith [hpos.2]
    simp [max_eq_right hnonneg]
  | some f => simp [hactive f hflag]

lemma foldl_restoreTombstone {c : FlagCache} (hmatches : LedgerMatches c) {l : List (Text × ℚ)}
    (hl : ∀ kv ∈ l, isPositiveInteger kv.2 = true ∧ c.authoritativeVersions kv.1 = some kv.2) (hr : r.flags = c.flags) :
    (l.foldl FlagCache.restoreTombstone r).flags = c.flags ∧
      ∀ key, (l.foldl FlagCache.restoreTombstone r).authoritativeVersions key =
        if key ∈ l.map Prod.fst then c.authoritativeVersions key
        else r.authoritativeVersions key := by
  induction l generalizing r with
  | nil => exact ⟨hr, fun _ => rfl⟩
  | cons kv l ih =>
    obtain ⟨hpos, hledger⟩ := hl kv List.mem_cons_self
    have hactive : ∀ f, r.flags kv.1 = some f → (f.version : ℚ) = kv.2 := by
      intro f hf
      rw [hr] at hf
      have := hmatches kv.1 f hf
      rw [hledger] at this
      exact (Option.some.inj this).symm
    rw [List.foldl_cons, restoreTombstone_eq hpos hactive]
    obtain ⟨hflags, hversions⟩ := ih (fun kv' hkv' => hl kv' (List.mem_cons_of_mem kv hkv'))
      (r := { r with authoritativeVersions := Function.update r.authoritativeVersions kv.1 (some kv.2) })
      hr
    refine ⟨hflags, fun key => ?_⟩
    rw [hversions, List.map_cons]
    by_cases hmem : key ∈ l.map Prod.fst
    · rw [if_pos hmem, if_pos (List.mem_cons_of_mem _ hmem)]
    · rw [if_neg hmem]
      by_cases hkey : key = kv.1
      · subst hkey
        rw [if_pos List.mem_cons_self, hledger]
        exact Function.update_self _ _ _
      · rw [if_neg (by rw [List.mem_cons, not_or]; exact ⟨hkey, hmem⟩)]
        exact Function.update_of_ne hkey _ _

lemma isPositiveInteger_max {a b : ℚ} (ha : isPositiveInteger a = true)
    (hb : isPositiveInteger b = true) : isPositiveInteger (max a b) = true := by
  obtain h | h := max_choice a b
  · rw [h, ha]
  · rw [h, hb]

lemma StorableCache.tombstone (h : StorableCache r) {kv : Text × ℚ}
    (hid : isIdentifier Text.unitLength kv.1 = true) (hpos : isPositiveInteger kv.2 = true) :
    StorableCache (FlagCache.restoreTombstone r kv) := by
  obtain ⟨v, hv, heq⟩ : ∃ v, isPositiveInteger v = true ∧ FlagCache.restoreTombstone r kv =
      { r with
        authoritativeVersions := Function.update r.authoritativeVersions kv.1 (some v) } := by
    cases hflag : r.flags kv.1 with
    | none => exact ⟨kv.2, hpos, restoreTombstone_eq hpos (by rw [hflag]; rintro f ⟨⟩)⟩
    | some f =>
      have hvalid := ((h.slot kv.1).flag f hflag).2.1
      refine ⟨max f.version kv.2, isPositiveInteger_max (isPositiveInteger_version hvalid) hpos, ?_⟩
      rw [FlagCache.restoreTombstone, if_pos hpos, hflag]
      rfl
  rw [heq]
  obtain ⟨keys, hkeys⟩ := h.finite
  refine ⟨fun key => ?_, kv.1 :: keys, fun key w hw => ?_⟩
  · by_cases hkey : key = kv.1
    · subst hkey
      refine ⟨fun f hf => ?_, fun w hw => ?_⟩
      · obtain ⟨hsame, hvalid, -⟩ := (h.slot kv.1).flag f hf
        exact ⟨hsame, hvalid, by simp [FlagCache.slot]⟩
      · obtain rfl : v = w := by simpa [FlagCache.slot] using hw
        exact ⟨hid, hv⟩
    · have hsame := h.slot key
      simpa [FlagCache.slot, Function.update_of_ne hkey] using
        (⟨hsame.flag, hsame.version⟩ : Storable key _)
  · by_cases hkey : key = kv.1
    · exact hkey ▸ List.mem_cons_self
    · refine List.mem_cons_of_mem _ (hkeys key w ?_)
      simpa [Function.update_of_ne hkey] using hw

lemma StorableCache.restoreFlag (h : StorableCache r) (hvalid : Flags.JavaScript.isFlagConfig f = true)
    (hlookup : p.versions.lookup f.key = some (f.version : ℚ)) :
    StorableCache (FlagCache.restoreFlag p r f) := by
  rw [restoreFlag_eq hlookup]
  obtain ⟨keys, hkeys⟩ := h.finite
  refine ⟨fun key => ?_, f.key :: keys, fun key v hv => ?_⟩
  · by_cases hkey : key = f.key
    · subst hkey
      refine ⟨fun g hg => ?_, fun v hv => ?_⟩
      · obtain rfl : f = g := by simpa [FlagCache.slot] using hg
        exact ⟨rfl, hvalid, by simp [FlagCache.slot]⟩
      · obtain rfl : (f.version : ℚ) = v := by simpa [FlagCache.slot] using hv
        exact ⟨isIdentifier_key hvalid, isPositiveInteger_version hvalid⟩
    · have hsame := h.slot key
      simpa [FlagCache.slot, Function.update_of_ne hkey] using
        (⟨hsame.flag, hsame.version⟩ : Storable key _)
  · by_cases hkey : key = f.key
    · exact hkey ▸ List.mem_cons_self
    · refine List.mem_cons_of_mem _ (hkeys key v ?_)
      simpa [Function.update_of_ne hkey] using hv

lemma restorePersisted_some (c : FlagCache)
    (hparse : FlagCache.parsePersistedFlags p = some flags) :
    c.restorePersisted (some p) =
      let restored := p.versions.foldl FlagCache.restoreTombstone
        (flags.foldl (FlagCache.restoreFlag p) { FlagCache.empty with version := c.version })
      { restored with version := restored.version + 1 } := by
  simp only [FlagCache.restorePersisted, hparse]

lemma restorePersisted_none (c : FlagCache)
    (hparse : FlagCache.parsePersistedFlags p = none) : c.restorePersisted (some p) = c := by
  simp only [FlagCache.restorePersisted, hparse]

lemma StorableCache.restorePersisted {c : FlagCache} (h : StorableCache c)
    (stored : Option Persisted) : StorableCache (c.restorePersisted stored) := by
  cases stored with
  | none => exact h
  | some p =>
    cases hparse : FlagCache.parsePersistedFlags p with
    | none =>
      rw [restorePersisted_none c hparse]
      exact h
    | some flags =>
      obtain ⟨⟨hversions, hvalid, hlookup⟩, rfl⟩ := parsePersistedFlags_eq.1 hparse
      have hflags := List.foldlRecOn p.flags (FlagCache.restoreFlag p)
        (StorableCache.empty c.version) fun r hr f hf => hr.restoreFlag (hvalid f hf) (hlookup f hf)
      have hend := List.foldlRecOn p.versions FlagCache.restoreTombstone hflags
        fun r hr kv hkv => hr.tombstone (hversions kv hkv).1 (hversions kv hkv).2
      rw [restorePersisted_some c hparse]
      exact ⟨hend.slot, hend.finite⟩

/-! ## The round trip -/

lemma StorableCache.exists_lists {c : FlagCache} (h : StorableCache c) :
    ∃ flagKeys versionKeys, Lists c.flags flagKeys ∧ Lists c.authoritativeVersions versionKeys := by
  obtain ⟨keys, hkeys⟩ := h.finite
  have hmem : ∀ key, (c.authoritativeVersions key).isSome = true → key ∈ keys.dedup := by
    intro key hsome
    obtain ⟨v, hv⟩ := Option.isSome_iff_exists.1 hsome
    exact List.mem_dedup.2 (hkeys key v hv)
  refine ⟨keys.dedup.filter fun key => (c.flags key).isSome,
    keys.dedup.filter fun key => (c.authoritativeVersions key).isSome,
    ⟨(List.nodup_dedup keys).filter _, fun key => ?_⟩,
    ⟨(List.nodup_dedup keys).filter _, fun key => ?_⟩⟩
  · refine ⟨fun hkey => (List.mem_filter.1 hkey).2, fun hsome => List.mem_filter.2 ⟨?_, hsome⟩⟩
    obtain ⟨f, hf⟩ := Option.isSome_iff_exists.1 hsome
    exact hmem key ((h.slot key).flag f hf).2.2
  · exact ⟨fun hkey => (List.mem_filter.1 hkey).2,
      fun hsome => List.mem_filter.2 ⟨hmem key hsome, hsome⟩⟩

section Stored

variable {c : FlagCache} {flagKeys versionKeys : List Text}

lemma mem_persistFlags (h : StorableCache c) (hflags : Lists c.flags flagKeys)
    (hversions : versionKeys.Nodup) (f : ClientFlagConfig) :
    f ∈ (c.persistFlags flagKeys versionKeys hversions).flags ↔ c.flags f.key = some f := by
  constructor
  · intro hf
    obtain ⟨⟨key, g⟩, hmem, rfl⟩ := List.mem_map.1 hf
    have hg := (mem_entries.1 hmem).2
    dsimp only
    rwa [((h.slot key).flag g hg).1]
  · intro hf
    refine List.mem_map.2 ⟨(f.key, f), mem_entries.2 ⟨(hflags.mem_iff f.key).2 ?_, hf⟩, rfl⟩
    rw [hf]
    rfl

lemma lookup_persistFlags (hversions : Lists c.authoritativeVersions versionKeys) {key : Text}
    {v : ℚ} (hv : c.authoritativeVersions key = some v) :
    (c.persistFlags flagKeys versionKeys hversions.nodup).versions.lookup key = some v := by
  refine lookup_of_mem (Persisted.versions_nodup _) (mem_entries.2 ⟨?_, hv⟩)
  rw [hversions.mem_iff, hv]
  rfl

lemma parse_persistFlags (h : StorableCache c) (hmatches : LedgerMatches c)
    (hflags : Lists c.flags flagKeys) (hversions : Lists c.authoritativeVersions versionKeys) :
    FlagCache.parsePersistedFlags (c.persistFlags flagKeys versionKeys hversions.nodup) =
      some (c.persistFlags flagKeys versionKeys hversions.nodup).flags := by
  refine parsePersistedFlags_eq.2 ⟨⟨fun kv hkv => ?_, fun f hf => ?_, fun f hf => ?_⟩, rfl⟩
  · exact (h.slot kv.1).version kv.2 (mem_entries.1 hkv).2
  · exact ((h.slot f.key).flag f ((mem_persistFlags h hflags _ f).1 hf)).2.1
  · exact lookup_persistFlags hversions
      (hmatches f.key f ((mem_persistFlags h hflags _ f).1 hf))

lemma parse_persistFlags_none (h : StorableCache c) (hflags : Lists c.flags flagKeys)
    (hversions : Lists c.authoritativeVersions versionKeys) {key : Text} {flag : ClientFlagConfig}
    (hflag : c.flags key = some flag)
    (hledger : c.authoritativeVersions key ≠ some (flag.version : ℚ)) :
    FlagCache.parsePersistedFlags (c.persistFlags flagKeys versionKeys hversions.nodup) = none := by
  obtain ⟨hkey, -, hsome⟩ := (h.slot key).flag flag hflag
  obtain ⟨v, hv⟩ := Option.isSome_iff_exists.1 hsome
  replace hv : c.authoritativeVersions key = some v := hv
  cases hparse : FlagCache.parsePersistedFlags
      (c.persistFlags flagKeys versionKeys hversions.nodup) with
  | none => rfl
  | some flags =>
    obtain ⟨⟨-, -, hlookup⟩, -⟩ := parsePersistedFlags_eq.1 hparse
    subst hkey
    have hstored := hlookup flag ((mem_persistFlags h hflags hversions.nodup flag).2 hflag)
    rw [lookup_persistFlags hversions hv] at hstored
    exact absurd (hv.trans hstored) hledger

/-- **A fresh cache restores** the flags and the ledger, if every active flag has its version in the
ledger. -/
lemma restore_persistFlags (h : StorableCache c) (hmatches : LedgerMatches c)
    (hflags : Lists c.flags flagKeys) (hversions : Lists c.authoritativeVersions versionKeys) :
    let reloaded :=
      FlagCache.empty.restorePersisted (some (c.persistFlags flagKeys versionKeys hversions.nodup))
    reloaded.flags = c.flags ∧ reloaded.authoritativeVersions = c.authoritativeVersions := by
  intro reloaded
  set p := c.persistFlags flagKeys versionKeys hversions.nodup with hp
  have hparse : FlagCache.parsePersistedFlags p = some p.flags :=
    parse_persistFlags h hmatches hflags hversions
  have hactive : ∀ f ∈ p.flags, p.versions.lookup f.key = some (f.version : ℚ) ∧
      c.flags f.key = some f ∧ c.authoritativeVersions f.key = some (f.version : ℚ) := by
    intro f hf
    have hflag := (mem_persistFlags h hflags hversions.nodup f).1 hf
    have hversion := hmatches f.key f hflag
    exact ⟨lookup_persistFlags hversions hversion, hflag, hversion⟩
  set r := p.flags.foldl (FlagCache.restoreFlag p) { FlagCache.empty with version := 0 } with hr
  have hrflags : r.flags = c.flags := by
    funext key
    rw [hr, (foldl_restoreFlag hactive _ key).1]
    split_ifs with hmem
    · rfl
    · cases hflag : c.flags key with
      | none => rfl
      | some f =>
        have hkey := ((h.slot key).flag f hflag).1
        subst hkey
        exact absurd (List.mem_map.2 ⟨f, (mem_persistFlags h hflags hversions.nodup f).2 hflag,
          rfl⟩) hmem
  obtain ⟨hend, hledger⟩ := foldl_restoreTombstone hmatches (l := p.versions) (fun kv hkv =>
    have hv := (mem_entries.1 hkv).2
    ⟨((h.slot kv.1).version kv.2 hv).2, hv⟩) hrflags
  have hreloaded : reloaded = _ := restorePersisted_some FlagCache.empty hparse
  rw [hreloaded]
  refine ⟨hend, funext fun key => ?_⟩
  refine (hledger key).trans ?_
  split_ifs with hmem
  · rfl
  · cases hv : c.authoritativeVersions key with
    | none =>
      rw [hr, (foldl_restoreFlag hactive _ key).2]
      split_ifs
      · exact hv
      · rfl
    | some v =>
      refine absurd (List.mem_map.2 ⟨(key, v), mem_entries.2 ⟨?_, hv⟩, rfl⟩) hmem
      rw [hversions.mem_iff, hv]
      rfl

end Stored

lemma Stale.step {c c' : FlagCache} {v w : ℚ} {a : Act} (ha : Stale key v a)
    (hflag : c.flags key = none) (hledger : c.authoritativeVersions key = some w) (hle : v ≤ w)
    (hstep : machine.step c a = some c') :
    c'.flags key = none ∧ ∃ w', c'.authoritativeVersions key = some w' ∧ v ≤ w' := by
  have hevent : ∀ e : Event, (e.key = key → ∀ f, e.outcome.flag = some f → e.version ≤ v) →
      (e.apply c).flags key = none ∧
        ∃ w', (e.apply c).authoritativeVersions key = some w' ∧ v ≤ w' := by
    intro e he
    obtain ⟨w', hw', hww⟩ := ledgerLe_apply c e key w hledger
    refine ⟨?_, w', hw', hle.trans hww⟩
    have hslot := congrArg Slot.flag (e.slot_apply c key)
    have hrank : slotRegister.rank (c.slot key) = w := by
      show (c.authoritativeVersions key).getD 0 = w
      rw [hledger, Option.getD_some]
    refine Eq.trans hslot ?_
    split_ifs with hon
    · unfold Register.apply
      split_ifs with hnew
      · simp only [Event.on, Bool.and_eq_true, decide_eq_true_eq] at hon
        rw [hrank] at hnew
        show e.outcome.flag = none
        cases hout : e.outcome.flag with
        | none => rfl
        | some f => exact absurd hnew (not_lt.2 ((he hon.1 f hout).trans hle))
      · exact hflag
    · exact hflag
  cases a with
  | restore stored => exact ha.elim
  | clear => exact ha.elim
  | set payload source =>
    obtain rfl := Option.some.inj hstep
    obtain ⟨w', hw', hww⟩ := ledger_nextOf c payload.flags source hledger
    refine ⟨(nextOf_known hflag payload.flags source fun f hf => ?_).1, w', hw', hle.trans hww⟩
    obtain ⟨hmem, hkey⟩ := List.mem_filter.1 hf
    refine ⟨one_le_version (payload.flags_valid f hmem), ?_⟩
    rw [hledger, Option.getD_some]
    exact (ha f hmem (of_decide_eq_true hkey)).trans hle
  | upsertIfNewer flag version source =>
    exact Option.some.inj hstep ▸ hevent (.upsertIfNewer flag version source)
      fun hkey _ _ => ha hkey
  | removeIfNewer k version =>
    exact Option.some.inj hstep ▸ hevent (.removeIfNewer k version) (by rintro - f ⟨⟩)
  | markInvalid keys source =>
    obtain rfl := Option.some.inj hstep
    rw [flags_markInvalid, ledger_markInvalid]
    exact ⟨by split_ifs <;> [rfl; exact hflag], w, hledger, hle⟩
  | markInvalidIfNewer k version source =>
    exact Option.some.inj hstep ▸ hevent (.markInvalidIfNewer k version source) (by rintro - f ⟨⟩)

lemma stale_run {c c' : FlagCache} {v : ℚ} {acts : List Act}
    (hflag : c.flags key = none) (hledger : c.authoritativeVersions key = some v)
    (hstale : ∀ a ∈ acts, Stale key v a) (hrun : machine.run c acts = some c') :
    c'.flags key = none := by
  refine (StepMachine.run_induct (M := machine)
    (P := fun c => c.flags key = none ∧ ∃ w, c.authoritativeVersions key = some w ∧ v ≤ w) acts
    ⟨hflag, v, hledger, le_rfl⟩ (fun t a t' htakes ht hstep => ?_) hrun).1
  obtain ⟨before, after, rfl, -⟩ := htakes
  obtain ⟨hnone, w, hw, hle⟩ := ht
  exact (hstale a (by simp)).step hnone hw hle hstep

/-- **A cache round-trips exactly if every active flag has its version in the ledger.** -/
lemma roundTrips_iff {c : FlagCache} (h : StorableCache c) : RoundTrips c ↔ LedgerMatches c := by
  constructor
  · intro hround key flag hflag
    obtain ⟨flagKeys, versionKeys, hflags, hversions⟩ := h.exists_lists
    obtain ⟨hrestored, -⟩ := hround flagKeys versionKeys hflags hversions
    by_contra hledger
    have hparse := parse_persistFlags_none h hflags hversions hflag hledger
    rw [restorePersisted_none _ hparse] at hrestored
    rw [← hrestored] at hflag
    cases hflag
  · intro hmatches flagKeys versionKeys hflags hversions reloaded
    obtain ⟨hrestored, hledger⟩ := restore_persistFlags h hmatches hflags hversions
    refine ⟨hrestored, hledger, fun key v hflag hv acts c' hstale hrun => ?_⟩
    exact stale_run ((congrFun hrestored key).trans hflag) ((congrFun hledger key).trans hv)
      hstale hrun

/-! ## Runs -/

/-- If a snapshot has a newer version of an active key, then the last of its flags for the key is
newer than the others and than the active one. -/
def LastNewest (c : FlagCache) (flags : List ClientFlagConfig) : Prop :=
  ∀ key previous, c.flags key = some previous →
    ∀ front last, listed flags key = front ++ [last] →
      (∃ f ∈ front ++ [last], previous.version < f.version) →
        ∀ f ∈ previous :: front, f.version < last.version

/-- The operations of a run: checked ones, with snapshots as in `LastNewest`. -/
def Recording (c : FlagCache) : Act → Prop
  | .set payload _ => LastNewest c payload.flags
  | a => Checked c a

lemma LedgerMatches.apply {c : FlagCache} (h : LedgerMatches c) (e : Event) :
    LedgerMatches (e.apply c) := by
  intro key flag hflag
  obtain hsame | ⟨rfl, hwf, hslot⟩ := e.slot_apply_cases c key
  · have hledger := congrArg Slot.authoritativeVersion hsame
    exact hledger.trans (h key flag ((congrArg Slot.flag hsame).symm.trans hflag))
  · refine (congrArg Slot.authoritativeVersion hslot).trans ?_
    replace hflag := (congrArg Slot.flag hslot).symm.trans hflag
    cases e with
    | upsertIfNewer f v source =>
      simp only [Event.wellFormed, Bool.and_eq_true, decide_eq_true_eq] at hwf
      obtain rfl := Option.some.inj hflag
      exact congrArg some hwf.1.symm
    | removeIfNewer k v => cases hflag
    | markInvalidIfNewer k v source => cases hflag

lemma LedgerMatches.set {c : FlagCache} (h : LedgerMatches c) {payload : ParseResult}
    (hlast : LastNewest c payload.flags) (source : Source) :
    LedgerMatches (c.set payload.flags source payload.invalidKeys) := by
  intro key flag hflag
  -- the loop does not read the invalid keys, neither those before nor those of the snapshot
  have hok : SnapshotOk { c with invalidSources := fun _ => none } { payload with
      invalidKeys := [], keys_valid := fun _ hk => (List.not_mem_nil hk).elim } :=
    ⟨hlast, fun _ hkey => (List.not_mem_nil hkey).elim⟩
  exact hok.ledger (fun key f hf => ⟨h key f hf, rfl⟩) source hflag

lemma LedgerMatches.restorePersisted {c : FlagCache} (h : LedgerMatches c)
    (stored : Option Persisted) : LedgerMatches (c.restorePersisted stored) := by
  cases stored with
  | none => exact h
  | some p =>
    cases hparse : FlagCache.parsePersistedFlags p with
    | none =>
      rw [restorePersisted_none c hparse]
      exact h
    | some flags =>
      have hversion : LedgerMatches ({ FlagCache.empty with version := c.version }
          |>.restorePersisted (some p)) := by
        have hstart : Consistent { FlagCache.empty with version := c.version } := by
          rintro key _ ⟨⟩
        exact fun key flag hflag => ((hstart.restorePersisted (some p)) key flag hflag).1
      rw [restorePersisted_some _ hparse] at hversion ⊢
      exact hversion

lemma nextOf_ge (c : FlagCache) (flags : List ClientFlagConfig) (source : Source) (hf : f ∈ flags) :
    ∃ m, (c.nextOf flags source).authoritativeVersions f.key = some m ∧ (f.version : ℚ) ≤ m := by
  induction flags using List.reverseRecOn with
  | nil => cases hf
  | append_singleton flags g ih =>
    rw [nextOf_concat]
    obtain hmem | hg := List.mem_append.1 hf
    · obtain ⟨m, hm, hle⟩ := ih hmem
      obtain ⟨-, -, hledger⟩ | ⟨-, -, m', hm', -, hledger⟩ | ⟨-, -, hnew, hledger⟩ :=
        setFlag_cases c source (c.nextOf flags source) g f.key
      · exact ⟨m, hledger.trans hm, hle⟩
      · exact ⟨m, hledger.trans (hm'.symm.trans hm), hle⟩
      · exact ⟨g.version, hledger, hle.trans (hnew m hm).le⟩
    · obtain rfl := List.mem_singleton.1 hg
      obtain ⟨hne, -⟩ | ⟨-, -, m', -, hle, hledger⟩ | ⟨-, -, -, hledger⟩ :=
        setFlag_cases c source (c.nextOf flags source) f f.key
      · exact absurd rfl hne
      · exact ⟨m', hledger, hle⟩
      · exact ⟨f.version, hledger, le_rfl⟩

lemma nextOf_last {c : FlagCache} {previous : ClientFlagConfig}
    (hkey : c.flags key = some previous) (flags : List ClientFlagConfig) (source : Source)
    {front : List ClientFlagConfig} {last : ClientFlagConfig}
    (hlist : listed flags key = front ++ [last]) :
    (c.nextOf flags source).flags key = some previous ∨
      ((c.nextOf flags source).flags key = some last ∧
        ∀ f ∈ front, f.version < last.version) := by
  induction flags using List.reverseRecOn with
  | nil => simp [listed] at hlist
  | append_singleton flags g ih =>
    rw [listed_concat] at hlist
    rw [nextOf_concat]
    obtain ⟨hg, hflags, -⟩ | ⟨-, hflags, -⟩ | ⟨hg, hflags, hnew, -⟩ :=
      setFlag_cases c source (c.nextOf flags source) g key
    · rw [if_neg hg] at hlist
      rw [hflags]
      exact ih hlist
    · exact .inl (by rw [hflags, hkey, Option.some_or])
    · rw [if_pos hg] at hlist
      obtain ⟨rfl, hlast⟩ := List.append_inj' hlist rfl
      obtain rfl : g = last := by simpa using hlast
      refine .inr ⟨hflags, fun f hf => ?_⟩
      obtain ⟨hmem, hfkey⟩ := List.mem_filter.1 hf
      obtain rfl := of_decide_eq_true hfkey
      obtain ⟨m, hm, hle⟩ := nextOf_ge c flags source hmem
      exact_mod_cast hle.trans_lt (hnew m hm)

lemma lastNewest_of_ledgerMatches {c : FlagCache} {payload : ParseResult} {source : Source}
    (hafter : LedgerMatches (c.set payload.flags source payload.invalidKeys)) :
    LastNewest c payload.flags := by
  intro key previous hkey front last hlist ⟨f, hf, hlt⟩
  -- the ledger has at least every listed version
  have hge : ∀ g ∈ front ++ [last], ∀ flag,
      (c.nextOf payload.flags source).flags key = some flag → g.version ≤ flag.version := by
    intro g hg flag hflag
    rw [← hlist] at hg
    obtain ⟨hmem, hgkey⟩ := List.mem_filter.1 hg
    obtain rfl := of_decide_eq_true hgkey
    obtain ⟨m, hm, hle⟩ := nextOf_ge c payload.flags source hmem
    have hledger : (c.nextOf payload.flags source).authoritativeVersions g.key =
        some (flag.version : ℚ) := hafter g.key flag hflag
    rw [hm, Option.some.injEq] at hledger
    exact_mod_cast hledger ▸ hle
  obtain hprevious | ⟨hlast, hfront⟩ := nextOf_last hkey payload.flags source hlist
  · exact absurd (hge f hf previous hprevious) (not_le.2 hlt)
  · intro g hg
    obtain rfl | hg := List.mem_cons.1 hg
    · exact hlt.trans_le (hge f hf last hlast)
    · exact hfront g hg

lemma storableCache_of_checked {c : FlagCache} (h : machine.ReachUnder Checked c) :
    StorableCache c := by
  refine StepMachine.ReachUnder.induct (.empty 0) (fun c a c' _ hc hok hstep => ?_) h
  cases a with
  | restore stored =>
    simp only [machine, Cache.next] at hstep
    split_ifs at hstep
    exact Option.some.inj hstep ▸ hc.restorePersisted stored
  | set payload source => exact Option.some.inj hstep ▸ hc.set payload source
  | upsertIfNewer flag v source =>
    exact Option.some.inj hstep ▸ hc.apply (e := .upsertIfNewer flag v source) hok
  | removeIfNewer key v => exact Option.some.inj hstep ▸ hc.apply (e := .removeIfNewer key v) hok
  | markInvalid keys source => exact Option.some.inj hstep ▸ hc.markInvalid keys source
  | markInvalidIfNewer key v source =>
    exact Option.some.inj hstep ▸ hc.apply (e := .markInvalidIfNewer key v source) hok
  | clear =>
    obtain rfl := Option.some.inj hstep
    exact .empty _

lemma ledgerMatches_of_recording {c : FlagCache} (h : machine.ReachUnder Recording c) :
    LedgerMatches c := by
  have hempty : LedgerMatches machine.init := by rintro key _ ⟨⟩
  refine StepMachine.ReachUnder.induct hempty (fun c a c' _ hc hok hstep => ?_) h
  cases a with
  | restore stored =>
    simp only [machine, Cache.next] at hstep
    split_ifs at hstep
    exact Option.some.inj hstep ▸ hc.restorePersisted stored
  | set payload source => exact Option.some.inj hstep ▸ hc.set hok source
  | upsertIfNewer flag v source =>
    exact Option.some.inj hstep ▸ hc.apply (.upsertIfNewer flag v source)
  | removeIfNewer key v => exact Option.some.inj hstep ▸ hc.apply (.removeIfNewer key v)
  | markInvalid keys source =>
    obtain rfl := Option.some.inj hstep
    intro key flag hflag
    rw [flags_markInvalid] at hflag
    split_ifs at hflag
    rw [ledger_markInvalid]
    exact hc key flag hflag
  | markInvalidIfNewer key v source =>
    exact Option.some.inj hstep ▸ hc.apply (.markInvalidIfNewer key v source)
  | clear =>
    obtain rfl := Option.some.inj hstep
    rintro key _ ⟨⟩

lemma checked_of_recording {c : FlagCache} (h : machine.ReachUnder Recording c) :
    machine.ReachUnder Checked c := by
  induction h with
  | init => exact .init
  | @step s s' a _ hok hstep ih =>
    refine ih.step ?_ hstep
    cases a with
    | set payload source => exact trivial
    | _ => exact hok

/-- **The round trip through the storage.** In every state of a run whose snapshots are as in
`LastNewest`, a fresh cache that restores what is stored has the same active flags and the same
ledger, and no event or snapshot that is not newer brings a flag back; and the next snapshot keeps
this exactly if it is as in `LastNewest`. -/
theorem persistence_round_trip {c : FlagCache} (h : machine.ReachUnder Recording c) :
    RoundTrips c ∧ ∀ (payload : ParseResult) (source : Source),
      RoundTrips (c.set payload.flags source payload.invalidKeys) ↔
        LastNewest c payload.flags := by
  have hstorable := storableCache_of_checked (checked_of_recording h)
  have hmatches := ledgerMatches_of_recording h
  refine ⟨(roundTrips_iff hstorable).2 hmatches, fun payload source => ?_⟩
  rw [roundTrips_iff (hstorable.set payload source)]
  exact ⟨lastNewest_of_ledgerMatches, fun hlast => hmatches.set hlast source⟩

/-- A flag, and the removal of another one. -/
def removedBanner : FlagCache := firstVersion.removeIfNewer (Text.ofString "banner") 5

/-- The removed flag stays out after a reload. -/
theorem persistence_round_trip_removal :
    machine.ReachUnder Recording removedBanner ∧ RoundTrips removedBanner := by
  have hfirst : machine.ReachUnder Recording firstVersion :=
    .step (a := .upsertIfNewer (plainFlag "checkout" 1) 1 .sse) .init
      (by show Flags.JavaScript.isFlagConfig _ = true; decide) rfl
  have hremoved : machine.ReachUnder Recording removedBanner :=
    hfirst.step (a := .removeIfNewer (Text.ofString "banner") 5)
      (by show isIdentifier _ _ = true; decide) rfl
  exact ⟨hremoved, (persistence_round_trip hremoved).1⟩

/-- After a snapshot that lists an active key twice, the older version last, what is stored is
refused: the reloaded cache has no flag, and an event that is older than a removal brings a flag
back. -/
theorem refused_record_loses_tombstone :
    let c := removedBanner.set repeatedSnapshot.flags .initialFetch repeatedSnapshot.invalidKeys
    machine.ReachUnder Checked c ∧ ¬ RoundTrips c ∧
      c.flags (Text.ofString "banner") = none ∧
      c.authoritativeVersions (Text.ofString "banner") = some 5 ∧
      ∀ flagKeys versionKeys (_ : Lists c.flags flagKeys)
        (hversions : Lists c.authoritativeVersions versionKeys),
        ((FlagCache.empty.restorePersisted
          (some (c.persistFlags flagKeys versionKeys hversions.nodup))).upsertIfNewer
            (plainFlag "banner" 4) 4 .sse).flags (Text.ofString "banner") =
              some (plainFlag "banner" 4) := by
  intro c
  have hfirst : machine.ReachUnder Checked firstVersion :=
    .step (a := .upsertIfNewer (plainFlag "checkout" 1) 1 .sse) .init
      (by show Flags.JavaScript.isFlagConfig _ = true; decide) rfl
  have hremoved : machine.ReachUnder Checked removedBanner :=
    hfirst.step (a := .removeIfNewer (Text.ofString "banner") 5)
      (by show isIdentifier _ _ = true; decide) rfl
  have hc : machine.ReachUnder Checked c :=
    hremoved.step (a := .set repeatedSnapshot .initialFetch) trivial rfl
  have hstorable := storableCache_of_checked hc
  have hactive : c.flags (Text.ofString "checkout") = some (plainFlag "checkout" 1) := by
    decide +kernel
  have hledger : c.authoritativeVersions (Text.ofString "checkout") ≠
      some ((plainFlag "checkout" 1).version : ℚ) := by decide +kernel
  refine ⟨hc, fun hround => hledger ((roundTrips_iff hstorable).1 hround _ _ hactive),
    by decide +kernel, by decide +kernel, fun flagKeys versionKeys hflags hversions => ?_⟩
  rw [restorePersisted_none _
    (parse_persistFlags_none hstorable hflags hversions hactive hledger)]
  decide +kernel

end Apdl.Sdk.Cache
