import Apdl.Lib.Decimal
import Apdl.Lib.PyJson
import Apdl.Lib.StepMachine
import Mathlib.Logic.Function.Basic

set_option autoImplicit false

/-!
# The Redis cache of flag snapshots

`GET /v1/flags` answers from a Redis entry when it can and otherwise reads a snapshot from Postgres
and caches it; the outbox dispatcher invalidates the entry after every change. Three Lua scripts
over three keys of a project (the entry, its version and a watermark) keep a slow reader from
caching a snapshot that an invalidation has already overtaken.

## Main results

* `hits_are_fresh` — the watermark never falls and a hit is at least as new as the watermark and
  as every invalidation applied before.

## Design

A script runs atomically, so one action is one call of Redis or of Postgres. The two keys with a
time to live may vanish at any moment, each on its own. The lexical form of the entry is left out;
`Doc` is its token structure.
-/

namespace Apdl.Config.FlagCache

open Decimal PyJson

/-! ## Keys and scripts -/

/-- The three keys of a project. -/
structure Keys where
  data : Text
  dataVersion : Text
  watermark : Text

def flagKeys (projectId : Text) : Keys :=
  let namespaceKey := Text.ofString "config:flags:v2:\x7b" ++ projectId ++ Text.ofString "\x7d"
  ⟨namespaceKey ++ Text.ofString ":data", namespaceKey ++ Text.ofString ":data-version",
    namespaceKey ++ Text.ofString ":watermark"⟩

/-- The keys of the server: those that hold a JSON text and those that hold a decimal text. -/
structure Redis where
  json : Text → Option Doc
  text : Text → Option Text

/-- `string.gsub(s, '^0+', '')`, with `'0'` for the empty text. -/
def stripZeros (t : Text) : Text :=
  match t.dropWhile fun u => u == 48 with
  | [] => [48]
  | u :: rest => u :: rest

def decimalLess (left right : Text) : Bool :=
  let left := stripZeros left
  let right := stripZeros right
  if Text.unitLength left ≠ Text.unitLength right then
    decide (Text.unitLength left < Text.unitLength right)
  else decide (left < right)

namespace Redis

/-- `SET` of the two keys of an entry. -/
def setEntry (redis : Redis) (keys : Keys) (entry : Doc) (version : Text) : Redis :=
  { json := Function.update redis.json keys.data (some entry)
    text := Function.update redis.text keys.dataVersion (some version) }

/-- `DEL` of the two keys of an entry. -/
def deleteEntry (redis : Redis) (keys : Keys) : Redis :=
  { json := Function.update redis.json keys.data none
    text := Function.update redis.text keys.dataVersion none }

/-- `SET` of the watermark. -/
def setWatermark (redis : Redis) (keys : Keys) (version : Text) : Redis :=
  { redis with text := Function.update redis.text keys.watermark (some version) }

/-- `GET` of the watermark, `'0'` when there is none. -/
def watermark (redis : Redis) (keys : Keys) : Text := (redis.text keys.watermark).getD [48]

def raiseWatermark (redis : Redis) (keys : Keys) (version : Text) : Redis :=
  if decimalLess (redis.watermark keys) version then redis.setWatermark keys version else redis

end Redis

/-- `_GET_FLAGS_LUA`. -/
def getScript (redis : Redis) (keys : Keys) : Redis × Option (Doc × Text) :=
  match redis.json keys.data, redis.text keys.dataVersion with
  | some data, some cachedVersion =>
    if decimalLess cachedVersion (redis.watermark keys) then (redis.deleteEntry keys, none)
    else (redis, some (data, cachedVersion))
  | _, _ => (redis, none)

/-- `_SET_FLAGS_LUA`. -/
def setScript (redis : Redis) (keys : Keys) (candidate : Text) (entry : Doc) : Redis × Bool :=
  if decimalLess candidate (redis.watermark keys) then (redis, false)
  else ((redis.setEntry keys entry candidate).raiseWatermark keys candidate, true)

/-- `_INVALIDATE_FLAGS_LUA`. -/
def invalidateScript (redis : Redis) (keys : Keys) (incoming : Text) : Redis × Bool :=
  let raised := redis.raiseWatermark keys incoming
  match raised.text keys.dataVersion with
  | some cachedVersion =>
    if decimalLess incoming cachedVersion then (raised, false)
    else (raised.deleteEntry keys, true)
  | none => (raised, false)

/-! ## The callers -/

structure FlagCacheEntry where
  projectVersion : ℕ
  configJson : Doc

/-- What one call of `get_flags` finds: nothing, an entry, or a value it then deletes. -/
inductive Lookup
  | miss
  | malformed
  | hit (entry : FlagCacheEntry)

/-- `int(version_text)` of a text of digits, of which it accepts at most 4300; the scripts store no
other version. -/
def intOfText (t : Text) : Option ℕ :=
  if t ≠ [] ∧ (∀ u ∈ t, 48 ≤ u.toNat ∧ u.toNat ≤ 57) ∧ t.unitLength ≤ maxIntDigits then
    some (value t)
  else none

/-- `value == n` for a value of a JSON document that is no boolean. -/
def equalsInt (v : Doc) (n : ℕ) : Bool :=
  match v with
  | .int m => decide (m = n)
  | .float q => decide (q = n)
  | _ => false

/-- The checks of `get_flags` on the value of an entry. -/
def checkEntry (entry : Doc) (projectVersion : ℕ) : Lookup :=
  match entry with
  | .obj fields =>
    if (∀ k ∈ fields.map Prod.fst, k ∈ ["project_version", "config"].map Text.ofString) ∧
        ∀ k ∈ ["project_version", "config"].map Text.ofString, k ∈ fields.map Prod.fst then
      match get fields (Text.ofString "project_version"), get fields (Text.ofString "config") with
      | some version, some (.obj config) =>
        if equalsInt version projectVersion then .hit ⟨projectVersion, .obj config⟩ else .malformed
      | _, _ => .malformed
    else .malformed
  | _ => .malformed

/-- `get_flags` up to the deletion of a malformed entry, which is a call of its own. -/
def getFlags (redis : Redis) (projectId : Text) : Redis × Lookup :=
  match getScript redis (flagKeys projectId) with
  | (redis', none) => (redis', .miss)
  | (redis', some (rawEntry, rawVersion)) =>
    match parse rawEntry, intOfText rawVersion with
    | .ok entry, some projectVersion => (redis', checkEntry entry projectVersion)
    | _, _ => (redis', .malformed)

/-- The entry `set_flags` writes; `none` when it raises. The version is written in decimal, which
`str` refuses beyond 4300 digits. -/
def cacheEntry (projectVersion : ℕ) (data : Doc) : Option Doc :=
  match parse data with
  | .ok (.obj config) =>
    if intDigits projectVersion ≤ maxIntDigits then
      some (.obj [(Text.ofString "project_version", .int projectVersion),
        (Text.ofString "config", .obj config)])
    else none
  | _ => none

/-- `set_flags`; `none` when it raises. -/
def setFlags (redis : Redis) (projectId : Text) (projectVersion : ℕ) (data : Doc) :
    Option (Redis × Bool) :=
  (cacheEntry projectVersion data).map fun entry =>
    setScript redis (flagKeys projectId) (Decimal.text projectVersion) entry

def invalidateFlags (redis : Redis) (projectId : Text) (projectVersion : ℕ) : Redis :=
  (invalidateScript redis (flagKeys projectId) (Decimal.text projectVersion)).1

/-! ## The system -/

/-- What `get_flag_snapshot` and `_flags_to_json` return. -/
structure Snapshot where
  projectVersion : ℕ
  configJson : Doc

/-- Where a request to `GET /v1/flags` is; `retry` after a refused `set_flags`. -/
inductive Phase
  | start
  | discard
  | missed (retry : Bool)
  | read (snap : Snapshot) (retry : Bool)
  | hit (entry : FlagCacheEntry)
  | served (snap : Snapshot)
  | failed

structure Request where
  projectId : Text
  phase : Phase

/-- Redis, Postgres and the requests. The invalidations applied and the snapshots read so far are
recorded, newest first. -/
structure World where
  redis : Redis
  postgres : Text → Snapshot
  requests : ℕ → Option Request
  invalidated : List (Text × ℕ)
  snapshots : List (Text × Snapshot)

/-- What can happen next. -/
inductive Act
  | commit (projectId : Text) (snap : Snapshot)
  /-- A client polls. -/
  | arrive (request : ℕ) (projectId : Text)
  | advance (request : ℕ)
  /-- The dispatcher delivers a change. -/
  | invalidate (projectId : Text) (projectVersion : ℕ)
  /-- The time to live of an entry's JSON text elapses. -/
  | expireData (projectId : Text)
  /-- The time to live of an entry's version elapses. -/
  | expireVersion (projectId : Text)

/-- The next call of a request. -/
def World.advance (w : World) (r : ℕ) (projectId : Text) : Phase → Option World
  | .start =>
    let (redis, found) := getFlags w.redis projectId
    let phase := match found with
      | .miss => Phase.missed false
      | .malformed => .discard
      | .hit entry => .hit entry
    some { w with
      redis := redis, requests := Function.update w.requests r (some ⟨projectId, phase⟩) }
  | .discard =>
    some { w with
      redis := w.redis.deleteEntry (flagKeys projectId)
      requests := Function.update w.requests r (some ⟨projectId, .missed false⟩) }
  | .missed retry =>
    let snap := w.postgres projectId
    some { w with
      requests := Function.update w.requests r (some ⟨projectId, .read snap retry⟩)
      snapshots := (projectId, snap) :: w.snapshots }
  | .read snap retry =>
    match setFlags w.redis projectId snap.projectVersion snap.configJson with
    | none =>
      some { w with requests := Function.update w.requests r (some ⟨projectId, .failed⟩) }
    | some (redis, cachedSnapshot) =>
      let phase := if cachedSnapshot || retry then Phase.served snap else .missed true
      some { w with
        redis := redis, requests := Function.update w.requests r (some ⟨projectId, phase⟩) }
  | .hit _ => none
  | .served _ => none
  | .failed => none

def step (w : World) : Act → Option World
  | .commit projectId snap =>
    if (w.postgres projectId).projectVersion < snap.projectVersion then
      some { w with postgres := Function.update w.postgres projectId snap }
    else none
  | .arrive r projectId =>
    match w.requests r with
    | none => some { w with requests := Function.update w.requests r (some ⟨projectId, .start⟩) }
    | some _ => none
  | .advance r =>
    match w.requests r with
    | none => none
    | some request => w.advance r request.projectId request.phase
  | .invalidate projectId projectVersion =>
    some { w with
      redis := invalidateFlags w.redis projectId projectVersion
      invalidated := (projectId, projectVersion) :: w.invalidated }
  | .expireData projectId =>
    some { w with redis :=
      { w.redis with json := Function.update w.redis.json (flagKeys projectId).data none } }
  | .expireVersion projectId =>
    some { w with redis :=
      { w.redis with text := Function.update w.redis.text (flagKeys projectId).dataVersion none } }

/-- The system from an empty cache and any contents of Postgres. -/
def machine (postgres : Text → Snapshot) : StepMachine World Act where
  init := ⟨⟨fun _ => none, fun _ => none⟩, postgres, fun _ => none, [], []⟩
  step := step

/-! ## The order of versions -/

lemma value_dropWhile (t : Text) : value (t.dropWhile fun u => u == 48) = value t := by
  induction t with
  | nil => rfl
  | cons u t ih =>
    rw [List.dropWhile_cons]
    split_ifs with hu
    · obtain rfl : u = 48 := by simpa using hu
      rw [ih, value_cons]
      simp
    · rfl

lemma stripZeros_spec {t : Text} (h : Digits t) :
    value (stripZeros t) = value t ∧ Digits (stripZeros t) ∧
      (stripZeros t = [48] ∨ ∃ u rest, stripZeros t = u :: rest ∧ 49 ≤ u.toNat) := by
  have hvalue := value_dropWhile t
  unfold stripZeros
  cases hdrop : t.dropWhile fun u => u == 48 with
  | nil =>
    rw [hdrop] at hvalue
    refine ⟨hvalue, ?_, .inl rfl⟩
    intro u hu
    rw [List.mem_singleton.1 hu]
    decide
  | cons u rest =>
    have hmem : ∀ v ∈ u :: rest, v ∈ t := by
      intro v hv
      rw [← hdrop] at hv
      exact (List.dropWhile_sublist _).subset hv
    have hne : u ≠ 48 := by
      have hhead := List.head_dropWhile_not (fun u : CodeUnit => u == 48) (l := t)
        (by simp [hdrop])
      simpa [hdrop] using hhead
    have hu := h u (hmem u List.mem_cons_self)
    have hnat : u.toNat ≠ 48 := fun heq => hne (UInt16.toNat_inj.1 heq)
    rw [hdrop] at hvalue
    exact ⟨hvalue, fun v hv => h v (hmem v hv), .inr ⟨u, rest, rfl, by omega⟩⟩

lemma value_lt_of_length {s t : Text} (hs : Digits s) (hne : s ≠ [])
    (ht : t = [48] ∨ ∃ u rest, t = u :: rest ∧ 49 ≤ u.toNat)
    (hlen : Text.unitLength s < Text.unitLength t) : value s < value t := by
  rcases ht with rfl | ⟨u, rest, rfl, hu⟩
  · have hzero : Text.unitLength s = 0 := by
      simp only [Text.unitLength, List.length_singleton] at hlen ⊢
      omega
    exact absurd (List.length_eq_zero_iff.1 hzero) hne
  · have hlen' : Text.unitLength s ≤ Text.unitLength rest := by
      simp only [Text.unitLength, List.length_cons] at hlen ⊢
      omega
    calc value s < 10 ^ Text.unitLength s := value_lt_pow hs
      _ ≤ 10 ^ Text.unitLength rest := Nat.pow_le_pow_right (by decide) hlen'
      _ ≤ value (u :: rest) := pow_le_value hu

theorem decimalLess_eq {left right : Text} (hl : Digits left) (hr : Digits right) :
    decimalLess left right = decide (value left < value right) := by
  obtain ⟨hlv, hld, hlead⟩ := stripZeros_spec hl
  obtain ⟨hrv, hrd, hread⟩ := stripZeros_spec hr
  have hlne : stripZeros left ≠ [] := by
    rcases hlead with heq | ⟨u, rest, heq, -⟩ <;> simp [heq]
  have hrne : stripZeros right ≠ [] := by
    rcases hread with heq | ⟨u, rest, heq, -⟩ <;> simp [heq]
  simp only [decimalLess]
  rw [← hlv, ← hrv]
  split_ifs with hlen
  · rw [decide_eq_decide]
    rcases Nat.lt_or_gt_of_ne hlen with hlt | hgt
    · exact iff_of_true hlt (value_lt_of_length hld hlne hread hlt)
    · have hback := value_lt_of_length hrd hrne hlead hgt
      exact iff_of_false (by omega) (by omega)
  · rw [decide_eq_decide]
    exact (value_lt_iff hld hrd (not_not.1 hlen)).symm

/-! ## Keys -/

lemma between_inj {a b s t : Text} (h : a ++ s ++ b = a ++ t ++ b) : s = t :=
  List.append_cancel_left (List.append_cancel_right h)

lemma flagKeys_inj {p q : Text} :
    ((flagKeys p).data = (flagKeys q).data ↔ p = q) ∧
    ((flagKeys p).dataVersion = (flagKeys q).dataVersion ↔ p = q) ∧
    ((flagKeys p).watermark = (flagKeys q).watermark ↔ p = q) := by
  refine ⟨⟨fun h => ?_, fun h => h ▸ rfl⟩, ⟨fun h => ?_, fun h => h ▸ rfl⟩,
    ⟨fun h => ?_, fun h => h ▸ rfl⟩⟩ <;>
  exact between_inj (List.append_cancel_right h)

lemma append_ne {a b s t : Text} {u v : CodeUnit} (hs : s.getLast? = some u)
    (ht : t.getLast? = some v) (huv : u ≠ v) : a ++ s ≠ b ++ t := by
  intro h
  have hlast := congrArg List.getLast? h
  rw [List.getLast?_append, List.getLast?_append, hs, ht] at hlast
  exact huv (Option.some.inj hlast)

lemma dataVersion_ne_watermark (p q : Text) :
    (flagKeys p).dataVersion ≠ (flagKeys q).watermark :=
  append_ne (u := 110) (v := 107) (by decide) (by decide) (by decide)

/-! ## Watermarks and entries under the scripts -/

/-- The watermark of a project as a number. -/
def watermarkOf (redis : Redis) (p : Text) : ℕ := value (redis.watermark (flagKeys p))

/-- Every version is the text of a number, and every entry was made from one of the snapshots. -/
structure Redis.Sound (redis : Redis) (snapshots : List (Text × Snapshot)) : Prop where
  versionText : ∀ p t, redis.text (flagKeys p).dataVersion = some t → ∃ n, t = Decimal.text n
  watermarkText : ∀ p t, redis.text (flagKeys p).watermark = some t → ∃ n, t = Decimal.text n
  entryRead : ∀ p d, redis.json (flagKeys p).data = some d →
    ∃ snap, (p, snap) ∈ snapshots ∧ cacheEntry snap.projectVersion snap.configJson = some d

lemma digits_text (n : ℕ) : Digits (Decimal.text n) := text_units

section Scripts

variable {redis : Redis} {snapshots : List (Text × Snapshot)} {p q : Text}

lemma Redis.Sound.digits_watermark (h : redis.Sound snapshots) (p : Text) :
    Digits (redis.watermark (flagKeys p)) := by
  unfold Redis.watermark
  cases ht : redis.text (flagKeys p).watermark with
  | none =>
    intro u hu
    rw [Option.getD_none, List.mem_singleton] at hu
    rw [hu]
    decide
  | some t =>
    obtain ⟨n, rfl⟩ := h.watermarkText p t ht
    rw [Option.getD_some]
    exact digits_text n

lemma watermarkOf_deleteEntry : watermarkOf (redis.deleteEntry (flagKeys p)) q =
    watermarkOf redis q := by
  have hne := (dataVersion_ne_watermark p q).symm
  simp [watermarkOf, Redis.watermark, Redis.deleteEntry, hne]

variable {entry : Doc}

lemma watermarkOf_setEntry {version : Text} :
    watermarkOf (redis.setEntry (flagKeys p) entry version) q = watermarkOf redis q := by
  have hne := (dataVersion_ne_watermark p q).symm
  simp [watermarkOf, Redis.watermark, Redis.setEntry, hne]

lemma watermarkOf_raiseWatermark (h : redis.Sound snapshots) (n : ℕ) :
    watermarkOf (redis.raiseWatermark (flagKeys p) (Decimal.text n)) q =
      if q = p then max (watermarkOf redis p) n else watermarkOf redis q := by
  unfold Redis.raiseWatermark
  rw [decimalLess_eq (h.digits_watermark p) (digits_text n), value_text,
    show value (redis.watermark (flagKeys p)) = watermarkOf redis p from rfl]
  have hkey : (flagKeys q).watermark = (flagKeys p).watermark ↔ q = p := flagKeys_inj.2.2
  by_cases hq : q = p
  · subst hq
    rw [if_pos rfl]
    by_cases hlt : watermarkOf redis q < n
    · rw [if_pos (decide_eq_true hlt), max_eq_right (le_of_lt hlt)]
      simp [watermarkOf, Redis.watermark, Redis.setWatermark, value_text]
    · rw [if_neg (by simpa using hlt), max_eq_left (not_lt.1 hlt)]
  · rw [if_neg hq]
    split_ifs
    · simp [watermarkOf, Redis.watermark, Redis.setWatermark, hkey, hq]
    · rfl

lemma Redis.Sound.deleteEntry (h : redis.Sound snapshots) (p : Text) :
    (redis.deleteEntry (flagKeys p)).Sound snapshots := by
  refine ⟨fun q t ht => ?_, fun q t ht => ?_, fun q d hd => ?_⟩
  · simp only [Redis.deleteEntry, Function.update_apply] at ht
    split_ifs at ht
    exact h.versionText q t ht
  · simp only [Redis.deleteEntry, Function.update_apply] at ht
    split_ifs at ht
    exact h.watermarkText q t ht
  · simp only [Redis.deleteEntry, Function.update_apply] at hd
    split_ifs at hd
    exact h.entryRead q d hd

lemma Redis.Sound.setEntry (h : redis.Sound snapshots) {snap : Snapshot}
    (hmem : (p, snap) ∈ snapshots)
    (hentry : cacheEntry snap.projectVersion snap.configJson = some entry) (n : ℕ) :
    (redis.setEntry (flagKeys p) entry (Decimal.text n)).Sound snapshots := by
  refine ⟨fun q t ht => ?_, fun q t ht => ?_, fun q d hd => ?_⟩
  · simp only [Redis.setEntry, Function.update_apply] at ht
    split_ifs at ht
    · exact ⟨n, (Option.some.inj ht).symm⟩
    · exact h.versionText q t ht
  · have hne := (dataVersion_ne_watermark p q).symm
    simp only [Redis.setEntry, Function.update_of_ne hne] at ht
    exact h.watermarkText q t ht
  · simp only [Redis.setEntry, Function.update_apply] at hd
    split_ifs at hd with hkey
    · obtain rfl : q = p := flagKeys_inj.1.1 hkey
      exact ⟨snap, hmem, hentry.trans hd⟩
    · exact h.entryRead q d hd

lemma Redis.Sound.raiseWatermark (h : redis.Sound snapshots) (p : Text) (n : ℕ) :
    (redis.raiseWatermark (flagKeys p) (Decimal.text n)).Sound snapshots := by
  unfold Redis.raiseWatermark
  split_ifs
  · refine ⟨fun q t ht => ?_, fun q t ht => ?_, fun q d hd => h.entryRead q d hd⟩
    · simp only [Redis.setWatermark, Function.update_of_ne (dataVersion_ne_watermark q p)] at ht
      exact h.versionText q t ht
    · simp only [Redis.setWatermark, Function.update_apply] at ht
      split_ifs at ht
      · exact ⟨n, (Option.some.inj ht).symm⟩
      · exact h.watermarkText q t ht
  · exact h

lemma Redis.Sound.mono (h : redis.Sound snapshots) (read : Text × Snapshot) :
    redis.Sound (read :: snapshots) := by
  refine ⟨h.versionText, h.watermarkText, fun q d hd => ?_⟩
  obtain ⟨snap, hmem, hentry⟩ := h.entryRead q d hd
  exact ⟨snap, List.mem_cons_of_mem read hmem, hentry⟩

/-- No watermark falls from the first state to the second. -/
def Rises (redis redis' : Redis) : Prop := ∀ q, watermarkOf redis q ≤ watermarkOf redis' q

lemma Rises.of_eq {redis' : Redis} (h : ∀ q, watermarkOf redis' q = watermarkOf redis q) :
    Rises redis redis' := fun q => (h q).ge

lemma rises_raiseWatermark (h : redis.Sound snapshots) (p : Text) (n : ℕ) :
    Rises redis (redis.raiseWatermark (flagKeys p) (Decimal.text n)) := by
  intro q
  rw [watermarkOf_raiseWatermark h]
  split_ifs with hq
  · rw [hq]
    exact le_max_left _ _
  · exact le_refl _

lemma getScript_spec (h : redis.Sound snapshots) (p : Text) :
    (getScript redis (flagKeys p)).1.Sound snapshots ∧
      Rises redis (getScript redis (flagKeys p)).1 := by
  have hkeep : redis.Sound snapshots ∧ Rises redis redis := ⟨h, fun _ => le_refl _⟩
  unfold getScript
  split
  · split_ifs
    · exact ⟨h.deleteEntry p, Rises.of_eq fun _ => watermarkOf_deleteEntry⟩
    · exact hkeep
  · exact hkeep

lemma setScript_spec (h : redis.Sound snapshots) {snap : Snapshot} (hmem : (p, snap) ∈ snapshots)
    (hentry : cacheEntry snap.projectVersion snap.configJson = some entry) (n : ℕ) :
    (setScript redis (flagKeys p) (Decimal.text n) entry).1.Sound snapshots ∧
      Rises redis (setScript redis (flagKeys p) (Decimal.text n) entry).1 := by
  unfold setScript
  split_ifs
  · exact ⟨h, fun _ => le_refl _⟩
  · have hset := h.setEntry hmem hentry n
    dsimp only
    refine ⟨hset.raiseWatermark p n, fun q => ?_⟩
    have hsame : watermarkOf (redis.setEntry (flagKeys p) entry (Decimal.text n)) q =
        watermarkOf redis q := watermarkOf_setEntry
    rw [← hsame]
    exact rises_raiseWatermark hset p n q

lemma invalidateFlags_spec (h : redis.Sound snapshots) (p : Text) (n : ℕ) :
    (invalidateFlags redis p n).Sound snapshots ∧ Rises redis (invalidateFlags redis p n) ∧
      n ≤ watermarkOf (invalidateFlags redis p n) p := by
  have hraise := h.raiseWatermark p n
  have hrises := rises_raiseWatermark h p n
  have hreached : n ≤ watermarkOf (redis.raiseWatermark (flagKeys p) (Decimal.text n)) p := by
    rw [watermarkOf_raiseWatermark h, if_pos rfl]
    exact le_max_right _ _
  simp only [invalidateFlags, invalidateScript]
  split
  · split_ifs
    · exact ⟨hraise, hrises, hreached⟩
    · refine ⟨hraise.deleteEntry p, fun q => ?_, ?_⟩
      · rw [watermarkOf_deleteEntry]
        exact hrises q
      · rw [watermarkOf_deleteEntry]
        exact hreached
  · exact ⟨hraise, hrises, hreached⟩

end Scripts

section Hits

variable {redis : Redis} {snapshots : List (Text × Snapshot)} {p : Text} {e : FlagCacheEntry}

lemma checkEntry_eq_hit {entry : Doc} {n : ℕ} (h : checkEntry entry n = .hit e) :
    ∃ fields version config, entry = .obj fields ∧
      get fields (Text.ofString "project_version") = some version ∧
      get fields (Text.ofString "config") = some (.obj config) ∧
      equalsInt version n = true ∧ e = ⟨n, .obj config⟩ := by
  unfold checkEntry at h
  split at h
  · rename_i fields
    split_ifs at h
    split at h
    · rename_i version config hversion hconfig
      split_ifs at h with heq
      cases h
      exact ⟨fields, version, config, rfl, hversion, hconfig, heq, rfl⟩
    · cases h
  · cases h

lemma cacheEntry_spec {snap : Snapshot} {d : Doc}
    (h : cacheEntry snap.projectVersion snap.configJson = some d) :
    ∃ config, parse snap.configJson = .ok (.obj config) ∧
      d = .obj [(Text.ofString "project_version", .int snap.projectVersion),
        (Text.ofString "config", .obj config)] ∧ parse d = .ok d := by
  unfold cacheEntry at h
  split at h
  · rename_i config hconfig
    split_ifs at h with hlen
    cases h
    have hkeys : [Text.ofString "project_version", Text.ofString "config"].Nodup := by decide
    refine ⟨config, hconfig, rfl, parse_obj_of_fixed ?_ ?_⟩
    · simpa only [List.map_cons, List.map_nil] using hkeys
    intro f hf
    simp only [List.mem_cons, List.not_mem_nil, or_false] at hf
    rcases hf with rfl | rfl
    · simp [parse, hlen]
    · exact parse_parse hconfig
  · cases h

/-- **A hit** is a snapshot that was read for the project, and is not older than the watermark. -/
lemma getFlags_eq_hit (h : redis.Sound snapshots) (hhit : (getFlags redis p).2 = .hit e) :
    watermarkOf redis p ≤ e.projectVersion ∧
      ∃ snap, (p, snap) ∈ snapshots ∧ snap.projectVersion = e.projectVersion ∧
        parse snap.configJson = .ok e.configJson := by
  unfold getFlags getScript at hhit
  cases hdata : redis.json (flagKeys p).data with
  | none => simp [hdata] at hhit
  | some d =>
    cases hversion : redis.text (flagKeys p).dataVersion with
    | none => simp [hdata, hversion] at hhit
    | some t =>
      obtain ⟨n, rfl⟩ := h.versionText p t hversion
      obtain ⟨snap, hmem, hentry⟩ := h.entryRead p d hdata
      obtain ⟨config, hconfig, rfl, hparse⟩ := cacheEntry_spec hentry
      rw [hdata, hversion] at hhit
      simp only [decimalLess_eq (digits_text n) (h.digits_watermark p), value_text,
        decide_eq_true_eq] at hhit
      split_ifs at hhit with hless
      simp only [hparse] at hhit
      -- the version of the entry is the one the key holds
      cases hint : intOfText (Decimal.text n) with
      | none => simp [hint] at hhit
      | some m =>
        have hm : m = n := by
          unfold intOfText at hint
          split_ifs at hint
          rw [value_text] at hint
          exact (Option.some.inj hint).symm
        subst hm
        simp only [hint] at hhit
        obtain ⟨fields, version, config', heq, hget, hget', hequal, rfl⟩ := checkEntry_eq_hit hhit
        cases heq
        obtain rfl : Doc.int snap.projectVersion = version := Option.some.inj hget
        obtain rfl : config = config' := Doc.obj.inj (Option.some.inj hget')
        have hver : snap.projectVersion = m := by
          simpa [equalsInt] using hequal
        exact ⟨not_lt.1 hless, snap, hmem, hver, hconfig⟩

end Hits

/-! ## The invariant -/

/-- The invariant of the system. -/
structure Fresh (w : World) : Prop where
  sound : w.redis.Sound w.snapshots
  covered : ∀ c ∈ w.invalidated, c.2 ≤ watermarkOf w.redis c.1
  held : ∀ r p snap retry, w.requests r = some ⟨p, .read snap retry⟩ → (p, snap) ∈ w.snapshots

lemma held_update {requests : ℕ → Option Request} {snapshots : List (Text × Snapshot)}
    (h : ∀ r p snap retry, requests r = some ⟨p, .read snap retry⟩ → (p, snap) ∈ snapshots)
    {r : ℕ} {p : Text} {phase : Phase} (hphase : ∀ snap retry, phase ≠ .read snap retry) :
    ∀ r' p' snap retry, Function.update requests r (some ⟨p, phase⟩) r' =
      some ⟨p', .read snap retry⟩ → (p', snap) ∈ snapshots := by
  intro r' p' snap retry h'
  rw [Function.update_apply] at h'
  split_ifs at h' with hr
  · simp only [Option.some.injEq, Request.mk.injEq] at h'
    exact absurd h'.2 (hphase snap retry)
  · exact h r' p' snap retry h'

variable {w w' : World}

lemma covered_mono (h : Fresh w) {redis : Redis} (hrises : Rises w.redis redis) :
    ∀ c ∈ w.invalidated, c.2 ≤ watermarkOf redis c.1 :=
  fun c hc => le_trans (h.covered c hc) (hrises c.1)

lemma advance_fresh {r : ℕ} {p : Text} {phase : Phase} (h : Fresh w)
    (hr : w.requests r = some ⟨p, phase⟩) (hs : w.advance r p phase = some w') :
    Fresh w' ∧ Rises w.redis w'.redis := by
  cases phase with
  | start =>
    have hredis : (getFlags w.redis p).1 = (getScript w.redis (flagKeys p)).1 := by
      unfold getFlags
      split
      · rename_i heq
        rw [heq]
      · rename_i heq
        rw [heq]
        split <;> rfl
    obtain ⟨hsound, hrises⟩ := getScript_spec h.sound p
    rw [← hredis] at hsound hrises
    simp only [World.advance, Option.some.injEq] at hs
    subst hs
    refine ⟨⟨hsound, covered_mono h hrises, held_update h.held ?_⟩, hrises⟩
    intro snap retry
    split <;> exact fun hne => by cases hne
  | discard =>
    simp only [World.advance, Option.some.injEq] at hs
    subst hs
    have hrises : Rises w.redis (w.redis.deleteEntry (flagKeys p)) :=
      Rises.of_eq fun _ => watermarkOf_deleteEntry
    refine ⟨⟨h.sound.deleteEntry p, covered_mono h hrises, held_update h.held ?_⟩, hrises⟩
    exact fun snap retry hne => by cases hne
  | missed retry =>
    simp only [World.advance, Option.some.injEq] at hs
    subst hs
    refine ⟨⟨h.sound.mono _, h.covered, fun r' p' snap retry' h' => ?_⟩, fun _ => le_refl _⟩
    simp only [Function.update_apply] at h'
    split_ifs at h' with hr'
    · simp only [Option.some.injEq, Request.mk.injEq, Phase.read.injEq] at h'
      obtain ⟨rfl, rfl, -⟩ := h'
      exact List.mem_cons_self
    · exact List.mem_cons_of_mem _ (h.held r' p' snap retry' h')
  | read snap retry =>
    have hmem := h.held r p snap retry hr
    simp only [World.advance, setFlags] at hs
    cases hentry : cacheEntry snap.projectVersion snap.configJson with
    | none =>
      simp only [hentry, Option.map_none, Option.some.injEq] at hs
      subst hs
      refine ⟨⟨h.sound, h.covered, held_update h.held ?_⟩, fun _ => le_refl _⟩
      exact fun snap retry hne => by cases hne
    | some entry =>
      obtain ⟨hsound, hrises⟩ := setScript_spec h.sound hmem hentry snap.projectVersion
      simp only [hentry, Option.map_some] at hs
      generalize setScript w.redis (flagKeys p) (Decimal.text snap.projectVersion) entry = result
        at hs hsound hrises
      obtain ⟨redis', cached⟩ := result
      simp only [Option.some.injEq] at hs
      subst hs
      refine ⟨⟨hsound, covered_mono h hrises, held_update h.held ?_⟩, hrises⟩
      intro snap' retry'
      split <;> exact fun hne => by cases hne
  | hit entry => cases hs
  | served snap => cases hs
  | failed => cases hs

/-- **The step lemma**: every step keeps the invariant, and no watermark falls. -/
lemma step_fresh {a : Act} (h : Fresh w) (hs : step w a = some w') :
    Fresh w' ∧ Rises w.redis w'.redis := by
  cases a with
  | commit p snap =>
    simp only [step] at hs
    split_ifs at hs
    cases hs
    exact ⟨⟨h.sound, h.covered, h.held⟩, fun _ => le_refl _⟩
  | arrive r p =>
    simp only [step] at hs
    split at hs
    · cases hs
      refine ⟨⟨h.sound, h.covered, held_update h.held ?_⟩, fun _ => le_refl _⟩
      exact fun snap retry hne => by cases hne
    · cases hs
  | advance r =>
    simp only [step] at hs
    split at hs
    · cases hs
    · rename_i request hr
      exact advance_fresh h hr hs
  | invalidate p n =>
    obtain ⟨hsound, hrises, hreached⟩ := invalidateFlags_spec h.sound p n
    simp only [step, Option.some.injEq] at hs
    subst hs
    refine ⟨⟨hsound, fun c hc => ?_, h.held⟩, hrises⟩
    rcases List.mem_cons.1 hc with rfl | hc
    · exact hreached
    · exact covered_mono h hrises c hc
  | expireData p =>
    simp only [step, Option.some.injEq] at hs
    subst hs
    refine ⟨⟨⟨h.sound.versionText, h.sound.watermarkText, fun q d hd => ?_⟩, h.covered, h.held⟩,
      fun _ => le_refl _⟩
    simp only [Function.update_apply] at hd
    split_ifs at hd
    exact h.sound.entryRead q d hd
  | expireVersion p =>
    simp only [step, Option.some.injEq] at hs
    subst hs
    have hsame : ∀ q, watermarkOf { w.redis with
        text := Function.update w.redis.text (flagKeys p).dataVersion none } q =
        watermarkOf w.redis q := fun q => by
      simp [watermarkOf, Redis.watermark, (dataVersion_ne_watermark p q).symm]
    refine ⟨⟨⟨fun q t ht => ?_, fun q t ht => ?_, h.sound.entryRead⟩,
      covered_mono h (Rises.of_eq hsame), h.held⟩, Rises.of_eq hsame⟩
    · simp only [Function.update_apply] at ht
      split_ifs at ht
      exact h.sound.versionText q t ht
    · simp only [Function.update_of_ne (dataVersion_ne_watermark p q).symm] at ht
      exact h.sound.watermarkText q t ht

lemma reach_fresh {postgres : Text → Snapshot} (h : (machine postgres).Reach w) :
    Fresh w := by
  refine StepMachine.Reach.induct (P := Fresh) ?_ (fun s a s' _ hf hs => (step_fresh hf hs).1) h
  exact ⟨⟨nofun, nofun, nofun⟩, nofun, nofun⟩

lemma path_rises {postgres : Text → Snapshot} (h : (machine postgres).Reach w)
    (hp : (machine postgres).Path w w') : Rises w.redis w'.redis := by
  refine StepMachine.Path.induct (M := machine postgres) (I := Fresh)
    (R := fun w w' => Rises w.redis w'.redis) (fun s a s' hf hs => (step_fresh hf hs).1)
    (fun _ _ => le_refl _) (fun _ _ _ h₁ h₂ q => le_trans (h₁ q) (h₂ q))
    (fun s a s' hf hs => (step_fresh hf hs).2) (reach_fresh h) hp

/-- **Hits are fresh.** From every state the system reaches, the watermark of a project never falls.
When a request hits the cache, the version it returns is at least the watermark and at least every
invalidation of the project that has been applied, and the entry is a snapshot of that version that
was read from Postgres. Versions are compared as the numbers their decimal texts denote. -/
theorem hits_are_fresh (postgres : Text → Snapshot) :
    (∀ w w', (machine postgres).Reach w → (machine postgres).Path w w' → ∀ p,
      watermarkOf w.redis p ≤ watermarkOf w'.redis p) ∧
    (∀ w w' r p e, (machine postgres).Reach w → w.requests r = some ⟨p, .start⟩ →
      step w (.advance r) = some w' → w'.requests r = some ⟨p, .hit e⟩ →
      watermarkOf w.redis p ≤ e.projectVersion ∧
      (∀ n, (p, n) ∈ w.invalidated → n ≤ e.projectVersion) ∧
      ∃ snap, (p, snap) ∈ w.snapshots ∧ snap.projectVersion = e.projectVersion ∧
        parse snap.configJson = .ok e.configJson) ∧
    ∀ m n, decimalLess (Decimal.text m) (Decimal.text n) = decide (m < n) := by
  refine ⟨fun w w' h hp p => path_rises h hp p, fun w w' r p e h hr hs he => ?_, fun m n => ?_⟩
  · have hfresh := reach_fresh h
    simp only [step, hr, World.advance, Option.some.injEq] at hs
    subst hs
    simp only [Function.update_self, Option.some.injEq, Request.mk.injEq, true_and] at he
    have hhit : (getFlags w.redis p).2 = .hit e := by
      cases hfound : (getFlags w.redis p).2 with
      | hit entry =>
        simp only [hfound] at he
        rw [Phase.hit.inj he]
      | miss => simp [hfound] at he
      | malformed => simp [hfound] at he
    obtain ⟨hmark, hsnap⟩ := getFlags_eq_hit hfresh.sound hhit
    exact ⟨hmark, fun n hn => le_trans (hfresh.covered (p, n) hn) hmark, hsnap⟩
  · rw [decimalLess_eq (digits_text m) (digits_text n), value_text, value_text]

/-- A client polls twice around an invalidation; the second poll hits. -/
theorem hits_are_fresh_second_poll :
    ∃ w w' e, (machine fun _ => ⟨7, .obj []⟩).Reach w ∧ w.requests 1 = some ⟨[112], .start⟩ ∧
      step w (.advance 1) = some w' ∧ w'.requests 1 = some ⟨[112], .hit e⟩ ∧
      ([112], 6) ∈ w.invalidated ∧ watermarkOf w.redis [112] ≤ e.projectVersion ∧
      6 ≤ e.projectVersion := by
  obtain ⟨w, hrun⟩ : ∃ w, (machine fun _ => ⟨7, .obj []⟩).run (machine fun _ => ⟨7, .obj []⟩).init
      [.arrive 0 [112], .advance 0, .advance 0, .invalidate [112] 6, .advance 0,
        .arrive 1 [112]] = some w := ⟨_, rfl⟩
  have hreach := StepMachine.reach_of_run hrun
  have hw := Option.some.inj hrun
  have hr : w.requests 1 = some ⟨[112], .start⟩ := by rw [← hw]; rfl
  have hinv : ([112], 6) ∈ w.invalidated := by rw [← hw]; exact List.mem_cons_self
  obtain ⟨w', hs⟩ : ∃ w', step w (.advance 1) = some w' := by rw [← hw]; exact ⟨_, rfl⟩
  have hhit : w'.requests 1 = some ⟨[112], .hit ⟨7, .obj []⟩⟩ := by
    have hphase : (step w (.advance 1)).map (fun v => v.requests 1) =
        some (some ⟨[112], .hit ⟨7, .obj []⟩⟩) := by rw [← hw]; rfl
    rw [hs] at hphase
    exact Option.some.inj hphase
  obtain ⟨hmark, hall, -⟩ := (hits_are_fresh _).2.1 w w' 1 [112] _ hreach hr hs hhit
  exact ⟨w, w', _, hreach, hr, hs, hhit, hinv, hmark, hall 6 hinv⟩

end Apdl.Config.FlagCache
