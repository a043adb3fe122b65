import Mathlib.Algebra.Order.Ring.Unbundled.Rat
import Apdl.Lib.Register
import Apdl.Sdk.Cache.Model

set_option autoImplicit false

/-!
# Events converge

Events reach the cache in any order and more than once. What a key ends with is what the highest of
its events wrote, or what it had before when that is at least as new.

## Main results

* `events_converge` — order and duplicates do not matter.
-/

namespace Apdl.Sdk.Cache

open Flags (ClientFlagConfig)

/-- An operation that carries the version of one key. -/
inductive Event
  | upsertIfNewer (flag : ClientFlagConfig) (authoritativeVersion : ℚ) (source : Source)
  | removeIfNewer (key : Text) (authoritativeVersion : ℚ)
  | markInvalidIfNewer (key : Text) (authoritativeVersion : ℚ) (source : Source)
  deriving DecidableEq

/-- What a cache holds for a key. -/
structure Slot where
  flag : Option ClientFlagConfig
  source : Option Source
  invalidSource : Option Source
  authoritativeVersion : Option ℚ
  deriving DecidableEq

/-- What the cache holds for a key. -/
def FlagCache.slot (c : FlagCache) (key : Text) : Slot :=
  { flag := c.flags key
    source := c.sources key
    invalidSource := c.invalidSources key
    authoritativeVersion := c.authoritativeVersions key }

namespace Event

def key : Event → Text
  | upsertIfNewer flag _ _ => flag.key
  | removeIfNewer key _ => key
  | markInvalidIfNewer key _ _ => key

def version : Event → ℚ
  | upsertIfNewer _ v _ => v
  | removeIfNewer _ v => v
  | markInvalidIfNewer _ v _ => v

/-- The version is a positive integer, and the one of the flag that comes with it. -/
def wellFormed : Event → Bool
  | upsertIfNewer flag v _ => decide ((flag.version : ℚ) = v) && isPositiveInteger v
  | removeIfNewer _ v => isPositiveInteger v
  | markInvalidIfNewer _ v _ => isPositiveInteger v

/-- The events that count for a key. -/
def on (key : Text) (e : Event) : Bool := decide (e.key = key) && e.wellFormed

/-- The effect of an event on the cache. -/
def apply (c : FlagCache) : Event → FlagCache
  | upsertIfNewer flag v source => c.upsertIfNewer flag v source
  | removeIfNewer key v => c.removeIfNewer key v
  | markInvalidIfNewer key v source => c.markInvalidIfNewer key v source

/-- What an event leaves for its key. -/
def outcome : Event → Slot
  | upsertIfNewer flag v source =>
    { flag := some flag, source := some source, invalidSource := none, authoritativeVersion := some v }
  | removeIfNewer _ v =>
    { flag := none, source := none, invalidSource := none, authoritativeVersion := some v }
  | markInvalidIfNewer _ v source =>
    { flag := none, source := none, invalidSource := some source, authoritativeVersion := some v }

end Event

/-- A key as a register. A key without a version ranks below every event. -/
def slotRegister : Register ℚ Slot Event where
  rank s := s.authoritativeVersion.getD 0
  eventRank := Event.version
  write := Event.outcome
  rank_write e := by cases e <;> rfl

lemma Event.slot_apply (c : FlagCache) (e : Event) (key : Text) :
    (e.apply c).slot key =
      if e.on key then slotRegister.apply (c.slot key) e else c.slot key := by
  by_cases hkey : e.key = key
  · subst hkey
    cases e with
    | upsertIfNewer flag v source =>
      simp only [Event.apply, FlagCache.upsertIfNewer, Event.on, Event.wellFormed, Event.key,
        FlagCache.isNewerVersion, Register.apply, slotRegister, FlagCache.slot, Event.version,
        Event.outcome]
      by_cases hv : (flag.version : ℚ) = v <;> by_cases hpos : isPositiveInteger v = true <;>
        by_cases hlt : (c.authoritativeVersions flag.key).getD 0 < v <;> simp [hv, hpos, hlt]
    | removeIfNewer key v =>
      simp only [Event.apply, FlagCache.removeIfNewer, Event.on, Event.wellFormed, Event.key,
        FlagCache.isNewerVersion, Register.apply, slotRegister, FlagCache.slot, Event.version,
        Event.outcome]
      by_cases hpos : isPositiveInteger v = true <;>
        by_cases hlt : (c.authoritativeVersions key).getD 0 < v <;> simp [hpos, hlt]
    | markInvalidIfNewer key v source =>
      simp only [Event.apply, FlagCache.markInvalidIfNewer, Event.on, Event.wellFormed, Event.key,
        FlagCache.isNewerVersion, Register.apply, slotRegister, FlagCache.slot, Event.version,
        Event.outcome]
      by_cases hpos : isPositiveInteger v = true <;>
        by_cases hlt : (c.authoritativeVersions key).getD 0 < v <;> simp [hpos, hlt]
  · have hoff : e.on key = false := by simp [Event.on, hkey]
    rw [hoff]
    cases e with
    | upsertIfNewer flag v source =>
      have hne : key ≠ flag.key := fun h => hkey h.symm
      simp only [Event.apply, FlagCache.upsertIfNewer, Bool.false_eq_true, if_false]
      split_ifs
      · rfl
      · simp [FlagCache.slot, Function.update_of_ne hne]
    | removeIfNewer k v =>
      have hne : key ≠ k := fun h => hkey h.symm
      simp only [Event.apply, FlagCache.removeIfNewer, Bool.false_eq_true, if_false]
      split_ifs
      · rfl
      · simp [FlagCache.slot, Function.update_of_ne hne]
    | markInvalidIfNewer k v source =>
      have hne : key ≠ k := fun h => hkey h.symm
      simp only [Event.apply, FlagCache.markInvalidIfNewer, Bool.false_eq_true, if_false]
      split_ifs
      · rfl
      · simp [FlagCache.slot, Function.update_of_ne hne]

lemma slot_foldl (c : FlagCache) (events : List Event) (key : Text) :
    (events.foldl Event.apply c).slot key =
      (events.filter (Event.on key)).foldl slotRegister.apply (c.slot key) := by
  induction events generalizing c with
  | nil => rfl
  | cons e events ih =>
    rw [List.foldl_cons, ih, Event.slot_apply, List.filter_cons]
    by_cases hon : e.on key = true
    · simp [hon]
    · simp [hon]

lemma maps_eq_of_slot_eq {c c' : FlagCache} (h : ∀ key, c.slot key = c'.slot key) :
    c.flags = c'.flags ∧ c.sources = c'.sources ∧ c.invalidSources = c'.invalidSources ∧
      c.authoritativeVersions = c'.authoritativeVersions := by
  refine ⟨?_, ?_, ?_, ?_⟩ <;> funext key
  · exact congrArg Slot.flag (h key)
  · exact congrArg Slot.source (h key)
  · exact congrArg Slot.invalidSource (h key)
  · exact congrArg Slot.authoritativeVersion (h key)

/-- **Events converge.** From any cache, two sequences of the same events, in any order and with any
duplicates, end with the same active flags, sources, invalid keys and versions, if events on one key
with equal versions are equal; and every key ends with what the highest of its well-formed events
wrote, or with what it had when none of them is newer. -/
theorem events_converge (c : FlagCache) (events events' : List Event)
    (hsame : ∀ e, e ∈ events ↔ e ∈ events')
    (hequal : ∀ e ∈ events, ∀ e' ∈ events, e.key = e'.key → e.version = e'.version → e = e') :
    let r := events.foldl Event.apply c
    let r' := events'.foldl Event.apply c
    (r.flags = r'.flags ∧ r.sources = r'.sources ∧ r.invalidSources = r'.invalidSources ∧
        r.authoritativeVersions = r'.authoritativeVersions) ∧
      ∀ key, slotRegister.Settled (c.slot key) (events.filter (Event.on key)) (r.slot key) := by
  have hsettled : ∀ (events : List Event) (key : Text),
      slotRegister.Settled (c.slot key) (events.filter (Event.on key))
        ((events.foldl Event.apply c).slot key) := by
    intro events key
    rw [slot_foldl]
    exact Register.settled_foldl _ _
  refine ⟨maps_eq_of_slot_eq fun key => ?_, hsettled events⟩
  have hkeys : ∀ e ∈ events.filter (Event.on key), e ∈ events ∧ e.key = key := by
    intro e he
    obtain ⟨hmem, hon⟩ := List.mem_filter.1 he
    exact ⟨hmem, (by simpa [Event.on] using hon : e.key = key ∧ e.wellFormed = true).1⟩
  have hcons : slotRegister.Consistent (events.filter (Event.on key)) := by
    intro e he e' he' hrank
    obtain ⟨hmem, hkey⟩ := hkeys e he
    obtain ⟨hmem', hkey'⟩ := hkeys e' he'
    rw [hequal e hmem e' hmem' (hkey.trans hkey'.symm) hrank]
  refine (hsettled events key).unique ?_ hcons (hsettled events' key)
  intro e
  rw [List.mem_filter, List.mem_filter, hsame]

/-- A removal that overtakes the update before it, and comes twice. -/
theorem events_converge_overtaken :
    let update := Event.upsertIfNewer (plainFlag "checkout" 1) 1 .sse
    let removal := Event.removeIfNewer (Text.ofString "checkout") 2
    let r := [update, removal].foldl Event.apply .empty
    let r' := [removal, update, removal].foldl Event.apply .empty
    (r.flags = r'.flags ∧ r.sources = r'.sources ∧ r.invalidSources = r'.invalidSources ∧
        r.authoritativeVersions = r'.authoritativeVersions) ∧
      ∀ key, slotRegister.Settled (FlagCache.empty.slot key)
        ([update, removal].filter (Event.on key)) (r.slot key) :=
  events_converge .empty _ _ (by intro e; simp only [List.mem_cons, List.not_mem_nil]; tauto)
    (by decide)

end Apdl.Sdk.Cache
