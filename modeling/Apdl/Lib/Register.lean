import Mathlib.Order.Lattice
import Mathlib.Data.List.Induction

set_option autoImplicit false

/-!
# Registers that only newer events write

A register holds a state with a rank; an event has a rank and, if it ranks strictly above the
register, writes a state of its own rank. Such a register ends in the same state whatever the order
and the number of copies in which a set of events arrives, provided that events of one rank write
the same state.

## Main results

* `Register.Settled.unique` — the settled state depends on the set of events only.
-/

/-- A register with states `σ`, events `ε` and ranks `ω`. -/
structure Register (ω σ ε : Type*) [LinearOrder ω] where
  rank : σ → ω
  eventRank : ε → ω
  write : ε → σ
  rank_write : ∀ e, rank (write e) = eventRank e

namespace Register

variable {ω σ ε : Type*} [LinearOrder ω] (R : Register ω σ ε)

/-- An event that ranks above the register writes it. -/
def apply (s : σ) (e : ε) : σ := if R.rank s < R.eventRank e then R.write e else s

/-- Events of one rank write the same state. -/
def Consistent (events : List ε) : Prop :=
  ∀ e ∈ events, ∀ e' ∈ events, R.eventRank e = R.eventRank e' → R.write e = R.write e'

/-- `r` is what the highest of the events wrote, or the start if none of them ranks above it. -/
def Settled (s : σ) (events : List ε) (r : σ) : Prop :=
  (r = s ∧ ∀ e ∈ events, R.eventRank e ≤ R.rank s) ∨
    ∃ e ∈ events, r = R.write e ∧ R.rank s < R.eventRank e ∧
      ∀ e' ∈ events, R.eventRank e' ≤ R.eventRank e

variable {R}

lemma Settled.rank_le {s r : σ} {events : List ε} (h : R.Settled s events r) :
    R.rank s ≤ R.rank r ∧ ∀ e ∈ events, R.eventRank e ≤ R.rank r := by
  obtain ⟨rfl, hall⟩ | ⟨e, -, rfl, hlt, hall⟩ := h
  · exact ⟨le_rfl, hall⟩
  · rw [R.rank_write]
    exact ⟨hlt.le, hall⟩

lemma Settled.apply {s r : σ} {events : List ε} (h : R.Settled s events r) (e : ε) :
    R.Settled s (events ++ [e]) (R.apply r e) := by
  obtain ⟨hstart, hall⟩ := h.rank_le
  unfold Register.apply
  split_ifs with hnew
  · refine .inr ⟨e, by simp, rfl, hstart.trans_lt hnew, ?_⟩
    intro e' he'
    obtain he' | rfl : e' ∈ events ∨ e' = e := by simpa using he'
    · exact (hall e' he').trans hnew.le
    · exact le_rfl
  · have hold : R.eventRank e ≤ R.rank r := not_lt.1 hnew
    obtain ⟨rfl, hbound⟩ | ⟨w, hw, rfl, hlt, hbound⟩ := h
    · refine .inl ⟨rfl, fun e' he' => ?_⟩
      obtain he' | rfl : e' ∈ events ∨ e' = e := by simpa using he'
      · exact hbound e' he'
      · exact hold
    · refine .inr ⟨w, List.mem_append_left _ hw, rfl, hlt, fun e' he' => ?_⟩
      obtain he' | rfl : e' ∈ events ∨ e' = e := by simpa using he'
      · exact hbound e' he'
      · rwa [R.rank_write] at hold

theorem settled_foldl (s : σ) (events : List ε) : R.Settled s events (events.foldl R.apply s) := by
  induction events using List.reverseRecOn with
  | nil => exact .inl ⟨rfl, by simp⟩
  | append_singleton events e ih =>
    rw [List.foldl_append]
    exact ih.apply e

theorem Settled.unique {s r r' : σ} {events events' : List ε} (hsame : ∀ e, e ∈ events ↔ e ∈ events')
    (hcons : R.Consistent events) (h : R.Settled s events r) (h' : R.Settled s events' r') :
    r = r' := by
  obtain ⟨rfl, hall⟩ | ⟨e, he, rfl, hlt, hall⟩ := h
  · obtain ⟨rfl, -⟩ | ⟨e', he', -, hlt', -⟩ := h'
    · rfl
    · exact absurd hlt' (not_lt.2 (hall e' ((hsame e').2 he')))
  · obtain ⟨rfl, hall'⟩ | ⟨e', he', rfl, -, hall'⟩ := h'
    · exact absurd hlt (not_lt.2 (hall' e ((hsame e).1 he)))
    · have hle := hall e' ((hsame e').2 he')
      have hge := hall' e ((hsame e).1 he)
      exact hcons e he e' ((hsame e').2 he') (le_antisymm hge hle)

end Register
