import Mathlib.Algebra.BigOperators.Group.List.Basic
import Mathlib.Algebra.Order.BigOperators.Group.List
import Mathlib.Algebra.Order.Field.Basic
import Mathlib.Tactic.Linarith
import Mathlib.Tactic.Ring

set_option autoImplicit false
set_option linter.unusedSectionVars false

/-!
# Token buckets

A *token bucket* holds up to `capacity` tokens, gains `rate` tokens per unit of time while it is not
full, and pays for what it admits. Levels, costs and times are elements of an ordered field.

## Main results

* `TokenBucket.Metered.window` — over every interval, at most the capacity and what flows in during
  the interval are paid.
-/

namespace TokenBucket

variable {K : Type*} [Field K] [LinearOrder K] [IsStrictOrderedRing K]

/-- The level of a bucket with `tokens` tokens after a time without payments. -/
def refill (capacity rate tokens elapsed : K) : K := min capacity (tokens + elapsed * rate)

section Refill

variable {capacity rate tokens elapsed : K}

lemma refill_le_capacity : refill capacity rate tokens elapsed ≤ capacity := min_le_left _ _

lemma refill_le_add : refill capacity rate tokens elapsed ≤ tokens + elapsed * rate :=
  min_le_right _ _

lemma le_refill (htokens : tokens ≤ capacity) (hrate : 0 ≤ rate) (helapsed : 0 ≤ elapsed) :
    tokens ≤ refill capacity rate tokens elapsed := by
  refine le_min htokens ?_
  have hflow : 0 ≤ elapsed * rate := mul_nonneg helapsed hrate
  linarith

lemma refill_zero (htokens : tokens ≤ capacity) : refill capacity rate tokens 0 = tokens := by
  rw [refill, zero_mul, add_zero, min_eq_right htokens]

lemma refill_eq_capacity (h : capacity ≤ tokens + elapsed * rate) :
    refill capacity rate tokens elapsed = capacity := min_eq_left h

lemma refill_refill {later : K} (hrate : 0 ≤ rate) (hlater : 0 ≤ later) :
    refill capacity rate (refill capacity rate tokens elapsed) later =
      refill capacity rate tokens (elapsed + later) := by
  have hflow : 0 ≤ later * rate := mul_nonneg hlater hrate
  unfold refill
  rw [add_mul, ← add_assoc]
  rcases le_total capacity (tokens + elapsed * rate) with hfull | hpart
  · rw [min_eq_left hfull, min_eq_left (by linarith), min_eq_left (by linarith)]
  · rw [min_eq_right hpart]

end Refill

/-- What was paid at times from `a` to `b`. -/
def spent (log : List (K × K)) (a b : K) : K :=
  ((log.filter fun p => decide (a ≤ p.1) && decide (p.1 ≤ b)).map Prod.snd).sum

section Spent

variable {log : List (K × K)} {a b : K}

lemma spent_append_of_mem {t cost : K} (ha : a ≤ t) (hb : t ≤ b) :
    spent (log ++ [(t, cost)]) a b = spent log a b + cost := by
  simp [spent, List.filter_append, ha, hb]

lemma spent_append_of_not_mem {t cost : K} (h : ¬ (a ≤ t ∧ t ≤ b)) :
    spent (log ++ [(t, cost)]) a b = spent log a b := by
  simp only [spent, List.filter_append, List.map_append, List.sum_append]
  rw [List.filter_cons_of_neg (by simpa using h)]
  simp

lemma spent_eq_of_le {b' now : K} (hlog : ∀ p ∈ log, p.1 ≤ now) (hb : now ≤ b) (hb' : now ≤ b') :
    spent log a b = spent log a b' := by
  unfold spent
  congr 2
  refine List.filter_congr fun p hp => ?_
  have hp' := hlog p hp
  simp [hp'.trans hb, hp'.trans hb']

lemma spent_eq_zero {now : K} (hlog : ∀ p ∈ log, p.1 ≤ now) (ha : now < a) : spent log a b = 0 := by
  have hnone : log.filter (fun p => decide (a ≤ p.1) && decide (p.1 ≤ b)) = [] := by
    rw [List.filter_eq_nil_iff]
    intro p hp
    have hp' : p.1 < a := (hlog p hp).trans_lt ha
    simp [hp']
  rw [spent, hnone]
  rfl

end Spent

/-- The payments of a bucket up to `now`, and its level. -/
structure Metered (capacity rate : K) (log : List (K × K)) (now level : K) : Prop where
  past : ∀ p ∈ log, p.1 ≤ now
  /-- The bucket is not more than full. -/
  level_le : level ≤ capacity
  /-- What was paid since `a` and what is left came from a full bucket and the inflow. -/
  since : ∀ a ≤ now, spent log a now + level ≤ capacity + rate * (now - a)
  /-- Over every interval, at most the capacity and the inflow are paid. -/
  window : ∀ a b, a ≤ b → spent log a b ≤ capacity + rate * (b - a)

namespace Metered

variable {capacity rate now level : K} {log : List (K × K)}

lemma full (hcapacity : 0 ≤ capacity) (hrate : 0 ≤ rate) (now : K) :
    Metered capacity rate [] now capacity where
  past := by simp
  level_le := le_rfl
  since := by
    intro a ha
    have hflow : 0 ≤ rate * (now - a) := mul_nonneg hrate (sub_nonneg.2 ha)
    simp only [spent, List.filter_nil, List.map_nil, List.sum_nil]
    linarith
  window := by
    intro a b hab
    have hflow : 0 ≤ rate * (b - a) := mul_nonneg hrate (sub_nonneg.2 hab)
    simp only [spent, List.filter_nil, List.map_nil, List.sum_nil]
    linarith

lemma advance (h : Metered capacity rate log now level) {later level' : K}
    (hrate : 0 ≤ rate) (hlater : now ≤ later) (hle : level' ≤ capacity)
    (hgain : level' ≤ level + rate * (later - now)) :
    Metered capacity rate log later level' where
  past := fun p hp => (h.past p hp).trans hlater
  level_le := hle
  since := by
    intro a ha
    rcases le_or_gt a now with hold | hnew
    · have hsince := h.since a hold
      have hend : spent log a later = spent log a now := spent_eq_of_le h.past hlater le_rfl
      rw [hend]
      have hflow : rate * (later - a) = rate * (later - now) + rate * (now - a) := by ring
      linarith
    · have hflow : 0 ≤ rate * (later - a) := mul_nonneg hrate (sub_nonneg.2 ha)
      rw [spent_eq_zero h.past hnew]
      linarith
  window := h.window

/-- A payment is made.

**Proof sketch.** Only intervals that contain the present are new. Such an interval ends after all
payments, so what was paid in it is what was paid since it began. -/
lemma pay (h : Metered capacity rate log now level) {cost : K} (hrate : 0 ≤ rate)
    (hcost : 0 ≤ cost) (hlevel : cost ≤ level) :
    Metered capacity rate (log ++ [(now, cost)]) now (level - cost) where
  past := by
    intro p hp
    rcases List.mem_append.1 hp with hold | hnew
    · exact h.past p hold
    · rw [List.mem_singleton.1 hnew]
  level_le := by
    have hle := h.level_le
    linarith
  since := by
    intro a ha
    have hsince := h.since a ha
    rw [spent_append_of_mem ha le_rfl]
    linarith
  window := by
    intro a b hab
    by_cases hin : a ≤ now ∧ now ≤ b
    · have hsince := h.since a hin.1
      have hend : spent log a b = spent log a now := spent_eq_of_le h.past hin.2 le_rfl
      have hflow : rate * (now - a) ≤ rate * (b - a) :=
        mul_le_mul_of_nonneg_left (by linarith [hin.2]) hrate
      rw [spent_append_of_mem hin.1 hin.2, hend]
      linarith
    · rw [spent_append_of_not_mem hin]
      exact h.window a b hab

end Metered

end TokenBucket
