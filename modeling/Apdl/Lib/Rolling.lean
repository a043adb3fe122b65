import Mathlib.Algebra.Order.Group.Defs
import Mathlib.Data.List.Count

set_option autoImplicit false

/-!
# Rolling windows

A list of times meets a rolling bound if every closed interval of one length contains at most a
number of them. The times can be added in any order, as long as each one is added only while fewer than
that number lie in the length before it or later: of the times in an interval the one that was added
last has all others in the length before it, or after it.

## Main results

* `Rolling.Bounded.append` — one more time.
-/

namespace Rolling

variable {τ : Type*} [AddCommGroup τ] [LinearOrder τ]

/-- The number of times in a closed interval of length `w`. -/
def countWithin (w a : τ) (ts : List τ) : ℕ := ts.countP fun t => decide (a ≤ t ∧ t ≤ a + w)

/-- The number of times in the length `w` before `t`, and of all later ones. -/
def countSince (w t : τ) (ts : List τ) : ℕ := ts.countP fun u => decide (t - w ≤ u)

/-- Every closed interval of length `w` contains at most `limit` of the times. -/
def Bounded (w : τ) (limit : ℕ) (ts : List τ) : Prop := ∀ a, countWithin w a ts ≤ limit

lemma bounded_nil (w : τ) (limit : ℕ) : Bounded w limit [] := fun _ => Nat.zero_le _

lemma countWithin_le_countSince [IsOrderedAddMonoid τ] {w a t : τ} (ht : t ≤ a + w) (ts : List τ) :
    countWithin w a ts ≤ countSince w t ts := by
  apply List.countP_mono_left
  intro u _ hu
  rw [decide_eq_true_iff] at hu ⊢
  exact (sub_le_iff_le_add.2 ht).trans hu.1

theorem Bounded.append [IsOrderedAddMonoid τ] {w t : τ} {limit : ℕ} {ts : List τ}
    (h : Bounded w limit ts)
    (ht : countSince w t ts < limit) : Bounded w limit (ts ++ [t]) := by
  intro a
  rw [countWithin, List.countP_append, List.countP_singleton]
  by_cases hin : a ≤ t ∧ t ≤ a + w
  · have hbefore : countWithin w a ts < limit := (countWithin_le_countSince hin.2 ts).trans_lt ht
    rw [countWithin] at hbefore
    simp only [hin, decide_true, and_self, if_true]
    exact hbefore
  · simp only [hin, decide_false, Bool.false_eq_true, if_false]
    exact h a

end Rolling
