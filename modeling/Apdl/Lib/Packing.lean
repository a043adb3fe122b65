import Mathlib.Algebra.BigOperators.Group.List.Basic
import Mathlib.Algebra.Order.Ring.Int
import Mathlib.Data.List.Perm.Basic

set_option autoImplicit false

/-!
# Packing a list into two bounds

Elements of a list are kept or left, from the front, within a bound on their number and one on their
total size. Pinned elements are kept in any case and count. A choice is a mask of booleans; of two
masks the better one keeps the element where they first differ, so that elements in front go first.

## Main results

* `Packing.Admissible.within` — what is kept and not pinned is within the bounds.
-/

namespace Packing

variable {α : Type}

/-- The elements that a mask keeps. -/
def pick : List Bool → List α → List α
  | keep :: mask, a :: l => if keep then a :: pick mask l else pick mask l
  | _, _ => []

/-- Where a mask first differs from the best one, it leaves what the best one keeps. -/
def NoBetter : List Bool → List Bool → Prop
  | [], [] => True
  | keep :: mask, keep' :: best => keep = false ∧ keep' = true ∨ keep = keep' ∧ NoBetter mask best
  | _, _ => False

section Bounds

variable (size : α → ℤ) (pinned : α → Bool) (maxCount : ℕ) (maxSize : ℤ)

/-- One more element is within the bounds. -/
def fits (count : ℕ) (total : ℤ) (a : α) : Bool :=
  decide (count < maxCount) && decide (total + size a ≤ maxSize)

/-- With a number and a total size kept before, a mask keeps all pinned elements, and of the others
only such as fit. -/
def Admissible : ℕ → ℤ → List α → List Bool → Prop
  | _, _, [], [] => True
  | count, total, a :: l, true :: mask =>
    (pinned a = false → fits size maxCount maxSize count total a = true) ∧
      Admissible (count + 1) (total + size a) l mask
  | count, total, a :: l, false :: mask => pinned a = false ∧ Admissible count total l mask
  | _, _, _, _ => False

/-- The mask that keeps whatever is pinned or fits. -/
def greedy : ℕ → ℤ → List α → List Bool
  | _, _, [] => []
  | count, total, a :: l =>
    if pinned a || fits size maxCount maxSize count total a then
      true :: greedy (count + 1) (total + size a) l
    else false :: greedy count total l

end Bounds

variable {size : α → ℤ} {pinned : α → Bool} {maxCount : ℕ} {maxSize : ℤ} {count : ℕ} {total : ℤ}
  {l : List α} {mask : List Bool}

theorem admissible_greedy (count : ℕ) (total : ℤ) (l : List α) :
    Admissible size pinned maxCount maxSize count total l
      (greedy size pinned maxCount maxSize count total l) := by
  induction l generalizing count total with
  | nil => exact trivial
  | cons a l ih =>
    unfold greedy
    split_ifs with hkeep
    · refine ⟨fun hfree => ?_, ih _ _⟩
      rwa [hfree, Bool.false_or] at hkeep
    · rw [Bool.not_eq_true, Bool.or_eq_false_iff] at hkeep
      exact ⟨hkeep.1, ih _ _⟩

theorem noBetter_greedy (h : Admissible size pinned maxCount maxSize count total l mask) :
    NoBetter mask (greedy size pinned maxCount maxSize count total l) := by
  induction l generalizing count total mask with
  | nil =>
    cases mask with
    | nil => exact trivial
    | cons keep mask => exact h.elim
  | cons a l ih =>
    cases mask with
    | nil => exact h.elim
    | cons keep mask =>
      unfold greedy
      cases keep with
      | true =>
        obtain ⟨hfits, hrest⟩ := h
        have hkeep : (pinned a || fits size maxCount maxSize count total a) = true := by
          cases hp : pinned a with
          | true => rfl
          | false => rw [hfits hp]; rfl
        rw [if_pos hkeep]
        exact .inr ⟨rfl, ih hrest⟩
      | false =>
        obtain ⟨-, hrest⟩ := h
        split_ifs
        · exact .inl ⟨rfl, rfl⟩
        · exact .inr ⟨rfl, ih hrest⟩

theorem Admissible.within (h : Admissible size pinned maxCount maxSize count total l mask)
    (hsize : ∀ a ∈ l, 0 ≤ size a)
    (hne : (pick mask l).filter (fun a => !pinned a) ≠ []) :
    count + ((pick mask l).filter fun a => !pinned a).length ≤ maxCount ∧
      total + (((pick mask l).filter fun a => !pinned a).map size).sum ≤ maxSize := by
  induction l generalizing count total mask with
  | nil =>
    cases mask with
    | nil => exact absurd rfl hne
    | cons keep mask => exact h.elim
  | cons a l ih =>
    have hsize' : ∀ b ∈ l, 0 ≤ size b := fun b hb => hsize b (List.mem_cons_of_mem a hb)
    cases mask with
    | nil => exact h.elim
    | cons keep mask =>
      cases keep with
      | false => exact ih h.2 hsize' hne
      | true =>
        obtain ⟨hfits, hrest⟩ := h
        have hpick : pick (true :: mask) (a :: l) = a :: pick mask l := rfl
        have ha := hsize a List.mem_cons_self
        rw [hpick] at hne ⊢
        cases hp : pinned a with
        | true =>
          rw [List.filter_cons_of_neg (by simp [hp])] at hne ⊢
          obtain ⟨hcount, htotal⟩ := ih hrest hsize' hne
          exact ⟨by omega, by omega⟩
        | false =>
          have hfit := hfits hp
          simp only [fits, Bool.and_eq_true, decide_eq_true_eq] at hfit
          rw [List.filter_cons_of_pos (by simp [hp]), List.length_cons, List.map_cons,
            List.sum_cons]
          by_cases hlast : (pick mask l).filter (fun b => !pinned b) = []
          · rw [hlast, List.length_nil, List.map_nil, List.sum_nil]
            exact ⟨by omega, by omega⟩
          · obtain ⟨hcount, htotal⟩ := ih hrest hsize' hlast
            exact ⟨by omega, by omega⟩

end Packing
