import Mathlib.Order.MinMax
import Mathlib.Data.List.Basic

set_option autoImplicit false

/-!
# Extremal elements of lists

The maximum of a list above a base and the minimum of a nonempty list, as left folds, and prefixes
of sorted lists.

## Main results

* `List.mem_take_of_le` — a prefix of a sorted list is downward closed in it.
-/

namespace List

section Fold

variable {α : Type*} [LinearOrder α]

lemma base_le_foldl_max (l : List α) (a : α) : a ≤ l.foldl max a := by
  induction l generalizing a with
  | nil => exact le_rfl
  | cons b l ih => exact (le_max_left a b).trans (ih (max a b))

lemma le_foldl_max {l : List α} {x : α} (hx : x ∈ l) (a : α) : x ≤ l.foldl max a := by
  induction l generalizing a with
  | nil => exact absurd hx not_mem_nil
  | cons b l ih =>
    rcases mem_cons.1 hx with rfl | hx
    · exact (le_max_right a x).trans (base_le_foldl_max l _)
    · exact ih hx (max a b)

lemma foldl_max_mem (l : List α) (a : α) : l.foldl max a = a ∨ l.foldl max a ∈ l := by
  induction l generalizing a with
  | nil => exact .inl rfl
  | cons b l ih =>
    rcases ih (max a b) with h | h
    · rcases max_choice a b with hab | hab
      · exact .inl (h.trans hab)
      · exact .inr (mem_cons.2 (.inl (h.trans hab)))
    · exact .inr (mem_cons_of_mem b h)

lemma foldl_min_le_base (l : List α) (a : α) : l.foldl min a ≤ a := by
  induction l generalizing a with
  | nil => exact le_rfl
  | cons b l ih => exact (ih (min a b)).trans (min_le_left a b)

lemma foldl_min_le {l : List α} {x : α} (hx : x ∈ l) (a : α) : l.foldl min a ≤ x := by
  induction l generalizing a with
  | nil => exact absurd hx not_mem_nil
  | cons b l ih =>
    rcases mem_cons.1 hx with rfl | hx
    · exact (foldl_min_le_base l _).trans (min_le_right a x)
    · exact ih hx (min a b)

lemma foldl_min_mem (l : List α) (a : α) : l.foldl min a ∈ a :: l := by
  induction l generalizing a with
  | nil => exact mem_cons_self
  | cons b l ih =>
    rcases mem_cons.1 (ih (min a b)) with h | h
    · rcases min_choice a b with hab | hab
      · exact mem_cons.2 (.inl (h.trans hab))
      · exact mem_cons_of_mem a (mem_cons.2 (.inl (h.trans hab)))
    · exact mem_cons_of_mem a (mem_cons_of_mem b h)

end Fold

section Sorted

variable {α β : Type*} [LinearOrder β] {key : α → β}

lemma mem_take_of_le {l : List α} (hl : l.Pairwise fun a b => key a < key b) {n : ℕ} {x y : α}
    (hx : x ∈ l) (hy : y ∈ l.take n) (hle : key x ≤ key y) : x ∈ l.take n := by
  have hsplit : x ∈ l.take n ++ l.drop n := by rwa [take_append_drop]
  rcases mem_append.1 hsplit with h | h
  · exact h
  · have hpair : (l.take n ++ l.drop n).Pairwise fun a b => key a < key b := by
      rwa [take_append_drop]
    exact absurd ((pairwise_append.1 hpair).2.2 y hy x h) (not_lt.2 hle)

lemma eq_of_key_eq {l : List α} (hl : l.Pairwise fun a b => key a < key b) {x y : α}
    (hx : x ∈ l) (hy : y ∈ l) (hkey : key x = key y) : x = y := by
  induction l with
  | nil => exact absurd hx not_mem_nil
  | cons a l ih =>
    obtain ⟨ha, hl⟩ := pairwise_cons.1 hl
    rcases mem_cons.1 hx with rfl | hx' <;> rcases mem_cons.1 hy with rfl | hy'
    · rfl
    · exact absurd hkey (ha y hy').ne
    · exact absurd hkey (ha x hx').ne'
    · exact ih hl hx' hy'

end Sorted

end List
