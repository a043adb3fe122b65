import Mathlib.Data.List.Basic

set_option autoImplicit false

/-!
# Lists as tables of numbered rows

A table whose rows are never deleted is a list, and the position of a row is its key. An update of one
row is `List.set`, an update of all rows that meet a condition is `List.map`, and a selection is
`List.filter`. This file has the lemmas that say what is found after an update.

## Main results

* `Rows.map_eq_self` — an update of no row.
-/

namespace Rows

variable {α : Type}

variable {i : ℕ}

lemma getElem?_set_of_some {l : List α} {j : ℕ} {a b : α} (h : l[i]? = some a) :
    (l.set i b)[j]? = if j = i then some b else l[j]? := by
  have hlt : i < l.length := (List.getElem?_eq_some_iff.1 h).1
  rw [List.getElem?_set]
  split_ifs with hij hji hji
  · rfl
  · exact absurd hij.symm hji
  · exact absurd hji.symm hij
  · rfl

lemma countP_set_of_some (p : α → Bool) {l : List α} {a b : α} (h : l[i]? = some a) :
    (l.set i b).countP p + (if p a then 1 else 0) = l.countP p + if p b then 1 else 0 := by
  induction l generalizing i with
  | nil => simp at h
  | cons c l ih =>
    cases i with
    | zero =>
      obtain rfl : c = a := by simpa using h
      simp only [List.set_cons_zero, List.countP_cons]
      omega
    | succ i =>
      have hrest := ih (by simpa using h)
      simp only [List.set_cons_succ, List.countP_cons]
      omega

lemma countP_le_one_of_pairwise {p : α → Bool} {l : List α}
    (h : l.Pairwise fun a b => ¬(p a = true ∧ p b = true)) : l.countP p ≤ 1 := by
  induction h with
  | nil => simp
  | @cons a l hhead _ ih =>
    cases ha : p a with
    | false => rwa [List.countP_cons_of_neg (by simp [ha])]
    | true =>
      have hrest : l.countP p = 0 := List.countP_eq_zero.2 fun b hb hpb => hhead b hb ⟨ha, hpb⟩
      rw [List.countP_cons_of_pos ha]
      omega

lemma filter_set_of_neg (p : α → Bool) {l : List α} {a b : α} (h : l[i]? = some a)
    (ha : p a = false) (hb : p b = false) : (l.set i b).filter p = l.filter p := by
  induction l generalizing i with
  | nil => simp at h
  | cons c l ih =>
    cases i with
    | zero =>
      obtain rfl : c = a := by simpa using h
      simp [ha, hb]
    | succ i =>
      have hrest := ih (by simpa using h)
      simp only [List.set_cons_succ, List.filter_cons, hrest]

lemma mem_set_self {l : List α} {a b : α} (h : l[i]? = some a) : b ∈ l.set i b :=
  List.mem_iff_getElem?.2 ⟨i, by rw [getElem?_set_of_some h, if_pos rfl]⟩

lemma filter_map_of_eq (p : α → Bool) (f : α → α) (h : ∀ a, p (f a) = p a) (l : List α) :
    (l.map f).filter p = (l.filter p).map f := by
  rw [List.filter_map]
  congr 1
  exact List.filter_congr fun a _ => h a

lemma map_set_of_eq {β : Type} (f : α → β) {l : List α} {a b : α} (h : l[i]? = some a)
    (hf : f b = f a) : (l.set i b).map f = l.map f := by
  refine List.ext_getElem? fun j => ?_
  rw [List.getElem?_map, List.getElem?_map, getElem?_set_of_some h]
  split_ifs with hj
  · rw [hj, h, Option.map_some, Option.map_some, hf]
  · rfl

lemma getElem?_append_cases {l l' : List α} {a : α} (h : (l ++ l')[i]? = some a) :
    l[i]? = some a ∨ ∃ j : ℕ, i = l.length + j ∧ l'[j]? = some a := by
  by_cases hi : i < l.length
  · rw [List.getElem?_append_left hi] at h
    exact .inl h
  · have hle : l.length ≤ i := Nat.le_of_not_lt hi
    rw [List.getElem?_append_right hle] at h
    exact .inr ⟨i - l.length, (Nat.add_sub_of_le hle).symm, h⟩

lemma getElem?_append_of_some {l : List α} (l' : List α) {a : α} (h : l[i]? = some a) :
    (l ++ l')[i]? = some a := by
  rw [List.getElem?_append_left (List.getElem?_eq_some_iff.1 h).1, h]

lemma getElem?_append_add (l l' : List α) (j : ℕ) : (l ++ l')[l.length + j]? = l'[j]? := by
  rw [List.getElem?_append_right (Nat.le_add_right _ _), Nat.add_sub_cancel_left]

lemma map_eq_self {f : α → α} {l : List α} (h : ∀ a ∈ l, f a = a) : l.map f = l :=
  (List.map_congr_left h).trans (List.map_id l)

end Rows
