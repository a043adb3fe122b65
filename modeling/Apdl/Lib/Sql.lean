import Mathlib.Data.List.Sort
import Mathlib.Data.Set.Card

set_option autoImplicit false

/-!
# Relational operators on lists of rows

The operators of an analytical SQL dialect that are not plain list functions, with their meaning as
sets of rows: the first row of each key, the merged view of a replacing table, and counts of
distinct values.

## Main results

* `Sql.countP_eq_ncard`, `Sql.uniqExact_eq_ncard` — counts of rows are numbers of what they stand
  for.
-/

namespace Sql

variable {α β κ ν : Type*}

/-- `LIMIT 1 BY`: the first row of each key. -/
def limitOneBy [DecidableEq κ] (key : α → κ) : List α → List α
  | [] => []
  | a :: l => a :: (limitOneBy key l).filter fun b => decide (key b ≠ key a)

/-- `FINAL` on a replacing table, whose rows are listed as they were inserted: for each key the row
of the greatest version, the last one among equals. -/
def replacingFinal [DecidableEq κ] [LinearOrder ν] (key : α → κ) (version : α → ν) :
    List α → List α
  | [] => []
  | a :: l =>
    let rest := replacingFinal key version l
    if rest.any fun b => decide (key b = key a) && decide (version a ≤ version b) then rest
    else a :: rest.filter fun b => decide (key b ≠ key a)

/-- `uniqExact`: the number of distinct values. -/
def uniqExact [DecidableEq α] (l : List α) : ℕ := l.dedup.length

/-! ## One row per key -/

section LimitOneBy

variable [DecidableEq κ] {key : α → κ}

lemma limitOneBy_sublist (l : List α) : (limitOneBy key l).Sublist l := by
  induction l with
  | nil => exact List.Sublist.slnil
  | cons a l ih => exact (List.filter_sublist.trans ih).cons_cons a

lemma nodup_keys_limitOneBy (l : List α) : ((limitOneBy key l).map key).Nodup := by
  induction l with
  | nil => exact List.nodup_nil
  | cons a l ih =>
    refine List.nodup_cons.2 ⟨fun h => ?_, ih.sublist (List.filter_sublist.map key)⟩
    obtain ⟨b, hb, hkey⟩ := List.mem_map.1 h
    exact absurd hkey (by simpa using (List.mem_filter.1 hb).2)

lemma mem_limitOneBy {r : α → α → Prop} {l : List α} (hl : l.Pairwise r)
    (hrefl : ∀ x, r x x)
    (hanti : ∀ x ∈ l, ∀ y ∈ l, key x = key y → r x y → r y x → x = y) {x : α} :
    x ∈ limitOneBy key l ↔ x ∈ l ∧ ∀ y ∈ l, key y = key x → r x y := by
  induction l with
  | nil => simp [limitOneBy]
  | cons a l ih =>
    obtain ⟨ha, hl⟩ := List.pairwise_cons.1 hl
    have ih' := ih hl fun x hx y hy => hanti x (List.mem_cons_of_mem a hx) y
      (List.mem_cons_of_mem a hy)
    constructor
    · intro hx
      rcases List.mem_cons.1 hx with rfl | hx
      · refine ⟨List.mem_cons_self, fun y hy _ => ?_⟩
        rcases List.mem_cons.1 hy with rfl | hy
        · exact hrefl y
        · exact ha y hy
      · obtain ⟨hmem, hne⟩ := List.mem_filter.1 hx
        obtain ⟨hmem, hmin⟩ := ih'.1 hmem
        refine ⟨List.mem_cons_of_mem a hmem, fun y hy hkey => ?_⟩
        rcases List.mem_cons.1 hy with rfl | hy
        · exact absurd hkey.symm (by simpa using hne)
        · exact hmin y hy hkey
    · rintro ⟨hx, hmin⟩
      by_cases hkey : key x = key a
      · -- the first row of the key is below `x`, and `x` below it
        rcases List.mem_cons.1 hx with rfl | hx'
        · exact List.mem_cons_self
        · have hxa := hmin a List.mem_cons_self hkey.symm
          rw [hanti x hx a List.mem_cons_self hkey hxa (ha x hx')]
          exact List.mem_cons_self
      · have hx' : x ∈ l := (List.mem_cons.1 hx).resolve_left fun h => hkey (h ▸ rfl)
        refine List.mem_cons_of_mem a (List.mem_filter.2 ⟨ih'.2 ⟨hx', ?_⟩, by simpa using hkey⟩)
        exact fun y hy => hmin y (List.mem_cons_of_mem a hy)

theorem mem_limitOneBy_insertionSort {r : α → α → Prop} [DecidableRel r] [Std.Total r]
    [IsTrans α r] {l : List α}
    (hanti : ∀ x ∈ l, ∀ y ∈ l, key x = key y → r x y → r y x → x = y) {x : α} :
    x ∈ limitOneBy key (l.insertionSort r) ↔ x ∈ l ∧ ∀ y ∈ l, key y = key x → r x y := by
  have hmem : ∀ y, y ∈ l.insertionSort r ↔ y ∈ l := fun y => (l.perm_insertionSort r).mem_iff
  rw [mem_limitOneBy (l.pairwise_insertionSort r)]
  · simp only [hmem]
  · exact fun y => (Std.Total.total y y).elim id id
  · exact fun y hy z hz => hanti y ((hmem y).1 hy) z ((hmem z).1 hz)

end LimitOneBy

section ReplacingFinal

variable [DecidableEq κ] [LinearOrder ν] {key : α → κ} {version : α → ν}

lemma mem_of_mem_replacingFinal {l : List α} {x : α} (h : x ∈ replacingFinal key version l) :
    x ∈ l := by
  induction l with
  | nil => exact h
  | cons a l ih =>
    simp only [replacingFinal] at h
    split at h
    · exact List.mem_cons_of_mem a (ih h)
    · rcases List.mem_cons.1 h with rfl | h
      · exact List.mem_cons_self
      · exact List.mem_cons_of_mem a (ih (List.mem_filter.1 h).1)

theorem mem_replacingFinal {l : List α} (hl : ∀ x ∈ l, ∀ y ∈ l, key x = key y → x = y) {x : α} :
    x ∈ replacingFinal key version l ↔ x ∈ l := by
  refine ⟨mem_of_mem_replacingFinal, fun hx => ?_⟩
  induction l with
  | nil => exact hx
  | cons a l ih =>
    have ih' := ih fun y hy z hz => hl y (List.mem_cons_of_mem a hy) z (List.mem_cons_of_mem a hz)
    simp only [replacingFinal]
    split
    next hany =>
      rcases List.mem_cons.1 hx with rfl | hx
      · obtain ⟨b, hb, hkey⟩ := List.any_eq_true.1 hany
        simp only [Bool.and_eq_true, decide_eq_true_eq] at hkey
        have hb' := List.mem_cons_of_mem x (mem_of_mem_replacingFinal hb)
        rwa [← hl b hb' x List.mem_cons_self hkey.1]
      · exact ih' hx
    · by_cases hkey : key x = key a
      · rw [hl x hx a List.mem_cons_self hkey]
        exact List.mem_cons_self
      · have hx' : x ∈ l := (List.mem_cons.1 hx).resolve_left fun h => hkey (h ▸ rfl)
        exact List.mem_cons_of_mem a (List.mem_filter.2 ⟨ih' hx', by simpa using hkey⟩)

end ReplacingFinal

section Count

variable {f : α → κ} {g : β → κ}

theorem uniqExact_eq_ncard [DecidableEq κ] (hg : Function.Injective g) {l : List κ} {S : Set β}
    (hS : ∀ k, k ∈ l ↔ ∃ b ∈ S, g b = k) : uniqExact l = S.ncard := by
  have himage : g '' S = (l.toFinset : Set κ) := by
    ext k
    simp only [Set.mem_image, Finset.mem_coe, List.mem_toFinset, hS]
  rw [← Set.ncard_image_of_injective S hg, himage, Set.ncard_coe_finset, List.card_toFinset]
  rfl

theorem countP_eq_ncard [DecidableEq κ] (hg : Function.Injective g) {l : List α}
    (hl : (l.map f).Nodup) {p : α → Bool} {S : Set β}
    (hS : ∀ k, (∃ a ∈ l, p a = true ∧ f a = k) ↔ ∃ b ∈ S, g b = k) : l.countP p = S.ncard := by
  have hnodup : ((l.filter p).map f).Nodup := hl.sublist (List.filter_sublist.map f)
  have huniq : uniqExact ((l.filter p).map f) = S.ncard := by
    refine uniqExact_eq_ncard hg fun k => ?_
    rw [← hS k]
    simp only [List.mem_map, List.mem_filter, and_assoc]
  rw [← huniq, uniqExact, hnodup.dedup, List.length_map, List.countP_eq_length_filter]

end Count

end Sql
