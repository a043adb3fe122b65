import Mathlib.Data.List.Nodup

set_option autoImplicit false

/-!
# Cursors over keyed rows

A keyed store is a list of rows with distinct keys, in the order in which a cursor walks them. A
*walk* visits every row once with an accumulator and decides what becomes of the row; a *touch*
visits the rows of given keys. Both are specified by what `lookup` finds afterwards.

## Main results

* `Cursor.lookup_touch` — a row after a touch.
-/

/-- What becomes of a row that is visited. -/
inductive Fate (α : Type)
  | keep
  | update (a : α)
  | delete
  deriving DecidableEq

/-- The value of a row afterwards, if it still exists. -/
def Fate.value {α : Type} (a : α) : Fate α → Option α
  | .keep => some a
  | .update b => some b
  | .delete => none

namespace Cursor

variable {κ α σ : Type} [DecidableEq κ] {visit : σ → κ → α → σ × Fate α} {f : κ → α → Fate α}
  {s : σ} {k : κ} {a : α} {rows : List (κ × α)}

/-- The row with key `k` as its fate leaves it. -/
def settle (k : κ) (a : α) (fate : Fate α) : List (κ × α) := ((fate.value a).map (k, ·)).toList

/-- A cursor visits every row in order. -/
def walk (visit : σ → κ → α → σ × Fate α) : σ → List (κ × α) → σ × List (κ × α)
  | s, [] => (s, [])
  | s, (k, a) :: rows =>
    let visited := visit s k a
    let rest := walk visit visited.1 rows
    (rest.1, settle k a visited.2 ++ rest.2)

/-- The accumulator with which the cursor reaches the row with key `k`. -/
def accAt (visit : σ → κ → α → σ × Fate α) (k : κ) : σ → List (κ × α) → σ
  | s, [] => s
  | s, (k', a) :: rows => if k = k' then s else accAt visit k (visit s k' a).1 rows

/-- The row with key `k` is visited; the count says whether it changed. -/
def touchOne (f : κ → α → Fate α) (acc : ℕ × List (κ × α)) (k : κ) : ℕ × List (κ × α) :=
  match acc.2.lookup k with
  | none => acc
  | some a =>
    match f k a with
    | .keep => acc
    | .update b => (acc.1 + 1, acc.2.map fun row => if row.1 = k then (k, b) else row)
    | .delete => (acc.1 + 1, acc.2.filter fun row => decide (row.1 ≠ k))

/-- The rows of the given keys are visited one after the other; also the number that changed. -/
def touch (f : κ → α → Fate α) (ks : List κ) (rows : List (κ × α)) : ℕ × List (κ × α) :=
  ks.foldl (touchOne f) (0, rows)

/-! ## Rows -/

lemma lookup_row (k k' : κ) (a : α) (rows : List (κ × α)) :
    ((k', a) :: rows).lookup k = if k = k' then some a else rows.lookup k := by
  rw [List.lookup_cons]
  by_cases h : k = k'
  · simp [h]
  · have hb : (k == k') = false := by simpa using h
    simp [hb, h]

lemma mem_of_lookup (h : rows.lookup k = some a) : (k, a) ∈ rows := by
  obtain ⟨l₁, l₂, rfl, -⟩ := List.lookup_eq_some_iff.1 h
  simp

lemma lookup_of_mem (hnd : (rows.map Prod.fst).Nodup) (h : (k, a) ∈ rows) :
    rows.lookup k = some a := by
  induction rows with
  | nil => cases h
  | cons row rows ih =>
    obtain ⟨k', a'⟩ := row
    rw [List.map_cons, List.nodup_cons] at hnd
    rw [lookup_row]
    rcases List.mem_cons.1 h with heq | hmem
    · obtain ⟨rfl, rfl⟩ := Prod.mk.inj heq
      simp
    · have hne : k ≠ k' := by
        rintro rfl
        exact hnd.1 (List.mem_map.2 ⟨(k, a), hmem, rfl⟩)
      rw [if_neg hne]
      exact ih hnd.2 hmem

lemma lookup_eq_none (h : k ∉ rows.map Prod.fst) : rows.lookup k = none := by
  rw [List.lookup_eq_none_iff]
  intro p hp
  have hne : k ≠ p.1 := fun heq => h (heq ▸ List.mem_map_of_mem hp)
  simpa using hne

lemma lookup_reverse (hnd : (rows.map Prod.fst).Nodup) (k : κ) :
    rows.reverse.lookup k = rows.lookup k := by
  have hnd' : (rows.reverse.map Prod.fst).Nodup := by
    rw [List.map_reverse]
    exact List.nodup_reverse.2 hnd
  cases h : rows.lookup k with
  | some a => exact lookup_of_mem hnd' (List.mem_reverse.2 (mem_of_lookup h))
  | none =>
    cases h' : rows.reverse.lookup k with
    | none => rfl
    | some a =>
      have hfound := lookup_of_mem hnd (List.mem_reverse.1 (mem_of_lookup h'))
      rw [h] at hfound
      cases hfound

/-! ## Walks -/

omit [DecidableEq κ] in
lemma settle_keys (fate : Fate α) : ((settle k a fate).map Prod.fst).Sublist [k] := by
  cases fate <;> simp [settle, Fate.value]

omit [DecidableEq κ] in
lemma walk_keys (s : σ) (rows : List (κ × α)) :
    ((walk visit s rows).2.map Prod.fst).Sublist (rows.map Prod.fst) := by
  induction rows generalizing s with
  | nil => exact List.Sublist.refl _
  | cons row rows ih =>
    obtain ⟨k, a⟩ := row
    simp only [walk, List.map_append, List.map_cons]
    exact (settle_keys _).append (ih _)

lemma lookup_settle (k k' : κ) (a : α) (fate : Fate α) :
    (settle k' a fate).lookup k = if k = k' then fate.value a else none := by
  by_cases h : k = k'
  · subst h
    cases fate <;> simp [settle, Fate.value]
  · cases fate <;> simp [settle, Fate.value, lookup_row, h]

theorem lookup_walk (hnd : (rows.map Prod.fst).Nodup) (s : σ) (k : κ) :
    (walk visit s rows).2.lookup k =
      (rows.lookup k).bind fun a => (visit (accAt visit k s rows) k a).2.value a := by
  induction rows generalizing s with
  | nil => rfl
  | cons row rows ih =>
    obtain ⟨k', a⟩ := row
    rw [List.map_cons, List.nodup_cons] at hnd
    simp only [walk, accAt, List.lookup_append, lookup_settle]
    by_cases h : k = k'
    · subst h
      -- the rest of the rows does not have the key, before or after the walk
      have hrest : (walk visit (visit s k a).1 rows).2.lookup k = none :=
        lookup_eq_none fun hmem => hnd.1 ((walk_keys _ _).subset hmem)
      simp [hrest]
    · simp [h, lookup_row, ih hnd.2]

theorem lookup_walk_reverse (hnd : (rows.map Prod.fst).Nodup) (s : σ) (k : κ) :
    (walk visit s rows.reverse).2.reverse.lookup k =
      (rows.lookup k).bind fun a => (visit (accAt visit k s rows.reverse) k a).2.value a := by
  have hnd' : (rows.reverse.map Prod.fst).Nodup := by
    rw [List.map_reverse]
    exact List.nodup_reverse.2 hnd
  rw [lookup_reverse ((walk_keys s rows.reverse).nodup hnd'), lookup_walk hnd',
    lookup_reverse hnd]

omit [DecidableEq κ] in
lemma walk_reverse_keys (s : σ) (rows : List (κ × α)) :
    ((walk visit s rows.reverse).2.reverse.map Prod.fst).Sublist (rows.map Prod.fst) := by
  have h : ((walk visit s rows.reverse).2.map Prod.fst).reverse.Sublist
      (rows.reverse.map Prod.fst).reverse := (walk_keys s rows.reverse).reverse
  rwa [← List.map_reverse, ← List.map_reverse, List.reverse_reverse] at h

/-! ## Touches -/

lemma touchOne_keys (acc : ℕ × List (κ × α)) (k : κ) :
    ((touchOne f acc k).2.map Prod.fst).Sublist (acc.2.map Prod.fst) := by
  unfold touchOne
  split
  · exact List.Sublist.refl _
  split
  · exact List.Sublist.refl _
  · have heq : (acc.2.map fun row => if row.1 = k then (k, ‹α›) else row).map Prod.fst =
        acc.2.map Prod.fst := by
      rw [List.map_map]
      refine List.map_congr_left fun row _ => ?_
      by_cases h : row.1 = k <;> simp [h]
    rw [heq]
  · exact List.filter_sublist.map _

lemma lookup_replaced (rows : List (κ × α)) (k k' : κ) (b : α) :
    (rows.map fun row => if row.1 = k' then (k', b) else row).lookup k =
      if k = k' then (rows.lookup k).map fun _ => b else rows.lookup k := by
  induction rows with
  | nil => simp
  | cons row rows ih =>
    obtain ⟨k'', a⟩ := row
    by_cases h' : k'' = k'
    · subst h'
      by_cases h : k = k'' <;> simp [lookup_row, ih, h]
    · by_cases h : k = k'
      · subst h
        have hne : ¬ k = k'' := fun heq => h' heq.symm
        simp [lookup_row, ih, h', hne]
      · simp [lookup_row, ih, h', h]

lemma lookup_removed (rows : List (κ × α)) (k k' : κ) :
    (rows.filter fun row => decide (row.1 ≠ k')).lookup k =
      if k = k' then none else rows.lookup k := by
  induction rows with
  | nil => simp
  | cons row rows ih =>
    obtain ⟨k'', a⟩ := row
    by_cases h' : k'' = k'
    · subst h'
      rw [List.filter_cons_of_neg (by simp), ih, lookup_row]
      by_cases h : k = k'' <;> simp [h]
    · rw [List.filter_cons_of_pos (by simpa using h'), lookup_row, lookup_row, ih]
      by_cases h : k = k'
      · subst h
        have hne : ¬ k = k'' := fun heq => h' heq.symm
        simp [hne]
      · simp [h]

lemma lookup_touchOne (acc : ℕ × List (κ × α)) (k k' : κ) :
    (touchOne f acc k').2.lookup k =
      if k = k' then (acc.2.lookup k).bind fun a => (f k a).value a else acc.2.lookup k := by
  obtain ⟨n, rows⟩ := acc
  unfold touchOne
  dsimp only
  split
  · rename_i hrow
    split_ifs with h
    · subst h
      simp [hrow]
    · rfl
  · rename_i a hrow
    split
    · rename_i hf
      split_ifs with h
      · subst h
        simp [hrow, hf, Fate.value]
      · rfl
    · rename_i b hf
      rw [lookup_replaced]
      split_ifs with h
      · subst h
        simp [hrow, hf, Fate.value]
      · rfl
    · rename_i hf
      rw [lookup_removed]
      split_ifs with h
      · subst h
        simp [hrow, hf, Fate.value]
      · rfl

theorem lookup_touch {ks : List κ} (hks : ks.Nodup) (rows : List (κ × α)) (k : κ) :
    (touch f ks rows).2.lookup k =
      if k ∈ ks then (rows.lookup k).bind fun a => (f k a).value a else rows.lookup k := by
  have hfold : ∀ acc : ℕ × List (κ × α), (ks.foldl (touchOne f) acc).2.lookup k =
      if k ∈ ks then (acc.2.lookup k).bind fun a => (f k a).value a else acc.2.lookup k := by
    induction ks with
    | nil =>
      intro acc
      simp
    | cons k' ks ih =>
      intro acc
      rw [List.nodup_cons] at hks
      rw [List.foldl_cons, ih hks.2, lookup_touchOne]
      by_cases h : k = k'
      · subst h
        simp [hks.1]
      · simp [h]
  exact hfold (0, rows)

lemma touch_keys (ks : List κ) (rows : List (κ × α)) :
    ((touch f ks rows).2.map Prod.fst).Sublist (rows.map Prod.fst) := by
  have hfold : ∀ acc : ℕ × List (κ × α),
      ((ks.foldl (touchOne f) acc).2.map Prod.fst).Sublist (acc.2.map Prod.fst) := by
    induction ks with
    | nil => exact fun acc => List.Sublist.refl _
    | cons k ks ih => exact fun acc => (ih _).trans (touchOne_keys acc k)
  exact hfold (0, rows)

end Cursor
