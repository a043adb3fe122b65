import Mathlib.Data.List.Nodup

set_option autoImplicit false

/-!
# Tables with a primary key

A table is a list of rows with pairwise distinct keys; the uniqueness is part of the type, so an
operation that would break it cannot be written.

## Main results

* `Table.get_delete`, `Table.get_update`, `Table.get_insertAll` — the same for the statements over
  many rows.
-/

/-- Rows of type `ρ` whose keys `keyOf` are pairwise distinct. -/
structure Table {ρ κ : Type} (keyOf : ρ → κ) where
  rows : List ρ
  nodup : (rows.map keyOf).Nodup

namespace Table

variable {ρ κ : Type} [DecidableEq κ] {keyOf : ρ → κ}

/-- The table without rows. -/
def empty : Table keyOf := ⟨[], List.nodup_nil⟩

/-- The row with the given key. -/
def get (t : Table keyOf) (k : κ) : Option ρ := t.rows.find? fun r => decide (keyOf r = k)

/-- Add a row; `none` when its key exists. -/
def insert (t : Table keyOf) (r : ρ) : Option (Table keyOf) :=
  if h : keyOf r ∈ t.rows.map keyOf then none
  else some ⟨t.rows ++ [r], by
    rw [List.map_append]
    refine List.nodup_append.2 ⟨t.nodup, List.nodup_singleton _, ?_⟩
    intro a ha b hb hab
    simp only [List.map_cons, List.map_nil, List.mem_singleton] at hb
    exact h (hb ▸ hab ▸ ha)⟩

/-- Put `r` in the place of the row with its key, if there is one. -/
def replace (t : Table keyOf) (r : ρ) : Table keyOf :=
  ⟨t.rows.map fun r' => if keyOf r' = keyOf r then r else r', by
    have hmap : (t.rows.map fun r' => if keyOf r' = keyOf r then r else r').map keyOf =
        t.rows.map keyOf := by
      rw [List.map_map]
      refine List.map_congr_left fun r' _ => ?_
      by_cases h : keyOf r' = keyOf r <;> simp [h]
    rw [hmap]
    exact t.nodup⟩

/-- Remove the row with the given key, if there is one. -/
def erase (t : Table keyOf) (k : κ) : Table keyOf :=
  ⟨t.rows.filter fun r => decide (keyOf r ≠ k),
    t.nodup.sublist (List.filter_sublist.map keyOf)⟩

lemma get_key {t : Table keyOf} {k : κ} {r : ρ} (h : t.get k = some r) : keyOf r = k := by
  simpa using List.find?_some h

lemma mem_of_get {t : Table keyOf} {k : κ} {r : ρ} (h : t.get k = some r) : r ∈ t.rows :=
  List.mem_of_find?_eq_some h

lemma get_eq_none {t : Table keyOf} {k : κ} : t.get k = none ↔ ∀ r ∈ t.rows, keyOf r ≠ k := by
  simp [get]

lemma mem_rows_iff {t : Table keyOf} {r : ρ} : r ∈ t.rows ↔ t.get (keyOf r) = some r := by
  refine ⟨fun h => ?_, mem_of_get⟩
  cases hg : t.get (keyOf r) with
  | none => exact absurd rfl (get_eq_none.1 hg r h)
  | some r' =>
    have hkey := get_key hg
    exact congrArg some (List.inj_on_of_nodup_map t.nodup (mem_of_get hg) h hkey)

lemma get_insert {t t' : Table keyOf} {r : ρ} (h : t.insert r = some t') (k : κ) :
    t'.get k = if k = keyOf r then some r else t.get k := by
  unfold insert at h
  split at h
  · cases h
  rename_i hnew
  cases h
  have hnone : t.get (keyOf r) = none :=
    get_eq_none.2 fun r' hr' heq => hnew (List.mem_map.2 ⟨r', hr', heq⟩)
  simp only [get, List.find?_append, List.find?_cons, List.find?_nil] at hnone ⊢
  by_cases hk : k = keyOf r
  · subst hk
    simp [hnone]
  · have hk' : ¬ keyOf r = k := fun h => hk h.symm
    simp [hk, hk']

lemma get_of_insert {t t' : Table keyOf} {r : ρ} (h : t.insert r = some t') :
    t.get (keyOf r) = none := by
  unfold insert at h
  split at h
  · cases h
  · rename_i hnew
    exact get_eq_none.2 fun r' hr' heq => hnew (List.mem_map.2 ⟨r', hr', heq⟩)

lemma insert_of_get_none {t : Table keyOf} {r : ρ} (h : t.get (keyOf r) = none) :
    ∃ t', t.insert r = some t' ∧ t'.rows = t.rows ++ [r] := by
  have hnew : keyOf r ∉ t.rows.map keyOf := by
    intro hmem
    obtain ⟨r', hr', hkey⟩ := List.mem_map.1 hmem
    exact get_eq_none.1 h r' hr' hkey
  unfold insert
  rw [dif_neg hnew]
  exact ⟨_, rfl, rfl⟩

lemma rows_of_insert {t t' : Table keyOf} {r : ρ} (h : t.insert r = some t') :
    t'.rows = t.rows ++ [r] := by
  obtain ⟨t'', h', hrows⟩ := insert_of_get_none (get_of_insert h)
  rw [Option.some.inj (h.symm.trans h'), hrows]

lemma get_replace (t : Table keyOf) (r : ρ) (k : κ) :
    (t.replace r).get k = if k = keyOf r then (t.get k).map fun _ => r else t.get k := by
  simp only [get, replace, List.find?_map]
  by_cases hk : k = keyOf r
  · subst hk
    simp only [if_true]
    have hp : ((fun r' => decide (keyOf r' = keyOf r)) ∘
        fun r' => if keyOf r' = keyOf r then r else r') =
        fun r' => decide (keyOf r' = keyOf r) := by
      funext r'
      by_cases h : keyOf r' = keyOf r <;> simp [h]
    rw [hp]
    cases hf : t.rows.find? fun r' => decide (keyOf r' = keyOf r) with
    | none => rfl
    | some r' =>
      have hkey : keyOf r' = keyOf r := by simpa using List.find?_some hf
      simp [hkey]
  · simp only [hk, if_false]
    have hp : ((fun r' => decide (keyOf r' = k)) ∘
        fun r' => if keyOf r' = keyOf r then r else r') = fun r' => decide (keyOf r' = k) := by
      funext r'
      by_cases h : keyOf r' = keyOf r
      · simp [h]
      · simp [h]
    rw [hp]
    cases hf : t.rows.find? fun r' => decide (keyOf r' = k) with
    | none => rfl
    | some r' =>
      have hkey : keyOf r' = k := by simpa using List.find?_some hf
      have hne : ¬ keyOf r' = keyOf r := fun h => hk (hkey.symm.trans h)
      simp [hne]

lemma get_replace_of_get {t : Table keyOf} {r q : ρ} (h : t.get (keyOf r) = some q) (k : κ) :
    (t.replace r).get k = if k = keyOf r then some r else t.get k := by
  rw [get_replace]
  by_cases hk : k = keyOf r
  · subst hk
    simp [h]
  · simp [hk]

lemma mem_insert {t t' : Table keyOf} {r x : ρ} (h : t.insert x = some t') (hr : r ∈ t'.rows) :
    r = x ∨ r ∈ t.rows := by
  have hg := mem_rows_iff.1 hr
  rw [get_insert h] at hg
  split at hg
  · exact .inl (by simpa using hg.symm)
  · exact .inr (mem_of_get hg)

lemma mem_replace {t : Table keyOf} {r x : ρ} (hr : r ∈ (t.replace x).rows) :
    r = x ∨ (r ∈ t.rows ∧ keyOf r ≠ keyOf x) := by
  have hg := mem_rows_iff.1 hr
  rw [get_replace] at hg
  split at hg
  · left
    obtain ⟨_, -, rfl⟩ := Option.map_eq_some_iff.1 hg
    rfl
  · rename_i hne
    exact .inr ⟨mem_of_get hg, hne⟩

lemma get_erase (t : Table keyOf) (k₀ k : κ) :
    (t.erase k₀).get k = if k = k₀ then none else t.get k := by
  by_cases hk : k = k₀
  · subst hk
    simp only [if_true, get_eq_none]
    intro r hr
    simpa using (List.mem_filter.1 hr).2
  · simp only [hk, if_false, get, erase, List.find?_filter]
    congr 1
    funext r
    by_cases h : keyOf r = k
    · simp [h, hk]
    · simp [h]

lemma mem_erase {t : Table keyOf} {r : ρ} {k : κ} (hr : r ∈ (t.erase k).rows) :
    r ∈ t.rows ∧ keyOf r ≠ k := by
  obtain ⟨hmem, hne⟩ := List.mem_filter.1 hr
  exact ⟨hmem, by simpa using hne⟩

omit [DecidableEq κ] in
lemma eq_of_key {t : Table keyOf} {r r' : ρ} (h : r ∈ t.rows) (h' : r' ∈ t.rows)
    (hkey : keyOf r = keyOf r') : r = r' :=
  List.inj_on_of_nodup_map t.nodup h h' hkey

/-! ## Statements over many rows -/

/-- `DELETE … WHERE p`. -/
def delete (t : Table keyOf) (p : ρ → Bool) : Table keyOf :=
  ⟨t.rows.filter fun r => !p r, t.nodup.sublist (List.filter_sublist.map keyOf)⟩

/-- `UPDATE … SET f`, for an assignment `f` that keeps the key of every row. -/
def update (t : Table keyOf) (f : ρ → ρ) (hf : ∀ r, keyOf (f r) = keyOf r) : Table keyOf :=
  ⟨t.rows.map f, by
    rw [List.map_map]
    exact (List.map_congr_left fun r _ => hf r) ▸ t.nodup⟩

/-- `INSERT` of several rows, one after the other. -/
def insertAll (t : Table keyOf) (rs : List ρ) : Option (Table keyOf) :=
  rs.foldlM (fun t r => t.insert r) t

lemma get_delete (t : Table keyOf) (p : ρ → Bool) (k : κ) :
    (t.delete p).get k = (t.get k).filter fun r => !p r := by
  cases hg : t.get k with
  | none =>
    rw [Option.filter_none, get_eq_none]
    exact fun r hr => get_eq_none.1 hg r (List.mem_filter.1 hr).1
  | some r =>
    have hkey := get_key hg
    cases hp : p r with
    | false =>
      rw [Option.filter_some, if_pos (by rw [hp]; rfl), ← hkey]
      exact mem_rows_iff.1 (List.mem_filter.2 ⟨mem_of_get hg, by rw [hp]; rfl⟩)
    | true =>
      rw [Option.filter_some, if_neg (by rw [hp]; decide), get_eq_none]
      intro r' hr' hk
      obtain ⟨hmem, hnp⟩ := List.mem_filter.1 hr'
      obtain rfl := eq_of_key hmem (mem_of_get hg) (hk.trans hkey.symm)
      rw [hp] at hnp
      exact absurd hnp (by decide)

lemma get_update (t : Table keyOf) (f : ρ → ρ) (hf : ∀ r, keyOf (f r) = keyOf r) (k : κ) :
    (t.update f hf).get k = (t.get k).map f := by
  simp only [get, update, List.find?_map]
  congr 2
  funext r
  simp only [Function.comp_apply, hf]

lemma rows_of_insertAll {t t' : Table keyOf} {rs : List ρ} (h : t.insertAll rs = some t') :
    t'.rows = t.rows ++ rs := by
  unfold insertAll at h
  induction rs generalizing t with
  | nil =>
    obtain rfl := Option.some.inj h
    exact (List.append_nil _).symm
  | cons r rs ih =>
    rw [List.foldlM_cons] at h
    obtain ⟨t₁, ht₁, hrest⟩ := Option.bind_eq_some_iff.1 h
    rw [ih hrest, rows_of_insert ht₁, List.append_assoc, List.singleton_append]

lemma get_insertAll {t t' : Table keyOf} {rs : List ρ} (h : t.insertAll rs = some t') {k : κ}
    {r : ρ} : t'.get k = some r ↔ t.get k = some r ∨ (r ∈ rs ∧ keyOf r = k) := by
  have hmem : ∀ r, r ∈ t'.rows ↔ r ∈ t.rows ∨ r ∈ rs := fun r => by
    rw [rows_of_insertAll h, List.mem_append]
  constructor
  · intro hg
    have hkey := get_key hg
    rcases (hmem r).1 (mem_of_get hg) with hold | hnew
    · exact .inl (hkey ▸ mem_rows_iff.1 hold)
    · exact .inr ⟨hnew, hkey⟩
  · rintro (hold | ⟨hnew, rfl⟩)
    · have hkey := get_key hold
      exact hkey ▸ mem_rows_iff.1 ((hmem r).2 (.inl (mem_of_get hold)))
    · exact mem_rows_iff.1 ((hmem r).2 (.inr hnew))

lemma countP_eq_one {t : Table keyOf} {p : ρ → Bool} {k : κ} {r : ρ} (hr : t.get k = some r)
    (hp : p r = true) (hunique : ∀ r' ∈ t.rows, p r' = true → keyOf r' = k) : t.rows.countP p = 1 := by
  have hperm : (t.rows.filter p).Perm [r] := by
    refine (List.perm_ext_iff_of_nodup ?_ (List.nodup_singleton r)).2 fun r' => ?_
    · exact (List.Nodup.of_map _ t.nodup).filter _
    · rw [List.mem_filter, List.mem_singleton]
      constructor
      · rintro ⟨hr', hp'⟩
        exact eq_of_key hr' (mem_of_get hr) ((hunique r' hr' hp').trans (get_key hr).symm)
      · rintro rfl
        exact ⟨mem_of_get hr, hp⟩
  rw [List.countP_eq_length_filter, hperm.length_eq, List.length_singleton]

end Table
