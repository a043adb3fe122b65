import Mathlib.Data.Int.Notation
import Mathlib.Data.List.Nodup

set_option autoImplicit false

/-!
# Counters of the elements of a list

A counter that is maintained incrementally, one per key, next to a list of elements that have keys.
An element is identified by a number of its own, and is taken out by that number.

## Main results

* `Counter.Counts.append`, `Counter.Counts.remove` — adding and taking out one element.
-/

/-- Counters by key; a key that is absent counts zero. -/
def Counter (κ : Type*) := κ → ℤ

namespace Counter

variable {κ α : Type*} [DecidableEq κ]

/-- The counter without keys. -/
def empty : Counter κ := fun _ => 0

/-- `counts[key] += 1`. -/
def increment (c : Counter κ) (k : κ) : Counter κ :=
  fun k' => if k' = k then c k + 1 else c k'

/-- `counts[key] -= 1`, where a key that is not positive is deleted. -/
def decrement (c : Counter κ) (k : κ) : Counter κ :=
  fun k' => if k' = k then (if c k - 1 ≤ 0 then 0 else c k - 1) else c k'

/-- Every counter is the number of elements with its key. -/
def Counts (c : Counter κ) (key : α → κ) (l : List α) : Prop :=
  ∀ k, c k = (l.countP fun a => decide (key a = k) : ℕ)

lemma counts_nil (key : α → κ) : Counts empty key [] := fun _ => rfl

lemma Counts.append {c : Counter κ} {key : α → κ} {l : List α} (h : c.Counts key l) (a : α) :
    (c.increment (key a)).Counts key (l ++ [a]) := by
  intro k
  rw [List.countP_append, List.countP_singleton, increment]
  by_cases hk : k = key a
  · subst hk
    simp [h (key a)]
  · have hk' : key a ≠ k := fun heq => hk heq.symm
    simp [hk, hk', h k]

lemma countP_remove {number : α → ℕ} {p : α → Bool} {l : List α} (hl : (l.map number).Nodup)
    {a : α} (ha : a ∈ l) :
    l.countP p = (l.filter fun b => decide (number b ≠ number a)).countP p +
      if p a then 1 else 0 := by
  induction l with
  | nil => cases ha
  | cons b l ih =>
    obtain ⟨hb, hl⟩ := List.nodup_cons.1 hl
    rcases List.mem_cons.1 ha with rfl | ha
    · -- the first element is taken out, and nothing else has its number
      have hrest : (l.filter fun b => decide (number b ≠ number a)) = l := by
        refine List.filter_eq_self.2 fun c hc => decide_eq_true fun heq => hb ?_
        exact heq ▸ List.mem_map_of_mem hc
      rw [List.filter_cons_of_neg (by simp), hrest, List.countP_cons]
    · have hne : number b ≠ number a := fun heq => hb (heq ▸ List.mem_map_of_mem ha)
      rw [List.filter_cons_of_pos (by simpa using hne), List.countP_cons, List.countP_cons,
        ih hl ha]
      omega

lemma Counts.remove {c : Counter κ} {key : α → κ} {l : List α} (h : c.Counts key l)
    {number : α → ℕ} (hl : (l.map number).Nodup) {a : α} (ha : a ∈ l) :
    (c.decrement (key a)).Counts key (l.filter fun b => decide (number b ≠ number a)) := by
  intro k
  have hcount := countP_remove (p := fun b => decide (key b = k)) hl ha
  have hc := h k
  rw [hcount] at hc
  rw [decrement]
  by_cases hk : k = key a
  · subst hk
    rw [if_pos rfl, hc]
    simp only [decide_true, if_true]
    split_ifs with hle
    · omega
    · omega
  · have hk' : key a ≠ k := fun heq => hk heq.symm
    rw [if_neg hk, hc]
    simp [hk']

lemma Counts.bounds {c : Counter κ} {key : α → κ} {l : List α} (h : c.Counts key l) {limit : ℕ}
    (hle : ∀ k, (l.countP fun a => decide (key a = k)) ≤ limit) (k : κ) :
    c k = (l.countP fun a => decide (key a = k) : ℕ) ∧ 0 ≤ c k ∧ c k ≤ limit := by
  have hk := h k
  have hlimit := hle k
  refine ⟨hk, ?_, ?_⟩
  · omega
  · omega

end Counter
