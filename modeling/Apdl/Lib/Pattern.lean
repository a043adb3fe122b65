import Mathlib.Data.List.Basic

set_option autoImplicit false

/-!
# Backtracking patterns

A pattern of a backtracking matcher is given by the lengths it can match at the head of an input,
in the order in which the matcher tries them: alternation tries its left side first, and a sequence
goes back to the next length of its first part when the second one fails. A search takes the
leftmost position with a match, and there the first length.

## Main results

* `Pattern.split_append`, `Pattern.split_eq_singleton` — the pieces of an input, one at a time.
-/

/-- A pattern: the lengths of its matches at the head of an input, in order of preference. -/
def Pattern (α : Type) := List α → List ℕ

namespace Pattern

variable {α : Type} [DecidableEq α] {p q : Pattern α} {a : α} {s u v : List α} {i n : ℕ}

/-- The word `w` itself. -/
def lit (w : List α) : Pattern α := fun s => if w.isPrefixOf s then [w.length] else []

/-- One of two patterns, the left one first. -/
def alt (p q : Pattern α) : Pattern α := fun s => p s ++ q s

/-- One pattern after the other. -/
def seq (p q : Pattern α) : Pattern α := fun s =>
  (p s).flatMap fun n => (q (s.drop n)).map (n + ·)

def matchHead (p : Pattern α) (s : List α) : Option ℕ := (p s).head?

/-- The leftmost match: its index and its length. -/
def exec (p : Pattern α) : List α → Option (ℕ × ℕ)
  | [] => (p.matchHead []).map fun n => (0, n)
  | a :: s =>
    match p.matchHead (a :: s) with
    | some n => some (0, n)
    | none => (exec p s).map fun m => (m.1 + 1, m.2)

/-- The pieces of an input between matches that are not empty; `k` units of a match are still to be
skipped and `acc` is the piece so far. -/
def splitFrom (p : Pattern α) : ℕ → List α → List α → List (List α)
  | _, acc, [] => [acc]
  | k + 1, acc, _ :: s => splitFrom p k acc s
  | 0, acc, a :: s =>
    match p.matchHead (a :: s) with
    | some (n + 1) => acc :: splitFrom p n [] s
    | _ => splitFrom p 0 (acc ++ [a]) s

/-- The pieces of an input between successive matches of a pattern. -/
def split (p : Pattern α) (s : List α) : List (List α) := splitFrom p 0 [] s

/-! ## Searching -/

omit [DecidableEq α]

lemma exec_of_matchHead (h : p.matchHead s = some n) : p.exec s = some (0, n) := by
  cases s with
  | nil => simp [exec, h]
  | cons a s => simp [exec, h]

lemma exec_cons (h : p.matchHead (a :: s) = none) :
    p.exec (a :: s) = (p.exec s).map fun m => (m.1 + 1, m.2) := by
  simp [exec, h]

lemma exec_append (h : ∀ x y : List α, u = x ++ y → y ≠ [] → p.matchHead (y ++ s) = none) :
    p.exec (u ++ s) = (p.exec s).map fun m => (m.1 + u.length, m.2) := by
  induction u with
  | nil => simp
  | cons a u ih =>
    have hhead : p.matchHead (a :: (u ++ s)) = none := h [] (a :: u) rfl (by simp)
    have htail := ih fun x y hxy hy => h (a :: x) y (by simp [hxy]) hy
    rw [List.cons_append, exec_cons hhead, htail, Option.map_map]
    congr 1

lemma exec_isSome (h : (p.matchHead s).isSome) : (p.exec (u ++ s)).isSome := by
  induction u with
  | nil =>
    obtain ⟨n, hn⟩ := Option.isSome_iff_exists.1 h
    simp [exec_of_matchHead hn]
  | cons a u ih =>
    rw [List.cons_append]
    cases hhead : p.matchHead (a :: (u ++ s)) with
    | some n => simp [exec_of_matchHead hhead]
    | none => simp [exec_cons hhead, ih]

lemma matchHead_of_exec (h : p.exec s = some (i, n)) : p.matchHead (s.drop i) = some n := by
  induction s generalizing i with
  | nil =>
    simp only [exec, Option.map_eq_some_iff, Prod.mk.injEq] at h
    obtain ⟨m, hm, rfl, rfl⟩ := h
    exact hm
  | cons a s ih =>
    cases hhead : p.matchHead (a :: s) with
    | some m =>
      simp only [exec_of_matchHead hhead, Option.some.injEq, Prod.mk.injEq] at h
      obtain ⟨rfl, rfl⟩ := h
      exact hhead
    | none =>
      simp only [exec_cons hhead, Option.map_eq_some_iff, Prod.exists, Prod.mk.injEq] at h
      obtain ⟨j, m, hjm, rfl, rfl⟩ := h
      exact ih hjm

/-! ## Splitting -/

lemma splitFrom_skip (k : ℕ) (acc s : List α) :
    p.splitFrom k acc s = p.splitFrom 0 acc (s.drop k) := by
  induction k generalizing s with
  | zero => rfl
  | succ k ih =>
    cases s with
    | nil => simp [splitFrom]
    | cons a s => simp only [splitFrom, List.drop_succ_cons, ih]

lemma splitFrom_append {acc : List α}
    (h : ∀ x y : List α, u = x ++ y → y ≠ [] → p.matchHead (y ++ s) = none) :
    p.splitFrom 0 acc (u ++ s) = p.splitFrom 0 (acc ++ u) s := by
  induction u generalizing acc with
  | nil => simp
  | cons a u ih =>
    have hhead : p.matchHead (a :: (u ++ s)) = none := h [] (a :: u) rfl (by simp)
    have htail := @ih (acc ++ [a]) fun x y hxy hy => h (a :: x) y (by simp [hxy]) hy
    simp only [List.cons_append, splitFrom, hhead, htail, List.append_assoc, List.nil_append]

lemma split_eq_singleton (h : ∀ x y : List α, u = x ++ y → y ≠ [] → p.matchHead y = none) :
    p.split u = [u] := by
  have hone : p.splitFrom 0 [] (u ++ []) = p.splitFrom 0 ([] ++ u) [] :=
    splitFrom_append (by simpa using h)
  simpa [split, splitFrom] using hone

lemma split_append (h : ∀ x y : List α, u = x ++ y → y ≠ [] → p.matchHead (y ++ a :: s) = none)
    (hmatch : p.matchHead (a :: s) = some (n + 1)) :
    p.split (u ++ a :: s) = u :: p.split (s.drop n) := by
  unfold split
  rw [splitFrom_append h]
  simp only [splitFrom, hmatch, List.nil_append, splitFrom_skip n]

end Pattern
