import Mathlib.Data.List.Basic

set_option autoImplicit false

/-!
# Validators

A validator returns `Except E Unit`: it accepts or raises the first error. Validators are composed
in sequence and over lists; the lemmas here say when a composition accepts, so that a validator is
read once as a conjunction of conditions.

## Main results

* `Check.mem_of_mapM`, `Check.mapM_isOk`, `Check.mapM_eq_error` — a list that is read element by element.
-/

namespace Check

variable {E α β : Type}

/-- Raise `e` unless `b` holds. -/
def ensure (b : Bool) (e : E) : Except E Unit := if b then .ok () else .error e

/-- Run a validator on every element of a list, in order. -/
def all (f : α → Except E Unit) : List α → Except E Unit
  | [] => .ok ()
  | a :: as => f a >>= fun _ => all f as

@[simp] lemma ensure_eq_ok {b : Bool} {e : E} {u : Unit} : ensure b e = .ok u ↔ b = true := by
  unfold ensure
  cases b <;> simp

@[simp] lemma bind_eq_ok {x : Except E α} {f : α → Except E β} {b : β} :
    (x >>= f) = .ok b ↔ ∃ a, x = .ok a ∧ f a = .ok b := by
  cases x with
  | error e => simp [bind, Except.bind]
  | ok a => simp [bind, Except.bind]

lemma bind_intro {x : Except E α} {f : α → Except E β} {a : α} {b : β} (hx : x = .ok a)
    (hf : f a = .ok b) : (x >>= f) = .ok b :=
  bind_eq_ok.2 ⟨a, hx, hf⟩

@[simp] lemma pure_eq_ok {a b : α} : (pure a : Except E α) = .ok b ↔ a = b := by
  simp [pure, Except.pure]

@[simp] lemma all_eq_ok {f : α → Except E Unit} {l : List α} {u : Unit} :
    all f l = .ok u ↔ ∀ a ∈ l, f a = .ok () := by
  induction l with
  | nil => simp [all]
  | cons a as ih =>
    simp only [all, bind_eq_ok, ih, List.mem_cons, forall_eq_or_imp, exists_and_right]
    exact and_congr_left fun _ => ⟨fun ⟨_, h⟩ => h, fun h => ⟨(), h⟩⟩

lemma bind_eq_error {x : Except E α} {f : α → Except E β} {e : E} :
    (x >>= f) = .error e ↔ x = .error e ∨ ∃ a, x = .ok a ∧ f a = .error e := by
  cases x with
  | error e' => simp [bind, Except.bind]
  | ok a => simp [bind, Except.bind]

lemma mem_of_mapM {f : α → Except E β} {l : List α} {bs : List β} (h : l.mapM f = .ok bs) (b : β) :
    b ∈ bs ↔ ∃ a ∈ l, f a = .ok b := by
  induction l generalizing bs with
  | nil =>
    obtain rfl : [] = bs := by simpa using h
    simp
  | cons a l ih =>
    rw [List.mapM_cons] at h
    simp only [bind_eq_ok, pure_eq_ok] at h
    obtain ⟨c, hc, cs, hcs, rfl⟩ := h
    have hhead : b = c ↔ f a = .ok b := by rw [hc, Except.ok.injEq, eq_comm]
    simp [ih hcs, hhead]

lemma mapM_isOk {f : α → Except E β} {l : List α} (h : ∀ a ∈ l, ∃ b, f a = .ok b) :
    ∃ bs, l.mapM f = .ok bs := by
  induction l with
  | nil => exact ⟨[], rfl⟩
  | cons a l ih =>
    obtain ⟨b, hb⟩ := h a List.mem_cons_self
    obtain ⟨bs, hbs⟩ := ih fun c hc => h c (List.mem_cons_of_mem a hc)
    exact ⟨b :: bs, by rw [List.mapM_cons, hb, hbs]; rfl⟩

lemma isOk_of_mapM {f : α → Except E β} {l : List α} {bs : List β} (h : l.mapM f = .ok bs) :
    ∀ a ∈ l, ∃ b, f a = .ok b := by
  induction l generalizing bs with
  | nil => simp
  | cons a l ih =>
    rw [List.mapM_cons] at h
    simp only [bind_eq_ok, pure_eq_ok] at h
    obtain ⟨c, hc, cs, hcs, rfl⟩ := h
    rw [List.forall_mem_cons]
    exact ⟨⟨c, hc⟩, ih hcs⟩

lemma mapM_eq_error {f : α → Except E β} {l : List α} {e : E} (h : l.mapM f = .error e) :
    ∃ a ∈ l, f a = .error e := by
  induction l with
  | nil => cases h
  | cons a l ih =>
    rw [List.mapM_cons] at h
    rcases bind_eq_error.1 h with h | ⟨b, -, h⟩
    · exact ⟨a, List.mem_cons_self, h⟩
    · rcases bind_eq_error.1 h with h | ⟨bs, -, h⟩
      · obtain ⟨c, hc, he⟩ := ih h
        exact ⟨c, List.mem_cons_of_mem a hc, he⟩
      · cases h

end Check
