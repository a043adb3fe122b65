import Mathlib.Data.List.Basic
import Mathlib.Data.Option.Basic

set_option autoImplicit false

/-!
# Reading in sequence and element by element

A reader in `Option` is a sequence of readings and guards; one that succeeds has passed all of
them. `List.mapM` reads every element of a list and fails when one of them fails. The lemmas here
say when a reading succeeds and with what, so that two readers are compared part by part.

## Main results

* `Traverse.mapM_eq_some_and_iff`, `Traverse.mapM_map_of_mapM` — a relation between two readers,
  on lists.
-/

namespace Traverse

variable {α β γ : Type}

/-! ## Reading in sequence -/

section Sequence

variable {x : Option α} {f : α → Option β} {a : α} {b : β} {p : Prop} [Decidable p]
  {k : Unit → Option β}

lemma of_bind (h : (x >>= f) = some b) : ∃ a, x = some a ∧ f a = some b :=
  Option.bind_eq_some_iff.1 h

lemma bind_intro (hx : x = some a) (hf : f a = some b) : (x >>= f) = some b :=
  Option.bind_eq_some_iff.2 ⟨a, hx, hf⟩

@[simp] lemma guard_bind (k : Unit → Option β) :
    (guard p : Option Unit).bind k = if p then k () else none := by
  by_cases h : p <;> simp [guard, h]

lemma of_guard (h : (guard p >>= k) = some b) : p ∧ k () = some b := by
  rw [Option.bind_eq_bind, guard_bind] at h
  exact Option.ite_none_right_eq_some.1 h

lemma guard_intro (hp : p) (hk : k () = some b) : (guard p >>= k) = some b := by
  rw [Option.bind_eq_bind, guard_bind, if_pos hp, hk]

end Sequence

/-! ## Reading lists -/

lemma mapM_eq_some_iff {f : α → Option β} {l : List α} {bs : List β} :
    l.mapM f = some bs ↔ l.map f = bs.map some := by
  induction l generalizing bs with
  | nil => cases bs <;> simp
  | cons a as ih =>
    cases bs with
    | nil => simp [Option.bind_eq_some_iff]
    | cons b bs =>
      simp only [List.mapM_cons, List.map_cons, List.cons.injEq, Option.bind_eq_bind,
        Option.bind_eq_some_iff, Option.pure_def, Option.some.injEq]
      constructor
      · rintro ⟨b', hb, bs', hbs, rfl, rfl⟩
        exact ⟨hb, ih.1 hbs⟩
      · rintro ⟨hb, hbs⟩
        exact ⟨b, hb, bs, ih.2 hbs, rfl, rfl⟩

lemma length_of_mapM {f : α → Option β} {l : List α} {bs : List β} (h : l.mapM f = some bs) :
    bs.length = l.length := by
  have := congrArg List.length (mapM_eq_some_iff.1 h)
  simpa using this.symm

lemma mapM_isSome_iff {f : α → Option β} {l : List α} :
    (l.mapM f).isSome = true ↔ ∀ a ∈ l, (f a).isSome = true := by
  induction l with
  | nil => simp
  | cons a as ih =>
    rw [List.forall_mem_cons, ← ih, List.mapM_cons]
    cases f a <;> cases as.mapM f <;> simp

lemma mapM_bind (f : α → Option β) (g : β → Option γ) (l : List α) :
    l.mapM (fun a => (f a).bind g) = (l.mapM f).bind fun bs => bs.mapM g := by
  induction l with
  | nil => rfl
  | cons a as ih =>
    rw [List.mapM_cons, List.mapM_cons, ih]
    cases f a with
    | none => rfl
    | some b =>
      cases hbs : as.mapM f with
      | none => cases hg : g b <;> simp [hg]
      | some bs => simp

lemma mapM_congr {f g : α → Option β} {l : List α} (h : ∀ a ∈ l, f a = g a) :
    l.mapM f = l.mapM g := by
  induction l with
  | nil => rfl
  | cons a as ih =>
    rw [List.mapM_cons, List.mapM_cons, h a List.mem_cons_self,
      ih fun b hb => h b (List.mem_cons_of_mem a hb)]

lemma mapM_inj_iff {f g : α → Option β} {l : List α} {bs cs : List β} (hf : l.mapM f = some bs)
    (hg : l.mapM g = some cs) : bs = cs ↔ ∀ a ∈ l, f a = g a := by
  rw [mapM_eq_some_iff] at hf hg
  rw [← List.map_inj_left, hf, hg]
  exact ((List.map_injective_iff.2 (Option.some_injective β)).eq_iff).symm

lemma mapM_eq_some_and_iff {f g : α → Option β} {p : β → Prop}
    (h : ∀ a b, f a = some b ↔ g a = some b ∧ p b) {l : List α} {bs : List β} :
    l.mapM f = some bs ↔ l.mapM g = some bs ∧ ∀ b ∈ bs, p b := by
  rw [mapM_eq_some_iff, mapM_eq_some_iff]
  induction l generalizing bs with
  | nil => cases bs <;> simp
  | cons a as ih =>
    cases bs with
    | nil => simp
    | cons b bs =>
      simp only [List.map_cons, List.cons.injEq, h, ih, List.forall_mem_cons]
      exact and_and_and_comm

lemma mapM_map_of_mapM {f : α → Option β} {g : α → Option γ} {k : β → γ}
    (h : ∀ a b, f a = some b → g a = some (k b)) {l : List α} {bs : List β}
    (hl : l.mapM f = some bs) : l.mapM g = some (bs.map k) := by
  rw [mapM_eq_some_iff] at hl ⊢
  induction l generalizing bs with
  | nil => cases bs <;> simp_all
  | cons a as ih =>
    cases bs with
    | nil => simp at hl
    | cons b bs =>
      obtain ⟨ha, has⟩ := List.cons.inj hl
      simp only [List.map_cons, h a b ha, ih has]

lemma eq_map_of_mapM {f : α → Option β} {k : α → β} (h : ∀ a b, f a = some b → b = k a)
    {l : List α} {bs : List β} (hl : l.mapM f = some bs) : bs = l.map k := by
  rw [mapM_eq_some_iff] at hl
  induction l generalizing bs with
  | nil => simpa using hl.symm
  | cons a as ih =>
    cases bs with
    | nil => simp at hl
    | cons b bs =>
      obtain ⟨ha, has⟩ := List.cons.inj hl
      rw [List.map_cons, ← h a b ha, ← ih has]

lemma mapM_map_of_forall {f : β → Option γ} {k : α → β} {g : α → γ} {l : List α}
    (h : ∀ a ∈ l, f (k a) = some (g a)) : (l.map k).mapM f = some (l.map g) := by
  rw [mapM_eq_some_iff, List.map_map, List.map_map]
  exact List.map_congr_left h

end Traverse
