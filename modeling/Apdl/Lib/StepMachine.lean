import Mathlib.Data.List.Basic
import Mathlib.Logic.Relation

set_option autoImplicit false

/-!
# Step machines and their invariants

A *step machine* is an executable labelled transition system: an initial state and a partial
step function, `none` marking an action that is not enabled. Every choice the environment makes
(the outcome of a call, a clock reading, which party moves) is part of the action, so a run is
determined by its list of actions and can be evaluated.

## Main results

* `StepMachine.reachUnder_of_run`, `StepMachine.reachUnder_of_runUnder`, `StepMachine.path_of_run` — an
  evaluated run is a proof of reachability.
-/

/-- An executable labelled transition system over states `σ` and actions `α`. -/
structure StepMachine (σ α : Type*) where
  /-- The state every run starts from. -/
  init : σ
  /-- One step; `none` when the action is not enabled. -/
  step : σ → α → Option σ

namespace StepMachine

variable {σ α : Type*} (M : StepMachine σ α)

/-- The state after performing the actions in order, if all of them are enabled. -/
def run : σ → List α → Option σ
  | s, [] => some s
  | s, a :: as => (M.step s a).bind fun s' => run s' as

/-- The states reached by runs whose every step from `s` by `a` meets `ok s a`. -/
inductive ReachUnder (ok : σ → α → Prop) : σ → Prop
  | init : ReachUnder ok M.init
  | step {s s' : σ} {a : α} : ReachUnder ok s → ok s a → M.step s a = some s' → ReachUnder ok s'

/-- The state after performing the actions in order, if all of them are enabled and meet the
condition. -/
def runUnder (ok : σ → α → Prop) [∀ s a, Decidable (ok s a)] : σ → List α → Option σ
  | s, [] => some s
  | s, a :: as => if ok s a then (M.step s a).bind fun s' => runUnder ok s' as else none

/-- The states reached by any run. -/
def Reach : σ → Prop := M.ReachUnder fun _ _ => True

/-- `s'` is reached from `s` by finitely many steps. -/
def Path : σ → σ → Prop := Relation.ReflTransGen fun s s' => ∃ a, M.step s a = some s'

/-- The run from `s` by `as` takes the action `a` in the state `t`. -/
def Takes (s : σ) (as : List α) (t : σ) (a : α) : Prop :=
  ∃ before after, as = before ++ a :: after ∧ M.run s before = some t

variable {M}

@[simp] lemma run_nil (s : σ) : M.run s [] = some s := rfl

lemma run_cons (s : σ) (a : α) (as : List α) :
    M.run s (a :: as) = (M.step s a).bind fun s' => M.run s' as := rfl

lemma run_append (s : σ) (as bs : List α) :
    M.run s (as ++ bs) = (M.run s as).bind fun s' => M.run s' bs := by
  induction as generalizing s with
  | nil => rfl
  | cons a as ih =>
    rw [List.cons_append, run_cons, run_cons, Option.bind_assoc]
    exact congrArg _ (funext ih)

lemma run_of_step {s s' : σ} {a : α} (h : M.step s a = some s') (as : List α) :
    M.run s (a :: as) = M.run s' as := by
  rw [run_cons, h, Option.bind_some]

lemma takes_head (s : σ) (a : α) (as : List α) : M.Takes s (a :: as) s a := ⟨[], as, rfl, rfl⟩

lemma Takes.cons {s s' t : σ} {a b : α} {as : List α} (hst : M.step s a = some s')
    (h : M.Takes s' as t b) : M.Takes s (a :: as) t b := by
  obtain ⟨before, after, rfl, hrun⟩ := h
  exact ⟨a :: before, after, rfl, (run_of_step hst before).trans hrun⟩

theorem run_induct {P : σ → Prop} :
    ∀ (as : List α) {s s' : σ}, P s →
      (∀ t a t', M.Takes s as t a → P t → M.step t a = some t' → P t') →
      M.run s as = some s' → P s'
  | [], s, s', h0, _, h => by
    rw [run_nil, Option.some.injEq] at h
    exact h ▸ h0
  | a :: as, s, s', h0, hs, h => by
    rw [run_cons, Option.bind_eq_some_iff] at h
    obtain ⟨t, ht, hrest⟩ := h
    have hnext : P t := hs s a t (takes_head s a as) h0 ht
    exact run_induct as hnext (fun u b u' hu => hs u b u' (hu.cons ht)) hrest

theorem ReachUnder.induct {ok : σ → α → Prop} {P : σ → Prop} (h0 : P M.init)
    (hs : ∀ s a s', M.ReachUnder ok s → P s → ok s a → M.step s a = some s' → P s')
    {s : σ} (h : M.ReachUnder ok s) : P s := by
  induction h with
  | init => exact h0
  | step hr hok hst ih => exact hs _ _ _ hr ih hok hst

theorem Reach.induct {P : σ → Prop} (h0 : P M.init)
    (hs : ∀ s a s', M.Reach s → P s → M.step s a = some s' → P s') {s : σ} (h : M.Reach s) :
    P s :=
  ReachUnder.induct h0 (fun s a s' hr hp _ hst => hs s a s' hr hp hst) h

lemma Reach.next {s s' : σ} {a : α} (h : M.Reach s) (hst : M.step s a = some s') : M.Reach s' :=
  ReachUnder.step h trivial hst

theorem Path.induct {I : σ → Prop} {R : σ → σ → Prop}
    (hI : ∀ s a s', I s → M.step s a = some s' → I s')
    (hrefl : ∀ s, R s s) (htrans : ∀ s t u, R s t → R t u → R s u)
    (hs : ∀ s a s', I s → M.step s a = some s' → R s s') {s s' : σ} (h0 : I s) (h : M.Path s s') :
    R s s' := by
  have key : I s' ∧ R s s' := by
    induction h with
    | refl => exact ⟨h0, hrefl s⟩
    | tail _ hst ih =>
      obtain ⟨a, ha⟩ := hst
      exact ⟨hI _ a _ ih.1 ha, htrans _ _ _ ih.2 (hs _ a _ ih.1 ha)⟩
  exact key.2

theorem path_of_run {as : List α} {s s' : σ} (h : M.run s as = some s') : M.Path s s' := by
  induction as generalizing s with
  | nil => exact Option.some.inj h ▸ .refl
  | cons a as ih =>
    rw [run_cons, Option.bind_eq_some_iff] at h
    obtain ⟨t, ht, hrest⟩ := h
    exact .head ⟨a, ht⟩ (ih hrest)

theorem reachUnder_of_run {ok : σ → α → Prop} :
    ∀ (as : List α) {s s' : σ}, (∀ a ∈ as, ∀ s, ok s a) → M.ReachUnder ok s →
      M.run s as = some s' → M.ReachUnder ok s'
  | [], s, s', _, hr, h => by
    simp only [run_nil, Option.some.injEq] at h
    exact h ▸ hr
  | a :: as, s, s', hok, hr, h => by
    rw [run_cons, Option.bind_eq_some_iff] at h
    obtain ⟨t, ht, hrest⟩ := h
    have hstep := hr.step (hok a List.mem_cons_self s) ht
    exact reachUnder_of_run as (fun b hb => hok b (List.mem_cons_of_mem a hb)) hstep hrest

theorem reachUnder_of_runUnder {ok : σ → α → Prop} [∀ s a, Decidable (ok s a)] {as : List α}
    {s s' : σ} (hr : M.ReachUnder ok s) (h : M.runUnder ok s as = some s') :
    M.ReachUnder ok s' := by
  induction as generalizing s with
  | nil => exact Option.some.inj h ▸ hr
  | cons a as ih =>
    unfold runUnder at h
    split_ifs at h with hok
    obtain ⟨t, ht, hrest⟩ := Option.bind_eq_some_iff.1 h
    exact ih (hr.step hok ht) hrest

lemma run_of_runUnder {ok : σ → α → Prop} [∀ s a, Decidable (ok s a)] {as : List α} {s s' : σ}
    (h : M.runUnder ok s as = some s') : M.run s as = some s' := by
  induction as generalizing s with
  | nil => exact h
  | cons a as ih =>
    unfold runUnder at h
    split_ifs at h
    obtain ⟨t, ht, hrest⟩ := Option.bind_eq_some_iff.1 h
    rw [run_of_step ht]
    exact ih hrest

lemma ok_of_takes {ok : σ → α → Prop} [∀ s a, Decidable (ok s a)] {as : List α} {s s' t : σ} {a : α}
    (h : M.runUnder ok s as = some s') (ht : M.Takes s as t a) : ok t a := by
  obtain ⟨before, after, rfl, hrun⟩ := ht
  induction before generalizing s with
  | nil =>
    obtain rfl : s = t := Option.some.inj hrun
    rw [List.nil_append] at h
    unfold runUnder at h
    split_ifs at h with hok
    exact hok
  | cons b before ih =>
    rw [List.cons_append] at h
    unfold runUnder at h
    split_ifs at h
    obtain ⟨u, hu, hrest⟩ := Option.bind_eq_some_iff.1 h
    rw [run_of_step hu] at hrun
    exact ih hrun hrest

theorem reach_of_run {as : List α} {s : σ} (h : M.run M.init as = some s) : M.Reach s :=
  reachUnder_of_run as (fun _ _ _ => trivial) .init h

end StepMachine
