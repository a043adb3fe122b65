import Apdl.Agents.Approval.Model
import Mathlib.Tactic.Common

set_option autoImplicit false

/-!
# What an approval plans

The effects of a command follow from the decisions and the items of the gate. This file says which
effects there are, and what a request that is accepted has been checked for.

## Main results

* `Tables.enqueue_cases` — what `enqueue_approval_command` checks and does.
-/

namespace Apdl.Agents.Approval

/-! ## One decision -/

section Decision

variable {gate : GateAgent} {run command base order : ℕ} {item : Item} {d : Decision}
  {p : PlannedEffect}

lemma planDecision_fields (hp : p ∈ planDecision gate run command base order item d) :
    p.command = command ∧ p.run = run ∧ p.itemId = d.itemId ∧ p.payload = item := by
  unfold planDecision at hp
  cases gate <;> dsimp only at hp <;> split_ifs at hp <;> aesop

lemma planDecision_external (hp : p ∈ planDecision gate run command base order item d)
    (hext : p.effectType.isExternal = true) : d.approved = true ∧ item.isActionable = true := by
  unfold planDecision at hp
  cases gate <;> dsimp only at hp <;> split_ifs at hp with hcond <;>
    grind [EffectType.isExternal]

lemma planDecision_ne_nil : planDecision gate run command base order item d ≠ [] := by
  unfold planDecision
  cases gate <;> dsimp only <;> split_ifs <;> simp

lemma planDecision_dependency {j : ℕ}
    (hp : (planDecision gate run command base order item d)[j]? = some p) :
    (p.effectType = .openTreatmentChangeset ∧ p.dependsOn = some base ∧
      ∃ p' : PlannedEffect, (planDecision gate run command base order item d)[0]? = some p' ∧
        p'.effectType = .stageExperimentDraft ∧ p'.dependsOn = none ∧ p'.itemId = p.itemId) ∨
    (p.effectType ≠ .openTreatmentChangeset ∧ p.dependsOn = none) := by
  have hmem := List.mem_of_getElem? hp
  unfold planDecision at hmem ⊢
  cases gate <;> dsimp only at hmem ⊢ <;> split_ifs at hmem ⊢ <;> aesop

end Decision

section Decisions

variable {gate : GateAgent} {run command : ℕ} {items : List (String × Item)} {p : PlannedEffect}

variable {index : ℕ} {ds : List Decision}

lemma planEffects_cases {base : ℕ} (hp : p ∈ planEffects gate run command items index base ds) :
    ∃ d ∈ ds, ∃ (item : Item) (base order : ℕ), items.lookup d.itemId = some item ∧
      p ∈ planDecision gate run command base order item d := by
  induction ds generalizing index base with
  | nil => simp [planEffects] at hp
  | cons d ds ih =>
    unfold planEffects at hp
    cases hitem : items.lookup d.itemId with
    | none =>
      rw [hitem] at hp
      obtain ⟨d', hd', rest⟩ := ih hp
      exact ⟨d', List.mem_cons_of_mem d hd', rest⟩
    | some item =>
      simp only [hitem, List.mem_append] at hp
      rcases hp with hp | hp
      · exact ⟨d, List.mem_cons_self, item, _, _, hitem, hp⟩
      · obtain ⟨d', hd', rest⟩ := ih hp
        exact ⟨d', List.mem_cons_of_mem d hd', rest⟩

lemma planEffects_ne_nil {base : ℕ} (hne : ds ≠ [])
    (hitems : ∀ d ∈ ds, (items.lookup d.itemId).isSome = true) :
    planEffects gate run command items index base ds ≠ [] := by
  cases ds with
  | nil => exact absurd rfl hne
  | cons d ds =>
    obtain ⟨item, hitem⟩ := Option.isSome_iff_exists.1 (hitems d List.mem_cons_self)
    simp [planEffects, hitem, planDecision_ne_nil]

lemma planEffects_dependency {base j : ℕ}
    (hp : (planEffects gate run command items index base ds)[j]? = some p) :
    (p.effectType = .openTreatmentChangeset ∧ ∃ (j' : ℕ) (p' : PlannedEffect),
      p.dependsOn = some (base + j') ∧
      (planEffects gate run command items index base ds)[j']? = some p' ∧
      p'.effectType = .stageExperimentDraft ∧ p'.dependsOn = none ∧ p'.itemId = p.itemId) ∨
    (p.effectType ≠ .openTreatmentChangeset ∧ p.dependsOn = none) := by
  induction ds generalizing index base j with
  | nil => simp [planEffects] at hp
  | cons d ds ih =>
    unfold planEffects at hp ⊢
    cases hitem : items.lookup d.itemId with
    | none =>
      simp only [hitem] at hp ⊢
      exact ih hp
    | some item =>
      simp only [hitem] at hp ⊢
      set head := planDecision gate run command base (index * 10) item d with hhead
      by_cases hj : j < head.length
      · rw [List.getElem?_append_left hj] at hp
        refine (planDecision_dependency hp).imp_left fun ⟨htype, hdep, p', hp', rest⟩ => ?_
        have hpos : 0 < head.length := Nat.zero_lt_of_lt hj
        exact ⟨htype, 0, p', hdep, by rw [List.getElem?_append_left hpos, hp'], rest⟩
      · rw [List.getElem?_append_right (Nat.le_of_not_lt hj)] at hp
        refine (ih hp).imp_left fun ⟨htype, j', p', hdep, hp', rest⟩ => ?_
        refine ⟨htype, head.length + j', p', ?_, ?_, rest⟩
        · rw [hdep, Nat.add_assoc]
        · rw [List.getElem?_append_right (Nat.le_add_right _ _), Nat.add_sub_cancel_left, hp']

end Decisions

namespace Tables

/-- The decisions are on the items of the gate, and on all of them. -/
def Covers (decisions : List Decision) (items : List (String × Item)) : Prop :=
  (∀ d ∈ decisions, (items.lookup d.itemId).isSome = true) ∧
    ∀ item ∈ items, item.1 ∈ decisions.map Decision.itemId

lemma enqueue_cases {t t' : Tables} {q : ApprovalRequest} {now k : ℕ}
    (h : t.enqueueApprovalCommand q now = .ok (t', k)) :
    (t.replayed q = some k ∧ t' = t) ∨
    (t.replayed q = none ∧ k = t.commands.length ∧
      ∃ (gate : GateAgent) (items : List (String × Item)),
        t.waitingGate q.run = .ok (gate, items) ∧ Covers q.decisions items ∧
        t.admitsCommand q gate = true ∧
        t' = t.insertCommand q gate
          (planEffects gate q.run t.commands.length items 0 t.effects.length q.decisions) now) := by
  unfold Tables.enqueueApprovalCommand at h
  cases hrun : t.runs[q.run]? with
  | none => simp [hrun] at h
  | some r =>
    simp only [hrun] at h
    by_cases hproject : r.project ≠ q.project
    · rw [if_pos hproject] at h
      cases h
    rw [if_neg hproject] at h
    cases hreplay : t.replayed q with
    | some command =>
      simp only [hreplay, Except.ok.injEq, Prod.mk.injEq] at h
      exact .inl ⟨by rw [h.2], h.1.symm⟩
    | none =>
      simp only [hreplay] at h
      cases hgate : t.waitingGate q.run with
      | error e => simp [hgate] at h
      | ok found =>
        obtain ⟨gate, items⟩ := found
        simp only [hgate] at h
        split_ifs at h with hcover hcap hadmit
        simp only [Except.ok.injEq, Prod.mk.injEq] at h
        refine .inr ⟨rfl, h.2.symm, gate, items, rfl, ?_, hadmit, h.1.symm⟩
        simp only [Bool.or_eq_true, Bool.not_eq_true', not_or, Bool.not_eq_false,
          List.all_eq_true] at hcover
        refine ⟨fun d hd => ?_, fun item hitem => ?_⟩
        · exact hcover.1 d.itemId (List.mem_map_of_mem hd)
        · simpa using hcover.2 item hitem

end Tables

end Apdl.Agents.Approval
