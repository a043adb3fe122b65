import Apdl.Vault.Effects

set_option autoImplicit false

/-!
# What the checks of the database say

## Main results

* `Db.activeAgentsSetup_iff` — an active setup is accepted when both of its assignments are valid; the count of
  the SQL function is two exactly then.
-/

namespace Apdl.Vault

namespace Db

variable {s s' : Db}

/-! ## One assignment -/

structure TierJoin (s : Db) (required : Text) (a : AgentsAssignment) (c : ProviderConnection)
    (m : ProviderModel) (policy : ProviderPolicy) : Prop where
  connection : s.projections.get (.agents, a.scope) = some c
  active : c.active = true
  catalog : c.catalogVersion = a.modelCatalogVersion
  model : s.models.get ((.agents, a.scope), a.model) = some m
  version : m.connectionVersion = c.version
  inventory : m.inventoryVersion = c.inventoryVersion
  modelCatalog : m.catalogVersion = a.modelCatalogVersion
  supported : .tier a.tier ∈ m.supported
  credential : ∃ cr b, s.credentials.get c.credentialId = some cr ∧ cr.scope = a.scope ∧
    cr.state = .active ∧ s.bindings.get (.agents, a.scope) = some b ∧ b.connectionId = cr.connectionId
  governed : s.providerPolicies.get (a.projectId, a.provider, a.model) = some policy
  residencyRequired : policy.dataResidency = required
  residencyOffered : policy.dataResidency = m.dataResidency
  classifications : policy.allowedDataClassifications = m.allowedDataClassifications
  enabled : policy.enabled = true

lemma tierValid_iff {required : Text} {a : AgentsAssignment} :
    s.tierValid required a = true ↔ ∃ c m policy, s.TierJoin required a c m policy := by
  unfold tierValid
  constructor
  · intro h
    split at h
    · rename_i c m policy hc hm hp
      simp only [Bool.and_eq_true, decide_eq_true_eq] at h
      obtain ⟨⟨⟨⟨⟨⟨⟨⟨⟨⟨hactive, hcatalog⟩, hversion⟩, hinventory⟩, hmodel⟩, hsupported⟩, hcredential⟩, hrequired⟩,
        hresidency⟩, hclass⟩, henabled⟩ := h
      refine ⟨c, m, policy, hc, hactive, hcatalog, hm, hversion, hinventory, hmodel, hsupported, ?_, hp,
        hrequired, hresidency, hclass, henabled⟩
      split at hcredential
      · cases hcredential
      · rename_i cr hcr
        simp only [Bool.and_eq_true, decide_eq_true_eq] at hcredential
        obtain ⟨⟨hscope, hstate⟩, hbound⟩ := hcredential
        split at hbound
        · cases hbound
        · rename_i b hb
          exact ⟨cr, b, hcr, hscope, hstate, hb, of_decide_eq_true hbound⟩
    · cases h
  · rintro ⟨c, m, policy, h⟩
    obtain ⟨cr, b, hcr, hscope, hstate, hb, hbound⟩ := h.credential
    rw [h.connection, h.model, h.governed]
    dsimp only
    rw [hcr]
    dsimp only
    rw [hb]
    simp [h.active, h.catalog, h.version, h.inventory, h.modelCatalog, h.supported, h.residencyRequired, hscope, hstate,
      hbound, ← h.residencyOffered, h.classifications, h.enabled]

lemma roleCurrent_iff {a : CodegenAssignment} : s.roleCurrent a = true ↔
    ∃ c m, s.projections.get (.codegen, a.scope) = some c ∧ c.active = true ∧
      s.models.get ((.codegen, a.scope), a.modelId) = some m ∧ m.connectionVersion = c.version ∧
      m.inventoryVersion = c.inventoryVersion ∧ m.catalogVersion = c.catalogVersion ∧
      .role a.role ∈ m.supported ∧ a.connectionVersion = c.version ∧
      a.inventoryVersion = c.inventoryVersion ∧ a.catalogVersion = c.catalogVersion := by
  unfold roleCurrent
  constructor
  · intro h
    split at h
    · rename_i c m hc hm
      simp only [Bool.and_eq_true, decide_eq_true_eq] at h
      obtain ⟨⟨⟨⟨⟨⟨⟨⟨h₁, h₂⟩, h₃⟩, h₄⟩, h₅⟩, h₆⟩, h₇⟩, h₈⟩, -⟩ := h
      exact ⟨c, m, hc, h₁, hm, h₂, h₃, h₄, h₅, h₆, h₇, h₈⟩
    · cases h
  · rintro ⟨c, m, hc, h₁, hm, h₂, h₃, h₄, h₅, h₆, h₇, h₈⟩
    rw [hc, hm]
    simp [h₁, h₂, h₃, h₄, h₅, h₆, h₇, h₈]

/-! ## The setup of a project -/

lemma countP_tiers {p : Text} {fast reasoning : AgentsAssignment} (hf : s.tiers.get (p, .fast) = some fast)
    (hr : s.tiers.get (p, .reasoning) = some reasoning) (valid : AgentsAssignment → Bool) :
    (s.tiers.rows.countP fun a => decide (a.projectId = p) && valid a) =
      (valid fast).toNat + (valid reasoning).toNat := by
  have hfast : fast.key = (p, .fast) := Table.get_key hf
  have hreasoning : reasoning.key = (p, .reasoning) := Table.get_key hr
  have hne : fast ≠ reasoning := by
    rintro rfl
    rw [hfast] at hreasoning
    cases (Prod.mk.inj hreasoning).2
  have hperm : List.Perm (s.tiers.rows.filter fun a => a.projectId = p) [fast, reasoning] := by
    refine (List.perm_ext_iff_of_nodup ?_ ?_).2 fun a => ?_
    · exact (List.Nodup.of_map _ s.tiers.nodup).filter _
    · simpa using hne
    · rw [List.mem_filter, decide_eq_true_eq]
      constructor
      · rintro ⟨ha, hp⟩
        have hget := Table.mem_rows_iff.1 ha
        have hkey : a.key = (p, a.tier) := Prod.ext hp rfl
        rw [hkey] at hget
        cases ht : a.tier with
        | fast =>
          rw [ht, hf] at hget
          simp [Option.some.inj hget]
        | reasoning =>
          rw [ht, hr] at hget
          simp [Option.some.inj hget]
      · intro ha
        rcases List.mem_cons.1 ha with rfl | ha
        · exact ⟨Table.mem_of_get hf, (Prod.mk.inj hfast).1⟩
        · obtain rfl := List.mem_singleton.1 ha
          exact ⟨Table.mem_of_get hr, (Prod.mk.inj hreasoning).1⟩
  have hcount : (s.tiers.rows.countP fun a => decide (a.projectId = p) && valid a) =
      [fast, reasoning].countP valid := by
    rw [← hperm.countP_eq, List.countP_filter]
    exact List.countP_congr fun a _ => by rw [Bool.and_comm]
  rw [hcount]
  cases hv : valid fast <;> cases hw : valid reasoning <;> simp [hv, hw]

/-- What an active setup needs. -/
structure SetupValid (s : Db) (policy : ProjectPolicy) (fast reasoning : AgentsAssignment) : Prop where
  dailyLimit : 0 < policy.projectDailyCostLimit
  runLimit : 0 < policy.runCostLimit
  bounded : policy.runCostLimit ≤ policy.projectDailyCostLimit
  retry : policy.allowCrossVendorRetry = false
  fastAssigned : s.tiers.get (policy.projectId, .fast) = some fast
  reasoningAssigned : s.tiers.get (policy.projectId, .reasoning) = some reasoning
  fastValid : s.tierValid policy.requiredDataResidency fast = true
  reasoningValid : s.tierValid policy.requiredDataResidency reasoning = true
  assigned : ∀ p ∈ s.providerPolicies.rows, p.projectId = policy.projectId → p.enabled = true →
    ∃ a ∈ s.tiers.rows, a.projectId = policy.projectId ∧ a.provider = p.provider ∧ a.model = p.model

theorem activeAgentsSetup_iff {p : Text} : s.activeAgentsSetup p = true ↔
    ∀ policy, s.policies.get p = some policy → policy.active = true →
      ∃ fast reasoning, s.SetupValid policy fast reasoning := by
  unfold activeAgentsSetup
  cases hpolicy : s.policies.get p with
  | none => exact iff_of_true rfl (by simp)
  | some policy =>
    obtain rfl : policy.projectId = p := Table.get_key hpolicy
    simp only [Option.some.injEq, forall_eq', Bool.or_eq_true, Bool.not_eq_true', Bool.and_eq_true,
      decide_eq_true_eq, Option.isSome_iff_exists, List.all_eq_true, List.any_eq_true]
    cases hactive : policy.active with
    | false => exact iff_of_true (.inl rfl) (by simp)
    | true =>
      simp only [Bool.true_eq_false, false_or, forall_const]
      constructor
      · rintro ⟨⟨⟨⟨⟨⟨⟨h₁, h₂⟩, h₃⟩, h₄⟩, hcount⟩, ⟨fast, hf⟩⟩, ⟨reasoning, hr⟩⟩, hall⟩
        rw [countP_tiers hf hr] at hcount
        have hboth : s.tierValid policy.requiredDataResidency fast = true ∧
            s.tierValid policy.requiredDataResidency reasoning = true := by
          revert hcount
          cases s.tierValid policy.requiredDataResidency fast <;>
            cases s.tierValid policy.requiredDataResidency reasoning <;> simp
        refine ⟨fast, reasoning, h₁, h₂, h₃, h₄, hf, hr, hboth.1, hboth.2, fun p hp hid hen => ?_⟩
        rcases hall p hp with hno | ⟨a, ha, ⟨h, h'⟩, h''⟩
        · rcases hno with hno | hno
          · exact absurd hid hno
          · exact absurd (hen.symm.trans hno) (by decide)
        · exact ⟨a, ha, h, h', h''⟩
      · rintro ⟨fast, reasoning, h⟩
        refine ⟨⟨⟨⟨⟨⟨⟨h.dailyLimit, h.runLimit⟩, h.bounded⟩, h.retry⟩, ?_⟩, ⟨fast, h.fastAssigned⟩⟩,
          ⟨reasoning, h.reasoningAssigned⟩⟩, fun p hp => ?_⟩
        · rw [countP_tiers h.fastAssigned h.reasoningAssigned, h.fastValid, h.reasoningValid]
          rfl
        · by_cases hcase : p.projectId = policy.projectId ∧ p.enabled = true
          · obtain ⟨a, ha, hid, hprovider, hmodel⟩ := h.assigned p hp hcase.1 hcase.2
            exact .inr ⟨a, ha, ⟨hid, hprovider⟩, hmodel⟩
          · left
            by_cases hid : p.projectId = policy.projectId
            · exact .inr (by simpa using fun hen => hcase ⟨hid, hen⟩)
            · exact .inl hid

end Db

end Apdl.Vault
