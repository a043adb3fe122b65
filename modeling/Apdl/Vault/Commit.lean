import Mathlib.Data.List.Perm.Subperm
import Apdl.Vault.Reach

set_option autoImplicit false

/-!
# Which refreshes and replacements commit

The checks of a command compare what is assigned with the slots and the models of the new projection. The
checks of the database also compare the catalog version, the residency and the data classifications. Codegen's
assignments follow the new catalog version, those of Agents do not.

## Main results

* `commits_iff_agrees` — so for every replacement and refresh in a reachable state.
-/

namespace Apdl.Vault

/-- A projection of Agents agrees with the assignments of its scope: it and the assigned models have the
catalog version of the assignment, and the models the residency and classifications of the provider policy. -/
def Db.AgreesWithSetup (s : Db) (scope : Scope) (projection : Projection) : Prop :=
  ∀ a ∈ s.tiers.rows, a.scope = scope → projection.catalogVersion = a.modelCatalogVersion ∧
    ∀ m ∈ projection.models, m.modelId = a.model → m.catalogVersion = a.modelCatalogVersion ∧
      ∀ policy, s.providerPolicies.get (a.projectId, a.provider, a.model) = some policy →
        policy.dataResidency = m.dataResidency ∧
          policy.allowedDataClassifications = m.allowedDataClassifications

/-- The models of a projection have its catalog version. -/
def CatalogUniform (projection : Projection) : Prop :=
  ∀ m ∈ projection.models, m.catalogVersion = projection.catalogVersion

/-- What the projections of a command have to agree with, for the consumers it binds. -/
structure Db.Agrees (s : Db) (scope : Scope) (consumers : List Consumer)
    (projections : Consumer → Projection) : Prop where
  agents : .agents ∈ consumers → s.AgreesWithSetup scope (projections .agents)
  codegen : .codegen ∈ consumers → CatalogUniform (projections .codegen)

def Db.SetupActive (s : Db) (projectId : Text) : Prop :=
  ∃ policy, s.policies.get projectId = some policy ∧ policy.active = true

namespace Db

variable {cipher : CredentialCipher} {s s' : Db} {id : Uuid} {scope : Scope} {credentialId : Uuid}
  {dropped consumers : List Consumer} {projections : Consumer → Projection} {modelIds : List Text}

theorem connectionAuthority_of (hheld : s'.Held cipher)
    (hchanges : s.Changes cipher s' id scope (some credentialId) consumers)
    (hrecords : s.Records s' id scope dropped consumers credentialId projections modelIds)
    (hnonempty : modelIds ≠ []) : s'.connectionAuthority id = true := by
  obtain ⟨c, hc, -, hactive⟩ := hchanges.connection
  obtain ⟨c', hc', hrows⟩ := hrecords.inventory
  obtain rfl := Option.some.inj (hc.symm.trans hc')
  obtain ⟨cr, hcr, hid⟩ := hchanges.held credentialId rfl
  have hstate := (hchanges.credential _ cr hcr hid).2
  have hcredentials : (s'.credentials.rows.countP fun cr =>
      decide (cr.connectionId = id) && decide (cr.state = .active)) = 1 := by
    refine Table.countP_eq_one hcr (by simp [hid, hstate.2 rfl]) fun cr' hcr' hp => ?_
    simp only [Bool.and_eq_true, decide_eq_true_eq] at hp
    have hget := Table.mem_rows_iff.1 hcr'
    exact (Option.some.inj ((hchanges.credential _ cr' hget hp.1).2.1 hp.2)).symm
  have hsecrets : (s'.credentials.rows.countP fun cr =>
      decide (cr.connectionId = id) && (s'.secrets.get cr.credentialId).isSome) = 1 := by
    refine Table.countP_eq_one hcr ?_ fun cr' hcr' hp => ?_
    · rw [Table.get_key hcr, Bool.and_eq_true, decide_eq_true_eq, Option.isSome_iff_exists]
      exact ⟨hid, (hheld.secret _).2 ⟨cr, hcr, hstate.2 rfl⟩⟩
    · rw [Bool.and_eq_true, decide_eq_true_eq, Option.isSome_iff_exists] at hp
      have hget := Table.mem_rows_iff.1 hcr'
      exact (Option.some.inj ((hchanges.secret _ cr' hget hp.1).1 hp.2)).symm
  have hbindings : 1 ≤ (s'.bindings.rows.countP fun b => decide (b.connectionId = id)) ∧
      (s'.bindings.rows.countP fun b => decide (b.connectionId = id)) ≤ 2 := by
    constructor
    · obtain ⟨k, b, hb, hbid⟩ := hheld.bound id c hc hactive
      exact List.one_le_countP_iff.2 ⟨b, Table.mem_of_get hb, by simpa using hbid⟩
    · rw [List.countP_eq_length_filter, ← List.length_map (f := Binding.consumer)]
      -- the bindings of the connection are in one scope, so their consumers differ
      have hnodup : ((s'.bindings.rows.filter fun b => decide (b.connectionId = id)).map
          Binding.consumer).Nodup := by
        refine List.Nodup.map_on (fun b hb b' hb' hsame => ?_) ((List.Nodup.of_map _ s'.bindings.nodup).filter _)
        obtain ⟨hb, hbid⟩ := List.mem_filter.1 hb
        obtain ⟨hb', hbid'⟩ := List.mem_filter.1 hb'
        rw [decide_eq_true_eq] at hbid hbid'
        have hk := (hchanges.binding _ b hbid).1 (Table.mem_rows_iff.1 hb)
        have hk' := (hchanges.binding _ b' hbid').1 (Table.mem_rows_iff.1 hb')
        exact Table.eq_of_key hb hb' (Prod.ext hsame (hk.1.1.trans hk'.1.1.symm))
      have hall : ∀ consumer, consumer ∈ consumersInOrder := fun consumer => by cases consumer <;> decide
      exact (List.subperm_of_subset hnodup fun x _ => hall x).length_le
  have hmodels : ∀ q : VaultModel → Bool, (∀ modelId ∈ modelIds,
      q ⟨id, c.version, c.inventoryVersion, modelId⟩ = true) →
      (s'.vaultModels.rows.countP fun m => decide (m.connectionId = id) && q m) = modelIds.length := by
    intro q hq
    have hold : ((s.vaultModels.rows.filter fun m => !decide (m.connectionId = id)).countP
        fun m => decide (m.connectionId = id) && q m) = 0 := by
      rw [List.countP_eq_zero]
      intro m hm
      have hne := (List.mem_filter.1 hm).2
      simp only [Bool.not_eq_true', decide_eq_false_iff_not] at hne
      simp [hne]
    have hnew : (modelIds.map fun modelId => (⟨id, c.version, c.inventoryVersion, modelId⟩ : VaultModel)).countP
        (fun m => decide (m.connectionId = id) && q m) = modelIds.length := by
      rw [List.countP_map, List.countP_eq_length]
      intro modelId hm
      simp [hq modelId hm]
    rw [hrows, List.countP_append, hold, hnew, Nat.zero_add]
  have hall := hmodels (fun _ => true) fun _ _ => rfl
  have hcurrent := hmodels (fun m => decide (m.connectionVersion = c.version) &&
    decide (m.inventoryVersion = c.inventoryVersion)) fun _ _ => by simp
  simp only [Bool.and_true] at hall
  simp only [← Bool.and_assoc] at hcurrent
  unfold connectionAuthority
  rw [hc]
  dsimp only
  rw [hactive, Option.isSome_some, if_pos rfl, hcredentials, hsecrets, hall, hcurrent]
  simpa [hbindings.1, hbindings.2] using hnonempty

theorem referencesHold_iff (hheld : s'.Held cipher) (hserved : s.Served)
    (hchanges : s.Changes cipher s' id scope (some credentialId) consumers)
    (hrecords : s.Records s' id scope dropped consumers credentialId projections modelIds) :
    s'.referencesHold id scope = true ↔
      (.codegen ∈ consumers → CatalogUniform (projections .codegen)) := by
  obtain ⟨c, hc, hrows⟩ := hrecords.inventory
  have hinventory : ∀ m ∈ s'.vaultModels.rows, m.connectionId = id → m.connectionVersion = c.version := by
    intro m hm hid
    rw [hrows, List.mem_append] at hm
    rcases hm with hold | hnew
    · exact absurd hid (by simpa using (List.mem_filter.1 hold).2)
    · obtain ⟨modelId, -, rfl⟩ := List.mem_map.1 hnew
      rfl
  have hsuccessor : ∀ cr ∈ s'.credentials.rows, ∀ n, cr.successorCredentialId = some n →
      ∃ cr', s'.credentials.get n = some cr' ∧ cr'.scope = cr.scope :=
    fun cr hcr n hn => hheld.successor _ cr n (Table.mem_rows_iff.1 hcr) hn
  have hfirst : (s'.vaultModels.rows.all fun m => decide (m.connectionId ≠ id) ||
      (s'.connections.get id).any fun c => decide (m.connectionVersion = c.version)) = true := by
    rw [List.all_eq_true, hc]
    intro m hm
    by_cases hid : m.connectionId = id
    · simp [hinventory m hm hid]
    · simp [hid]
  have hlast : (s'.credentials.rows.all fun cr => decide (cr.connectionId ≠ id) ||
      cr.successorCredentialId.all fun n => (s'.credentials.get n).any fun cr' =>
        decide (cr'.scope = cr.scope)) = true := by
    rw [List.all_eq_true]
    intro cr hcr
    cases hn : cr.successorCredentialId with
    | none => simp
    | some n =>
      obtain ⟨cr', hn', hsame⟩ := hsuccessor cr hcr n hn
      simp [hn', hsame]
  unfold referencesHold
  rw [hfirst, hlast, Bool.true_and, Bool.and_true, List.all_eq_true]
  constructor
  · intro h hmem m hm
    have hk : Among scope consumers (.codegen, scope) := ⟨rfl, hmem⟩
    have hget := hrecords.rewrites.get_model hk (mem_modelsFor.2 ⟨m, hm, rfl⟩)
    have hrow := h _ (Table.mem_of_get hget)
    rw [hrecords.rewrites.projection, if_pos hk] at hrow
    simpa [ProviderModel.owner, projectedConnection] using hrow
  · intro h m hm
    by_cases howner : m.owner = (.codegen, scope)
    · have hget := Table.mem_rows_iff.1 hm
      have hkey : m.key = ((.codegen, scope), m.modelId) := Prod.ext howner rfl
      rw [hkey] at hget
      obtain ⟨p, hp, -, hversion, hinv⟩ := hchanges.models _ m hget
      have hcatalog : m.catalogVersion = p.catalogVersion := by
        by_cases hk : Among scope consumers (.codegen, scope)
        · have hmodel := (hrecords.rewrites.model _ m).1 hget
          rw [if_pos hk] at hmodel
          obtain ⟨model, hmem, hrow⟩ := mem_modelsFor.1 hmodel.1
          rw [hrecords.rewrites.projection, if_pos hk] at hp
          obtain rfl := Option.some.inj hp
          exact (congrArg ProviderModel.catalogVersion hrow).trans (h hk.2 model hmem)
        · have hmodel := (hrecords.rewrites.model _ m).1 hget
          rw [if_neg hk] at hmodel
          rw [hrecords.rewrites.projection, if_neg hk, if_neg hmodel.1] at hp
          exact hserved.catalog scope _ m p hmodel.2 hp
      simp only [] at hp
      simp [howner, hp, hversion, hinv, hcatalog]
    · simp [howner]

/-! ## The assignments -/

theorem codegenAssignmentsCurrent_of (hserved : s.Served)
    (hchanges : s.Changes cipher s' id scope (some credentialId) consumers)
    (hrecords : s.Records s' id scope dropped consumers credentialId projections modelIds)
    (hsafe : .codegen ∈ dropped → s.projectionSafe .codegen scope none = true) :
    s'.codegenAssignmentsCurrent scope = true := by
  unfold codegenAssignmentsCurrent
  rw [Bool.and_eq_true]
  constructor
  · cases hp : s'.projections.get (.codegen, scope) with
    | none => rfl
    | some c =>
      cases hactive : c.active with
      | true => simp [hactive]
      | false =>
        -- an inactive projection has no models
        rw [Bool.or_eq_true, List.all_eq_true]
        refine .inr fun m hm => ?_
        have howner : m.owner ≠ (.codegen, scope) := by
          intro howner
          have hget := Table.mem_rows_iff.1 hm
          have hkey : m.key = ((.codegen, scope), m.modelId) := Prod.ext howner rfl
          rw [hkey] at hget
          obtain ⟨p, hp', hactive', -⟩ := hchanges.models _ m hget
          obtain rfl := Option.some.inj (hp.symm.trans hp')
          exact absurd (hactive.symm.trans hactive') (by decide)
        simp [howner]
  · rw [List.all_eq_true]
    intro a ha
    by_cases hs : a.scope = scope
    · by_cases hmem : .codegen ∈ consumers
      · simp [hrecords.accepted hmem a ha hs]
      · have hold : a ∈ s.roles.rows := hrecords.untouched hmem ▸ ha
        have hcurrent := hserved.role a hold
        have hk : ¬ Among scope consumers (.codegen, a.scope) := fun hk => hmem hk.2
        have hd : ¬ Among scope dropped (.codegen, a.scope) := by
          intro hd
          have hnone := hsafe hd.2
          simp only [projectionSafe, assigned, List.isEmpty_iff, List.map_eq_nil_iff,
            List.filter_eq_nil_iff] at hnone
          exact hnone a hold (by simpa using hs)
        obtain ⟨hprojection, hmodel⟩ := hrecords.rewrites.kept hk hd
        rw [roleCurrent_congr hprojection (hmodel _), hcurrent, Bool.or_true]
    · simp [hs]

theorem tierValid_iff_agrees (hchanges : s.Changes cipher s' id scope (some credentialId) consumers)
    (hrecords : s.Records s' id scope dropped consumers credentialId projections modelIds)
    {a : AgentsAssignment} (hk : Among scope consumers (.agents, a.scope))
    (hsafe : (.tier a.tier, a.model) ∈ (projections .agents).eligible) {required : Text}
    (hvalid : s.tierValid required a = true) :
    s'.tierValid required a = true ↔ (projections .agents).catalogVersion = a.modelCatalogVersion ∧
      ∀ m ∈ (projections .agents).models, m.modelId = a.model → m.catalogVersion = a.modelCatalogVersion ∧
        ∀ policy, s.providerPolicies.get (a.projectId, a.provider, a.model) = some policy →
          policy.dataResidency = m.dataResidency ∧
            policy.allowedDataClassifications = m.allowedDataClassifications := by
  obtain ⟨c₀, m₀, policy, hj⟩ := tierValid_iff.1 hvalid
  have hprojection : s'.projections.get (.agents, a.scope) = some _ :=
    (hrecords.rewrites.projection _).trans (if_pos hk)
  -- the row of a model of the projection
  have hrow : ∀ m ∈ (projections .agents).models, m.modelId = a.model →
      s'.models.get ((.agents, a.scope), a.model) = some _ := fun m hm heq =>
    heq ▸ hrecords.rewrites.get_model hk (mem_modelsFor.2 ⟨m, hm, rfl⟩)
  rw [tierValid_iff]
  constructor
  · rintro ⟨c, m', policy', hj'⟩
    obtain rfl := Option.some.inj (hprojection.symm.trans hj'.connection)
    refine ⟨hj'.catalog, fun m hm heq => ?_⟩
    obtain rfl := Option.some.inj ((hrow m hm heq).symm.trans hj'.model)
    refine ⟨hj'.modelCatalog, fun policy₁ hpolicy₁ => ?_⟩
    have hpolicy' := hj'.governed
    rw [hchanges.providerPolicies, hpolicy₁] at hpolicy'
    obtain rfl := Option.some.inj hpolicy'
    exact ⟨hj'.residencyOffered, hj'.classifications⟩
  · rintro ⟨hcatalog, hmodels⟩
    obtain ⟨m, hm, hslot⟩ := List.mem_flatMap.1 hsafe
    obtain ⟨slot, hsupported, heq⟩ := List.mem_map.1 hslot
    obtain ⟨rfl, hmodel⟩ := Prod.mk.inj heq
    obtain ⟨hmcatalog, hpolicies⟩ := hmodels m hm hmodel
    obtain ⟨hresidency, hclass⟩ := hpolicies policy hj.governed
    obtain ⟨cr, hcr, hid⟩ := hchanges.held credentialId rfl
    obtain ⟨hcrscope, hstate⟩ := hchanges.credential _ cr hcr hid
    have hbound := (hchanges.binding (.agents, a.scope) ⟨id, a.scope, .agents⟩ rfl).2 ⟨hk, rfl⟩
    refine ⟨_, _, policy, hprojection, rfl, hcatalog, hrow m hm hmodel, rfl, rfl, hmcatalog, hsupported,
      ⟨cr, _, hcr, hcrscope.trans hk.1.symm, hstate.2 rfl, hbound, hid.symm⟩, ?_, hj.residencyRequired,
      hresidency, hclass, hj.enabled⟩
    rw [hchanges.providerPolicies]
    exact hj.governed

theorem activeAgentsSetup_iff_agrees (hserved : s.Served)
    (hchanges : s.Changes cipher s' id scope (some credentialId) consumers)
    (hrecords : s.Records s' id scope dropped consumers credentialId projections modelIds)
    (hsafe : .agents ∈ consumers → s.projectionSafe .agents scope (some (projections .agents)) = true)
    (hdropped : ∀ a ∈ s.tiers.rows, ∀ b, s.bindings.get (.agents, a.scope) = some b →
      b.connectionId = id → Among scope consumers (.agents, a.scope))
    (hactive : s.SetupActive scope.projectId) :
    s'.activeAgentsSetup scope.projectId = true ↔
      (.agents ∈ consumers → s.AgreesWithSetup scope (projections .agents)) := by
  obtain ⟨policy, hpolicy, hstate⟩ := hactive
  have hkey : policy.projectId = scope.projectId := Table.get_key hpolicy
  obtain ⟨fast, reasoning, hv⟩ := activeAgentsSetup_iff.1 (hserved.setup scope.projectId) policy hpolicy hstate
  -- the assignments of the project are the two of the setup
  have hcases : ∀ a ∈ s.tiers.rows, a.projectId = scope.projectId → a = fast ∨ a = reasoning := by
    intro a ha hproject
    have hget := Table.mem_rows_iff.1 ha
    have hakey : a.key = (policy.projectId, a.tier) := Prod.ext (hproject.trans hkey.symm) rfl
    rw [hakey] at hget
    cases ht : a.tier with
    | fast =>
      rw [ht, hv.fastAssigned] at hget
      exact .inl (Option.some.inj hget).symm
    | reasoning =>
      rw [ht, hv.reasoningAssigned] at hget
      exact .inr (Option.some.inj hget).symm
  have hkept : ∀ a ∈ s.tiers.rows, s.tierValid policy.requiredDataResidency a = true →
      ¬ Among scope consumers (.agents, a.scope) → s'.tierValid policy.requiredDataResidency a = true := by
    intro a ha hvalid hk
    exact hchanges.tierValid_of_bound_ne (fun b hb hid => hk (hdropped a ha b hb hid)) hvalid
  have hiff : ∀ a ∈ s.tiers.rows, s.tierValid policy.requiredDataResidency a = true →
      Among scope consumers (.agents, a.scope) → _ := fun a ha hvalid hk =>
    tierValid_iff_agrees hchanges hrecords hk (eligible_of_safe (hsafe hk.2) ha hk.1) hvalid
  rw [activeAgentsSetup_iff]
  constructor
  · intro h hmem a ha hscope
    have hk : Among scope consumers (.agents, a.scope) := ⟨hscope, hmem⟩
    obtain ⟨fast', reasoning', hv'⟩ := h policy (by rw [hchanges.policies]; exact hpolicy) hstate
    have hfast : fast' = fast := Option.some.inj
      (hv'.fastAssigned.symm.trans (by rw [hchanges.tiers]; exact hv.fastAssigned))
    have hreasoning : reasoning' = reasoning := Option.some.inj
      (hv'.reasoningAssigned.symm.trans (by rw [hchanges.tiers]; exact hv.reasoningAssigned))
    rcases hcases a ha (congrArg Scope.projectId hscope) with rfl | rfl
    · exact (hiff a ha hv.fastValid hk).1 (hfast ▸ hv'.fastValid)
    · exact (hiff a ha hv.reasoningValid hk).1 (hreasoning ▸ hv'.reasoningValid)
  · intro h policy' hpolicy' _
    rw [hchanges.policies, hpolicy] at hpolicy'
    obtain rfl := Option.some.inj hpolicy'
    have hvalid : ∀ a ∈ s.tiers.rows, s.tierValid policy.requiredDataResidency a = true →
        s'.tierValid policy.requiredDataResidency a = true := by
      intro a ha hva
      by_cases hk : Among scope consumers (.agents, a.scope)
      · exact (hiff a ha hva hk).2 (h hk.2 a ha hk.1)
      · exact hkept a ha hva hk
    refine ⟨fast, reasoning, hv.dailyLimit, hv.runLimit, hv.bounded, hv.retry, ?_, ?_,
      hvalid fast (Table.mem_of_get hv.fastAssigned) hv.fastValid,
      hvalid reasoning (Table.mem_of_get hv.reasoningAssigned) hv.reasoningValid, ?_⟩
    · rw [hchanges.tiers]
      exact hv.fastAssigned
    · rw [hchanges.tiers]
      exact hv.reasoningAssigned
    · rw [hchanges.providerPolicies, hchanges.tiers]
      exact hv.assigned

theorem deferredChecks_iff (hheld : s.Held cipher) (hserved : s.Served)
    (hchanges : s.Changes cipher s' id scope (some credentialId) consumers)
    (hrecords : s.Records s' id scope dropped consumers credentialId projections modelIds)
    (hnonempty : modelIds ≠ [])
    (hsafe : ∀ consumer ∈ consumers, s.projectionSafe consumer scope (some (projections consumer)) = true)
    (hremoved : ∀ consumer ∈ dropped, s.projectionSafe consumer scope none = true)
    (hbound : ∀ k b, s.bindings.get k = some b → b.connectionId = id →
      Among scope consumers k ∨ Among scope dropped k)
    (hactive : s.SetupActive scope.projectId) :
    s'.deferredChecks id scope = true ↔ s.Agrees scope consumers projections := by
  have hheld' := hchanges.keeps_held hheld
  have hdropped : ∀ a ∈ s.tiers.rows, ∀ b, s.bindings.get (.agents, a.scope) = some b →
      b.connectionId = id → Among scope consumers (.agents, a.scope) := by
    intro a ha b hb hid
    rcases hbound _ b hb hid with hk | hk
    · exact hk
    · exact absurd hk.1 (scope_ne_of_safe (hremoved _ hk.2) ha)
  have hauthority := connectionAuthority_of hheld' hchanges hrecords hnonempty
  have hroles := codegenAssignmentsCurrent_of hserved hchanges hrecords (hremoved .codegen)
  have hsetup := activeAgentsSetup_iff_agrees hserved hchanges hrecords (hsafe .agents) hdropped
    hactive
  have hreferences := referencesHold_iff hheld' hserved hchanges hrecords
  unfold deferredChecks
  rw [hauthority, hroles, Bool.true_and, Bool.true_and, Bool.and_eq_true, hsetup, hreferences]
  exact ⟨fun ⟨h, h'⟩ => ⟨h, h'⟩, fun h => ⟨h.agents, h.codegen⟩⟩

end Db

/-- **Which refreshes and replacements commit.** In every reachable state with an active setup, a replacement
or a refresh that passed its checks and wrote its rows passes the checks of the database exactly when its
projections agree with the setup and have one catalog version. -/
theorem commits_iff_agrees (cipher : CredentialCipher) {w : World} (h : (custody cipher).Reach w) :
    (∀ r s', r.authority ∈ w.loaded → w.db.SetupActive r.authority.scope.projectId →
      w.db.replaceChecked r = true → Db.replaceWritten cipher w.db r = some s' →
      (s'.deferredChecks r.authority.connectionId r.authority.scope = true ↔
        w.db.Agrees r.authority.scope r.consumers.list r.projections)) ∧
    ∀ r s', r.authority ∈ w.loaded → w.db.SetupActive r.authority.scope.projectId →
      w.db.refreshChecked r = true → Db.refreshWritten w.db r = some s' →
      (s'.deferredChecks r.authority.connectionId r.authority.scope = true ↔
        w.db.Agrees r.authority.scope r.authority.consumers r.projections) := by
  obtain ⟨hheld, hserved, hloaded⟩ := inv_of_reach h
  refine ⟨fun r s' hmem hactive hchecked hwritten => ?_, fun r s' hmem hactive hchecked hwritten => ?_⟩
  · have hl := hloaded _ hmem
    simp only [Db.replaceChecked, List.all_eq_true, Bool.and_eq_true] at hchecked
    obtain ⟨⟨⟨hauthority, -⟩, hsafe⟩, hremoved⟩ := hchecked
    have hcurrent := hl.current_of hauthority
    obtain ⟨hchanges, hrecords⟩ := Db.changes_of_replace hheld hserved hcurrent hl.nodup hwritten
    refine Db.deferredChecks_iff hheld hserved hchanges hrecords r.modelIds.nonempty
      (fun consumer hc => (hsafe consumer hc).2) hremoved (fun k b hb hid => ?_) hactive
    obtain ⟨hscope, hk⟩ := hcurrent.bound k b hb hid
    by_cases hin : k.1 ∈ r.consumers.list
    · exact .inl ⟨hscope, hin⟩
    · exact .inr ⟨hscope, List.mem_filter.2 ⟨hk, by simpa using hin⟩⟩
  · have hl := hloaded _ hmem
    simp only [Db.refreshChecked, List.all_eq_true, Bool.and_eq_true] at hchecked
    have hcurrent := hl.current_of hchecked.1
    obtain ⟨hchanges, hrecords⟩ := Db.changes_of_refresh hheld hserved hcurrent hl.nodup hl.nonempty hwritten
    exact Db.deferredChecks_iff hheld hserved hchanges hrecords r.modelIds.nonempty hchecked.2
      (fun _ hc => absurd hc List.not_mem_nil) (fun k b hb hid => .inl (hcurrent.bound k b hb hid)) hactive

/-! ## A new catalog -/

/-- A refresh of the connection that was just set up, by consumers with the given catalog version. -/
def exampleRefresh (catalogVersion : Text) : RefreshRequest :=
  { authority := exampleAuthority, modelIds := exampleModelIds,
    projections := fun _ => exampleProjection catalogVersion }

/-- The refresh of the example passes its checks; the last component is what the database says of the setup
and of everything. -/
def refreshOutcome (catalogVersion : Text) (w : World) :
    Bool × Option Bool × Bool × Option (Bool × Bool) :=
  (decide (exampleAuthority ∈ w.loaded), (w.db.policies.get exampleScope.projectId).map (·.active),
    w.db.refreshChecked (exampleRefresh catalogVersion),
    (w.db.refreshWritten (exampleRefresh catalogVersion)).map fun s =>
      (s.activeAgentsSetup exampleScope.projectId, s.deferredChecks 1 exampleScope))

lemma refreshOutcome_spec (catalogVersion : Text) (setup checks : Bool)
    (h : ((custody byteCipher).run {} setupRun).map (refreshOutcome catalogVersion) =
      some (true, some true, true, some (setup, checks))) :
    ∃ w s', (custody byteCipher).run {} setupRun = some w ∧ exampleAuthority ∈ w.loaded ∧
      w.db.SetupActive exampleScope.projectId ∧ w.db.refreshChecked (exampleRefresh catalogVersion) = true ∧
      w.db.refreshWritten (exampleRefresh catalogVersion) = some s' ∧
      s'.activeAgentsSetup exampleScope.projectId = setup ∧ s'.deferredChecks 1 exampleScope = checks := by
  obtain ⟨w, hw, hout⟩ := Option.map_eq_some_iff.1 h
  obtain ⟨hmem, hout⟩ := Prod.mk.inj hout
  obtain ⟨hactive, hout⟩ := Prod.mk.inj hout
  obtain ⟨hchecked, hout⟩ := Prod.mk.inj hout
  obtain ⟨s', hs', hout⟩ := Option.map_eq_some_iff.1 hout
  obtain ⟨hsetup, hchecks⟩ := Prod.mk.inj hout
  obtain ⟨policy, hpolicy, hstate⟩ := Option.map_eq_some_iff.1 hactive
  exact ⟨w, s', hw, of_decide_eq_true hmem, ⟨policy, hpolicy, hstate⟩, hchecked, hs', hsetup, hchecks⟩

/-- **A refresh that is refused when it commits**: both tiers use the model, the projections still have it for
every slot, and only the version of the catalog is new. -/
theorem refresh_refused_by_new_catalog : ∃ w s', (custody byteCipher).run {} setupRun = some w ∧
    exampleAuthority ∈ w.loaded ∧ w.db.SetupActive exampleScope.projectId ∧
    w.db.refreshChecked (exampleRefresh (Text.ofString "v2")) = true ∧
    w.db.refreshWritten (exampleRefresh (Text.ofString "v2")) = some s' ∧
    s'.activeAgentsSetup exampleScope.projectId = false ∧ s'.deferredChecks 1 exampleScope = false :=
  refreshOutcome_spec (Text.ofString "v2") false false (by decide +kernel)

/-- The same refresh under the catalog of the setup commits. -/
theorem commits_iff_agrees_same_catalog : ∃ w s', (custody byteCipher).run {} setupRun = some w ∧
    w.db.refreshWritten (exampleRefresh (Text.ofString "v1")) = some s' ∧
    s'.deferredChecks 1 exampleScope = true ∧
    w.db.Agrees exampleScope [.agents, .codegen] (fun _ => exampleProjection (Text.ofString "v1")) := by
  obtain ⟨w, s', hw, hmem, hactive, hchecked, hs', -, hchecks⟩ :=
    refreshOutcome_spec (Text.ofString "v1") true true (by decide +kernel)
  exact ⟨w, s', hw, hs', hchecks, ((commits_iff_agrees byteCipher (StepMachine.reach_of_run hw)).2
    (exampleRefresh (Text.ofString "v1")) s' hmem hactive hchecked hs').1 hchecks⟩

end Apdl.Vault
