import Apdl.Vault.Commands

set_option autoImplicit false

/-!
# What a command writes for the consumers

## Main results

* `Db.projects_of_applyProjections`, `Db.retires_retireProjections` — the commands do that.
-/

namespace Apdl.Vault

namespace Db

/-- The tables that are not the consumers' projections and assignments of roles agree. -/
structure SameVault (s s' : Db) : Prop where
  connections : s'.connections = s.connections
  credentials : s'.credentials = s.credentials
  secrets : s'.secrets = s.secrets
  bindings : s'.bindings = s.bindings
  vaultModels : s'.vaultModels = s.vaultModels
  tiers : s'.tiers = s.tiers
  policies : s'.policies = s.policies
  providerPolicies : s'.providerPolicies = s.providerPolicies

lemma SameVault.refl (s : Db) : s.SameVault s := ⟨rfl, rfl, rfl, rfl, rfl, rfl, rfl, rfl⟩

variable {s s' : Db}

lemma SameVault.trans {s₁ s₂ : Db} (h : s.SameVault s₁) (h' : s₁.SameVault s₂) : s.SameVault s₂ where
  connections := h'.connections.trans h.connections
  credentials := h'.credentials.trans h.credentials
  secrets := h'.secrets.trans h.secrets
  bindings := h'.bindings.trans h.bindings
  vaultModels := h'.vaultModels.trans h.vaultModels
  tiers := h'.tiers.trans h.tiers
  policies := h'.policies.trans h.policies
  providerPolicies := h'.providerPolicies.trans h.providerPolicies

/-- Only an active projection has models, and they have its versions. -/
def ModelsCurrent (s : Db) : Prop :=
  ∀ k m, s.models.get k = some m → ∃ p, s.projections.get k.1 = some p ∧ p.active = true ∧
    m.connectionVersion = p.version ∧ m.inventoryVersion = p.inventoryVersion

/-- The key of a consumer of the list in the scope. -/
def Among (scope : Scope) (consumers : List Consumer) (k : Key) : Prop := k.2 = scope ∧ k.1 ∈ consumers

instance (scope : Scope) (consumers : List Consumer) (k : Key) : Decidable (Among scope consumers k) :=
  inferInstanceAs (Decidable (_ ∧ _))

/-! ## Projecting -/

/-- The models that a key has once its projection is written. -/
def modelsFor (s : Db) (k : Key) (credentialId : Uuid) (projection : Projection) : List ProviderModel :=
  let row := projectedConnection k (s.projections.get k) credentialId projection
  projectedModels k row.version row.inventoryVersion projection

variable {id : Uuid} {projection : Projection}

lemma mem_modelsFor {k : Key} {m : ProviderModel} :
    m ∈ s.modelsFor k id projection ↔ ∃ model ∈ projection.models,
      m = { consumer := k.1, scope := k.2,
            connectionVersion := (projectedConnection k (s.projections.get k) id projection).version,
            inventoryVersion := (projectedConnection k (s.projections.get k) id projection).inventoryVersion,
            modelId := model.modelId, supported := model.supported, catalogVersion := model.catalogVersion,
            dataResidency := model.dataResidency,
            allowedDataClassifications := model.allowedDataClassifications } := by
  unfold modelsFor projectedModels
  constructor
  · intro h
    obtain ⟨model, hmodel, rfl⟩ := List.mem_map.1 h
    exact ⟨model, hmodel, rfl⟩
  · rintro ⟨model, hmodel, rfl⟩
    exact List.mem_map.2 ⟨model, hmodel, rfl⟩

lemma owner_of_mem_modelsFor {k : Key} {m : ProviderModel}
    (h : m ∈ s.modelsFor k id projection) : m.owner = k := by
  obtain ⟨model, -, rfl⟩ := mem_modelsFor.1 h
  rfl

lemma project_spec {key : Key}
    (hcurrent : s.ModelsCurrent) (h : s.project key id projection = some s') :
    s.SameVault s' ∧ s'.roles = s.roles ∧
      (∀ k, s'.projections.get k =
        if k = key then some (projectedConnection key (s.projections.get key) id projection)
        else s.projections.get k) ∧
      (∀ k m, s'.models.get k = some m ↔ (k.1 ≠ key ∧ s.models.get k = some m) ∨
        (m ∈ s.modelsFor key id projection ∧ m.key = k)) := by
  unfold project at h
  dsimp only at h
  split at h
  · rename_i hnone
    obtain ⟨projections, hp, hrest⟩ := Option.bind_eq_some_iff.1 h
    obtain ⟨models, hm, rfl⟩ := Option.map_eq_some_iff.1 hrest
    refine ⟨⟨rfl, rfl, rfl, rfl, rfl, rfl, rfl, rfl⟩, rfl, fun k => ?_, fun k m => ?_⟩
    · exact Table.get_insert hp k
    · rw [Table.get_insertAll hm, modelsFor, hnone]
      refine or_congr_left ⟨fun hg => ⟨fun hk => ?_, hg⟩, fun hg => hg.2⟩
      obtain ⟨p, hget, -⟩ := hcurrent k m hg
      rw [hk, hnone] at hget
      cases hget
  · rename_i p hsome
    obtain ⟨models, hm, rfl⟩ := Option.map_eq_some_iff.1 h
    refine ⟨⟨rfl, rfl, rfl, rfl, rfl, rfl, rfl, rfl⟩, rfl, fun k => ?_, fun k m => ?_⟩
    · exact Table.get_replace_of_get (r := projectedConnection key (s.projections.get key) id projection)
        hsome k
    · rw [Table.get_insertAll hm, Table.get_delete, Option.filter_eq_some_iff]
      refine or_congr_left ?_
      constructor
      · rintro ⟨hg, hne⟩
        have hk : m.owner = k.1 := congrArg Prod.fst (Table.get_key hg)
        exact ⟨fun hkey => by simp [hk, hkey] at hne, hg⟩
      · rintro ⟨hne, hg⟩
        have hk : m.owner = k.1 := congrArg Prod.fst (Table.get_key hg)
        exact ⟨hg, by simp [hk, hne]⟩

/-- The rows of the consumers after the projections of a list of consumers were written. -/
structure Projects (s s' : Db) (scope : Scope) (consumers : List Consumer) (id : Uuid)
    (projections : Consumer → Projection) : Prop where
  same : s.SameVault s'
  projection : ∀ k, s'.projections.get k = if Among scope consumers k then
    some (projectedConnection k (s.projections.get k) id (projections k.1)) else s.projections.get k
  model : ∀ k m, s'.models.get k = some m ↔ if Among scope consumers k.1 then
    m ∈ s.modelsFor k.1 id (projections k.1.1) ∧ m.key = k else s.models.get k = some m
  role : ∀ a ∈ s'.roles.rows, a.scope ≠ scope → a ∈ s.roles.rows
  untouched : .codegen ∉ consumers → s'.roles = s.roles
  accepted : .codegen ∈ consumers → ∀ a ∈ s'.roles.rows, a.scope = scope → s'.roleCurrent a = true

variable {scope : Scope} {consumers : List Consumer} {projections : Consumer → Projection}

lemma Projects.modelsCurrent (h : s.Projects s' scope consumers id projections)
    (hcurrent : s.ModelsCurrent) : s'.ModelsCurrent := by
  intro k m hm
  have hm := (h.model k m).1 hm
  rw [h.projection]
  split_ifs at hm ⊢ with hk
  · obtain ⟨model, -, rfl⟩ := mem_modelsFor.1 hm.1
    exact ⟨_, rfl, rfl, rfl, rfl⟩
  · exact hcurrent k m hm

lemma roleCurrent_congr {a : CodegenAssignment}
    (hp : s'.projections.get (.codegen, a.scope) = s.projections.get (.codegen, a.scope))
    (hm : s'.models.get ((.codegen, a.scope), a.modelId) = s.models.get ((.codegen, a.scope), a.modelId)) :
    s'.roleCurrent a = s.roleCurrent a := by
  unfold roleCurrent
  rw [hp, hm]

lemma projects_of_applyProjection {consumer : Consumer} (hcurrent : s.ModelsCurrent)
    (h : s.applyProjection consumer scope id (projections consumer) = some s') :
    s.Projects s' scope [consumer] id projections := by
  have hamong : ∀ k : Key, Among scope [consumer] k ↔ k = (consumer, scope) := fun k => by
    unfold Among
    rw [List.mem_singleton, Prod.ext_iff, and_comm]
  have hforms : ∀ {s₁ : Db}, s.project (consumer, scope) id (projections consumer) = some s₁ →
      s.SameVault s₁ ∧ s₁.roles = s.roles ∧
      (∀ k, s₁.projections.get k = if Among scope [consumer] k then
        some (projectedConnection k (s.projections.get k) id (projections k.1)) else s.projections.get k) ∧
      ∀ k m, s₁.models.get k = some m ↔ if Among scope [consumer] k.1 then
        m ∈ s.modelsFor k.1 id (projections k.1.1) ∧ m.key = k else s.models.get k = some m := by
    intro s₁ h₁
    obtain ⟨hsame, hroles, hp, hm⟩ := project_spec hcurrent h₁
    refine ⟨hsame, hroles, fun k => ?_, fun k m => ?_⟩
    · rw [hp]
      by_cases hk : k = (consumer, scope)
      · rw [if_pos hk, if_pos ((hamong k).2 hk), hk]
      · rw [if_neg hk, if_neg (mt (hamong k).1 hk)]
    · rw [hm]
      by_cases hk : k.1 = (consumer, scope)
      · rw [if_pos ((hamong k.1).2 hk), hk]
        simp
      · rw [if_neg (mt (hamong k.1).1 hk)]
        refine ⟨fun hor => ?_, fun hg => .inl ⟨hk, hg⟩⟩
        rcases hor with hold | ⟨hnew, hkey⟩
        · exact hold.2
        · exact absurd ((congrArg Prod.fst hkey).symm.trans (owner_of_mem_modelsFor hnew)) hk
  cases consumer with
  | agents =>
    obtain ⟨hsame, hroles, hp, hm⟩ := hforms h
    refine ⟨hsame, hp, hm, fun a ha _ => hroles ▸ ha, fun _ => hroles, fun hc => ?_⟩
    exact absurd hc (by decide)
  | codegen =>
    simp only [applyProjection, projectCodegen] at h
    obtain ⟨s₁, h₁, hrest⟩ := Option.bind_eq_some_iff.1 h
    obtain ⟨hsame, hroles, hp, hm⟩ := hforms h₁
    obtain ⟨hall, hs'⟩ := Option.ite_none_right_eq_some.1 hrest
    obtain rfl := Option.some.inj hs'
    refine ⟨⟨hsame.1, hsame.2, hsame.3, hsame.4, hsame.5, hsame.6, hsame.7, hsame.8⟩, hp, hm, ?_, ?_, ?_⟩
    · intro a ha hne
      obtain ⟨a₀, ha₀, rfl⟩ := List.mem_map.1 ha
      have hne₀ : a₀.scope ≠ scope := fun hs => hne (by
        unfold rebind
        rw [if_pos hs]
        exact hs)
      rw [rebind, if_neg hne₀, ← hroles]
      exact ha₀
    · exact fun hc => absurd List.mem_cons_self hc
    · intro _ a ha hs
      have hok := List.all_eq_true.1 hall a ha
      simpa [hs, roleCurrent_congr (s := s₁)] using hok

lemma Projects.refl (s : Db) (scope : Scope) (id : Uuid) (projections : Consumer → Projection) :
    s.Projects s scope [] id projections := by
  have hnone : ∀ k, ¬ Among scope [] k := fun k h => List.not_mem_nil h.2
  refine ⟨.refl s, fun k => (if_neg (hnone k)).symm, fun k m => ?_, fun a ha _ => ha, fun _ => rfl, ?_⟩
  · rw [if_neg (hnone k.1)]
  · exact fun hc => absurd hc List.not_mem_nil

lemma Projects.cons {s₁ : Db} {consumer : Consumer} (hnew : consumer ∉ consumers)
    (h : s.Projects s₁ scope [consumer] id projections)
    (h' : s₁.Projects s' scope consumers id projections) :
    s.Projects s' scope (consumer :: consumers) id projections := by
  have hsplit : ∀ k : Key, Among scope (consumer :: consumers) k ↔
      Among scope [consumer] k ∨ Among scope consumers k := fun k => by
    simp only [Among, List.mem_cons, List.not_mem_nil, or_false]
    exact and_or_left
  have hdisjoint : ∀ k : Key, Among scope consumers k → ¬ Among scope [consumer] k := by
    intro k hk hk'
    exact hnew (List.mem_singleton.1 hk'.2 ▸ hk.2)
  have hold : ∀ k, Among scope consumers k → s₁.projections.get k = s.projections.get k := fun k hk => by
    rw [h.projection, if_neg (hdisjoint k hk)]
  refine ⟨h.same.trans h'.same, fun k => ?_, fun k m => ?_, ?_, ?_, ?_⟩
  · rw [h'.projection]
    by_cases hk : Among scope consumers k
    · rw [if_pos hk, if_pos ((hsplit k).2 (.inr hk)), hold k hk]
    · rw [if_neg hk, h.projection]
      by_cases hk₁ : Among scope [consumer] k
      · rw [if_pos hk₁, if_pos ((hsplit k).2 (.inl hk₁))]
      · rw [if_neg hk₁, if_neg fun hc => ((hsplit k).1 hc).elim hk₁ hk]
  · rw [h'.model]
    by_cases hk : Among scope consumers k.1
    · rw [if_pos hk, if_pos ((hsplit k.1).2 (.inr hk)), modelsFor, hold k.1 hk, modelsFor]
    · rw [if_neg hk, h.model]
      by_cases hk₁ : Among scope [consumer] k.1
      · rw [if_pos hk₁, if_pos ((hsplit k.1).2 (.inl hk₁))]
      · rw [if_neg hk₁, if_neg fun hc => ((hsplit k.1).1 hc).elim hk₁ hk]
  · exact fun a ha hne => h.role a (h'.role a ha hne) hne
  · intro hc
    rw [h'.untouched fun hmem => hc (List.mem_cons_of_mem _ hmem),
      h.untouched fun hmem => hc (List.mem_singleton.1 hmem ▸ List.mem_cons_self)]
  · intro hc a ha hs
    by_cases hrest : .codegen ∈ consumers
    · exact h'.accepted hrest a ha hs
    · -- the later projections leave the rows of Codegen alone
      have hkey : ¬ Among scope consumers (.codegen, a.scope) := fun hk => hrest hk.2
      have hfirst : .codegen ∈ [consumer] := by
        rcases List.mem_cons.1 hc with hc | hc
        · exact hc ▸ List.mem_singleton_self _
        · exact absurd hc hrest
      rw [roleCurrent_congr (s := s₁)]
      · exact h.accepted hfirst a (h'.untouched hrest ▸ ha) hs
      · rw [h'.projection, if_neg hkey]
      · refine Option.ext fun m => ?_
        rw [h'.model, if_neg hkey]

theorem projects_of_applyProjections (hcurrent : s.ModelsCurrent) (hnodup : consumers.Nodup)
    (h : s.applyProjections consumers scope id projections = some s') :
    s.Projects s' scope consumers id projections := by
  unfold applyProjections at h
  induction consumers generalizing s with
  | nil =>
    obtain rfl := Option.some.inj h
    exact .refl s scope id projections
  | cons consumer consumers ih =>
    rw [List.foldlM_cons] at h
    obtain ⟨s₁, h₁, hrest⟩ := Option.bind_eq_some_iff.1 h
    obtain ⟨hnew, hnodup⟩ := List.nodup_cons.1 hnodup
    have hone := projects_of_applyProjection hcurrent h₁
    exact hone.cons hnew (ih (hone.modelsCurrent hcurrent) hnodup hrest)

/-! ## Revoking projections -/

/-- The rows of the consumers after the projections of a list of consumers were revoked. -/
structure Retires (s s' : Db) (scope : Scope) (consumers : List Consumer) : Prop where
  same : s.SameVault s'
  roles : s'.roles = s.roles
  projection : ∀ k, s'.projections.get k = if Among scope consumers k then
    (s.projections.get k).map ProviderConnection.retired else s.projections.get k
  model : ∀ k m, s'.models.get k = some m ↔ ¬ Among scope consumers k.1 ∧ s.models.get k = some m

lemma Retires.refl (scope : Scope) : s.Retires s scope [] := by
  have hnone : ∀ k, ¬ Among scope [] k := fun k h => List.not_mem_nil h.2
  exact ⟨.refl s, rfl, fun k => (if_neg (hnone k)).symm, fun k m => (and_iff_right (hnone k.1)).symm⟩

lemma Retires.modelsCurrent
    (h : s.Retires s' scope consumers) (hcurrent : s.ModelsCurrent) : s'.ModelsCurrent := by
  intro k m hm
  obtain ⟨hk, hm⟩ := (h.model k m).1 hm
  rw [h.projection, if_neg hk]
  exact hcurrent k m hm

lemma retires_retireProjection (scope : Scope) (consumer : Consumer) (hcurrent : s.ModelsCurrent) :
    s.Retires (s.retireProjection scope consumer) scope [consumer] := by
  have hamong : ∀ k : Key, Among scope [consumer] k ↔ k = (consumer, scope) := fun k => by
    unfold Among
    rw [List.mem_singleton, Prod.ext_iff, and_comm]
  unfold retireProjection
  split
  · rename_i hnone
    refine ⟨.refl s, rfl, fun k => ?_, fun k m => ⟨fun hm => ⟨fun hk => ?_, hm⟩, fun hm => hm.2⟩⟩
    · split_ifs with hk
      · rw [(hamong k).1 hk, hnone]
        rfl
      · rfl
    · obtain ⟨p, hp, -⟩ := hcurrent k m hm
      rw [(hamong k.1).1 hk, hnone] at hp
      cases hp
  · rename_i p hp
    have hkey : p.key = (consumer, scope) := Table.get_key hp
    have hretired : p.retired.key = (consumer, scope) := hkey
    refine ⟨⟨rfl, rfl, rfl, rfl, rfl, rfl, rfl, rfl⟩, rfl, fun k => ?_, fun k m => ?_⟩
    · have hget := Table.get_replace_of_get (r := p.retired) (hretired ▸ hp) k
      rw [hretired] at hget
      refine hget.trans ?_
      by_cases hk : k = (consumer, scope)
      · rw [if_pos hk, if_pos ((hamong k).2 hk), hk, hp]
        rfl
      · rw [if_neg hk, if_neg (mt (hamong k).1 hk)]
    · rw [Table.get_delete, Option.filter_eq_some_iff, hamong, and_comm]
      refine and_congr_left fun hm => ?_
      have howner : m.owner = k.1 := congrArg Prod.fst (Table.get_key hm)
      simp [howner]

theorem retires_retireProjections (scope : Scope)
    (hnodup : consumers.Nodup) (hcurrent : s.ModelsCurrent) :
    s.Retires (s.retireProjections scope consumers) scope consumers := by
  unfold retireProjections
  induction consumers generalizing s with
  | nil => exact .refl scope
  | cons consumer consumers ih =>
    obtain ⟨hnew, hnodup⟩ := List.nodup_cons.1 hnodup
    have hone := retires_retireProjection scope consumer hcurrent
    have hrest := ih hnodup (hone.modelsCurrent hcurrent)
    have hsplit : ∀ k : Key, Among scope (consumer :: consumers) k ↔
        Among scope [consumer] k ∨ Among scope consumers k := fun k => by
      simp only [Among, List.mem_cons, List.not_mem_nil, or_false]
      exact and_or_left
    rw [List.foldl_cons]
    refine ⟨hone.same.trans hrest.same, hrest.roles.trans hone.roles, fun k => ?_, fun k m => ?_⟩
    · rw [hrest.projection, hone.projection]
      by_cases hk : Among scope consumers k
      · have hk₁ : ¬ Among scope [consumer] k := fun hc => hnew (List.mem_singleton.1 hc.2 ▸ hk.2)
        rw [if_pos hk, if_neg hk₁, if_pos ((hsplit k).2 (.inr hk))]
      · by_cases hk₁ : Among scope [consumer] k
        · rw [if_neg hk, if_pos hk₁, if_pos ((hsplit k).2 (.inl hk₁))]
        · rw [if_neg hk, if_neg hk₁, if_neg fun hc => ((hsplit k).1 hc).elim hk₁ hk]
    · rw [hrest.model, hone.model, hsplit, not_or]
      tauto

end Db

end Apdl.Vault
