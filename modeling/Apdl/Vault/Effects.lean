import Apdl.Vault.Projections

set_option autoImplicit false

/-!
# What a lifecycle command changes

A command of the vault rewrites the rows of one connection and the projections of the consumers that it binds
or drops. This file says so once for all four commands.

## Main results

* `Db.changes_of_create`, `Db.changes_of_replace`, `Db.changes_of_refresh`, `Db.changes_of_revoke` — the four
  commands have that effect.
-/

namespace Apdl.Vault

namespace Db

/-! ## Invariants -/

/-- What holds of the rows of the vault. -/
structure Held (cipher : CredentialCipher) (s : Db) : Prop where
  credential : ∀ i cr, s.credentials.get i = some cr → ∃ c, s.connections.get cr.connectionId = some c ∧
    c.scope = cr.scope ∧ (cr.state = .active → c.active = true)
  unique : ∀ i j cr dr, s.credentials.get i = some cr → s.credentials.get j = some dr → cr.state = .active →
    dr.state = .active → cr.connectionId = dr.connectionId → i = j
  holder : ∀ i c, s.connections.get i = some c → c.active = true → ∃ j cr, s.credentials.get j = some cr ∧
    cr.connectionId = i ∧ cr.state = .active
  secret : ∀ i, (∃ x, s.secrets.get i = some x) ↔ ∃ cr, s.credentials.get i = some cr ∧ cr.state = .active
  encrypted : ∀ i x cr, s.secrets.get i = some x → s.credentials.get i = some cr → ∃ nonce apiKey,
    x.secret = cipher.encrypt nonce apiKey ⟨i, cr.connectionId, cr.scope, cr.credentialVersion⟩
  successor : ∀ i cr n, s.credentials.get i = some cr → cr.successorCredentialId = some n →
    ∃ cr', s.credentials.get n = some cr' ∧ cr'.scope = cr.scope
  /-- A consumer is bound to an active connection of the scope. -/
  binding : ∀ k b, s.bindings.get k = some b → ∃ c, s.connections.get b.connectionId = some c ∧
    c.active = true ∧ c.scope = k.2
  bound : ∀ i c, s.connections.get i = some c → c.active = true → ∃ k b, s.bindings.get k = some b ∧
    b.connectionId = i

/-- The projection of a key offers a model for a slot. -/
def Offers (s : Db) (k : Key) (slot : Slot) (model : Text) : Prop :=
  ∃ p m, s.projections.get k = some p ∧ p.active = true ∧ s.models.get (k, model) = some m ∧
    m.connectionVersion = p.version ∧ m.inventoryVersion = p.inventoryVersion ∧ slot ∈ m.supported

/-- What holds of the rows of the consumers. -/
structure Served (s : Db) : Prop where
  models : s.ModelsCurrent
  granted : ∀ k b, s.bindings.get k = some b → ∃ p cr, s.projections.get k = some p ∧ p.active = true ∧
    s.credentials.get p.credentialId = some cr ∧ cr.connectionId = b.connectionId ∧ cr.state = .active
  active : ∀ k p, s.projections.get k = some p → p.active = true → ∃ b, s.bindings.get k = some b
  tier : ∀ a ∈ s.tiers.rows, s.Offers (.agents, a.scope) (.tier a.tier) a.model
  role : ∀ a ∈ s.roles.rows, s.roleCurrent a = true
  setup : ∀ projectId, s.activeAgentsSetup projectId = true
  catalog : ∀ scope model m p, s.models.get ((.codegen, scope), model) = some m →
    s.projections.get (.codegen, scope) = some p → m.catalogVersion = p.catalogVersion

/-- The authority is what its connection has: nothing was committed on it since it was loaded. -/
structure Current (s : Db) (a : ConnectionAuthority) : Prop where
  connection : ∃ c, s.connections.get a.connectionId = some c ∧ c.scope = a.scope ∧ c.version = a.version ∧
    c.active = true
  credential : ∃ cr, s.credentials.get a.credentialId = some cr ∧ cr.connectionId = a.connectionId ∧
    cr.state = .active ∧ cr.credentialVersion = a.credentialVersion
  bound : ∀ k b, s.bindings.get k = some b → b.connectionId = a.connectionId → Among a.scope a.consumers k
  grants : ∀ k, Among a.scope a.consumers k → ∃ b, s.bindings.get k = some b ∧
    b.connectionId = a.connectionId

/-- The effect of a command on the connection `id` of a scope: afterwards `holder` is its active credential
and the listed consumers are bound to it. -/
structure Changes (cipher : CredentialCipher) (s s' : Db) (id : Uuid) (scope : Scope) (holder : Option Uuid)
    (consumers : List Consumer) : Prop where
  connection_ne : ∀ i, i ≠ id → s'.connections.get i = s.connections.get i
  credential_ne : ∀ i cr, cr.connectionId ≠ id →
    (s'.credentials.get i = some cr ↔ s.credentials.get i = some cr)
  secret_ne : ∀ i cr, s'.credentials.get i = some cr → cr.connectionId ≠ id →
    s'.secrets.get i = s.secrets.get i
  binding_ne : ∀ k b, b.connectionId ≠ id → (s'.bindings.get k = some b ↔ s.bindings.get k = some b)
  tiers : s'.tiers = s.tiers
  policies : s'.policies = s.policies
  providerPolicies : s'.providerPolicies = s.providerPolicies
  role : ∀ a ∈ s'.roles.rows, a.scope ≠ scope → a ∈ s.roles.rows
  connection : ∃ c, s'.connections.get id = some c ∧ c.scope = scope ∧ c.active = holder.isSome
  newer : ∀ c, s.connections.get id = some c → ∃ c', s'.connections.get id = some c' ∧ c'.scope = c.scope ∧
    c.version < c'.version
  credential : ∀ i cr, s'.credentials.get i = some cr → cr.connectionId = id →
    cr.scope = scope ∧ (cr.state = .active ↔ holder = some i)
  held : ∀ i, holder = some i → ∃ cr, s'.credentials.get i = some cr ∧ cr.connectionId = id
  secret : ∀ i cr, s'.credentials.get i = some cr → cr.connectionId = id →
    ((∃ x, s'.secrets.get i = some x) ↔ holder = some i)
  stored : ∀ i x, s'.secrets.get i = some x → ∃ cr, s'.credentials.get i = some cr
  encrypted : ∀ i x cr, s'.secrets.get i = some x → s'.credentials.get i = some cr → cr.connectionId = id →
    ∃ nonce apiKey, x.secret =
      cipher.encrypt nonce apiKey ⟨i, cr.connectionId, cr.scope, cr.credentialVersion⟩
  persists : ∀ i cr, s.credentials.get i = some cr → ∃ cr', s'.credentials.get i = some cr' ∧
    cr'.scope = cr.scope
  successor : ∀ i cr n, s'.credentials.get i = some cr → cr.successorCredentialId = some n →
    ∃ cr', s'.credentials.get n = some cr' ∧ cr'.scope = cr.scope
  binding : ∀ k b, b.connectionId = id →
    (s'.bindings.get k = some b ↔ Among scope consumers k ∧ b.key = k)
  nonempty : holder.isSome ↔ consumers ≠ []
  models : s'.ModelsCurrent
  projected : ∀ k, Among scope consumers k → ∃ p, s'.projections.get k = some p ∧ p.active = true ∧
    holder = some p.credentialId
  dropped : ∀ k b p, s.bindings.get k = some b → b.connectionId = id → ¬ Among scope consumers k →
    s'.projections.get k = some p → p.active = false
  kept : ∀ k, ¬ Among scope consumers k → (∀ b, s.bindings.get k = some b → b.connectionId ≠ id) →
    s'.projections.get k = s.projections.get k ∧ ∀ model, s'.models.get (k, model) = s.models.get (k, model)
  advances : ∀ k p, s.projections.get k = some p → ∃ p', s'.projections.get k = some p' ∧
    (p' = p ∨ p.version < p'.version)

/-! ## The statements of a command -/

lemma insertConnection_spec {s s' : Db} {c : Connection} (h : s.insertConnection c = some s') :
    ∃ connections, s' = { s with connections } ∧ s.connections.get c.connectionId = none ∧
      ∀ i, connections.get i = if i = c.connectionId then some c else s.connections.get i := by
  unfold insertConnection at h
  split at h
  · cases h
  · obtain ⟨connections, hc, rfl⟩ := Option.map_eq_some_iff.1 h
    exact ⟨connections, rfl, Table.get_of_insert hc, Table.get_insert hc⟩

lemma updateConnection_spec {s s' : Db} {c : Connection} (h : s.updateConnection c = some s') :
    s' = { s with connections := s.connections.replace c } := by
  unfold updateConnection at h
  split at h
  · cases h
  · exact (Option.some.inj h).symm

variable {cr : Credential}

lemma insertCredential_spec {s s' : Db} {secret : EncryptedSecret}
    (h : s.insertCredential cr secret = some s') :
    ∃ credentials secrets, s' = { s with credentials, secrets } ∧
      s.credentials.get cr.credentialId = none ∧
      (∀ i, credentials.get i = if i = cr.credentialId then some cr else s.credentials.get i) ∧
      ∀ i, secrets.get i = if i = cr.credentialId then some ⟨cr.credentialId, secret⟩ else s.secrets.get i := by
  unfold insertCredential at h
  split at h
  · cases h
  · obtain ⟨credentials, hc, hrest⟩ := Option.bind_eq_some_iff.1 h
    obtain ⟨secrets, hs, rfl⟩ := Option.map_eq_some_iff.1 hrest
    exact ⟨credentials, secrets, rfl, Table.get_of_insert hc, Table.get_insert hc, Table.get_insert hs⟩

lemma replaceConsumers_spec {s s' : Db} {id : Uuid} {scope : Scope} {consumers : List Consumer}
    (h : s.replaceConsumers id scope consumers = some s') :
    ∃ bindings, s' = { s with bindings } ∧
      (∀ k b, b.connectionId ≠ id → (bindings.get k = some b ↔ s.bindings.get k = some b)) ∧
      ∀ k b, b.connectionId = id → (bindings.get k = some b ↔ Among scope consumers k ∧ b.key = k) := by
  unfold replaceConsumers at h
  obtain ⟨bindings, hb, rfl⟩ := Option.map_eq_some_iff.1 h
  refine ⟨bindings, rfl, fun k b hne => ?_, fun k b hid => ?_⟩
  · rw [Table.get_insertAll hb, Table.get_delete, Option.filter_eq_some_iff]
    constructor
    · rintro (hold | ⟨hnew, -⟩)
      · exact hold.1
      · obtain ⟨consumer, -, rfl⟩ := List.mem_map.1 hnew
        exact absurd rfl hne
    · exact fun hg => .inl ⟨hg, by simp [hne]⟩
  · rw [Table.get_insertAll hb, Table.get_delete, Option.filter_eq_some_iff]
    constructor
    · rintro (hold | ⟨hnew, hkey⟩)
      · exact absurd hold.2 (by simp [hid])
      · obtain ⟨consumer, hmem, rfl⟩ := List.mem_map.1 hnew
        exact ⟨hkey ▸ ⟨rfl, hmem⟩, hkey⟩
    · rintro ⟨⟨hscope, hmem⟩, hkey⟩
      refine .inr ⟨List.mem_map.2 ⟨k.1, hmem, ?_⟩, hkey⟩
      obtain ⟨i, σ, c⟩ := b
      obtain rfl : i = id := hid
      subst hkey
      obtain rfl : σ = scope := hscope
      rfl

lemma replaceModels_spec {s s' : Db} {id : Uuid} {version inventory : ℕ} {modelIds : List Text}
    (h : s.replaceModels id version inventory modelIds = some s') :
    ∃ vaultModels, s' = { s with vaultModels } ∧ vaultModels.rows =
      (s.vaultModels.rows.filter fun m => !decide (m.connectionId = id)) ++
        modelIds.map fun modelId => ⟨id, version, inventory, modelId⟩ := by
  unfold replaceModels at h
  obtain ⟨vaultModels, hm, rfl⟩ := Option.map_eq_some_iff.1 h
  exact ⟨vaultModels, rfl, Table.rows_of_insertAll hm⟩

lemma get_retireCredential (s : Db) (id : Uuid) (state : CredentialState) (next : Option Uuid) (i : Uuid) :
    (s.retireCredential id state next).credentials.get i = (s.credentials.get i).map fun cr =>
      if cr.credentialId = id ∧ cr.state = .active then
        { cr with state, successorCredentialId := next } else cr := by
  unfold retireCredential
  rw [Table.get_update]

/-! ## The projections -/

/-- The rows of the consumers after a command that revokes the projections of some consumers and writes those
of others. -/
structure Rewrites (s s' : Db) (scope : Scope) (dropped consumers : List Consumer) (id : Uuid)
    (projections : Consumer → Projection) : Prop where
  projection : ∀ k, s'.projections.get k =
    if Among scope consumers k then
      some (projectedConnection k (s.projections.get k) id (projections k.1))
    else if Among scope dropped k then (s.projections.get k).map ProviderConnection.retired
    else s.projections.get k
  model : ∀ k m, s'.models.get k = some m ↔ if Among scope consumers k.1 then
    m ∈ s.modelsFor k.1 id (projections k.1.1) ∧ m.key = k
    else ¬ Among scope dropped k.1 ∧ s.models.get k = some m

lemma rewrites_of {s s₁ s₂ s' : Db} {scope : Scope} {dropped consumers : List Consumer} {id : Uuid}
    {projections : Consumer → Projection} (hdisjoint : ∀ c ∈ dropped, c ∉ consumers)
    (hr : s.Retires s₁ scope dropped) (hprojections : s₂.projections = s₁.projections)
    (hmodels : s₂.models = s₁.models) (hp : s₂.Projects s' scope consumers id projections) :
    s.Rewrites s' scope dropped consumers id projections := by
  have hold : ∀ k, Among scope consumers k → s₂.projections.get k = s.projections.get k := fun k hk => by
    rw [hprojections, hr.projection, if_neg fun hd => hdisjoint k.1 hd.2 hk.2]
  refine ⟨fun k => ?_, fun k m => ?_⟩
  · rw [hp.projection]
    split_ifs with hk hd
    · rw [hold k hk]
    · rw [hprojections, hr.projection, if_pos hd]
    · rw [hprojections, hr.projection, if_neg hd]
  · rw [hp.model]
    split_ifs with hk
    · rw [modelsFor, hold k.1 hk, modelsFor]
    · rw [hmodels, hr.model]

namespace Rewrites

variable {s s' : Db} {scope : Scope} {dropped consumers : List Consumer} {id : Uuid}
  {projections : Consumer → Projection}

variable {k : Key}

lemma projected (h : s.Rewrites s' scope dropped consumers id projections)
    (hk : Among scope consumers k) :
    ∃ p, s'.projections.get k = some p ∧ p.active = true ∧ some id = some p.credentialId := by
  rw [h.projection, if_pos hk]
  exact ⟨_, rfl, rfl, rfl⟩

lemma get_model (h : s.Rewrites s' scope dropped consumers id projections)
    (hk : Among scope consumers k) {m : ProviderModel} (hm : m ∈ s.modelsFor k id (projections k.1)) :
    s'.models.get (k, m.modelId) = some m := by
  have hkey : m.key = (k, m.modelId) := Prod.ext (owner_of_mem_modelsFor hm) rfl
  refine (h.model (k, m.modelId) m).2 ?_
  rw [if_pos hk]
  exact ⟨hm, hkey⟩

lemma dropped_inactive (h : s.Rewrites s' scope dropped consumers id projections)
    {p : ProviderConnection} (hk : ¬ Among scope consumers k) (hd : Among scope dropped k)
    (hp : s'.projections.get k = some p) : p.active = false := by
  rw [h.projection, if_neg hk, if_pos hd] at hp
  obtain ⟨p₀, -, rfl⟩ := Option.map_eq_some_iff.1 hp
  rfl

lemma kept (h : s.Rewrites s' scope dropped consumers id projections)
    (hk : ¬ Among scope consumers k) (hd : ¬ Among scope dropped k) :
    s'.projections.get k = s.projections.get k ∧
      ∀ model, s'.models.get (k, model) = s.models.get (k, model) := by
  refine ⟨?_, fun model => Option.ext fun m => ?_⟩
  · rw [h.projection, if_neg hk, if_neg hd]
  · rw [h.model, if_neg hk]
    exact and_iff_right hd

lemma advances (h : s.Rewrites s' scope dropped consumers id projections)
    {p : ProviderConnection} (hp : s.projections.get k = some p) :
    ∃ p', s'.projections.get k = some p' ∧ (p' = p ∨ p.version < p'.version) := by
  rw [h.projection, hp]
  split_ifs
  · exact ⟨_, rfl, .inr (Nat.lt_succ_self _)⟩
  · exact ⟨_, rfl, .inr (Nat.lt_succ_self _)⟩
  · exact ⟨p, rfl, .inl rfl⟩

end Rewrites

/-- What a command that writes projections records besides. -/
structure Records (s s' : Db) (id : Uuid) (scope : Scope) (dropped consumers : List Consumer)
    (credentialId : Uuid) (projections : Consumer → Projection) (modelIds : List Text) : Prop where
  rewrites : s.Rewrites s' scope dropped consumers credentialId projections
  untouched : .codegen ∉ consumers → s'.roles = s.roles
  accepted : .codegen ∈ consumers → ∀ a ∈ s'.roles.rows, a.scope = scope → s'.roleCurrent a = true
  inventory : ∃ c, s'.connections.get id = some c ∧ s'.vaultModels.rows =
    (s.vaultModels.rows.filter fun m => !decide (m.connectionId = id)) ++
      modelIds.map fun modelId => ⟨id, c.version, c.inventoryVersion, modelId⟩

/-! ## The commands -/

lemma nodup_consumers (c : Consumers) : c.list.Nodup := by
  rw [c.canonical]
  exact List.Nodup.filter _ (by decide)

lemma nodup_consumersOf (s : Db) (id : Uuid) : (s.consumersOf id).Nodup :=
  List.Nodup.filter _ (by decide)

variable {cipher : CredentialCipher} {s s' : Db}

lemma fresh_of_create {r : CreateRequest} (h : createWritten cipher s r = some s') :
    s.connections.get r.connectionId = none := by
  simp only [createWritten, Option.bind_eq_bind] at h
  obtain ⟨s₁, h₁, -⟩ := Option.bind_eq_some_iff.1 h
  obtain ⟨connections, -, hfresh, -⟩ := insertConnection_spec h₁
  exact hfresh

theorem changes_of_create (hheld : s.Held cipher) (hserved : s.Served) {r : CreateRequest}
    (h : createWritten cipher s r = some s') :
    s.Changes cipher s' r.connectionId r.scope (some r.credentialId) r.consumers.list ∧
      s.Records s' r.connectionId r.scope [] r.consumers.list r.credentialId r.projections
        r.modelIds.list := by
  simp only [createWritten, Option.bind_eq_bind] at h
  obtain ⟨s₁, h₁, h⟩ := Option.bind_eq_some_iff.1 h
  obtain ⟨connections, rfl, hfresh, hconnections⟩ := insertConnection_spec h₁
  obtain ⟨s₂, h₂, h⟩ := Option.bind_eq_some_iff.1 h
  obtain ⟨credentials, secrets, rfl, hnew, hcredentials, hsecrets⟩ := insertCredential_spec h₂
  obtain ⟨s₃, h₃, h⟩ := Option.bind_eq_some_iff.1 h
  obtain ⟨bindings, rfl, hbindings, hbound⟩ := replaceConsumers_spec h₃
  obtain ⟨s₄, h₄, h⟩ := Option.bind_eq_some_iff.1 h
  obtain ⟨vaultModels, rfl, hinventory⟩ := replaceModels_spec h₄
  dsimp only at h
  have hp := projects_of_applyProjections (by exact hserved.models) (nodup_consumers r.consumers) h
  have hr : s.Rewrites s' r.scope [] r.consumers.list r.credentialId r.projections := by
    refine rewrites_of (by simp) (.refl r.scope) ?_ ?_ hp
    · rfl
    · rfl
  obtain ⟨hconn, hcred, hsec, hbind, hmodels, htiers, hpolicies, hprovider⟩ := hp.same
  dsimp only at hconn hcred hsec hbind hmodels htiers hpolicies hprovider hnew hcredentials hsecrets hbindings
  have hgetconn : s'.connections.get r.connectionId =
      some ⟨r.connectionId, r.scope, r.label, 1, 1, true⟩ := by
    rw [hconn, hconnections, if_pos rfl]
  -- no row refers to the new connection yet
  have hnone : ∀ i cr, s.credentials.get i = some cr → cr.connectionId ≠ r.connectionId := by
    intro i cr hi hid
    obtain ⟨c, hc, -⟩ := hheld.credential i cr hi
    rw [hid, hfresh] at hc
    cases hc
  have hfree : ∀ k b, s.bindings.get k = some b → b.connectionId ≠ r.connectionId := by
    intro k b hk hid
    obtain ⟨c, hc, -⟩ := hheld.binding k b hk
    rw [hid, hfresh] at hc
    cases hc
  have hown : ∀ i cr, s'.credentials.get i = some cr → cr.connectionId = r.connectionId →
      i = r.credentialId ∧ cr = ⟨r.credentialId, r.connectionId, r.scope, 1, .active, none⟩ := by
    intro i cr hi hid
    rw [hcred, hcredentials] at hi
    split_ifs at hi with hcase
    · exact ⟨hcase, (Option.some.inj hi).symm⟩
    · exact absurd hid (hnone i cr hi)
  have hgetold : ∀ i cr, s.credentials.get i = some cr → s'.credentials.get i = some cr := by
    intro i cr hi
    rw [hcred, hcredentials, if_neg, hi]
    rintro rfl
    cases hnew.symm.trans hi
  refine ⟨⟨?_, ?_, ?_, ?_, htiers, hpolicies, hprovider, hp.role, ?_, ?_, ?_, ?_, ?_, ?_, ?_, ?_, ?_, ?_, ?_, ?_,
    ?_, ?_, ?_, fun k p => hr.advances⟩, ⟨hr, hp.untouched, hp.accepted, _, hgetconn, ?_⟩⟩
  · intro i hi
    rw [hconn, hconnections, if_neg hi]
  · intro i cr hid
    rw [hcred, hcredentials]
    split_ifs with hcase
    · rw [hcase, hnew]
      refine ⟨fun heq => absurd ?_ hid, by simp⟩
      rw [← Option.some.inj heq]
    · rfl
  · intro i cr hi hid
    rw [hcred, hcredentials] at hi
    rw [hsec, hsecrets]
    split_ifs at hi ⊢ with hcase
    · exact absurd (congrArg Credential.connectionId (Option.some.inj hi).symm) hid
    · rfl
  · intro k b hid
    rw [hbind]
    exact hbindings k b hid
  · exact ⟨_, hgetconn, rfl, rfl⟩
  · intro c hc
    rw [hfresh] at hc
    cases hc
  · intro i cr hi hid
    obtain ⟨rfl, rfl⟩ := hown i cr hi hid
    exact ⟨rfl, iff_of_true rfl rfl⟩
  · intro i hi
    obtain rfl := Option.some.inj hi
    rw [hcred, hcredentials, if_pos rfl]
    exact ⟨_, rfl, rfl⟩
  · intro i cr hi hid
    obtain ⟨rfl, -⟩ := hown i cr hi hid
    rw [hsec, hsecrets, if_pos rfl]
    exact iff_of_true ⟨_, rfl⟩ rfl
  · intro i x hx
    rw [hsec, hsecrets] at hx
    rw [hcred, hcredentials]
    split_ifs at hx ⊢ with hcase
    · exact ⟨_, rfl⟩
    · obtain ⟨cr, hi, -⟩ := (hheld.secret i).1 ⟨x, hx⟩
      exact ⟨cr, hi⟩
  · intro i x cr hx hi hid
    obtain ⟨rfl, rfl⟩ := hown i cr hi hid
    rw [hsec, hsecrets, if_pos rfl] at hx
    obtain rfl := Option.some.inj hx
    exact ⟨r.nonce, r.apiKey, rfl⟩
  · exact fun i cr hi => ⟨cr, hgetold i cr hi, rfl⟩
  · intro i cr n hi hn
    rw [hcred, hcredentials] at hi
    split_ifs at hi with hcase
    · obtain rfl := Option.some.inj hi
      cases hn
    · obtain ⟨cr', hn', hscope⟩ := hheld.successor i cr n hi hn
      exact ⟨cr', hgetold n cr' hn', hscope⟩
  · intro k b hid
    rw [hbind]
    exact hbound k b hid
  · exact iff_of_true rfl r.consumers.nonempty
  · exact hp.modelsCurrent hserved.models
  · exact fun k hk => hr.projected hk
  · exact fun k b p hb hid => absurd hid (hfree k b hb)
  · exact fun k hk _ => hr.kept hk fun hd => List.not_mem_nil hd.2
  · rw [hmodels]
    exact hinventory

variable {a : ConnectionAuthority} {i : Uuid}

lemma Current.scope_of (hheld : s.Held cipher) (hcurrent : s.Current a) (hi : s.credentials.get i = some cr) (hid : cr.connectionId = a.connectionId) :
    cr.scope = a.scope := by
  obtain ⟨c, hc, hscope, -⟩ := hcurrent.connection
  obtain ⟨c', hc', hscope', -⟩ := hheld.credential i cr hi
  rw [hid, hc] at hc'
  obtain rfl := Option.some.inj hc'
  exact hscope'.symm.trans hscope

lemma Current.eq_of_active (hheld : s.Held cipher) (hcurrent : s.Current a) (hi : s.credentials.get i = some cr)
    (hid : cr.connectionId = a.connectionId) (hactive : cr.state = .active) : i = a.credentialId := by
  obtain ⟨cr₀, hcr₀, hid₀, hactive₀, -⟩ := hcurrent.credential
  exact hheld.unique i _ cr cr₀ hi hcr₀ hactive hactive₀ (hid.trans hid₀.symm)

/-- What retiring the credential of a connection leaves: nothing of the connection is active or has a secret,
and the rows of other connections are as they were. -/
structure Unheld (s s' : Db) (id : Uuid) (scope : Scope) (next : Option Uuid) : Prop where
  credential_ne : ∀ i cr, cr.connectionId ≠ id →
    (s'.credentials.get i = some cr ↔ s.credentials.get i = some cr)
  secret_ne : ∀ i cr, s'.credentials.get i = some cr → cr.connectionId ≠ id →
    s'.secrets.get i = s.secrets.get i
  credential : ∀ i cr, s'.credentials.get i = some cr → cr.connectionId = id →
    cr.state ≠ .active ∧ cr.scope = scope ∧ s'.secrets.get i = none
  stored : ∀ i x, s'.secrets.get i = some x → ∃ cr, s'.credentials.get i = some cr
  persists : ∀ i cr, s.credentials.get i = some cr → ∃ cr', s'.credentials.get i = some cr' ∧
    cr'.scope = cr.scope
  successor : ∀ i cr, s'.credentials.get i = some cr →
    (cr.connectionId = id ∧ cr.successorCredentialId = next) ∨ s.credentials.get i = some cr

lemma get_retireCredential_eq_some {id : Uuid} {state : CredentialState} {next : Option Uuid} : (s.retireCredential id state next).credentials.get i = some cr ↔
      ∃ cr₀, s.credentials.get i = some cr₀ ∧
        cr = if i = id ∧ cr₀.state = .active then { cr₀ with state, successorCredentialId := next } else cr₀ := by
  rw [get_retireCredential, Option.map_eq_some_iff]
  refine exists_congr fun cr₀ => and_congr_right fun hi => ?_
  have hkey : cr₀.credentialId = i := Table.get_key hi
  rw [hkey, eq_comm]

/-- **Retiring the credential of an authority.** -/
lemma Current.unheld (hheld : s.Held cipher) (hcurrent : s.Current a)
    {s₁ : Db} (hcredentials : s₁.credentials = s.credentials) (hsecrets : s₁.secrets = s.secrets)
    {state : CredentialState} {next : Option Uuid} (hstate : state ≠ .active) :
    s.Unheld (s₁.retireCredential a.credentialId state next) a.connectionId a.scope next := by
  obtain ⟨cr₀, hcr₀, hid₀, hactive₀, -⟩ := hcurrent.credential
  have hget : ∀ i cr, (s₁.retireCredential a.credentialId state next).credentials.get i = some cr ↔
      ∃ cr', s.credentials.get i = some cr' ∧ cr = if i = a.credentialId ∧ cr'.state = .active then
        { cr' with state, successorCredentialId := next } else cr' := fun i cr => by
    rw [get_retireCredential_eq_some, hcredentials]
  have hsec : ∀ i, (s₁.retireCredential a.credentialId state next).secrets.get i =
      if i = a.credentialId then none else s.secrets.get i := fun i => by
    unfold retireCredential
    rw [Table.get_erase, hsecrets]
  -- a retired credential is one of the connection
  have hretired : ∀ {i cr'}, s.credentials.get i = some cr' → i = a.credentialId →
      cr'.connectionId = a.connectionId := by
    rintro i cr' hi rfl
    rw [hcr₀] at hi
    exact Option.some.inj hi ▸ hid₀
  refine ⟨fun i cr hne => ?_, fun i cr hi hne => ?_, fun i cr hi hid => ?_, fun i x hx => ?_,
    fun i cr hi => ?_, fun i cr hi => ?_⟩
  · rw [hget]
    constructor
    · rintro ⟨cr', hi, rfl⟩
      split_ifs at hne ⊢ with hcase
      · exact absurd (hretired hi hcase.1) hne
      · exact hi
    · intro hi
      exact ⟨cr, hi, by rw [if_neg fun hc => hne (hretired hi hc.1)]⟩
  · obtain ⟨cr', hi', rfl⟩ := (hget i cr).1 hi
    have hcase : i ≠ a.credentialId := fun hc => by
      have hid' := hretired hi' hc
      split_ifs at hne
      · exact hne hid'
      · exact hne hid'
    rw [hsec, if_neg hcase]
  · obtain ⟨cr', hi', rfl⟩ := (hget i cr).1 hi
    have hid' : cr'.connectionId = a.connectionId := by
      split_ifs at hid
      · exact hid
      · exact hid
    have hscope := hcurrent.scope_of hheld hi' hid'
    have hsecret : (s₁.retireCredential a.credentialId state next).secrets.get i = none := by
      rw [hsec]
      split_ifs with hcase
      · rfl
      · refine Option.eq_none_iff_forall_ne_some.2 fun x hx => hcase ?_
        obtain ⟨cr'', hi'', hs''⟩ := (hheld.secret i).1 ⟨x, hx⟩
        obtain rfl := Option.some.inj (hi'.symm.trans hi'')
        exact hcurrent.eq_of_active hheld hi' hid' hs''
    split_ifs with hcase
    · exact ⟨hstate, hscope, hsecret⟩
    · exact ⟨fun hs => hcase ⟨hcurrent.eq_of_active hheld hi' hid' hs, hs⟩, hscope, hsecret⟩
  · rw [hsec] at hx
    split_ifs at hx
    obtain ⟨cr, hi, -⟩ := (hheld.secret i).1 ⟨x, hx⟩
    exact ⟨_, (hget i _).2 ⟨cr, hi, rfl⟩⟩
  · refine ⟨_, (hget i _).2 ⟨cr, hi, rfl⟩, ?_⟩
    split_ifs
    · rfl
    · rfl
  · obtain ⟨cr', hi', rfl⟩ := (hget i cr).1 hi
    split_ifs with hcase
    · have hid' := hretired hi' hcase.1
      exact .inl ⟨hid', rfl⟩
    · exact .inr hi'

theorem changes_of_replace (hheld : s.Held cipher) (hserved : s.Served) {r : ReplaceRequest}
    (hcurrent : s.Current r.authority) (hnodup : r.authority.consumers.Nodup)
    (h : replaceWritten cipher s r = some s') :
    s.Changes cipher s' r.authority.connectionId r.authority.scope (some r.newCredentialId)
        r.consumers.list ∧
      s.Records s' r.authority.connectionId r.authority.scope (removed r) r.consumers.list r.newCredentialId
        r.projections r.modelIds.list := by
  obtain ⟨c, hc, hscope, hversion, hactive⟩ := hcurrent.connection
  have hkey : c.connectionId = r.authority.connectionId := Table.get_key hc
  have hretires : s.Retires (s.retireProjections r.authority.scope (removed r)) r.authority.scope (removed r) :=
    retires_retireProjections r.authority.scope (hnodup.filter _) hserved.models
  simp only [replaceWritten, Option.bind_eq_bind, hc, Option.bind_some] at h
  generalize s.retireProjections r.authority.scope (removed r) = s₁ at hretires h
  obtain ⟨hconn₁, hcred₁, hsec₁, hbind₁, hmodels₁, htiers₁, hpolicies₁, hprovider₁⟩ := hretires.same
  have hunheld : s.Unheld (s₁.retireCredential r.authority.credentialId .replaced (some r.newCredentialId))
      r.authority.connectionId r.authority.scope (some r.newCredentialId) :=
    hcurrent.unheld hheld hcred₁ hsec₁ (by decide)
  obtain ⟨s₂, h₂, h⟩ := Option.bind_eq_some_iff.1 h
  obtain ⟨credentials, secrets, rfl, hnew, hcredentials, hsecrets⟩ := insertCredential_spec h₂
  obtain ⟨s₃, h₃, h⟩ := Option.bind_eq_some_iff.1 h
  obtain rfl := updateConnection_spec h₃
  obtain ⟨s₄, h₄, h⟩ := Option.bind_eq_some_iff.1 h
  obtain ⟨bindings, rfl, hbindings, hbound⟩ := replaceConsumers_spec h₄
  obtain ⟨s₅, h₅, h⟩ := Option.bind_eq_some_iff.1 h
  obtain ⟨vaultModels, rfl, hinventory⟩ := replaceModels_spec h₅
  dsimp only at h
  have hp := projects_of_applyProjections (by exact hretires.modelsCurrent hserved.models)
    (nodup_consumers r.consumers) h
  have hr : s.Rewrites s' r.authority.scope (removed r) r.consumers.list r.newCredentialId
      r.projections := by
    refine rewrites_of ?_ hretires ?_ ?_ hp
    · exact fun consumer hmem => by simpa using (List.mem_filter.1 hmem).2
    · rfl
    · rfl
  obtain ⟨hconn, hcred, hsec, hbind, hmodels, htiers, hpolicies, hprovider⟩ := hp.same
  dsimp only at hconn hcred hsec hbind hmodels htiers hpolicies hprovider hnew hcredentials hsecrets hbindings
  dsimp only at hinventory
  have hgetnew : s'.credentials.get r.newCredentialId = some
      ⟨r.newCredentialId, r.authority.connectionId, r.authority.scope, r.authority.credentialVersion + 1,
        .active, none⟩ := by
    rw [hcred, hcredentials, if_pos rfl]
  have hgetold : ∀ i, i ≠ r.newCredentialId → s'.credentials.get i =
      (s₁.retireCredential r.authority.credentialId .replaced (some r.newCredentialId)).credentials.get i :=
    fun i hne => by rw [hcred, hcredentials, if_neg hne]
  have hsecold : ∀ i, i ≠ r.newCredentialId → s'.secrets.get i =
      (s₁.retireCredential r.authority.credentialId .replaced (some r.newCredentialId)).secrets.get i :=
    fun i hne => by rw [hsec, hsecrets, if_neg hne]
  have hconnections : ∀ i, s'.connections.get i = if i = r.authority.connectionId then
      some { c with label := r.label, version := r.authority.version + 1,
                    inventoryVersion := c.inventoryVersion + 1 }
      else s.connections.get i := fun i => by
    rw [hconn, ← hkey]
    refine (Table.get_replace_of_get (q := c) ?_ i).trans ?_
    · rw [← hkey] at hc
      exact (congrArg (Table.get · _) hconn₁).trans hc
    · exact congrArg (ite _ _) (congrArg (Table.get · i) hconn₁)
  have hpersists : ∀ i cr, s.credentials.get i = some cr → ∃ cr', s'.credentials.get i = some cr' ∧
      cr'.scope = cr.scope := by
    intro i cr hi
    obtain ⟨cr', hi', hsame⟩ := hunheld.persists i cr hi
    have hne : i ≠ r.newCredentialId := by
      rintro rfl
      cases hnew.symm.trans hi'
    exact ⟨cr', (hgetold i hne).trans hi', hsame⟩
  refine ⟨⟨fun i hi => ?_, fun i cr hid => ?_, fun i cr hi hid => ?_, fun k b hid => ?_, htiers.trans htiers₁,
    hpolicies.trans hpolicies₁, hprovider.trans hprovider₁, fun a ha hne => ?_, ?_, fun c₀ hc₀ => ?_,
    fun i cr hi hid => ?_, fun i hi => ?_, fun i cr hi hid => ?_, fun i x hx => ?_, fun i x cr hx hi hid => ?_,
    hpersists, fun i cr n hi hn => ?_, fun k b hid => ?_, iff_of_true rfl r.consumers.nonempty,
    hp.modelsCurrent (hretires.modelsCurrent hserved.models), fun k hk => hr.projected hk,
    fun k b p hb hid hk hp => ?_, fun k hk hne => ?_, fun k p => hr.advances⟩,
    ⟨hr, fun hc => (hp.untouched hc).trans hretires.roles, hp.accepted, _,
      (hconnections _).trans (if_pos rfl), ?_⟩⟩
  · rw [hconnections, if_neg hi]
  · by_cases hne : i = r.newCredentialId
    · rw [hne, hgetnew]
      refine iff_of_false (fun heq => hid (Option.some.inj heq ▸ rfl)) fun hg => ?_
      have hg := (hunheld.credential_ne _ cr hid).2 hg
      rw [hnew] at hg
      cases hg
    · rw [hgetold i hne]
      exact hunheld.credential_ne i cr hid
  · have hne : i ≠ r.newCredentialId := by
      rintro rfl
      rw [hgetnew] at hi
      exact hid (Option.some.inj hi ▸ rfl)
    rw [hsecold i hne]
    exact hunheld.secret_ne i cr (hgetold i hne ▸ hi) hid
  · rw [hbind, hbindings k b hid]
    exact Eq.to_iff (congrArg (fun t => Table.get t k = some b) hbind₁)
  · exact hretires.roles ▸ hp.role a ha hne
  · exact ⟨_, (hconnections _).trans (if_pos rfl), hscope, hactive⟩
  · obtain rfl := Option.some.inj (hc.symm.trans hc₀)
    exact ⟨_, (hconnections _).trans (if_pos rfl), rfl, hversion ▸ Nat.lt_succ_self _⟩
  · by_cases hne : i = r.newCredentialId
    · rw [hne, hgetnew] at hi
      obtain rfl := Option.some.inj hi
      exact ⟨rfl, iff_of_true rfl (congrArg some hne.symm)⟩
    · obtain ⟨hs, hsc, -⟩ := hunheld.credential i cr (hgetold i hne ▸ hi) hid
      exact ⟨hsc, iff_of_false hs fun heq => hne (Option.some.inj heq).symm⟩
  · obtain rfl := Option.some.inj hi
    exact ⟨_, hgetnew, rfl⟩
  · by_cases hne : i = r.newCredentialId
    · rw [hsec, hsecrets, if_pos hne]
      exact iff_of_true ⟨_, rfl⟩ (congrArg some hne.symm)
    · rw [hsecold i hne, (hunheld.credential i cr (hgetold i hne ▸ hi) hid).2.2]
      exact iff_of_false (by simp) fun heq => hne (Option.some.inj heq).symm
  · by_cases hne : i = r.newCredentialId
    · exact ⟨_, hne ▸ hgetnew⟩
    · rw [hsecold i hne] at hx
      rw [hgetold i hne]
      exact hunheld.stored i x hx
  · by_cases hne : i = r.newCredentialId
    · rw [hne, hgetnew] at hi
      obtain rfl := Option.some.inj hi
      rw [hsec, hsecrets, if_pos hne] at hx
      obtain rfl := Option.some.inj hx
      exact ⟨r.nonce, r.apiKey, by rw [hne]⟩
    · rw [hsecold i hne, (hunheld.credential i cr (hgetold i hne ▸ hi) hid).2.2] at hx
      cases hx
  · by_cases hne : i = r.newCredentialId
    · rw [hne, hgetnew] at hi
      obtain rfl := Option.some.inj hi
      cases hn
    · rcases hunheld.successor i cr (hgetold i hne ▸ hi) with ⟨hid, hnext⟩ | hi₀
      · obtain rfl := Option.some.inj (hnext.symm.trans hn)
        exact ⟨_, hgetnew, (hunheld.credential i cr (hgetold i hne ▸ hi) hid).2.1.symm⟩
      · obtain ⟨cr', hn', hsame⟩ := hheld.successor i cr n hi₀ hn
        obtain ⟨cr'', hn'', hsame'⟩ := hpersists n cr' hn'
        exact ⟨cr'', hn'', hsame'.trans hsame⟩
  · rw [hbind]
    exact hbound k b hid
  · have hbefore := hcurrent.bound k b hb hid
    have hout : k.1 ∉ r.consumers.list := fun hmem => hk ⟨hbefore.1, hmem⟩
    exact hr.dropped_inactive hk ⟨hbefore.1, List.mem_filter.2 ⟨hbefore.2, by simpa using hout⟩⟩ hp
  · refine hr.kept hk fun hd => ?_
    obtain ⟨b, hb, hid⟩ := hcurrent.grants k ⟨hd.1, (List.mem_filter.1 hd.2).1⟩
    exact hne b hb hid
  · rw [hmodels]
    exact hinventory.trans (by rw [← hmodels₁]; rfl)

lemma Current.active_iff (hheld : s.Held cipher) (hcurrent : s.Current a) (hi : s.credentials.get i = some cr) (hid : cr.connectionId = a.connectionId) :
    cr.state = .active ↔ some a.credentialId = some i := by
  refine ⟨fun hs => congrArg some (hcurrent.eq_of_active hheld hi hid hs).symm, fun heq => ?_⟩
  obtain ⟨cr₀, hcr₀, -, hactive₀, -⟩ := hcurrent.credential
  rw [Option.some.inj heq, hi] at hcr₀
  obtain rfl := Option.some.inj hcr₀
  exact hactive₀

lemma Current.binding_iff (hcurrent : s.Current a) {k : Key} {b : Binding}
    (hid : b.connectionId = a.connectionId) :
    s.bindings.get k = some b ↔ Among a.scope a.consumers k ∧ b.key = k := by
  refine ⟨fun hb => ⟨hcurrent.bound k b hb hid, Table.get_key hb⟩, fun ⟨hk, hkey⟩ => ?_⟩
  obtain ⟨b', hb', hid'⟩ := hcurrent.grants k hk
  have hkey' : b'.key = b.key := (Table.get_key hb').trans hkey.symm
  have heq : b' = b := by
    obtain ⟨i', σ', consumer'⟩ := b'
    obtain ⟨i, σ, consumer⟩ := b
    obtain rfl : i' = i := hid'.trans hid.symm
    obtain ⟨rfl, rfl⟩ := Prod.mk.inj hkey'
    rfl
  rw [hb', heq]

theorem changes_of_refresh (hheld : s.Held cipher) (hserved : s.Served) {r : RefreshRequest}
    (hcurrent : s.Current r.authority) (hnodup : r.authority.consumers.Nodup)
    (hnonempty : r.authority.consumers ≠ []) (h : refreshWritten s r = some s') :
    s.Changes cipher s' r.authority.connectionId r.authority.scope (some r.authority.credentialId)
        r.authority.consumers ∧
      s.Records s' r.authority.connectionId r.authority.scope [] r.authority.consumers
        r.authority.credentialId r.projections r.modelIds.list := by
  obtain ⟨c, hc, hscope, hversion, hactive⟩ := hcurrent.connection
  obtain ⟨cr₀, hcr₀, hid₀, hactive₀, -⟩ := hcurrent.credential
  have hkey : c.connectionId = r.authority.connectionId := Table.get_key hc
  simp only [refreshWritten, Option.bind_eq_bind, hc, Option.bind_some] at h
  obtain ⟨s₁, h₁, h⟩ := Option.bind_eq_some_iff.1 h
  obtain ⟨vaultModels, rfl, hinventory⟩ := replaceModels_spec h₁
  dsimp only at h
  have hp := projects_of_applyProjections (by exact hserved.models) hnodup h
  have hr : s.Rewrites s' r.authority.scope [] r.authority.consumers r.authority.credentialId
      r.projections := by
    refine rewrites_of (by simp) (.refl r.authority.scope) ?_ ?_ hp
    · rfl
    · rfl
  obtain ⟨hconn, hcred, hsec, hbind, hmodels, htiers, hpolicies, hprovider⟩ := hp.same
  dsimp only at hconn hcred hsec hbind hmodels htiers hpolicies hprovider
  have hconnections : ∀ i, s'.connections.get i = if i = r.authority.connectionId then
      some { c with version := r.authority.version + 1, inventoryVersion := c.inventoryVersion + 1 }
      else s.connections.get i := fun i => by
    rw [hconn, ← hkey]
    rw [← hkey] at hc
    refine Table.get_replace_of_get (q := c) ?_ i
    exact hc
  refine ⟨⟨fun i hi => ?_, fun i cr _ => by rw [hcred], fun i cr _ _ => by rw [hsec],
    fun k b _ => by rw [hbind], htiers, hpolicies, hprovider, hp.role, ?_, fun c₀ hc₀ => ?_,
    fun i cr hi hid => ?_, fun i hi => ?_, fun i cr hi hid => ?_, fun i x hx => ?_, fun i x cr hx hi hid => ?_,
    fun i cr hi => ⟨cr, by rw [hcred]; exact hi, rfl⟩, fun i cr n hi hn => ?_, fun k b hid => ?_, iff_of_true rfl hnonempty, hp.modelsCurrent hserved.models, fun k hk => hr.projected hk,
    fun k b p hb hid hk hp => ?_, fun k hk _ => hr.kept hk fun hd => List.not_mem_nil hd.2,
    fun k p => hr.advances⟩, ⟨hr, hp.untouched, hp.accepted, _, (hconnections _).trans (if_pos rfl), ?_⟩⟩
  · rw [hconnections, if_neg hi]
  · exact ⟨_, (hconnections _).trans (if_pos rfl), hscope, hactive⟩
  · obtain rfl := Option.some.inj (hc.symm.trans hc₀)
    exact ⟨_, (hconnections _).trans (if_pos rfl), rfl, hversion ▸ Nat.lt_succ_self _⟩
  · rw [hcred] at hi
    exact ⟨hcurrent.scope_of hheld hi hid, hcurrent.active_iff hheld hi hid⟩
  · obtain rfl := Option.some.inj hi
    exact ⟨cr₀, by rw [hcred]; exact hcr₀, hid₀⟩
  · rw [hcred] at hi
    rw [hsec, hheld.secret, ← hcurrent.active_iff hheld hi hid]
    constructor
    · rintro ⟨cr', hi', hs⟩
      exact Option.some.inj (hi.symm.trans hi') ▸ hs
    · exact fun hs => ⟨cr, hi, hs⟩
  · rw [hsec] at hx
    obtain ⟨cr, hi, -⟩ := (hheld.secret i).1 ⟨x, hx⟩
    exact ⟨cr, by rw [hcred]; exact hi⟩
  · rw [hsec] at hx
    rw [hcred] at hi
    exact hheld.encrypted i x cr hx hi
  · rw [hcred] at hi ⊢
    exact hheld.successor i cr n hi hn
  · rw [hbind]
    exact hcurrent.binding_iff hid
  · exact absurd (hcurrent.bound k b hb hid) hk
  · rw [hmodels]
    exact hinventory

theorem changes_of_revoke (hheld : s.Held cipher) (hserved : s.Served)
    (hcurrent : s.Current a) (hnodup : a.consumers.Nodup) (h : revokeWritten s a = some s') :
    s.Changes cipher s' a.connectionId a.scope none [] := by
  obtain ⟨c, hc, hscope, hversion, hactive⟩ := hcurrent.connection
  have hkey : c.connectionId = a.connectionId := Table.get_key hc
  have hr : s.Retires (s.retireProjections a.scope a.consumers) a.scope a.consumers :=
    retires_retireProjections a.scope hnodup hserved.models
  simp only [revokeWritten, Option.bind_eq_bind, hc, Option.bind_some] at h
  generalize s.retireProjections a.scope a.consumers = s₁ at hr h
  obtain ⟨hconn, hcred, hsec, hbind, -, htiers, hpolicies, hprovider⟩ := hr.same
  obtain rfl := Option.some.inj h
  have hunheld : s.Unheld (s₁.retireCredential a.credentialId .revoked none) a.connectionId a.scope none :=
    hcurrent.unheld hheld hcred hsec (by decide)
  have hnone : ∀ k, ¬ Among a.scope [] k := fun k hk => List.not_mem_nil hk.2
  have hconnections : ∀ i, (s₁.connections.replace { c with
      version := c.version + 1, inventoryVersion := c.inventoryVersion + 1, active := false }).get i =
      if i = a.connectionId then some { c with
        version := c.version + 1, inventoryVersion := c.inventoryVersion + 1, active := false }
      else s.connections.get i := fun i => by
    rw [hconn, ← hkey]
    rw [← hkey] at hc
    refine Table.get_replace_of_get (q := c) ?_ i
    exact hc
  have hbindings : ∀ k b, (s₁.bindings.delete fun b => b.connectionId = a.connectionId).get k = some b ↔
      s.bindings.get k = some b ∧ b.connectionId ≠ a.connectionId := fun k b => by
    rw [Table.get_delete, Option.filter_eq_some_iff, hbind]
    simp
  refine ⟨fun i hi => (hconnections i).trans (if_neg hi), hunheld.credential_ne, hunheld.secret_ne,
    fun k b hid => (hbindings k b).trans (and_iff_left hid), htiers, hpolicies, hprovider,
    fun b hb _ => hr.roles ▸ hb, ⟨_, (hconnections _).trans (if_pos rfl), hscope, rfl⟩, fun c₀ hc₀ => ?_,
    fun i cr hi hid => ?_, by simp, fun i cr hi hid => ?_, hunheld.stored, fun i x cr hx hi hid => ?_,
    hunheld.persists, fun i cr n hi hn => ?_, fun k b hid => ?_, iff_of_false (by simp) fun hne => hne rfl, hr.modelsCurrent hserved.models,
    fun k hk => absurd hk (hnone k), fun k b p hb hid _ hp => ?_, fun k _ hne => ?_, fun k p hp => ?_⟩
  · obtain rfl := Option.some.inj (hc.symm.trans hc₀)
    exact ⟨_, (hconnections _).trans (if_pos rfl), rfl, Nat.lt_succ_self _⟩
  · obtain ⟨hs, hsc, -⟩ := hunheld.credential i cr hi hid
    exact ⟨hsc, iff_of_false hs (by simp)⟩
  · refine iff_of_false ?_ (by simp)
    rintro ⟨x, hx⟩
    cases hx.symm.trans (hunheld.credential i cr hi hid).2.2
  · cases hx.symm.trans (hunheld.credential i cr hi hid).2.2
  · rcases hunheld.successor i cr hi with ⟨-, hnext⟩ | hi₀
    · cases hnext.symm.trans hn
    · obtain ⟨cr', hn', hsame⟩ := hheld.successor i cr n hi₀ hn
      obtain ⟨cr'', hn'', hsame'⟩ := hunheld.persists n cr' hn'
      exact ⟨cr'', hn'', hsame'.trans hsame⟩
  · refine iff_of_false ?_ fun hk => hnone k hk.1
    exact fun hb => ((hbindings k b).1 hb).2 hid
  · have hp := (hr.projection k).symm.trans hp
    rw [if_pos (hcurrent.bound k b hb hid)] at hp
    obtain ⟨p₀, -, rfl⟩ := Option.map_eq_some_iff.1 hp
    rfl
  · have hk : ¬ Among a.scope a.consumers k := fun hd => by
      obtain ⟨b, hb, hid⟩ := hcurrent.grants k hd
      exact hne b hb hid
    exact ⟨(hr.projection k).trans (if_neg hk),
      fun model => Option.ext fun m => (hr.model _ m).trans (and_iff_right hk)⟩
  · have hget := hr.projection k
    rw [hp] at hget
    split_ifs at hget
    · exact ⟨_, hget, .inr (Nat.lt_succ_self _)⟩
    · exact ⟨p, hget, .inl rfl⟩

end Db

end Apdl.Vault
