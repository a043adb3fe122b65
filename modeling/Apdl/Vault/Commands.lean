import Apdl.Lib.StepMachine
import Apdl.Vault.Model

set_option autoImplicit false

/-!
# The commands of the vault and of its consumers

Each command of the vault is one transaction under the lock of its scope. It starts with checks, then writes,
and the database checks the result when it commits. Replacing, refreshing and revoking take an authority that
was read earlier.

## Main definitions

* `custody` — the machine of all of them.

## Design

Agents takes the locks of the scopes whose models it assigns, so its transactions do not overlap with those of
the vault. Codegen does not: it locks the row of its projection only. Its assignments may therefore come
between the checks of a command and its writes, and a command has a list of those that do. The lock of the row
orders all others before or after the whole command.
-/

namespace Apdl.Vault

/-! ## Requests -/

/-- The consumers of a request; the contract makes them unique and ordered. -/
structure Consumers where
  list : List Consumer
  nonempty : list ≠ []
  canonical : list = consumersInOrder.filter (· ∈ list)

/-- The identifiers of the models that a provider lists. -/
structure ModelIds where
  list : List Text
  nonempty : list ≠ []
  nodup : list.Nodup

/-- What `load_mutation_authority` read about a connection. -/
structure ConnectionAuthority where
  connectionId : Uuid
  scope : Scope
  version : ℕ
  credentialId : Uuid
  credentialVersion : ℕ
  consumers : List Consumer
  deriving DecidableEq

/-- The arguments of `create`, and the values it draws. -/
structure CreateRequest where
  scope : Scope
  label : Text
  apiKey : Text
  consumers : Consumers
  modelIds : ModelIds
  projections : Consumer → Projection
  connectionId : Uuid
  credentialId : Uuid
  nonce : List UInt8

/-- The arguments of `replace`, and the values it draws. -/
structure ReplaceRequest where
  authority : ConnectionAuthority
  label : Text
  apiKey : Text
  consumers : Consumers
  modelIds : ModelIds
  projections : Consumer → Projection
  newCredentialId : Uuid
  nonce : List UInt8

/-- The arguments of `refresh`. -/
structure RefreshRequest where
  authority : ConnectionAuthority
  modelIds : ModelIds
  projections : Consumer → Projection

/-- A request of `assign_project_models` for one role. -/
structure RoleRequest where
  provider : Provider
  modelId : Text
  deriving DecidableEq

/-- The arguments of `assign_project_models`. -/
structure AssignRequest where
  projectId : Text
  editor : RoleRequest
  helper : RoleRequest
  deriving DecidableEq

structure ModelSelection where
  provider : Provider
  model : Text
  connectionVersion : ℕ
  inventoryVersion : ℕ
  deriving DecidableEq

/-- A model of the catalog that a release of the Agents service contains. -/
structure CatalogModel where
  catalogVersion : Text
  dataResidency : Text
  allowedDataClassifications : List Text
  deriving DecidableEq

/-- The catalog of a release of the Agents service. -/
structure Catalog where
  catalogVersion : Text
  model : Provider → Text → Option CatalogModel

/-- The arguments of `put`, and the release that runs it. -/
structure SetupRequest where
  projectId : Text
  fast : ModelSelection
  reasoning : ModelSelection
  expectedVersion : ℕ
  catalog : Catalog

def SetupRequest.selection (r : SetupRequest) : Tier → ModelSelection
  | .fast => r.fast
  | .reasoning => r.reasoning

/-- A `CredentialAccessRequest`; its purpose and execution are only recorded. -/
structure CredentialAccessRequest where
  scope : Scope
  consumer : Consumer
  expectedCredentialId : Uuid
  expectedCredentialVersion : ℕ
  deriving DecidableEq

structure CredentialAccessResponse where
  connectionId : Uuid
  credentialId : Uuid
  credentialVersion : ℕ
  provider : Provider
  apiKey : Text
  deriving DecidableEq

/-- The row of a projection that is revoked. -/
def ProviderConnection.retired (p : ProviderConnection) : ProviderConnection :=
  { p with version := p.version + 1, inventoryVersion := p.inventoryVersion + 1, active := false }

namespace Db

/-! ## The projections of the consumers -/

/-- The rows that a projection becomes. -/
def projectedModels (key : Key) (version inventory : ℕ) (projection : Projection) : List ProviderModel :=
  projection.models.map fun m =>
    { consumer := key.1, scope := key.2, connectionVersion := version, inventoryVersion := inventory,
      modelId := m.modelId, supported := m.supported, catalogVersion := m.catalogVersion,
      dataResidency := m.dataResidency, allowedDataClassifications := m.allowedDataClassifications }

/-- The connection row after a projection is written. -/
def projectedConnection (key : Key) (current : Option ProviderConnection) (credentialId : Uuid)
    (projection : Projection) : ProviderConnection :=
  { consumer := key.1, scope := key.2, version := (current.map (·.version)).getD 0 + 1,
    inventoryVersion := (current.map (·.inventoryVersion)).getD 0 + 1, active := true,
    credentialId, catalogVersion := projection.catalogVersion }

/-- What `_project_agents` and `_project_codegen` have in common: the connection row is inserted or updated,
and the models are replaced. -/
def project (s : Db) (key : Key) (credentialId : Uuid) (projection : Projection) : Option Db :=
  let row := projectedConnection key (s.projections.get key) credentialId projection
  let rows := projectedModels key row.version row.inventoryVersion projection
  match s.projections.get key with
  | none => (s.projections.insert row).bind fun projections =>
      (s.models.insertAll rows).map fun models => { s with projections, models }
  | some _ => ((s.models.delete fun m => m.owner = key).insertAll rows).map fun models =>
      { s with projections := s.projections.replace row, models }

def projectAgents (s : Db) (scope : Scope) (credentialId : Uuid) (projection : Projection) : Option Db :=
  s.project (.agents, scope) credentialId projection

/-- The new versions of an assignment whose scope is projected. -/
def rebind (scope : Scope) (row : ProviderConnection) (a : CodegenAssignment) : CodegenAssignment :=
  if a.scope = scope then
    { a with connectionVersion := row.version, inventoryVersion := row.inventoryVersion,
             catalogVersion := row.catalogVersion, assignmentVersion := a.assignmentVersion + 1 }
  else a

lemma rebind_key (scope : Scope) (row : ProviderConnection) (a : CodegenAssignment) :
    (rebind scope row a).key = a.key := by
  unfold rebind
  split <;> rfl

/-- `_project_codegen` also moves its assignments to the new versions; a trigger refuses an assignment that
is not current then. -/
def projectCodegen (s : Db) (scope : Scope) (credentialId : Uuid) (projection : Projection) : Option Db :=
  (s.project (.codegen, scope) credentialId projection).bind fun s₁ =>
    let row := projectedConnection (.codegen, scope) (s.projections.get (.codegen, scope)) credentialId projection
    let roles := s₁.roles.update (rebind scope row) (rebind_key scope row)
    if roles.rows.all fun a => a.scope ≠ scope || s₁.roleCurrent a then some { s₁ with roles } else none

def applyProjection (s : Db) (consumer : Consumer) (scope : Scope) (credentialId : Uuid)
    (projection : Projection) : Option Db :=
  match consumer with
  | .agents => s.projectAgents scope credentialId projection
  | .codegen => s.projectCodegen scope credentialId projection

/-- The projections of several consumers are written in order. -/
def applyProjections (s : Db) (consumers : List Consumer) (scope : Scope) (credentialId : Uuid)
    (projections : Consumer → Projection) : Option Db :=
  consumers.foldlM (fun s consumer => s.applyProjection consumer scope credentialId (projections consumer)) s

/-- What `_revoke_projection` writes once `projectionSafe` has found no assignment. -/
def retireProjection (s : Db) (scope : Scope) (consumer : Consumer) : Db :=
  match s.projections.get (consumer, scope) with
  | none => s
  | some p =>
    { s with
      models := s.models.delete fun m => m.owner = (consumer, scope)
      projections := s.projections.replace p.retired }

/-- The projections of several consumers are revoked in order. -/
def retireProjections (s : Db) (scope : Scope) (consumers : List Consumer) : Db :=
  consumers.foldl (fun s consumer => s.retireProjection scope consumer) s

/-! ## The rows of the vault -/

/-- The insert of a connection; its label is unique in its scope. -/
def insertConnection (s : Db) (c : Connection) : Option Db :=
  if s.connections.rows.any fun c' => c'.scope = c.scope && c'.label = c.label then none
  else (s.connections.insert c).map fun connections => { s with connections }

def updateConnection (s : Db) (c : Connection) : Option Db :=
  if s.connections.rows.any fun c' => c'.connectionId ≠ c.connectionId && c'.scope = c.scope &&
      c'.label = c.label then none
  else some { s with connections := s.connections.replace c }

/-- `_insert_credential`: a connection has one active credential, and its credentials have distinct
versions. -/
def insertCredential (s : Db) (cr : Credential) (secret : EncryptedSecret) : Option Db :=
  if s.credentials.rows.any fun cr' => cr'.connectionId = cr.connectionId &&
      (cr'.state = .active || cr'.credentialVersion = cr.credentialVersion) then none
  else (s.credentials.insert cr).bind fun credentials =>
    (s.secrets.insert ⟨cr.credentialId, secret⟩).map fun secrets => { s with credentials, secrets }

def replaceConsumers (s : Db) (connectionId : Uuid) (scope : Scope) (consumers : List Consumer) : Option Db :=
  ((s.bindings.delete fun b => b.connectionId = connectionId).insertAll
    (consumers.map fun consumer => ⟨connectionId, scope, consumer⟩)).map fun bindings => { s with bindings }

def replaceModels (s : Db) (connectionId : Uuid) (version inventory : ℕ) (modelIds : List Text) : Option Db :=
  ((s.vaultModels.delete fun m => m.connectionId = connectionId).insertAll
    (modelIds.map fun modelId => ⟨connectionId, version, inventory, modelId⟩)).map
      fun vaultModels => { s with vaultModels }

def createChecked (s : Db) (r : CreateRequest) : Bool :=
  r.consumers.list.all fun consumer => s.bindingAvailable r.scope consumer none &&
    s.projectionSafe consumer r.scope (some (r.projections consumer))

def createWritten (cipher : CredentialCipher) (s : Db) (r : CreateRequest) : Option Db := do
  let s ← s.insertConnection
    { connectionId := r.connectionId, scope := r.scope, label := r.label, version := 1, inventoryVersion := 1,
      active := true }
  let s ← s.insertCredential
    { credentialId := r.credentialId, connectionId := r.connectionId, scope := r.scope,
      credentialVersion := 1, state := .active }
    (cipher.encrypt r.nonce r.apiKey ⟨r.credentialId, r.connectionId, r.scope, 1⟩)
  let s ← s.replaceConsumers r.connectionId r.scope r.consumers.list
  let s ← s.replaceModels r.connectionId 1 1 r.modelIds.list
  s.applyProjections r.consumers.list r.scope r.credentialId r.projections

/-! ## Replace, refresh and revoke -/

/-- The version and the credential of the authority are still those of the connection. -/
def authorityCurrent (s : Db) (a : ConnectionAuthority) : Bool :=
  match s.connections.get a.connectionId with
  | none => false
  | some c => c.version = a.version &&
      (s.activeCredential a.connectionId).map (·.credentialId) = some a.credentialId

/-- The consumers that lose the connection. -/
def removed (r : ReplaceRequest) : List Consumer :=
  r.authority.consumers.filter fun consumer => consumer ∉ r.consumers.list

def replaceChecked (s : Db) (r : ReplaceRequest) : Bool :=
  s.authorityCurrent r.authority &&
  ((s.connections.get r.authority.connectionId).any fun c => c.active) &&
  (r.consumers.list.all fun consumer =>
    s.bindingAvailable r.authority.scope consumer (some r.authority.connectionId) &&
      s.projectionSafe consumer r.authority.scope (some (r.projections consumer))) &&
  (removed r).all fun consumer => s.projectionSafe consumer r.authority.scope none

/-- The old credential is retired and its secret deleted. -/
def retireCredential (s : Db) (credentialId : Uuid) (state : CredentialState) (successor : Option Uuid) : Db :=
  { s with
    credentials := s.credentials.update
      (fun cr => if cr.credentialId = credentialId ∧ cr.state = .active then
        { cr with state, successorCredentialId := successor } else cr)
      (fun cr => by split <;> rfl)
    secrets := s.secrets.erase credentialId }

def replaceWritten (cipher : CredentialCipher) (s : Db) (r : ReplaceRequest) : Option Db := do
  let a := r.authority
  let current ← s.connections.get a.connectionId
  let version := a.version + 1
  let inventory := current.inventoryVersion + 1
  let s := s.retireProjections a.scope (removed r)
  let s := s.retireCredential a.credentialId .replaced (some r.newCredentialId)
  let s ← s.insertCredential
    { credentialId := r.newCredentialId, connectionId := a.connectionId, scope := a.scope,
      credentialVersion := a.credentialVersion + 1, state := .active }
    (cipher.encrypt r.nonce r.apiKey
      ⟨r.newCredentialId, a.connectionId, a.scope, a.credentialVersion + 1⟩)
  let row := { current with label := r.label, version := version, inventoryVersion := inventory }
  let s ← s.updateConnection row
  let s ← s.replaceConsumers a.connectionId a.scope r.consumers.list
  let s ← s.replaceModels a.connectionId version inventory r.modelIds.list
  s.applyProjections r.consumers.list a.scope r.newCredentialId r.projections

def refreshChecked (s : Db) (r : RefreshRequest) : Bool :=
  s.authorityCurrent r.authority &&
  r.authority.consumers.all fun consumer =>
    s.projectionSafe consumer r.authority.scope (some (r.projections consumer))

def refreshWritten (s : Db) (r : RefreshRequest) : Option Db := do
  let a := r.authority
  let current ← s.connections.get a.connectionId
  let version := a.version + 1
  let inventory := current.inventoryVersion + 1
  let row := { current with version := version, inventoryVersion := inventory }
  let s := { s with connections := s.connections.replace row }
  let s ← s.replaceModels a.connectionId version inventory r.modelIds.list
  s.applyProjections a.consumers a.scope a.credentialId r.projections

def revokeChecked (s : Db) (a : ConnectionAuthority) : Bool :=
  s.authorityCurrent a && a.consumers.all fun consumer => s.projectionSafe consumer a.scope none

def revokeWritten (s : Db) (a : ConnectionAuthority) : Option Db := do
  let current ← s.connections.get a.connectionId
  let s := s.retireProjections a.scope a.consumers
  let s := { s with
    bindings := s.bindings.delete fun b => b.connectionId = a.connectionId
    vaultModels := s.vaultModels.delete fun m => m.connectionId = a.connectionId }
  let s := s.retireCredential a.credentialId .revoked none
  let row := { current with version := current.version + 1, inventoryVersion := current.inventoryVersion + 1,
                            active := false }
  return { s with connections := s.connections.replace row }

/-- The consumers that a connection is granted to, in the canonical order. -/
def consumersOf (s : Db) (connectionId : Uuid) : List Consumer :=
  consumersInOrder.filter fun consumer =>
    s.bindings.rows.any fun b => b.connectionId = connectionId && b.consumer = consumer

/-- `load_mutation_authority`: the connection has to be active, at the version that the caller has seen, and
granted to a consumer. -/
def loadMutationAuthority (s : Db) (connectionId : Uuid) (projectId : Text) (expectedVersion : ℕ) :
    Option ConnectionAuthority := do
  let c ← s.connections.get connectionId
  let cr ← s.activeCredential connectionId
  if c.scope.projectId = projectId ∧ c.version = expectedVersion ∧ c.active ∧
      s.consumersOf connectionId ≠ [] then
    some { connectionId, scope := c.scope, version := expectedVersion, credentialId := cr.credentialId,
           credentialVersion := cr.credentialVersion, consumers := s.consumersOf connectionId }
  else none

/-- `issue_access`: the key of exactly the expected credential, if it is active, its connection is active and
the connection is granted to the consumer that asks. -/
def issueAccess (cipher : CredentialCipher) (s : Db) (r : CredentialAccessRequest) :
    Option CredentialAccessResponse := do
  let cr ← s.credentials.get r.expectedCredentialId
  let c ← s.connections.get cr.connectionId
  let b ← s.bindings.get (r.consumer, r.scope)
  let secret ← s.secrets.get cr.credentialId
  if c.scope = r.scope ∧ c.active ∧ b.connectionId = c.connectionId ∧ cr.scope = c.scope ∧
      cr.state = .active ∧ cr.credentialVersion = r.expectedCredentialVersion then
    let apiKey ← cipher.decrypt secret.secret
      ⟨cr.credentialId, c.connectionId, r.scope, cr.credentialVersion⟩
    some ⟨c.connectionId, cr.credentialId, cr.credentialVersion, r.scope.provider, apiKey⟩
  else none

/-! ## What the consumers write -/

/-- One role of `assign_project_models`: the model has to be current and to support the role. -/
def assignRole (s : Db) (projectId : Text) (role : Role) (r : RoleRequest) : Option Db := do
  let scope : Scope := ⟨projectId, r.provider⟩
  let c ← s.projections.get (.codegen, scope)
  let version := ((s.roles.get (projectId, role)).map (·.assignmentVersion)).getD 0 + 1
  let row : CodegenAssignment :=
    { projectId, role, provider := r.provider, modelId := r.modelId, assignmentVersion := version,
      connectionVersion := c.version, inventoryVersion := c.inventoryVersion,
      catalogVersion := c.catalogVersion }
  if s.roleCurrent row then
    match s.roles.get (projectId, role) with
    | none => (s.roles.insert row).map fun roles => { s with roles }
    | some _ => some { s with roles := s.roles.replace row }
  else none

/-- `assign_project_models`. -/
def assignModels (s : Db) (r : AssignRequest) : Option Db :=
  (s.assignRole r.projectId .editor r.editor).bind fun s => s.assignRole r.projectId .helper r.helper

/-- `_validate_selection`: the selection is current, its credential is active and granted to Agents, and the
model is the one of the running catalog. -/
def validateSelection (s : Db) (r : SetupRequest) (tier : Tier) : Option CatalogModel := do
  let selection := r.selection tier
  let scope : Scope := ⟨r.projectId, selection.provider⟩
  let c ← s.projections.get (.agents, scope)
  let m ← s.models.get ((.agents, scope), selection.model)
  let cr ← s.credentials.get c.credentialId
  let b ← s.bindings.get (.agents, scope)
  let model ← r.catalog.model selection.provider selection.model
  if c.version = selection.connectionVersion ∧ c.inventoryVersion = selection.inventoryVersion ∧ c.active ∧
      m.connectionVersion = c.version ∧ m.inventoryVersion = c.inventoryVersion ∧
      cr.scope = scope ∧ b.connectionId = cr.connectionId ∧ cr.state = .active ∧
      c.catalogVersion = r.catalog.catalogVersion ∧ m.catalogVersion = r.catalog.catalogVersion ∧
      Slot.tier tier ∈ m.supported ∧ model.catalogVersion = m.catalogVersion then
    some model
  else none

/-- The provider policies of a setup; one model selected twice gets one. -/
def setupPolicies (r : SetupRequest) (fast reasoning : CatalogModel) : List ProviderPolicy :=
  let policy (selection : ModelSelection) (model : CatalogModel) : ProviderPolicy :=
    { projectId := r.projectId, provider := selection.provider, model := selection.model,
      dataResidency := model.dataResidency,
      allowedDataClassifications := model.allowedDataClassifications, enabled := true }
  if (r.reasoning.provider, r.reasoning.model) = (r.fast.provider, r.fast.model) then [policy r.fast fast]
  else [policy r.fast fast, policy r.reasoning reasoning]

def setupTiers (r : SetupRequest) (fast reasoning : CatalogModel) : List AgentsAssignment :=
  [⟨r.projectId, .fast, r.fast.provider, r.fast.model, fast.catalogVersion⟩,
    ⟨r.projectId, .reasoning, r.reasoning.provider, r.reasoning.model, reasoning.catalogVersion⟩]

/-- `put` of the Agents setup. -/
def putSetup (s : Db) (r : SetupRequest) : Option Db := do
  let policy ← s.policies.get r.projectId
  let fast ← s.validateSelection r .fast
  let reasoning ← s.validateSelection r .reasoning
  if policy.version = r.expectedVersion ∧ fast.dataResidency = reasoning.dataResidency then
    let tiers ← (s.tiers.delete fun a => a.projectId = r.projectId).insertAll (setupTiers r fast reasoning)
    let providerPolicies ← (s.providerPolicies.delete fun p => p.projectId = r.projectId).insertAll
      (setupPolicies r fast reasoning)
    let row := { policy with active := true, version := r.expectedVersion + 1, allowCrossVendorRetry := false,
                             requiredDataResidency := fast.dataResidency }
    let s := { s with tiers, providerPolicies, policies := s.policies.replace row }
    if s.activeAgentsSetup r.projectId then some s else none
  else none

/-- `deactivate`: the assignments stay. -/
def deactivateSetup (s : Db) (projectId : Text) (expectedVersion : ℕ) : Option Db := do
  let policy ← s.policies.get projectId
  if policy.version = expectedVersion ∧ policy.active then
    let row := { policy with active := false, version := expectedVersion + 1 }
    some { s with policies := s.policies.replace row }
  else none

/-- A project gets an inactive policy when it is created. -/
def newProject (s : Db) (projectId : Text) : Option Db :=
  (s.policies.insert
    { projectId, active := false, version := 0, requiredDataResidency := Text.ofString "local",
      allowCrossVendorRetry := false, projectDailyCostLimit := 20000000, runCostLimit := 2000000 }).map
    fun policies => { s with policies }

/-! ## Transactions -/

/-- A command of the vault: its checks, the assignments that come before its writes, its writes, and the
checks of the database. -/
def transaction (s : Db) (checked : Bool) (late : List AssignRequest) (written : Db → Option Db)
    (connectionId : Uuid) (scope : Scope) : Option Db :=
  if checked then
    (late.foldlM assignModels s).bind fun s => (written s).bind fun s => s.commit connectionId scope
  else none

def create (cipher : CredentialCipher) (s : Db) (r : CreateRequest) (late : List AssignRequest) : Option Db :=
  s.transaction (s.createChecked r) late (createWritten cipher · r) r.connectionId r.scope

def replace (cipher : CredentialCipher) (s : Db) (r : ReplaceRequest) (late : List AssignRequest) : Option Db :=
  s.transaction (s.replaceChecked r) late (replaceWritten cipher · r) r.authority.connectionId
    r.authority.scope

def refresh (s : Db) (r : RefreshRequest) (late : List AssignRequest) : Option Db :=
  s.transaction (s.refreshChecked r) late (refreshWritten · r) r.authority.connectionId r.authority.scope

def revoke (s : Db) (a : ConnectionAuthority) (late : List AssignRequest) : Option Db :=
  s.transaction (s.revokeChecked a) late (revokeWritten · a) a.connectionId a.scope

end Db

/-! ## The machine -/

/-- The database, and the authorities that commands in progress have loaded. -/
structure World where
  db : Db := {}
  loaded : List ConnectionAuthority := []

inductive Action
  | newProject (projectId : Text)
  | putSetup (r : SetupRequest)
  | deactivateSetup (projectId : Text) (expectedVersion : ℕ)
  | assignModels (r : AssignRequest)
  | load (connectionId : Uuid) (projectId : Text) (expectedVersion : ℕ)
  | create (r : CreateRequest) (late : List AssignRequest)
  | replace (r : ReplaceRequest) (late : List AssignRequest)
  | refresh (r : RefreshRequest) (late : List AssignRequest)
  | revoke (a : ConnectionAuthority) (late : List AssignRequest)
  | issueAccess (r : CredentialAccessRequest)

/-- One transaction. Replacing, refreshing and revoking take an authority that was loaded before. -/
def World.step (cipher : CredentialCipher) (w : World) : Action → Option World
  | .newProject projectId => (w.db.newProject projectId).map fun db => { w with db }
  | .putSetup r => (w.db.putSetup r).map fun db => { w with db }
  | .deactivateSetup projectId version => (w.db.deactivateSetup projectId version).map fun db => { w with db }
  | .assignModels r => (w.db.assignModels r).map fun db => { w with db }
  | .load id projectId version =>
    (w.db.loadMutationAuthority id projectId version).map fun a => { w with loaded := a :: w.loaded }
  | .create r late => (w.db.create cipher r late).map fun db => { w with db }
  | .replace r late =>
    if r.authority ∈ w.loaded then (w.db.replace cipher r late).map fun db => { w with db } else none
  | .refresh r late =>
    if r.authority ∈ w.loaded then (w.db.refresh r late).map fun db => { w with db } else none
  | .revoke a late => if a ∈ w.loaded then (w.db.revoke a late).map fun db => { w with db } else none
  | .issueAccess r => (w.db.issueAccess cipher r).map fun _ => w

/-- The vault and its consumers, from empty tables. -/
def custody (cipher : CredentialCipher) : StepMachine World Action where
  init := {}
  step := World.step cipher

end Apdl.Vault
