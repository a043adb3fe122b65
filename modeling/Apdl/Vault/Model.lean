import Apdl.Lib.Table
import Apdl.Lib.Utf16

set_option autoImplicit false

/-!
# The credential vault: rows and checks

The vault keeps the provider credentials of a project, grants them to the two consuming services and writes
each consumer's view of them: a *projection*, which is a connection row and the models the credential gives
access to. The consumers assign models of their projections to tiers and roles.

## Main definitions

* `Db.connectionAuthority`, `Db.codegenAssignmentsCurrent`, `Db.activeAgentsSetup`,
  `Db.referencesHold` — what the database checks when a transaction commits.

## Design

The tables of the two consumers have the same columns as far as the vault goes, so one table keyed by the
consumer stands for both of them. Authorization of the actor, audit rows, timestamps, prices and display
names are left out, and so are the formats of columns. UUIDs are numbers.
-/

namespace Apdl.Vault

abbrev Uuid := ℕ

inductive Provider
  | anthropic
  | openai
  | google
  | xai
  deriving DecidableEq

inductive Consumer
  | agents
  | codegen
  deriving DecidableEq

/-- The services that can be granted a connection, in the canonical order. -/
def consumersInOrder : List Consumer := [.agents, .codegen]

/-- What a lifecycle command locks: one provider of one project. -/
structure Scope where
  projectId : Text
  provider : Provider
  deriving DecidableEq

/-- A consumer of a scope. -/
abbrev Key := Consumer × Scope

inductive Tier
  | fast
  | reasoning
  deriving DecidableEq

inductive Role
  | editor
  | helper
  deriving DecidableEq

/-- What a model can be assigned to. -/
inductive Slot
  | tier (t : Tier)
  | role (r : Role)
  deriving DecidableEq

/-! ## The tables of the vault -/

/-- A row of `llm_vault_connections`; its state is `active` or `revoked`. -/
structure Connection where
  connectionId : Uuid
  scope : Scope
  label : Text
  version : ℕ
  inventoryVersion : ℕ
  active : Bool
  deriving DecidableEq

inductive CredentialState
  | active
  | replaced
  | revoked
  deriving DecidableEq

/-- A row of `llm_vault_provider_credentials`. -/
structure Credential where
  credentialId : Uuid
  connectionId : Uuid
  scope : Scope
  credentialVersion : ℕ
  state : CredentialState
  successorCredentialId : Option Uuid := none
  deriving DecidableEq

/-- What authenticates a stored secret. -/
structure AssociatedData where
  credentialId : Uuid
  connectionId : Uuid
  scope : Scope
  credentialVersion : ℕ
  deriving DecidableEq

structure EncryptedSecret where
  ciphertext : List UInt8
  nonce : List UInt8
  deriving DecidableEq

/-- Authenticated encryption under the key of the vault. -/
structure CredentialCipher where
  encrypt : (nonce : List UInt8) → (apiKey : Text) → AssociatedData → EncryptedSecret
  decrypt : EncryptedSecret → AssociatedData → Option Text
  decrypt_encrypt : ∀ nonce apiKey data, decrypt (encrypt nonce apiKey data) data = some apiKey

/-- A row of `llm_vault_provider_secrets`. -/
structure Secret where
  credentialId : Uuid
  secret : EncryptedSecret
  deriving DecidableEq

/-- A row of `llm_vault_connection_consumers`: a grant of a connection to a consumer. -/
structure Binding where
  connectionId : Uuid
  scope : Scope
  consumer : Consumer
  deriving DecidableEq

def Binding.key (b : Binding) : Key := (b.consumer, b.scope)

/-- A row of `llm_vault_provider_models`. -/
structure VaultModel where
  connectionId : Uuid
  connectionVersion : ℕ
  inventoryVersion : ℕ
  modelId : Text
  deriving DecidableEq

def VaultModel.key (m : VaultModel) : Uuid × ℕ × Text := (m.connectionId, m.inventoryVersion, m.modelId)

/-! ## The tables of the consumers -/

/-- A row of `llm_project_provider_connections` or `codegen_project_provider_connections`. -/
structure ProviderConnection where
  consumer : Consumer
  scope : Scope
  version : ℕ
  inventoryVersion : ℕ
  active : Bool
  credentialId : Uuid
  catalogVersion : Text
  deriving DecidableEq

def ProviderConnection.key (p : ProviderConnection) : Key := (p.consumer, p.scope)

/-- A row of `llm_project_provider_models` or `codegen_project_provider_models`; `supported` are its tiers or
roles. -/
structure ProviderModel where
  consumer : Consumer
  scope : Scope
  connectionVersion : ℕ
  inventoryVersion : ℕ
  modelId : Text
  supported : List Slot
  catalogVersion : Text
  dataResidency : Text
  allowedDataClassifications : List Text
  deriving DecidableEq

def ProviderModel.owner (m : ProviderModel) : Key := (m.consumer, m.scope)

def ProviderModel.key (m : ProviderModel) : Key × Text := (m.owner, m.modelId)

/-- A row of `llm_project_model_assignments`. -/
structure AgentsAssignment where
  projectId : Text
  tier : Tier
  provider : Provider
  model : Text
  modelCatalogVersion : Text
  deriving DecidableEq

def AgentsAssignment.key (a : AgentsAssignment) : Text × Tier := (a.projectId, a.tier)

def AgentsAssignment.scope (a : AgentsAssignment) : Scope := ⟨a.projectId, a.provider⟩

/-- A row of `codegen_project_model_assignments`. -/
structure CodegenAssignment where
  projectId : Text
  role : Role
  provider : Provider
  modelId : Text
  assignmentVersion : ℕ
  connectionVersion : ℕ
  inventoryVersion : ℕ
  catalogVersion : Text
  deriving DecidableEq

def CodegenAssignment.key (a : CodegenAssignment) : Text × Role := (a.projectId, a.role)

def CodegenAssignment.scope (a : CodegenAssignment) : Scope := ⟨a.projectId, a.provider⟩

/-- A row of `llm_project_policies`; its state is `active` or `inactive`. -/
structure ProjectPolicy where
  projectId : Text
  active : Bool
  version : ℕ
  requiredDataResidency : Text
  allowCrossVendorRetry : Bool
  projectDailyCostLimit : ℕ
  runCostLimit : ℕ
  deriving DecidableEq

/-- A row of `llm_project_provider_policies`. -/
structure ProviderPolicy where
  projectId : Text
  provider : Provider
  model : Text
  dataResidency : Text
  allowedDataClassifications : List Text
  enabled : Bool
  deriving DecidableEq

def ProviderPolicy.key (p : ProviderPolicy) : Text × Provider × Text := (p.projectId, p.provider, p.model)

/-- The committed rows. -/
structure Db where
  connections : Table Connection.connectionId := .empty
  credentials : Table Credential.credentialId := .empty
  secrets : Table Secret.credentialId := .empty
  bindings : Table Binding.key := .empty
  vaultModels : Table VaultModel.key := .empty
  projections : Table ProviderConnection.key := .empty
  models : Table ProviderModel.key := .empty
  tiers : Table AgentsAssignment.key := .empty
  roles : Table CodegenAssignment.key := .empty
  policies : Table ProjectPolicy.projectId := .empty
  providerPolicies : Table ProviderPolicy.key := .empty

structure ProjectedModel where
  modelId : Text
  supported : List Slot
  catalogVersion : Text
  dataResidency : Text
  allowedDataClassifications : List Text
  deriving DecidableEq

/-- An `AgentsProjection` or a `CodegenProjection`; the projector refuses one without models. -/
structure Projection where
  catalogVersion : Text
  models : List ProjectedModel
  nonempty : models ≠ []

/-- What can be assigned once the projection is written. -/
def Projection.eligible (p : Projection) : List (Slot × Text) :=
  p.models.flatMap fun m => m.supported.map fun slot => (slot, m.modelId)

namespace Db

/-! ## Checks before the writes -/

/-- The credential that a connection is used with. -/
def activeCredential (s : Db) (connectionId : Uuid) : Option Credential :=
  s.credentials.rows.find? fun cr => cr.connectionId = connectionId ∧ cr.state = .active

/-- `_assert_binding_available`: the consumer is not bound, or to the given connection. -/
def bindingAvailable (s : Db) (scope : Scope) (consumer : Consumer) (connectionId : Option Uuid) : Bool :=
  match s.bindings.get (consumer, scope) with
  | none => true
  | some b => some b.connectionId = connectionId

/-- The models that a consumer has assigned in a scope, with what they are assigned to. -/
def assigned (s : Db) : Consumer → Scope → List (Slot × Text)
  | .agents, scope => (s.tiers.rows.filter fun a => a.scope = scope).map fun a => (.tier a.tier, a.model)
  | .codegen, scope => (s.roles.rows.filter fun a => a.scope = scope).map fun a => (.role a.role, a.modelId)

/-- `_assert_projection_safe`: what is assigned stays eligible; without a projection nothing may be
assigned. -/
def projectionSafe (s : Db) (consumer : Consumer) (scope : Scope) : Option Projection → Bool
  | none => (s.assigned consumer scope).isEmpty
  | some projection => (s.assigned consumer scope).all fun a => a ∈ projection.eligible

/-! ## Checks of the database -/

/-- The condition of `apdl_validate_codegen_model_assignment`: the assignment names the current versions of
an active connection, which has the model for the role. -/
def roleCurrent (s : Db) (a : CodegenAssignment) : Bool :=
  match s.projections.get (.codegen, a.scope), s.models.get ((.codegen, a.scope), a.modelId) with
  | some c, some m =>
    c.active && m.connectionVersion = c.version && m.inventoryVersion = c.inventoryVersion &&
      m.catalogVersion = c.catalogVersion && .role a.role ∈ m.supported &&
      a.connectionVersion = c.version && a.inventoryVersion = c.inventoryVersion &&
      a.catalogVersion = c.catalogVersion && a.catalogVersion = m.catalogVersion
  | _, _ => false

/-- `apdl_assert_codegen_model_assignments_current`: a revoked connection keeps no current model, and every
assignment of the scope is current. -/
def codegenAssignmentsCurrent (s : Db) (scope : Scope) : Bool :=
  (match s.projections.get (.codegen, scope) with
    | none => true
    | some c => c.active || s.models.rows.all fun m => m.owner ≠ (.codegen, scope) ||
        m.connectionVersion ≠ c.version || m.inventoryVersion ≠ c.inventoryVersion ||
        m.catalogVersion ≠ c.catalogVersion) &&
  s.roles.rows.all fun a => a.scope ≠ scope || s.roleCurrent a

/-- The joins of `apdl_validate_active_agents_setup` for one assignment: the connection and the model have
its catalog version, the credential is active and granted to Agents, and the provider policy agrees with the
model and the residency that the project requires. -/
def tierValid (s : Db) (required : Text) (a : AgentsAssignment) : Bool :=
  match s.projections.get (.agents, a.scope), s.models.get ((.agents, a.scope), a.model),
      s.providerPolicies.get (a.projectId, a.provider, a.model) with
  | some c, some m, some policy =>
    c.active && c.catalogVersion = a.modelCatalogVersion &&
      m.connectionVersion = c.version && m.inventoryVersion = c.inventoryVersion &&
      m.catalogVersion = a.modelCatalogVersion && .tier a.tier ∈ m.supported &&
      (match s.credentials.get c.credentialId with
        | none => false
        | some cr => cr.scope = a.scope && cr.state = .active &&
          (match s.bindings.get (.agents, a.scope) with
            | none => false
            | some b => b.connectionId = cr.connectionId)) &&
      policy.dataResidency = required && policy.dataResidency = m.dataResidency &&
      policy.allowedDataClassifications = m.allowedDataClassifications && policy.enabled
  | _, _, _ => false

/-- `apdl_validate_active_agents_setup`: an active setup has bounded budgets, no retry at another vendor, two
valid assignments, one for each tier, and no enabled provider policy without an assignment. -/
def activeAgentsSetup (s : Db) (projectId : Text) : Bool :=
  match s.policies.get projectId with
  | none => true
  | some policy =>
    !policy.active ||
      (0 < policy.projectDailyCostLimit && 0 < policy.runCostLimit &&
        policy.runCostLimit ≤ policy.projectDailyCostLimit && !policy.allowCrossVendorRetry &&
        (s.tiers.rows.countP fun a => a.projectId = projectId &&
          s.tierValid policy.requiredDataResidency a) = 2 &&
        (s.tiers.get (projectId, .fast)).isSome && (s.tiers.get (projectId, .reasoning)).isSome &&
        s.providerPolicies.rows.all fun p => p.projectId ≠ projectId || !p.enabled ||
          s.tiers.rows.any fun a => a.projectId = projectId && a.provider = p.provider && a.model = p.model)

/-- `apdl_validate_llm_vault_connection_authority`: an active connection has one active credential, one
secret, one or two consumers and only current models; a revoked one has none of these. -/
def connectionAuthority (s : Db) (connectionId : Uuid) : Bool :=
  match s.connections.get connectionId with
  | none => true
  | some c =>
    let activeCredentials := s.credentials.rows.countP fun cr =>
      cr.connectionId = connectionId && cr.state = .active
    let secrets := s.credentials.rows.countP fun cr =>
      cr.connectionId = connectionId && (s.secrets.get cr.credentialId).isSome
    let consumers := s.bindings.rows.countP fun b => b.connectionId = connectionId
    let models := s.vaultModels.rows.countP fun m => m.connectionId = connectionId
    let currentModels := s.vaultModels.rows.countP fun m => m.connectionId = connectionId &&
      m.connectionVersion = c.version && m.inventoryVersion = c.inventoryVersion
    if c.active then
      activeCredentials = 1 && secrets = 1 && 1 ≤ consumers && consumers ≤ 2 && models ≠ 0 &&
        currentModels = models
    else
      activeCredentials = 0 && secrets = 0 && consumers = 0 && models = 0

/-- The deferred foreign keys: a model of the vault names the version of its connection, a model of Codegen
the versions and the catalog version of its connection, a replaced credential its successor. -/
def referencesHold (s : Db) (connectionId : Uuid) (scope : Scope) : Bool :=
  (s.vaultModels.rows.all fun m => m.connectionId ≠ connectionId ||
    (s.connections.get connectionId).any fun c => m.connectionVersion = c.version) &&
  (s.models.rows.all fun m => m.owner ≠ (.codegen, scope) ||
    (s.projections.get (.codegen, scope)).any fun c => m.connectionVersion = c.version &&
      m.inventoryVersion = c.inventoryVersion && m.catalogVersion = c.catalogVersion) &&
  s.credentials.rows.all fun cr => cr.connectionId ≠ connectionId ||
    cr.successorCredentialId.all fun next => (s.credentials.get next).any fun cr' => cr'.scope = cr.scope

/-- The checks that are deferred to the end of a transaction on a connection of a scope. They run for the
rows that changed; the others pass because nothing they read has changed. -/
def deferredChecks (s : Db) (connectionId : Uuid) (scope : Scope) : Bool :=
  s.connectionAuthority connectionId && s.codegenAssignmentsCurrent scope &&
    s.activeAgentsSetup scope.projectId && s.referencesHold connectionId scope

/-- The end of a transaction. -/
def commit (s : Db) (connectionId : Uuid) (scope : Scope) : Option Db :=
  if s.deferredChecks connectionId scope then some s else none

end Db

end Apdl.Vault
