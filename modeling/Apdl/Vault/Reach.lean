import Apdl.Vault.Custody

set_option autoImplicit false

/-!
# Custody in every reachable state

## Main results

* `custody_of_reach` — every reachable state has custody, versions grow with every write, and a key is
  released only to a bound consumer of an active connection.
-/

namespace Apdl.Vault

/-! ## The machine -/

variable {cipher : CredentialCipher}

/-- What holds between any two transactions. -/
structure World.Inv (cipher : CredentialCipher) (w : World) : Prop where
  held : w.db.Held cipher
  served : w.db.Served
  loaded : ∀ a ∈ w.loaded, w.db.Loaded a

/-- What one transaction does. -/
structure World.Stepped (cipher : CredentialCipher) (w w' : World) : Prop where
  inv : w'.Inv cipher
  advances : w.db.Advances w'.db

variable {w : World}

lemma World.Inv.command {s' : Db} {id : Uuid} {scope : Scope} (h : w.Inv cipher)
    (hc : w.db.Committed cipher s' id scope) : w.Stepped cipher { w with db := s' } := by
  obtain ⟨⟨roles, holder, consumers, hchanges⟩, hheld, hserved⟩ := hc
  refine ⟨⟨hheld, hserved, fun a ha => ?_⟩, ⟨hchanges.advances_db.connection, hchanges.advances_db.projection⟩⟩
  have hl := h.loaded a ha
  refine hchanges.keeps_loaded ⟨hl.nodup, hl.nonempty, hl.connection, fun c hc heq => ?_⟩
  have hcurrent := hl.current c hc heq
  exact ⟨hcurrent.connection, hcurrent.credential, hcurrent.bound, hcurrent.grants⟩

lemma World.Inv.consumer (h : w.Inv cipher) {tiers : Table AgentsAssignment.key}
    {roles : Table CodegenAssignment.key} {policies : Table ProjectPolicy.projectId}
    {providerPolicies : Table ProviderPolicy.key}
    (hserved : Db.Served { w.db with tiers, roles, policies, providerPolicies }) :
    w.Stepped cipher { w with db := { w.db with tiers, roles, policies, providerPolicies } } := by
  obtain ⟨hheld, -, hloaded⟩ := h
  refine ⟨⟨⟨hheld.credential, hheld.unique, hheld.holder, hheld.secret, hheld.encrypted, hheld.successor,
    hheld.binding, hheld.bound⟩, hserved, fun a ha => ?_⟩, (Db.Advances.refl w.db).connection,
    (Db.Advances.refl w.db).projection⟩
  have hl := hloaded a ha
  refine ⟨hl.nodup, hl.nonempty, hl.connection, fun c hc heq => ?_⟩
  have hcurrent := hl.current c hc heq
  exact ⟨hcurrent.connection, hcurrent.credential, hcurrent.bound, hcurrent.grants⟩

theorem stepped_of_step {w' : World} {a : Action} (h : w.Inv cipher)
    (hst : (custody cipher).step w a = some w') : w.Stepped cipher w' := by
  cases a with
  | newProject projectId =>
    obtain ⟨s', hs, rfl⟩ := Option.map_eq_some_iff.1 hst
    obtain ⟨⟨policies, rfl⟩, hserved⟩ := Db.newProject_spec h.served hs
    exact h.consumer hserved
  | putSetup r =>
    obtain ⟨s', hs, rfl⟩ := Option.map_eq_some_iff.1 hst
    obtain ⟨⟨tiers, policies, providerPolicies, rfl⟩, hserved⟩ := Db.putSetup_spec h.served hs
    exact h.consumer hserved
  | deactivateSetup projectId version =>
    obtain ⟨s', hs, rfl⟩ := Option.map_eq_some_iff.1 hst
    obtain ⟨⟨policies, rfl⟩, hserved⟩ := Db.deactivateSetup_spec h.served hs
    exact h.consumer hserved
  | assignModels r =>
    obtain ⟨s', hs, rfl⟩ := Option.map_eq_some_iff.1 hst
    obtain ⟨roles, rfl, hroles⟩ := Db.assignModels_spec hs
    exact h.consumer (h.served.with_roles hroles)
  | load id projectId version =>
    obtain ⟨a, ha, rfl⟩ := Option.map_eq_some_iff.1 hst
    refine ⟨⟨h.held, h.served, fun a' ha' => ?_⟩, .refl _⟩
    rcases List.mem_cons.1 ha' with rfl | ha'
    · exact Db.loaded_of_load h.held ha
    · exact h.loaded a' ha'
  | create r late =>
    obtain ⟨s', hs, rfl⟩ := Option.map_eq_some_iff.1 hst
    exact h.command (Db.committed_of_create h.held h.served hs)
  | replace r late =>
    obtain ⟨hmem, hst⟩ := Option.ite_none_right_eq_some.1 hst
    obtain ⟨s', hs, rfl⟩ := Option.map_eq_some_iff.1 hst
    exact h.command (Db.committed_of_replace h.held h.served (h.loaded _ hmem) hs)
  | refresh r late =>
    obtain ⟨hmem, hst⟩ := Option.ite_none_right_eq_some.1 hst
    obtain ⟨s', hs, rfl⟩ := Option.map_eq_some_iff.1 hst
    exact h.command (Db.committed_of_refresh h.held h.served (h.loaded _ hmem) hs)
  | revoke a late =>
    obtain ⟨hmem, hst⟩ := Option.ite_none_right_eq_some.1 hst
    obtain ⟨s', hs, rfl⟩ := Option.map_eq_some_iff.1 hst
    exact h.command (Db.committed_of_revoke h.held h.served (h.loaded _ hmem) hs)
  | issueAccess r =>
    obtain ⟨response, -, rfl⟩ := Option.map_eq_some_iff.1 hst
    exact ⟨h, .refl _⟩

lemma inv_init : World.Inv cipher {} := by
  refine ⟨⟨nofun, nofun, nofun, fun i => ?_, nofun, nofun, nofun, nofun⟩,
    ⟨nofun, nofun, nofun, nofun, nofun, fun p => rfl, nofun⟩, nofun⟩
  exact iff_of_false (fun ⟨x, hx⟩ => nomatch hx) fun ⟨cr, hcr, _⟩ => nomatch hcr

theorem inv_of_reach (h : (custody cipher).Reach w) : w.Inv cipher :=
  StepMachine.Reach.induct inv_init (fun _ _ _ _ hinv hst => (stepped_of_step hinv hst).inv) h

/-- **Custody of the credentials.** In every state that any interleaving of the commands reaches: the tables
have custody; on every path from there, rows that change get larger versions; and a key is released only for
the active credential of an active connection that the consumer is bound to. -/
theorem custody_of_reach (cipher : CredentialCipher) {w : World} (h : (custody cipher).Reach w) :
    w.db.Custody ∧ (∀ w', (custody cipher).Path w w' → w.db.Advances w'.db) ∧
      ∀ r response, w.db.issueAccess cipher r = some response → w.db.Releases cipher r response := by
  have hinv := inv_of_reach h
  refine ⟨Db.custody_of hinv.held hinv.served, fun w' hpath => ?_, fun r response => Db.releases_of hinv.held⟩
  exact StepMachine.Path.induct (I := World.Inv cipher) (R := fun w w' => w.db.Advances w'.db)
    (fun _ _ _ hi hst => (stepped_of_step hi hst).inv) (fun _ => .refl _) (fun _ _ _ => .trans)
    (fun _ _ _ hi hst => (stepped_of_step hi hst).advances) hinv hpath

/-! ## A run -/

/-- The code units of a key as bytes. -/
def bytesOf (apiKey : Text) : List UInt8 :=
  apiKey.flatMap fun u => [UInt8.ofNat (u.toNat % 256), UInt8.ofNat (u.toNat / 256)]

/-- The code units that bytes stand for. -/
def textOf : List UInt8 → Text
  | low :: high :: rest => UInt16.ofNat (low.toNat + 256 * high.toNat) :: textOf rest
  | _ => []

lemma textOf_bytesOf (apiKey : Text) : textOf (bytesOf apiKey) = apiKey := by
  induction apiKey with
  | nil => rfl
  | cons u rest ih =>
    have hu : u.toNat < 65536 := u.toNat_lt
    have hnat : u.toNat % 256 % 256 + 256 * (u.toNat / 256 % 256) = u.toNat := by omega
    have hunit : UInt16.ofNat ((UInt8.ofNat (u.toNat % 256)).toNat +
        256 * (UInt8.ofNat (u.toNat / 256)).toNat) = u := by
      rw [UInt8.toNat_ofNat', UInt8.toNat_ofNat', hnat, UInt16.ofNat_toNat]
    have hbytes : bytesOf (u :: rest) =
        UInt8.ofNat (u.toNat % 256) :: UInt8.ofNat (u.toNat / 256) :: bytesOf rest := rfl
    rw [hbytes, textOf, hunit, ih]

/-- A cipher for examples: it stores the bytes of the key. -/
def byteCipher : CredentialCipher where
  encrypt nonce apiKey _ := ⟨bytesOf apiKey, nonce⟩
  decrypt secret _ := some (textOf secret.ciphertext)
  decrypt_encrypt _ apiKey _ := congrArg some (textOf_bytesOf apiKey)

section Run

/-- A model that supports every slot, in a catalog of the given version. -/
def exampleModel (catalogVersion : Text) : ProjectedModel :=
  ⟨Text.ofString "m", [.tier .fast, .tier .reasoning, .role .editor, .role .helper], catalogVersion,
    Text.ofString "us", [Text.ofString "public"]⟩

def exampleProjection (catalogVersion : Text) : Projection :=
  ⟨catalogVersion, [exampleModel catalogVersion], by simp⟩

def exampleScope : Scope := ⟨Text.ofString "p", .openai⟩

def exampleModelIds : ModelIds := ⟨[Text.ofString "m"], by simp, by simp⟩

def bothConsumers : Consumers := ⟨[.agents, .codegen], by decide, by decide⟩

def exampleCreate : CreateRequest :=
  { scope := exampleScope, label := Text.ofString "main", apiKey := Text.ofString "k1",
    consumers := bothConsumers, modelIds := exampleModelIds,
    projections := fun _ => exampleProjection (Text.ofString "v1"), connectionId := 1, credentialId := 2,
    nonce := [] }

/-- Both tiers of the project use the model. -/
def exampleSetup : SetupRequest :=
  { projectId := Text.ofString "p", fast := ⟨.openai, Text.ofString "m", 1, 1⟩,
    reasoning := ⟨.openai, Text.ofString "m", 1, 1⟩, expectedVersion := 0,
    catalog := ⟨Text.ofString "v1", fun _ _ =>
      some ⟨Text.ofString "v1", Text.ofString "us", [Text.ofString "public"]⟩⟩ }

/-- The authority of the connection after its creation. -/
def exampleAuthority : ConnectionAuthority := ⟨1, exampleScope, 1, 2, 1, [.agents, .codegen]⟩

def exampleReplace : ReplaceRequest :=
  { authority := exampleAuthority, label := Text.ofString "main", apiKey := Text.ofString "k2",
    consumers := bothConsumers, modelIds := exampleModelIds,
    projections := fun _ => exampleProjection (Text.ofString "v1"), newCredentialId := 3, nonce := [] }

/-- A connection is created, its model is assigned to both tiers and an authority is loaded. -/
def setupRun : List Action :=
  [.newProject (Text.ofString "p"), .create exampleCreate [], .putSetup exampleSetup,
    .load 1 (Text.ofString "p") 1]

/-- The connection is replaced while Codegen assigns its model, and the new key is released. -/
def replaceRun : List Action :=
  setupRun ++ [.replace exampleReplace
      [⟨Text.ofString "p", ⟨.openai, Text.ofString "m"⟩, ⟨.openai, Text.ofString "m"⟩⟩],
    .issueAccess ⟨exampleScope, .codegen, 3, 2⟩]

end Run

/-- A state with a replaced credential, four assignments and a stale authority. -/
theorem custody_of_reach_replaced : ∃ w, (custody byteCipher).run {} replaceRun = some w ∧
    (w.db.credentials.rows.length, w.db.roles.rows.length, w.loaded) = (2, 2, [exampleAuthority]) ∧
    w.db.Custody ∧ (∀ w', (custody byteCipher).Path w w' → w.db.Advances w'.db) ∧
      ∀ r response, w.db.issueAccess byteCipher r = some response → w.db.Releases byteCipher r response := by
  have hrun : ((custody byteCipher).run {} replaceRun).map
      (fun w => (w.db.credentials.rows.length, w.db.roles.rows.length, w.loaded)) =
        some (2, 2, [exampleAuthority]) := by decide +kernel
  obtain ⟨w, hw, hshape⟩ := Option.map_eq_some_iff.1 hrun
  exact ⟨w, hw, hshape, custody_of_reach byteCipher (StepMachine.reach_of_run hw)⟩

end Apdl.Vault
