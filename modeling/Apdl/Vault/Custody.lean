import Apdl.Vault.Checks

set_option autoImplicit false

/-!
# The invariants of custody

## Main results

* `Db.custody_of`, `Db.releases_of` — what the invariants give.
-/

namespace Apdl.Vault

namespace Db

variable {cipher : CredentialCipher} {s s' : Db} {id : Uuid} {scope : Scope} {holder : Option Uuid}
  {consumers : List Consumer}

/-! ## The effect of a command keeps the invariants -/

theorem Changes.keeps_held (h : s.Changes cipher s' id scope holder consumers) (hheld : s.Held cipher) :
    s'.Held cipher := by
  obtain ⟨c₀, hc₀, hscope₀, hactive₀⟩ := h.connection
  have hconn : ∀ i c, i ≠ id → s.connections.get i = some c → s'.connections.get i = some c :=
    fun i c hi hc => (h.connection_ne i hi).trans hc
  refine ⟨fun i cr hi => ?_, fun i j cr dr hi hj hs ht heq => ?_, fun i c hc hactive => ?_, fun i => ?_,
    fun i x cr hx hi => ?_, h.successor, fun k b hb => ?_, fun i c hc hactive => ?_⟩
  · by_cases hid : cr.connectionId = id
    · obtain ⟨hscope, hstate⟩ := h.credential i cr hi hid
      refine ⟨c₀, hid ▸ hc₀, hscope₀.trans hscope.symm, fun hs => ?_⟩
      rw [hactive₀, hstate.1 hs]
      rfl
    · obtain ⟨c, hc, hrest⟩ := hheld.credential i cr ((h.credential_ne i cr hid).1 hi)
      exact ⟨c, hconn _ c hid hc, hrest⟩
  · by_cases hid : cr.connectionId = id
    · have hfirst := (h.credential i cr hi hid).2.1 hs
      have hsecond := (h.credential j dr hj (heq.symm.trans hid)).2.1 ht
      exact Option.some.inj (hfirst.symm.trans hsecond)
    · exact hheld.unique i j cr dr ((h.credential_ne i cr hid).1 hi)
        ((h.credential_ne j dr (heq ▸ hid)).1 hj) hs ht heq
  · by_cases hi : i = id
    · rw [hi, hc₀] at hc
      obtain rfl := Option.some.inj hc
      rw [hactive₀] at hactive
      obtain ⟨n, hn⟩ := Option.isSome_iff_exists.1 hactive
      obtain ⟨cr, hcr, hid⟩ := h.held n hn
      exact ⟨n, cr, hcr, hid.trans hi.symm, (h.credential n cr hcr hid).2.2 hn⟩
    · rw [h.connection_ne i hi] at hc
      obtain ⟨j, cr, hj, hid, hs⟩ := hheld.holder i c hc hactive
      exact ⟨j, cr, (h.credential_ne j cr (hid ▸ hi)).2 hj, hid, hs⟩
  · constructor
    · rintro ⟨x, hx⟩
      obtain ⟨cr, hi⟩ := h.stored i x hx
      refine ⟨cr, hi, ?_⟩
      by_cases hid : cr.connectionId = id
      · exact (h.credential i cr hi hid).2.2 ((h.secret i cr hi hid).1 ⟨x, hx⟩)
      · rw [h.secret_ne i cr hi hid] at hx
        obtain ⟨cr', hi', hs⟩ := (hheld.secret i).1 ⟨x, hx⟩
        obtain rfl := Option.some.inj (((h.credential_ne i cr hid).1 hi).symm.trans hi')
        exact hs
    · rintro ⟨cr, hi, hs⟩
      by_cases hid : cr.connectionId = id
      · exact (h.secret i cr hi hid).2 ((h.credential i cr hi hid).2.1 hs)
      · rw [h.secret_ne i cr hi hid]
        exact (hheld.secret i).2 ⟨cr, (h.credential_ne i cr hid).1 hi, hs⟩
  · by_cases hid : cr.connectionId = id
    · exact h.encrypted i x cr hx hi hid
    · rw [h.secret_ne i cr hi hid] at hx
      exact hheld.encrypted i x cr hx ((h.credential_ne i cr hid).1 hi)
  · by_cases hid : b.connectionId = id
    · obtain ⟨hk, -⟩ := (h.binding k b hid).1 hb
      refine ⟨c₀, hid ▸ hc₀, ?_, hscope₀.trans hk.1.symm⟩
      rw [hactive₀]
      exact h.nonempty.2 (List.ne_nil_of_mem hk.2)
    · obtain ⟨c, hc, hrest⟩ := hheld.binding k b ((h.binding_ne k b hid).1 hb)
      exact ⟨c, hconn _ c hid hc, hrest⟩
  · by_cases hi : i = id
    · rw [hi, hc₀] at hc
      obtain rfl := Option.some.inj hc
      rw [hactive₀] at hactive
      obtain ⟨consumer, hmem⟩ := List.exists_mem_of_ne_nil _ (h.nonempty.1 hactive)
      exact ⟨(consumer, scope), ⟨id, scope, consumer⟩, (h.binding _ _ rfl).2 ⟨⟨rfl, hmem⟩, rfl⟩, hi.symm⟩
    · rw [h.connection_ne i hi] at hc
      obtain ⟨k, b, hb, hid⟩ := hheld.bound i c hc hactive
      exact ⟨k, b, (h.binding_ne k b (hid ▸ hi)).2 hb, hid⟩

variable {k : Key}

lemma Changes.scope_of_bound (h : s.Changes cipher s' id scope holder consumers) (hheld : s.Held cipher) {b : Binding} (hb : s.bindings.get k = some b) (hid : b.connectionId = id) : k.2 = scope := by
  obtain ⟨c, hc, -, hscope⟩ := hheld.binding k b hb
  obtain ⟨c₁, hc₁, hscope₁, -⟩ := h.newer c (hid ▸ hc)
  obtain ⟨c₀, hc₀, hscope₀, -⟩ := h.connection
  obtain rfl := Option.some.inj (hc₀.symm.trans hc₁)
  exact hscope.symm.trans (hscope₁.symm.trans hscope₀)

lemma Changes.kept_of_scope_ne (h : s.Changes cipher s' id scope holder consumers) (hheld : s.Held cipher) (hk : k.2 ≠ scope) : s'.projections.get k = s.projections.get k ∧
      ∀ model, s'.models.get (k, model) = s.models.get (k, model) :=
  h.kept k (fun ha => hk ha.1) fun _ hb hid => hk (h.scope_of_bound hheld hb hid)

lemma Changes.not_among (h : s.Changes cipher s' id scope holder consumers) {b : Binding}
    (hb : s.bindings.get k = some b) (hid : b.connectionId ≠ id) : ¬ Among scope consumers k := by
  intro hk
  have hb' := (h.binding k ⟨id, k.2, k.1⟩ rfl).2 ⟨hk, rfl⟩
  have hsame := Option.some.inj (((h.binding_ne k b hid).2 hb).symm.trans hb')
  exact hid (hsame ▸ rfl)

variable {required projectId : Text} {a : AgentsAssignment}

lemma Changes.tierValid_of_bound_ne (h : s.Changes cipher s' id scope holder consumers)
    (hne : ∀ b, s.bindings.get (.agents, a.scope) = some b → b.connectionId ≠ id)
    (hvalid : s.tierValid required a = true) : s'.tierValid required a = true := by
  obtain ⟨c, m, policy, hj⟩ := tierValid_iff.1 hvalid
  obtain ⟨cr, b, hcr, hscope, hstate, hb, hbound⟩ := hj.credential
  have hid := hne b hb
  obtain ⟨hprojection, hmodel⟩ := h.kept _ (h.not_among hb hid) hne
  refine tierValid_iff.2 ⟨c, m, policy, hprojection.trans hj.connection, hj.active, hj.catalog,
    (hmodel _).trans hj.model, hj.version, hj.inventory, hj.modelCatalog, hj.supported, ?_, ?_,
    hj.residencyRequired, hj.residencyOffered, hj.classifications, hj.enabled⟩
  · exact ⟨cr, b, (h.credential_ne _ cr (hbound ▸ hid)).2 hcr, hscope, hstate, (h.binding_ne _ b hid).2 hb,
      hbound⟩
  · rw [h.providerPolicies]
    exact hj.governed

lemma Changes.tierValid_of_scope_ne (h : s.Changes cipher s' id scope holder consumers)
    (hheld : s.Held cipher) (ha : a.scope ≠ scope)
    (hvalid : s.tierValid required a = true) : s'.tierValid required a = true :=
  h.tierValid_of_bound_ne (fun _ hb hid => ha (h.scope_of_bound hheld hb hid)) hvalid

lemma Changes.setup_of_ne (h : s.Changes cipher s' id scope holder consumers) (hheld : s.Held cipher)
    {p : Text} (hp : p ≠ scope.projectId) (hsetup : s.activeAgentsSetup p = true) :
    s'.activeAgentsSetup p = true := by
  rw [activeAgentsSetup_iff] at hsetup ⊢
  intro policy hpolicy hactive
  rw [h.policies] at hpolicy
  obtain ⟨fast, reasoning, hv⟩ := hsetup policy hpolicy hactive
  have hkey : policy.projectId = p := Table.get_key hpolicy
  have hother : ∀ {tier a}, s.tiers.get (policy.projectId, tier) = some a → a.scope ≠ scope := by
    intro tier a ha hs
    have hassigned : a.key = (policy.projectId, tier) := Table.get_key ha
    have hproject : a.projectId = policy.projectId := (Prod.mk.inj hassigned).1
    exact hp (hkey.symm.trans (hproject.symm.trans (congrArg Scope.projectId hs)))
  refine ⟨fast, reasoning, hv.dailyLimit, hv.runLimit, hv.bounded, hv.retry, ?_, ?_, ?_, ?_, ?_⟩
  · exact h.tiers ▸ hv.fastAssigned
  · exact h.tiers ▸ hv.reasoningAssigned
  · exact h.tierValid_of_scope_ne hheld (hother hv.fastAssigned) hv.fastValid
  · exact h.tierValid_of_scope_ne hheld (hother hv.reasoningAssigned) hv.reasoningValid
  · rw [h.providerPolicies, h.tiers]
    exact hv.assigned

theorem Changes.keeps_served (h : s.Changes cipher s' id scope holder consumers) (hheld : s.Held cipher)
    (hserved : s.Served)
    (htier : ∀ a ∈ s.tiers.rows, Among scope consumers (.agents, a.scope) →
      s'.Offers (.agents, a.scope) (.tier a.tier) a.model)
    (hdropped : ∀ a ∈ s.tiers.rows, ∀ b, s.bindings.get (.agents, a.scope) = some b →
      b.connectionId = id → Among scope consumers (.agents, a.scope))
    (hcommit : s'.deferredChecks id scope = true) : s'.Served := by
  simp only [deferredChecks, Bool.and_eq_true] at hcommit
  obtain ⟨⟨⟨-, hroles⟩, hsetup⟩, hreferences⟩ := hcommit
  refine ⟨h.models, fun k b hb => ?_, fun k p hp hactive => ?_, fun a ha => ?_, fun a ha => ?_, fun p => ?_,
    fun σ model m p hm hp => ?_⟩
  · by_cases hid : b.connectionId = id
    · obtain ⟨hk, -⟩ := (h.binding k b hid).1 hb
      obtain ⟨p, hp, hactive, hholder⟩ := h.projected k hk
      obtain ⟨cr, hcr, hcid⟩ := h.held _ hholder
      exact ⟨p, cr, hp, hactive, hcr, hcid.trans hid.symm, (h.credential _ cr hcr hcid).2.2 hholder⟩
    · have hb₀ := (h.binding_ne k b hid).1 hb
      have hk := h.not_among hb₀ hid
      obtain ⟨p, cr, hp, hactive, hcr, hcid, hs⟩ := hserved.granted k b hb₀
      refine ⟨p, cr, (h.kept k hk ?_).1.trans hp, hactive, (h.credential_ne _ cr (hcid ▸ hid)).2 hcr, hcid, hs⟩
      exact fun b' hb' => Option.some.inj (hb₀.symm.trans hb') ▸ hid
  · by_cases hk : Among scope consumers k
    · exact ⟨_, (h.binding k ⟨id, k.2, k.1⟩ rfl).2 ⟨hk, rfl⟩⟩
    · have hne : ∀ b, s.bindings.get k = some b → b.connectionId ≠ id := fun b hb hid => by
        have hinactive := h.dropped k b p hb hid hk hp
        exact absurd (hactive.symm.trans hinactive) (by decide)
      rw [(h.kept k hk hne).1] at hp
      obtain ⟨b, hb⟩ := hserved.active k p hp hactive
      exact ⟨b, (h.binding_ne k b (hne b hb)).2 hb⟩
  · rw [h.tiers] at ha
    by_cases hk : Among scope consumers (.agents, a.scope)
    · exact htier a ha hk
    · obtain ⟨hp, hm⟩ := h.kept _ hk fun b hb hid => hk (hdropped a ha b hb hid)
      obtain ⟨p, m, hget, hactive, hmodel, hrest⟩ := hserved.tier a ha
      exact ⟨p, m, hp.trans hget, hactive, (hm _).trans hmodel, hrest⟩
  · by_cases hs : a.scope = scope
    · simp only [codegenAssignmentsCurrent, Bool.and_eq_true, List.all_eq_true] at hroles
      simpa [hs] using hroles.2 a ha
    · obtain ⟨hp, hm⟩ := h.kept_of_scope_ne hheld (k := (.codegen, a.scope)) hs
      rw [roleCurrent_congr hp (hm _)]
      exact hserved.role a (h.role a ha hs)
  · by_cases hp : p = scope.projectId
    · exact hp ▸ hsetup
    · exact h.setup_of_ne hheld hp (hserved.setup p)
  · by_cases hs : σ = scope
    · obtain rfl := hs
      have howner : m.owner = (.codegen, σ) := congrArg Prod.fst (Table.get_key hm)
      simp only [referencesHold, Bool.and_eq_true, List.all_eq_true] at hreferences
      have hrow := hreferences.1.2 m (Table.mem_of_get hm)
      rw [hp] at hrow
      simpa [howner] using (by simpa [howner] using hrow : _ ∧ _).2
    · obtain ⟨hprojection, hmodel⟩ := h.kept_of_scope_ne hheld (k := (.codegen, σ)) hs
      exact hserved.catalog σ model m p ((hmodel model).symm.trans hm) (hprojection.symm.trans hp)

lemma eligible_of_safe {projection : Projection} (h : s.projectionSafe .agents scope (some projection) = true) (ha : a ∈ s.tiers.rows) (hs : a.scope = scope) :
    (.tier a.tier, a.model) ∈ projection.eligible := by
  simp only [projectionSafe, List.all_eq_true, decide_eq_true_eq] at h
  exact h _ (List.mem_map.2 ⟨a, List.mem_filter.2 ⟨ha, by simpa using hs⟩, rfl⟩)

lemma scope_ne_of_safe (h : s.projectionSafe .agents scope none = true)
    (ha : a ∈ s.tiers.rows) : a.scope ≠ scope := by
  intro hs
  simp only [projectionSafe, assigned, List.isEmpty_iff, List.map_eq_nil_iff, List.filter_eq_nil_iff] at h
  exact h a ha (by simpa using hs)

lemma Rewrites.offers {dropped : List Consumer} {credentialId : Uuid} {projections : Consumer → Projection}
    (h : s.Rewrites s' scope dropped consumers credentialId projections)
    (hk : Among scope consumers k) {slot : Slot} {model : Text}
    (hel : (slot, model) ∈ (projections k.1).eligible) : s'.Offers k slot model := by
  obtain ⟨m, hm, hslot⟩ := List.mem_flatMap.1 hel
  obtain ⟨slot', hsupported, heq⟩ := List.mem_map.1 hslot
  obtain ⟨rfl, rfl⟩ := Prod.mk.inj heq
  exact ⟨_, _, (h.projection k).trans (if_pos hk), rfl, h.get_model hk (mem_modelsFor.2 ⟨m, hm, rfl⟩), rfl, rfl,
    hsupported⟩

/-! ## The assignments of roles -/

lemma assignRole_spec {role : Role} {r : RoleRequest}
    (h : s.assignRole projectId role r = some s') :
    ∃ roles, s' = { s with roles } ∧ ∀ a ∈ roles.rows, a ∈ s.roles.rows ∨ s.roleCurrent a = true := by
  unfold assignRole at h
  simp only [Option.bind_eq_bind, Option.bind_eq_some_iff] at h
  obtain ⟨c, -, h⟩ := h
  obtain ⟨hcurrent, h⟩ := Option.ite_none_right_eq_some.1 h
  split at h
  · obtain ⟨roles, hroles, rfl⟩ := Option.map_eq_some_iff.1 h
    refine ⟨roles, rfl, fun a ha => ?_⟩
    rcases Table.mem_insert hroles ha with rfl | hold
    · exact .inr hcurrent
    · exact .inl hold
  · obtain rfl := Option.some.inj h
    refine ⟨_, rfl, fun a ha => ?_⟩
    rcases Table.mem_replace ha with rfl | hold
    · exact .inr hcurrent
    · exact .inl hold.1

lemma assignModels_spec {r : AssignRequest} (h : s.assignModels r = some s') :
    ∃ roles, s' = { s with roles } ∧ ∀ a ∈ roles.rows, a ∈ s.roles.rows ∨ s.roleCurrent a = true := by
  obtain ⟨s₁, h₁, h₂⟩ := Option.bind_eq_some_iff.1 h
  obtain ⟨roles₁, rfl, hroles₁⟩ := assignRole_spec h₁
  obtain ⟨roles, rfl, hroles⟩ := assignRole_spec h₂
  exact ⟨roles, rfl, fun a ha => (hroles a ha).elim (hroles₁ a) .inr⟩

variable {late : List AssignRequest}

lemma late_spec (h : late.foldlM assignModels s = some s') :
    ∃ roles, s' = { s with roles } ∧ ∀ a ∈ roles.rows, a ∈ s.roles.rows ∨ s.roleCurrent a = true := by
  induction late generalizing s with
  | nil =>
    obtain rfl := Option.some.inj h
    exact ⟨s.roles, rfl, fun a ha => .inl ha⟩
  | cons r late ih =>
    rw [List.foldlM_cons] at h
    obtain ⟨s₁, h₁, hrest⟩ := Option.bind_eq_some_iff.1 h
    obtain ⟨roles₁, rfl, hroles₁⟩ := assignModels_spec h₁
    obtain ⟨roles, rfl, hroles⟩ := ih hrest
    exact ⟨roles, rfl, fun a ha => (hroles a ha).elim (hroles₁ a) .inr⟩

lemma transaction_spec {checked : Bool} {written : Db → Option Db}
    (h : s.transaction checked late written id scope = some s') :
    checked = true ∧ ∃ roles, (∀ a ∈ roles.rows, a ∈ s.roles.rows ∨ s.roleCurrent a = true) ∧
      written { s with roles } = some s' ∧ s'.deferredChecks id scope = true := by
  obtain ⟨hchecked, h⟩ := Option.ite_none_right_eq_some.1 h
  obtain ⟨s₁, h₁, h⟩ := Option.bind_eq_some_iff.1 h
  obtain ⟨roles, rfl, hroles⟩ := late_spec h₁
  obtain ⟨s₂, h₂, h⟩ := Option.bind_eq_some_iff.1 h
  obtain ⟨hcommit, h⟩ := Option.ite_none_right_eq_some.1 h
  obtain rfl := Option.some.inj h
  exact ⟨hchecked, roles, hroles, h₂, hcommit⟩

lemma Held.with_roles (h : s.Held cipher) (roles : Table CodegenAssignment.key) :
    Held cipher { s with roles } :=
  ⟨h.credential, h.unique, h.holder, h.secret, h.encrypted, h.successor, h.binding, h.bound⟩

lemma Served.with_roles (h : s.Served) {roles : Table CodegenAssignment.key}
    (hroles : ∀ a ∈ roles.rows, a ∈ s.roles.rows ∨ s.roleCurrent a = true) : Served { s with roles } :=
  ⟨h.models, h.granted, h.active, h.tier, fun a ha => (hroles a ha).elim (h.role a) id, h.setup, h.catalog⟩

/-! ## Authorities -/

/-- What is known of an authority after it was loaded. -/
structure Loaded (s : Db) (a : ConnectionAuthority) : Prop where
  nodup : a.consumers.Nodup
  nonempty : a.consumers ≠ []
  connection : ∃ c, s.connections.get a.connectionId = some c ∧ c.scope = a.scope ∧ a.version ≤ c.version
  current : ∀ c, s.connections.get a.connectionId = some c → c.version = a.version → s.Current a

lemma Loaded.current_of {a : ConnectionAuthority} (h : s.Loaded a) (hcurrent : s.authorityCurrent a = true) : s.Current a := by
  unfold authorityCurrent at hcurrent
  split at hcurrent
  · exact nomatch hcurrent
  · rename_i c hc
    simp only [Bool.and_eq_true, decide_eq_true_eq] at hcurrent
    exact h.current c hc hcurrent.1

theorem Changes.keeps_loaded (h : s.Changes cipher s' id scope holder consumers) {a : ConnectionAuthority}
    (hl : s.Loaded a) : s'.Loaded a := by
  obtain ⟨c, hc, hscope, hversion⟩ := hl.connection
  by_cases hid : a.connectionId = id
  · obtain ⟨c', hc', hscope', hnewer⟩ := h.newer c (hid ▸ hc)
    refine ⟨hl.nodup, hl.nonempty, ⟨c', hid ▸ hc', hscope'.trans hscope, Nat.le_trans hversion (Nat.le_of_lt hnewer)⟩, ?_⟩
    intro c'' hc'' heq
    obtain rfl := Option.some.inj (hc'.symm.trans (hid ▸ hc''))
    exact absurd heq (Nat.ne_of_gt (Nat.lt_of_le_of_lt hversion hnewer))
  · have hget := h.connection_ne _ hid
    refine ⟨hl.nodup, hl.nonempty, ⟨c, hget.trans hc, hscope, hversion⟩, fun c' hc' heq => ?_⟩
    have hcurrent := hl.current c' (hget.symm.trans hc') heq
    obtain ⟨c₁, hc₁, hrest⟩ := hcurrent.connection
    obtain ⟨cr, hcr, hcid, hcrest⟩ := hcurrent.credential
    refine ⟨⟨c₁, hget.trans hc₁, hrest⟩, ⟨cr, (h.credential_ne _ cr (hcid ▸ hid)).2 hcr, hcid, hcrest⟩,
      fun k b hb hbid => ?_, fun k hk => ?_⟩
    · exact hcurrent.bound k b ((h.binding_ne k b (hbid ▸ hid)).1 hb) hbid
    · obtain ⟨b, hb, hbid⟩ := hcurrent.grants k hk
      exact ⟨b, (h.binding_ne k b (hbid ▸ hid)).2 hb, hbid⟩

lemma mem_consumersOf (hheld : s.Held cipher) {c : Connection} (hc : s.connections.get id = some c) (k : Key) :
    Among c.scope (s.consumersOf id) k ↔ ∃ b, s.bindings.get k = some b ∧ b.connectionId = id := by
  have hmem : ∀ consumer, consumer ∈ s.consumersOf id ↔
      ∃ b ∈ s.bindings.rows, b.connectionId = id ∧ b.consumer = consumer := fun consumer => by
    have hall : consumer ∈ consumersInOrder := by cases consumer <;> decide
    simp only [consumersOf, List.mem_filter, hall, true_and, List.any_eq_true, Bool.and_eq_true,
      decide_eq_true_eq]
  have hscope : ∀ {k b}, s.bindings.get k = some b → b.connectionId = id → k.2 = c.scope := by
    intro k b hb hid
    obtain ⟨c', hc', -, hs⟩ := hheld.binding k b hb
    rw [hid, hc] at hc'
    exact Option.some.inj hc' ▸ hs.symm
  constructor
  · rintro ⟨hk, hconsumer⟩
    obtain ⟨b, hb, hid, hsame⟩ := (hmem k.1).1 hconsumer
    have hget := Table.mem_rows_iff.1 hb
    have hkey : b.key = k := Prod.ext hsame ((hscope hget hid).trans hk.symm)
    exact ⟨b, hkey ▸ hget, hid⟩
  · rintro ⟨b, hb, hid⟩
    have hkey : b.key = k := Table.get_key hb
    exact ⟨hscope hb hid, (hmem k.1).2 ⟨b, Table.mem_of_get hb, hid, congrArg Prod.fst hkey⟩⟩

theorem loaded_of_load (hheld : s.Held cipher) {version : ℕ} {a : ConnectionAuthority}
    (h : s.loadMutationAuthority id projectId version = some a) : s.Loaded a := by
  unfold loadMutationAuthority at h
  simp only [Option.bind_eq_bind, Option.bind_eq_some_iff] at h
  obtain ⟨c, hc, cr, hcr, h⟩ := h
  obtain ⟨⟨-, hversion, hactive, hnonempty⟩, h⟩ := Option.ite_none_right_eq_some.1 h
  obtain rfl := Option.some.inj h
  have hfound : cr.connectionId = id ∧ cr.state = .active := by
    simpa [activeCredential] using List.find?_some hcr
  refine ⟨nodup_consumersOf s id, hnonempty, ⟨c, hc, rfl, Nat.le_of_eq hversion.symm⟩, fun _ _ _ => ?_⟩
  refine ⟨⟨c, hc, rfl, hversion, hactive⟩, ⟨cr, ?_, hfound.1, hfound.2, rfl⟩, fun k b hb hid => ?_,
    fun k hk => ?_⟩
  · exact Table.mem_rows_iff.1 (List.mem_of_find?_eq_some hcr)
  · exact (mem_consumersOf hheld hc k).2 ⟨b, hb, hid⟩
  · exact (mem_consumersOf hheld hc k).1 hk

/-! ## The commands -/

/-- A committed command on a connection. -/
structure Committed (cipher : CredentialCipher) (s s' : Db) (id : Uuid) (scope : Scope) : Prop where
  changes : ∃ roles holder consumers, Changes cipher { s with roles } s' id scope holder consumers
  held : s'.Held cipher
  served : s'.Served

theorem committed_of_create (hheld : s.Held cipher) (hserved : s.Served) {r : CreateRequest} (h : s.create cipher r late = some s') :
    s.Committed cipher s' r.connectionId r.scope := by
  obtain ⟨hchecked, roles, hroles, hwritten, hcommit⟩ := transaction_spec h
  obtain ⟨hchanges, hrecords⟩ := changes_of_create (hheld.with_roles roles) (hserved.with_roles hroles) hwritten
  simp only [createChecked, List.all_eq_true, Bool.and_eq_true] at hchecked
  refine ⟨⟨roles, _, _, hchanges⟩, hchanges.keeps_held (hheld.with_roles roles),
    hchanges.keeps_served (hheld.with_roles roles) (hserved.with_roles hroles) (fun a ha hk => ?_)
      (fun a ha b hb hid => ?_) hcommit⟩
  · exact hrecords.rewrites.offers hk (eligible_of_safe (hchecked _ hk.2).2 ha hk.1)
  · obtain ⟨c, hc, -⟩ := hheld.binding _ b hb
    rw [hid, fresh_of_create hwritten] at hc
    exact nomatch hc

theorem committed_of_replace (hheld : s.Held cipher) (hserved : s.Served) {r : ReplaceRequest}
    (hl : s.Loaded r.authority) (h : s.replace cipher r late = some s') :
    s.Committed cipher s' r.authority.connectionId r.authority.scope := by
  obtain ⟨hchecked, roles, hroles, hwritten, hcommit⟩ := transaction_spec h
  simp only [replaceChecked, List.all_eq_true, Bool.and_eq_true] at hchecked
  obtain ⟨⟨⟨hauthority, -⟩, hsafe⟩, hremoved⟩ := hchecked
  have hcurrent := hl.current_of hauthority
  have hcurrent₁ : Db.Current { s with roles } r.authority :=
    ⟨hcurrent.connection, hcurrent.credential, hcurrent.bound, hcurrent.grants⟩
  obtain ⟨hchanges, hrecords⟩ := changes_of_replace (hheld.with_roles roles) (hserved.with_roles hroles)
    hcurrent₁ hl.nodup hwritten
  refine ⟨⟨roles, _, _, hchanges⟩, hchanges.keeps_held (hheld.with_roles roles),
    hchanges.keeps_served (hheld.with_roles roles) (hserved.with_roles hroles) (fun a ha hk => ?_)
      (fun a ha b hb hid => ?_) hcommit⟩
  · exact hrecords.rewrites.offers hk (eligible_of_safe (hsafe _ hk.2).2 ha hk.1)
  · obtain ⟨hscope, hmem⟩ := hcurrent.bound _ b hb hid
    refine ⟨hscope, by_contra fun hout => ?_⟩
    have hdrop : Consumer.agents ∈ removed r := List.mem_filter.2 ⟨hmem, by simpa using hout⟩
    exact scope_ne_of_safe (hremoved _ hdrop) ha hscope

theorem committed_of_refresh (hheld : s.Held cipher) (hserved : s.Served) {r : RefreshRequest}
    (hl : s.Loaded r.authority) (h : s.refresh r late = some s') :
    s.Committed cipher s' r.authority.connectionId r.authority.scope := by
  obtain ⟨hchecked, roles, hroles, hwritten, hcommit⟩ := transaction_spec h
  simp only [refreshChecked, List.all_eq_true, Bool.and_eq_true] at hchecked
  have hcurrent := hl.current_of hchecked.1
  have hcurrent₁ : Db.Current { s with roles } r.authority :=
    ⟨hcurrent.connection, hcurrent.credential, hcurrent.bound, hcurrent.grants⟩
  obtain ⟨hchanges, hrecords⟩ := changes_of_refresh (hheld.with_roles roles) (hserved.with_roles hroles)
    hcurrent₁ hl.nodup hl.nonempty hwritten
  refine ⟨⟨roles, _, _, hchanges⟩, hchanges.keeps_held (hheld.with_roles roles),
    hchanges.keeps_served (hheld.with_roles roles) (hserved.with_roles hroles) (fun a ha hk => ?_)
      (fun a _ b hb hid => hcurrent.bound _ b hb hid) hcommit⟩
  exact hrecords.rewrites.offers hk (eligible_of_safe (hchecked.2 _ hk.2) ha hk.1)

theorem committed_of_revoke (hheld : s.Held cipher) (hserved : s.Served) {a : ConnectionAuthority}
    (hl : s.Loaded a) (h : s.revoke a late = some s') :
    s.Committed cipher s' a.connectionId a.scope := by
  obtain ⟨hchecked, roles, hroles, hwritten, hcommit⟩ := transaction_spec h
  simp only [revokeChecked, List.all_eq_true, Bool.and_eq_true] at hchecked
  have hcurrent := hl.current_of hchecked.1
  have hcurrent₁ : Db.Current { s with roles } a :=
    ⟨hcurrent.connection, hcurrent.credential, hcurrent.bound, hcurrent.grants⟩
  have hchanges := changes_of_revoke (hheld.with_roles roles) (hserved.with_roles hroles) hcurrent₁ hl.nodup
    hwritten
  refine ⟨⟨roles, _, _, hchanges⟩, hchanges.keeps_held (hheld.with_roles roles),
    hchanges.keeps_served (hheld.with_roles roles) (hserved.with_roles hroles)
      (fun _ _ hk => absurd hk.2 List.not_mem_nil) (fun b hb x hx hid => ?_) hcommit⟩
  obtain ⟨hscope, hmem⟩ := hcurrent.bound _ x hx hid
  exact absurd hscope (scope_ne_of_safe (hchecked.2 _ hmem) hb)

/-! ## What the consumers write -/

variable {r : SetupRequest}

lemma offers_of_selection {tier : Tier} {model : CatalogModel}
    (h : s.validateSelection r tier = some model) :
    s.Offers (.agents, ⟨r.projectId, (r.selection tier).provider⟩) (.tier tier) (r.selection tier).model := by
  unfold validateSelection at h
  simp only [Option.bind_eq_bind, Option.bind_eq_some_iff] at h
  obtain ⟨c, hc, m, hm, cr, -, b, -, model', -, h⟩ := h
  obtain ⟨⟨-, -, hactive, hversion, hinventory, -, -, -, -, -, hsupported, -⟩, -⟩ :=
    Option.ite_none_right_eq_some.1 h
  exact ⟨c, m, hc, hactive, hm, hversion, hinventory, hsupported⟩

lemma activeAgentsSetup_congr {p : Text} (hpolicy : s'.policies.get p = s.policies.get p)
    (htiers : ∀ tier, s'.tiers.get (p, tier) = s.tiers.get (p, tier))
    (hpolicies : ∀ provider model, s'.providerPolicies.get (p, provider, model) =
      s.providerPolicies.get (p, provider, model))
    (hvalid : ∀ required a, a.projectId = p → s.tierValid required a = true →
      s'.tierValid required a = true) (h : s.activeAgentsSetup p = true) : s'.activeAgentsSetup p = true := by
  rw [activeAgentsSetup_iff] at h ⊢
  intro policy hget hactive
  rw [hpolicy] at hget
  obtain ⟨fast, reasoning, hv⟩ := h policy hget hactive
  have hkey : policy.projectId = p := Table.get_key hget
  have hproject : ∀ {tier a}, s.tiers.get (policy.projectId, tier) = some a → a.projectId = p := by
    intro tier a ha
    have hassigned : a.key = (policy.projectId, tier) := Table.get_key ha
    exact (Prod.mk.inj hassigned).1.trans hkey
  refine ⟨fast, reasoning, hv.dailyLimit, hv.runLimit, hv.bounded, hv.retry, ?_, ?_, ?_, ?_, ?_⟩
  · rw [hkey, htiers, ← hkey]
    exact hv.fastAssigned
  · rw [hkey, htiers, ← hkey]
    exact hv.reasoningAssigned
  · exact hvalid _ _ (hproject hv.fastAssigned) hv.fastValid
  · exact hvalid _ _ (hproject hv.reasoningAssigned) hv.reasoningValid
  · intro q hq hid hen
    have hqkey : q.key = (p, q.provider, q.model) := by rw [← hkey, ← hid]; rfl
    have hget' := Table.mem_rows_iff.1 hq
    rw [hqkey, hpolicies, ← hqkey] at hget'
    obtain ⟨a, ha, haid, hrest⟩ := hv.assigned q (Table.mem_of_get hget') hid hen
    have hakey : a.key = (p, a.tier) := by rw [← hkey, ← haid]; rfl
    have hga := Table.mem_rows_iff.1 ha
    rw [hakey, ← htiers, ← hakey] at hga
    exact ⟨a, Table.mem_of_get hga, haid, hrest⟩

lemma tierValid_of_with {tiers : Table AgentsAssignment.key} {policies : Table ProjectPolicy.projectId}
    {providerPolicies : Table ProviderPolicy.key}
    (h : providerPolicies.get (a.projectId, a.provider, a.model) =
      s.providerPolicies.get (a.projectId, a.provider, a.model)) :
    tierValid { s with tiers, policies, providerPolicies } required a = s.tierValid required a := by
  unfold tierValid
  dsimp only
  rw [h]

lemma get_of_refill {ρ κ : Type} [DecidableEq κ] {keyOf : ρ → κ} {t t' : Table keyOf} {p : ρ → Bool}
    {rs : List ρ} (h : (t.delete p).insertAll rs = some t') {k : κ} (hkept : ∀ r, keyOf r = k → p r = false)
    (hnew : ∀ r ∈ rs, keyOf r ≠ k) : t'.get k = t.get k := by
  refine Option.ext fun r => ?_
  rw [Table.get_insertAll h, Table.get_delete, Option.filter_eq_some_iff]
  constructor
  · rintro (hold | ⟨hr, hk⟩)
    · exact hold.1
    · exact absurd hk (hnew r hr)
  · exact fun hg => .inl ⟨hg, by rw [hkept r (Table.get_key hg)]; rfl⟩

lemma project_of_setupPolicies {fast reasoning : CatalogModel} {p : ProviderPolicy}
    (h : p ∈ setupPolicies r fast reasoning) : p.projectId = r.projectId := by
  unfold setupPolicies at h
  dsimp only at h
  split_ifs at h
  · obtain rfl := List.mem_singleton.1 h
    rfl
  · rcases List.mem_cons.1 h with rfl | h
    · rfl
    · obtain rfl := List.mem_singleton.1 h
      rfl

theorem putSetup_spec (hserved : s.Served) (h : s.putSetup r = some s') :
    (∃ tiers policies providerPolicies, s' = { s with tiers, policies, providerPolicies }) ∧ s'.Served := by
  unfold putSetup at h
  simp only [Option.bind_eq_bind, Option.bind_eq_some_iff] at h
  obtain ⟨policy, hpolicy, fast, hfast, reasoning, hreasoning, h⟩ := h
  obtain ⟨⟨hversion, -⟩, h⟩ := Option.ite_none_right_eq_some.1 h
  obtain ⟨tiers, htiers, h⟩ := Option.bind_eq_some_iff.1 h
  obtain ⟨providerPolicies, hproviders, h⟩ := Option.bind_eq_some_iff.1 h
  obtain ⟨hsetup, h⟩ := Option.ite_none_right_eq_some.1 h
  obtain rfl := Option.some.inj h
  refine ⟨⟨_, _, _, rfl⟩, hserved.models, hserved.granted, hserved.active, fun a ha => ?_, hserved.role,
    fun p => ?_, hserved.catalog⟩
  · dsimp only at ha
    rw [Table.rows_of_insertAll htiers, List.mem_append] at ha
    rcases ha with hold | hnew
    · exact hserved.tier a (List.mem_filter.1 hold).1
    · rcases List.mem_cons.1 hnew with rfl | hnew
      · exact offers_of_selection hfast
      · obtain rfl := List.mem_singleton.1 hnew
        exact offers_of_selection hreasoning
  · by_cases hp : p = r.projectId
    · exact hp ▸ hsetup
    · have hkey : policy.projectId = r.projectId := Table.get_key hpolicy
      refine activeAgentsSetup_congr (s := s) ?_ (fun tier => ?_) (fun provider model => ?_)
        (fun required a ha hv => ?_) (hserved.setup p)
      · refine (Table.get_replace _ _ p).trans (if_neg ?_)
        exact fun hc => hp (hc.trans hkey)
      · refine get_of_refill htiers (fun a ha => ?_) fun a ha hc => ?_
        · exact decide_eq_false fun hc => hp ((Prod.mk.inj ha).1.symm.trans hc)
        · refine hp ((Prod.mk.inj hc).1.symm.trans ?_)
          rcases List.mem_cons.1 ha with rfl | ha
          · rfl
          · obtain rfl := List.mem_singleton.1 ha
            rfl
      · refine get_of_refill hproviders (fun q hq => ?_) fun q hq hc => ?_
        · exact decide_eq_false fun hc => hp ((Prod.mk.inj hq).1.symm.trans hc)
        · exact hp ((Prod.mk.inj hc).1.symm.trans (project_of_setupPolicies hq))
      · rw [tierValid_of_with]
        · exact hv
        · refine get_of_refill hproviders (fun q hq => ?_) fun q hq hc => ?_
          · exact decide_eq_false fun hc => hp (ha.symm.trans ((Prod.mk.inj hq).1.symm.trans hc))
          · exact hp (ha.symm.trans ((Prod.mk.inj hc).1.symm.trans (project_of_setupPolicies hq)))

lemma served_with_policies (hserved : s.Served) {policies : Table ProjectPolicy.projectId}
    {row : ProjectPolicy} (hrow : policies.get projectId = some row) (hinactive : row.active = false)
    (hother : ∀ p, p ≠ projectId → policies.get p = s.policies.get p) : Served { s with policies } := by
  refine ⟨hserved.models, hserved.granted, hserved.active, hserved.tier, hserved.role, fun p => ?_,
    hserved.catalog⟩
  by_cases hp : p = projectId
  · rw [activeAgentsSetup_iff]
    intro policy hpolicy hactive
    rw [hp] at hpolicy
    obtain rfl := Option.some.inj (hrow.symm.trans hpolicy)
    exact absurd (hactive.symm.trans hinactive) (by decide)
  · exact activeAgentsSetup_congr (s := s) (hother p hp) (fun _ => rfl) (fun _ _ => rfl) (fun _ _ _ hv => hv)
      (hserved.setup p)

theorem deactivateSetup_spec (hserved : s.Served) {version : ℕ}
    (h : s.deactivateSetup projectId version = some s') :
    (∃ policies, s' = { s with policies }) ∧ s'.Served := by
  unfold deactivateSetup at h
  simp only [Option.bind_eq_bind, Option.bind_eq_some_iff] at h
  obtain ⟨policy, hpolicy, h⟩ := h
  obtain ⟨-, h⟩ := Option.ite_none_right_eq_some.1 h
  obtain rfl := Option.some.inj h
  have hkey : policy.projectId = projectId := Table.get_key hpolicy
  have hget : ∀ p, (s.policies.replace { policy with active := false, version := version + 1 }).get p =
      if p = projectId then some { policy with active := false, version := version + 1 }
      else s.policies.get p := fun p => by
    rw [← hkey]
    refine Table.get_replace_of_get (q := policy) ?_ p
    exact hkey ▸ hpolicy
  exact ⟨⟨_, rfl⟩, served_with_policies hserved ((hget projectId).trans (if_pos rfl)) rfl
    fun p hp => (hget p).trans (if_neg hp)⟩

theorem newProject_spec (hserved : s.Served) (h : s.newProject projectId = some s') :
    (∃ policies, s' = { s with policies }) ∧ s'.Served := by
  obtain ⟨policies, hp, rfl⟩ := Option.map_eq_some_iff.1 h
  exact ⟨⟨_, rfl⟩, served_with_policies hserved ((Table.get_insert hp projectId).trans (if_pos rfl)) rfl
    fun p hne => (Table.get_insert hp p).trans (if_neg hne)⟩

/-! ## What custody means -/

/-- **Custody**: what relates the credentials, secrets and bindings of the vault to the projections and
assignments of its consumers. -/
structure Custody (s : Db) : Prop where
  one_credential : ∀ i c, s.connections.get i = some c → c.active = true →
    ∃! j, ∃ cr, s.credentials.get j = some cr ∧ cr.connectionId = i ∧ cr.state = .active
  one_secret : ∀ i c, s.connections.get i = some c → c.active = true →
    ∃! j, (∃ x, s.secrets.get j = some x) ∧ ∃ cr, s.credentials.get j = some cr ∧ cr.connectionId = i
  no_secret : ∀ j cr, s.credentials.get j = some cr → cr.state ≠ .active → s.secrets.get j = none
  /-- A consumer is bound to at most one connection of a provider in a project. -/
  one_binding : ∀ b ∈ s.bindings.rows, ∀ b' ∈ s.bindings.rows, b.scope = b'.scope →
    b.consumer = b'.consumer → b.connectionId = b'.connectionId
  active_iff_bound : ∀ k, (∃ p, s.projections.get k = some p ∧ p.active = true) ↔
    ∃ b, s.bindings.get k = some b
  /-- It names the active credential of the bound connection, which is active. -/
  names : ∀ k b, s.bindings.get k = some b → ∃ p cr c, s.projections.get k = some p ∧
    s.credentials.get p.credentialId = some cr ∧ cr.connectionId = b.connectionId ∧ cr.state = .active ∧
    s.connections.get b.connectionId = some c ∧ c.active = true
  /-- Every assignment of a consumer is served by its current projection. -/
  tier_served : ∀ a ∈ s.tiers.rows, s.Offers (.agents, a.scope) (.tier a.tier) a.model
  role_served : ∀ a ∈ s.roles.rows, s.Offers (.codegen, a.scope) (.role a.role) a.modelId

/-- A row of `s` is there in `s'`, and if it has changed its version has grown. -/
structure Advances (s s' : Db) : Prop where
  connection : ∀ i c, s.connections.get i = some c → ∃ c', s'.connections.get i = some c' ∧
    (c' = c ∨ c.version < c'.version)
  projection : ∀ k p, s.projections.get k = some p → ∃ p', s'.projections.get k = some p' ∧
    (p' = p ∨ p.version < p'.version)

/-- What the release of a key to a consumer rests on. -/
structure Releases (cipher : CredentialCipher) (s : Db) (r : CredentialAccessRequest)
    (response : CredentialAccessResponse) : Prop where
  expected : response.credentialId = r.expectedCredentialId ∧
    response.credentialVersion = r.expectedCredentialVersion
  credential : ∃ cr, s.credentials.get response.credentialId = some cr ∧ cr.state = .active ∧
    cr.connectionId = response.connectionId ∧ cr.credentialVersion = response.credentialVersion
  connection : ∃ c, s.connections.get response.connectionId = some c ∧ c.active = true ∧ c.scope = r.scope
  binding : ∃ b, s.bindings.get (r.consumer, r.scope) = some b ∧ b.connectionId = response.connectionId
  key : ∃ x nonce, s.secrets.get response.credentialId = some x ∧ x.secret = cipher.encrypt nonce
    response.apiKey ⟨response.credentialId, response.connectionId, r.scope, response.credentialVersion⟩

theorem custody_of (hheld : s.Held cipher) (hserved : s.Served) : s.Custody := by
  refine ⟨fun i c hc hactive => ?_, fun i c hc hactive => ?_, fun j cr hj hs => ?_, fun b hb b' hb' hs hc => ?_,
    fun k => ⟨fun ⟨p, hp, hactive⟩ => hserved.active k p hp hactive, fun ⟨b, hb⟩ => ?_⟩, fun k b hb => ?_,
    hserved.tier, fun a ha => ?_⟩
  · obtain ⟨j, cr, hj, hid, hs⟩ := hheld.holder i c hc hactive
    refine ⟨j, ⟨cr, hj, hid, hs⟩, ?_⟩
    rintro j' ⟨cr', hj', hid', hs'⟩
    exact hheld.unique j' j cr' cr hj' hj hs' hs (hid'.trans hid.symm)
  · obtain ⟨j, cr, hj, hid, hs⟩ := hheld.holder i c hc hactive
    refine ⟨j, ⟨(hheld.secret j).2 ⟨cr, hj, hs⟩, cr, hj, hid⟩, ?_⟩
    rintro j' ⟨hx, cr', hj', hid'⟩
    obtain ⟨cr'', hj'', hs''⟩ := (hheld.secret j').1 hx
    obtain rfl := Option.some.inj (hj'.symm.trans hj'')
    exact hheld.unique j' j cr' cr hj' hj hs'' hs (hid'.trans hid.symm)
  · refine Option.eq_none_iff_forall_ne_some.2 fun x hx => hs ?_
    obtain ⟨cr', hj', hs'⟩ := (hheld.secret j).1 ⟨x, hx⟩
    obtain rfl := Option.some.inj (hj.symm.trans hj')
    exact hs'
  · rw [Table.eq_of_key hb hb' (Prod.ext hc hs)]
  · obtain ⟨p, -, hp, hactive, -⟩ := hserved.granted k b hb
    exact ⟨p, hp, hactive⟩
  · obtain ⟨p, cr, hp, -, hcr, hid, hs⟩ := hserved.granted k b hb
    obtain ⟨c, hc, hactive, -⟩ := hheld.binding k b hb
    exact ⟨p, cr, c, hp, hcr, hid, hs, hc, hactive⟩
  · obtain ⟨c, m, hc, hactive, hm, hversion, hinventory, -, hsupported, -⟩ :=
      roleCurrent_iff.1 (hserved.role a ha)
    exact ⟨c, m, hc, hactive, hm, hversion, hinventory, hsupported⟩

theorem releases_of (hheld : s.Held cipher) {r : CredentialAccessRequest} {response : CredentialAccessResponse}
    (h : s.issueAccess cipher r = some response) : s.Releases cipher r response := by
  unfold issueAccess at h
  simp only [Option.bind_eq_bind, Option.bind_eq_some_iff] at h
  obtain ⟨cr, hcr, c, hc, b, hb, x, hx, h⟩ := h
  obtain ⟨⟨hscope, hactive, hbound, hcrscope, hs, hversion⟩, h⟩ := Option.ite_none_right_eq_some.1 h
  obtain ⟨apiKey, hkey, h⟩ := Option.bind_eq_some_iff.1 h
  obtain rfl := Option.some.inj h
  have hcid : cr.credentialId = r.expectedCredentialId := Table.get_key hcr
  have hconn : c.connectionId = cr.connectionId := Table.get_key hc
  refine ⟨⟨hcid, hversion⟩, ⟨cr, hcid ▸ hcr, hs, hconn.symm, rfl⟩, ⟨c, hconn ▸ hc, hactive, hscope⟩,
    ⟨b, hb, hbound⟩, ?_⟩
  obtain ⟨nonce, apiKey', hstored⟩ := hheld.encrypted _ x cr hx (hcid ▸ hcr)
  refine ⟨x, nonce, hx, ?_⟩
  rw [← hconn, hcrscope.trans hscope] at hstored
  rw [hstored, cipher.decrypt_encrypt] at hkey
  rw [← Option.some.inj hkey]
  exact hstored

lemma Advances.refl (s : Db) : s.Advances s := ⟨fun _ c hc => ⟨c, hc, .inl rfl⟩, fun _ p hp => ⟨p, hp, .inl rfl⟩⟩

lemma Advances.trans {s₁ s₂ s₃ : Db} (h : s₁.Advances s₂) (h' : s₂.Advances s₃) : s₁.Advances s₃ := by
  refine ⟨fun i c hc => ?_, fun k p hp => ?_⟩
  · obtain ⟨c₂, hc₂, hor⟩ := h.connection i c hc
    obtain ⟨c₃, hc₃, hor'⟩ := h'.connection i c₂ hc₂
    refine ⟨c₃, hc₃, ?_⟩
    rcases hor with rfl | hlt
    · exact hor'
    · rcases hor' with rfl | hlt'
      · exact .inr hlt
      · exact .inr (Nat.lt_trans hlt hlt')
  · obtain ⟨p₂, hp₂, hor⟩ := h.projection k p hp
    obtain ⟨p₃, hp₃, hor'⟩ := h'.projection k p₂ hp₂
    refine ⟨p₃, hp₃, ?_⟩
    rcases hor with rfl | hlt
    · exact hor'
    · rcases hor' with rfl | hlt'
      · exact .inr hlt
      · exact .inr (Nat.lt_trans hlt hlt')

lemma Changes.advances_db (h : s.Changes cipher s' id scope holder consumers) : s.Advances s' := by
  refine ⟨fun i c hc => ?_, h.advances⟩
  by_cases hi : i = id
  · obtain ⟨c', hc', -, hlt⟩ := h.newer c (hi ▸ hc)
    exact ⟨c', hi ▸ hc', .inr hlt⟩
  · exact ⟨c, (h.connection_ne i hi).trans hc, .inl rfl⟩

end Db

end Apdl.Vault
