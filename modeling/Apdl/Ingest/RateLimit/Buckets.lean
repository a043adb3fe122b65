import Apdl.Ingest.RateLimit.Model
import Mathlib.Algebra.Order.Floor.Ring
import Mathlib.Data.List.Perm.Basic
import Mathlib.Tactic.Linarith
import Mathlib.Tactic.NormNum

set_option autoImplicit false

/-!
# The buckets of a request

A key belongs to one stage and one scope, and with that it has one limit, whichever request debits
it. A request debits a key once, and never for more than the bucket can hold.

## Main results

* `Governs.sound`, `cost_le_capacity` — what every bucket of a request satisfies.
-/

namespace Apdl.Ingest.RateLimit

variable {stage : Stage}

lemma Stage.text_append_inj {stage' : Stage} {rest rest' : String}
    (h : stage.text ++ rest = stage'.text ++ rest') : stage = stage' := by
  have hlist := congrArg String.toList h
  cases stage <;> cases stage' <;> first | rfl | simp [Stage.text] at hlist

variable {scope : Scope}

lemma Scope.text_inj {scope' : Scope} (h : scope.text = scope'.text) : scope = scope' := by
  have hlist := congrArg String.toList h
  cases scope <;> cases scope' <;> simp [Scope.text, String.toList_inj] at hlist ⊢ <;> exact hlist

lemma keyText_inj {stage' : Stage} {scope' : Scope}
    (h : keyText stage scope = keyText stage' scope') : stage = stage' ∧ scope = scope' := by
  have hrest : stage.text ++ (":" ++ scope.text) = stage'.text ++ (":" ++ scope'.text) := by
    have hlist := congrArg String.toList h
    refine String.toList_inj.1 ?_
    simpa [keyText] using hlist
  have hstage := Stage.text_append_inj hrest
  subst hstage
  have hscope : scope.text = scope'.text := by
    have hlist := congrArg String.toList hrest
    refine String.toList_inj.1 ?_
    simpa using hlist
  exact ⟨rfl, Scope.text_inj hscope⟩

/-! ## Limits -/

/-- The limit of the buckets with a stage and a scope. -/
def Governs (env : Env) : Stage → Scope → BucketLimit → Prop
  | .preauth, .global, limit => limit = preauthGlobalRequestLimit
  | .preauth, .ip _, limit => limit = preauthIpRequestLimit
  | .request, .global, limit => limit = globalRequestLimit
  | .request, .project _, limit => limit = projectRequestLimit
  | .request, .credential hash, limit => ∃ id, env.hashBucketIdentifier "credential" id = hash ∧
      limit = credentialLimit (env.kindOf id) confidentialRequestLimit browserRequestLimit
  | .request, .ip _, limit => limit = ipRequestLimit
  | .byte, .global, limit => limit = globalByteLimit
  | .byte, .project _, limit => limit = projectByteLimit
  | .byte, .credential hash, limit => ∃ id, env.hashBucketIdentifier "credential" id = hash ∧
      limit = credentialLimit (env.kindOf id) confidentialByteLimit browserByteLimit
  | .byte, .ip _, limit => limit = ipByteLimit
  | .event, .global, limit => limit = globalEventLimit
  | .event, .project _, limit => limit = projectEventLimit
  | .event, .credential hash, limit => ∃ id, env.hashBucketIdentifier "credential" id = hash ∧
      limit = credentialLimit (env.kindOf id) confidentialEventLimit browserEventLimit
  | .event, .ip _, limit => limit = ipEventLimit
  | .event, .identity _, limit => limit = identityEventLimit
  | _, _, _ => False

variable {env : Env}

lemma Governs.unique {limit limit' : BucketLimit}
    (h : Governs env stage scope limit) (h' : Governs env stage scope limit') : limit = limit' := by
  have hkind : ∀ (confidential browser : BucketLimit) (hash : String),
      (∃ id, env.hashBucketIdentifier "credential" id = hash ∧
        limit = credentialLimit (env.kindOf id) confidential browser) →
      (∃ id, env.hashBucketIdentifier "credential" id = hash ∧
        limit' = credentialLimit (env.kindOf id) confidential browser) → limit = limit' := by
    rintro confidential browser hash ⟨id, hid, rfl⟩ ⟨id', hid', rfl⟩
    rw [env.kindOf_eq id id' (hid.trans hid'.symm)]
  cases stage <;> cases scope <;>
    first
      | exact h.elim
      | exact h.trans h'.symm
      | exact hkind _ _ _ h h'

variable {d : BucketDebit}

lemma mem_commonBuckets {principal : Principal} {clientIp : String} {cost : ℕ}
    {globalLimit projectLimit confidentialLimit browserLimit ipLimit : BucketLimit}
    (hd : d ∈ commonBuckets env stage principal clientIp cost globalLimit projectLimit
      confidentialLimit browserLimit ipLimit) :
    d.cost = cost ∧
      (d.key = keyText stage .global ∧ d.limit = globalLimit ∨
        d.key = keyText stage (.project principal.projectId) ∧ d.limit = projectLimit ∨
        d.key = keyText stage (.credential
          (env.hashBucketIdentifier "credential" principal.credentialId)) ∧
          d.limit = credentialLimit (env.kindOf principal.credentialId) confidentialLimit
            browserLimit ∨
        d.key = keyText stage (.ip (env.hashBucketIdentifier "ip" clientIp)) ∧
          d.limit = ipLimit) := by
  simp only [commonBuckets, List.mem_cons, List.not_mem_nil, or_false] at hd
  rcases hd with rfl | rfl | rfl | rfl <;> simp

variable {c : Check}

lemma governs_of_mem (hd : d ∈ c.buckets env) :
    ∃ stage scope, d.key = keyText stage scope ∧ Governs env stage scope d.limit := by
  cases c with
  | preAuth clientIp =>
    simp only [Check.buckets, List.mem_cons, List.not_mem_nil, or_false] at hd
    rcases hd with rfl | rfl
    · exact ⟨_, _, rfl, rfl⟩
    · exact ⟨_, _, rfl, rfl⟩
  | request principal clientIp =>
    obtain ⟨-, ⟨hkey, hlimit⟩ | ⟨hkey, hlimit⟩ | ⟨hkey, hlimit⟩ | ⟨hkey, hlimit⟩⟩ :=
      mem_commonBuckets hd
    · exact ⟨_, _, hkey, hlimit⟩
    · exact ⟨_, _, hkey, hlimit⟩
    · exact ⟨_, _, hkey, _, rfl, hlimit⟩
    · exact ⟨_, _, hkey, hlimit⟩
  | bytes principal clientIp serializedBytes =>
    obtain ⟨-, ⟨hkey, hlimit⟩ | ⟨hkey, hlimit⟩ | ⟨hkey, hlimit⟩ | ⟨hkey, hlimit⟩⟩ :=
      mem_commonBuckets hd
    · exact ⟨_, _, hkey, hlimit⟩
    · exact ⟨_, _, hkey, hlimit⟩
    · exact ⟨_, _, hkey, _, rfl, hlimit⟩
    · exact ⟨_, _, hkey, hlimit⟩
  | events principal clientIp batch =>
    rcases List.mem_append.1 hd with hcommon | hidentity
    · obtain ⟨-, ⟨hkey, hlimit⟩ | ⟨hkey, hlimit⟩ | ⟨hkey, hlimit⟩ | ⟨hkey, hlimit⟩⟩ :=
        mem_commonBuckets hcommon
      · exact ⟨_, _, hkey, hlimit⟩
      · exact ⟨_, _, hkey, hlimit⟩
      · exact ⟨_, _, hkey, _, rfl, hlimit⟩
      · exact ⟨_, _, hkey, hlimit⟩
    · obtain ⟨item, -, rfl⟩ := List.mem_map.1 hidentity
      exact ⟨_, _, rfl, rfl⟩

lemma limit_eq_of_key_eq {c' : Check} {d' : BucketDebit} (hd : d ∈ c.buckets env)
    (hd' : d' ∈ c'.buckets env) (hkey : d.key = d'.key) : d.limit = d'.limit := by
  obtain ⟨stage, scope, htext, hgoverns⟩ := governs_of_mem hd
  obtain ⟨stage', scope', htext', hgoverns'⟩ := governs_of_mem hd'
  rw [htext, htext'] at hkey
  obtain ⟨rfl, rfl⟩ := keyText_inj hkey
  exact hgoverns.unique hgoverns'

lemma Governs.sound {limit : BucketLimit} (h : Governs env stage scope limit) :
    0 < limit.refillPerSecond ∧ limit.capacity ≤ ttlSeconds limit * limit.refillPerSecond := by
  have hkind : ∀ (confidential browser : BucketLimit) (hash : String),
      (∃ id, env.hashBucketIdentifier "credential" id = hash ∧
        limit = credentialLimit (env.kindOf id) confidential browser) →
      limit = confidential ∨ limit = browser := by
    rintro confidential browser hash ⟨id, -, rfl⟩
    unfold credentialLimit
    split_ifs
    · exact .inl rfl
    · exact .inr rfl
  cases stage <;> cases scope <;>
    first
      | exact h.elim
      | (obtain rfl := h; decide +kernel)
      | (rcases hkind _ _ _ h with rfl | rfl <;> decide +kernel)

/-! ## Costs -/

lemma byteCost_le {n : ℕ} (hn : n ≤ maxRequestBytes) : byteCost n ≤ 512 := by
  have hceil : ⌈(n : ℚ) / 1024⌉ ≤ 512 := by
    rw [Int.ceil_le]
    have hn' : (n : ℚ) ≤ 512 * 1024 := by exact_mod_cast hn
    rw [div_le_iff₀ (by norm_num)]
    push_cast
    exact hn'
  unfold byteCost
  omega

lemma identityCosts_le {projectId : String} {events : List EventIds} {item : String × ℕ}
    (h : item ∈ identityCosts env projectId events) : item.2 ≤ events.length := by
  obtain ⟨hash, -, rfl⟩ := List.mem_map.1 h
  have hcount : (events.map (identityHash env projectId)).count hash ≤
      (events.map (identityHash env projectId)).length := List.count_le_length
  rwa [List.length_map] at hcount

lemma le_credentialLimit {n : ℕ} {kind : CredentialKind} {confidential browser : BucketLimit}
    (hconfidential : n ≤ confidential.capacity) (hbrowser : n ≤ browser.capacity) :
    n ≤ (credentialLimit kind confidential browser).capacity := by
  unfold credentialLimit
  split_ifs
  · exact hconfidential
  · exact hbrowser

lemma cost_le_of_mem_commonBuckets {principal : Principal} {clientIp : String}
    {cost : ℕ} {globalLimit projectLimit confidentialLimit browserLimit ipLimit : BucketLimit}
    (hd : d ∈ commonBuckets env stage principal clientIp cost globalLimit projectLimit
      confidentialLimit browserLimit ipLimit)
    (hglobal : cost ≤ globalLimit.capacity) (hproject : cost ≤ projectLimit.capacity)
    (hconfidential : cost ≤ confidentialLimit.capacity) (hbrowser : cost ≤ browserLimit.capacity)
    (hip : cost ≤ ipLimit.capacity) : d.cost ≤ d.limit.capacity := by
  obtain ⟨hcost, ⟨-, hlimit⟩ | ⟨-, hlimit⟩ | ⟨-, hlimit⟩ | ⟨-, hlimit⟩⟩ := mem_commonBuckets hd
  · rw [hcost, hlimit]
    exact hglobal
  · rw [hcost, hlimit]
    exact hproject
  · rw [hcost, hlimit]
    exact le_credentialLimit hconfidential hbrowser
  · rw [hcost, hlimit]
    exact hip

lemma cost_le_capacity (hd : d ∈ c.buckets env) :
    d.cost ≤ d.limit.capacity := by
  cases c with
  | preAuth clientIp =>
    simp only [Check.buckets, List.mem_cons, List.not_mem_nil, or_false] at hd
    rcases hd with rfl | rfl
    · exact (by decide : 1 ≤ preauthGlobalRequestLimit.capacity)
    · exact (by decide : 1 ≤ preauthIpRequestLimit.capacity)
  | request principal clientIp =>
    exact cost_le_of_mem_commonBuckets hd (by decide) (by decide) (by decide) (by decide)
      (by decide)
  | bytes principal clientIp serializedBytes =>
    have hcost := byteCost_le serializedBytes.2
    refine cost_le_of_mem_commonBuckets hd (hcost.trans ?_) (hcost.trans ?_) (hcost.trans ?_)
      (hcost.trans ?_) (hcost.trans ?_) <;> decide
  | events principal clientIp batch =>
    have hcost : batch.1.length ≤ 100 := batch.2.2
    rcases List.mem_append.1 hd with hcommon | hidentity
    · refine cost_le_of_mem_commonBuckets hcommon (hcost.trans ?_) (hcost.trans ?_)
        (hcost.trans ?_) (hcost.trans ?_) (hcost.trans ?_) <;> decide
    · obtain ⟨item, hitem, rfl⟩ := List.mem_map.1 hidentity
      have hcapacity : 100 ≤ identityEventLimit.capacity := by decide
      exact (identityCosts_le hitem).trans (hcost.trans hcapacity)

lemma nodup_commonBuckets (stage : Stage) (principal : Principal) (clientIp : String) (cost : ℕ)
    (globalLimit projectLimit confidentialLimit browserLimit ipLimit : BucketLimit) :
    ((commonBuckets env stage principal clientIp cost globalLimit projectLimit confidentialLimit
      browserLimit ipLimit).map BucketDebit.key).Nodup := by
  have hne : ∀ scope scope' : Scope, scope ≠ scope' → keyText stage scope ≠ keyText stage scope' :=
    fun scope scope' hscope hkey => hscope (keyText_inj hkey).2
  simp [commonBuckets, hne]

lemma nodup_identityCosts (projectId : String) (events : List EventIds) :
    ((identityCosts env projectId events).map Prod.fst).Nodup := by
  simp only [identityCosts, List.map_map]
  have hid : (Prod.fst ∘ fun hash => (hash, (events.map (identityHash env projectId)).count hash)) =
      (id : String → String) := rfl
  rw [hid, List.map_id, (List.mergeSort_perm _ _).nodup_iff]
  exact List.nodup_dedup _

lemma nodup_keys (c : Check) : ((c.buckets env).map BucketDebit.key).Nodup := by
  cases c with
  | preAuth clientIp =>
    have hne : keyText .preauth .global ≠
        keyText .preauth (.ip (env.hashBucketIdentifier "ip" clientIp)) := by
      intro hkey
      cases (keyText_inj hkey).2
    simp [Check.buckets, hne]
  | request principal clientIp => exact nodup_commonBuckets ..
  | bytes principal clientIp serializedBytes => exact nodup_commonBuckets ..
  | events principal clientIp batch =>
    simp only [Check.buckets, List.map_append, List.map_map]
    refine List.nodup_append.2 ⟨nodup_commonBuckets .., ?_, ?_⟩
    · have hcomp : (BucketDebit.key ∘ fun item : String × ℕ =>
          (⟨keyText .event (.identity item.1), identityEventLimit, item.2⟩ : BucketDebit)) =
          (fun hash => keyText .event (.identity hash)) ∘ Prod.fst := rfl
      rw [hcomp, ← List.map_map]
      refine (nodup_identityCosts _ _).map fun hash hash' hkey => ?_
      exact Scope.identity.inj (keyText_inj hkey).2
    · rintro key hcommon key' hidentity rfl
      obtain ⟨d, hd, rfl⟩ := List.mem_map.1 hcommon
      obtain ⟨item, -, hkey⟩ := List.mem_map.1 hidentity
      obtain ⟨-, ⟨hd', -⟩ | ⟨hd', -⟩ | ⟨hd', -⟩ | ⟨hd', -⟩⟩ := mem_commonBuckets hd
      all_goals
        rw [hd'] at hkey
        cases (keyText_inj hkey).2

lemma eq_of_key_eq {d' : BucketDebit} (hd : d ∈ c.buckets env)
    (hd' : d' ∈ c.buckets env) (hkey : d.key = d'.key) : d = d' :=
  List.inj_on_of_nodup_map (nodup_keys c) hd hd' hkey

end Apdl.Ingest.RateLimit
