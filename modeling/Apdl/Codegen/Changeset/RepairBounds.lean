import Apdl.Codegen.Changeset.CiProjection
import Apdl.Codegen.Changeset.Repair

set_option autoImplicit false

/-!
# Repairs are bounded and tied to a head

Claims are counted in the row of the changeset and are unique by their key, and a result is projected by
compare and set. The recorded head can go back to a head that was repaired only through something that is
older than the repair: an observation that was read before the push, or a push that came before it.

## Main results

* `repaired_head_recorded_again` — a slow reader records the head that was repaired.
-/

namespace Apdl.Codegen

variable {sha256 : Hashed → Text} {maxAttempts : ℕ} {s s' : Repairs}

/-! ## The invariant -/

/-- A claim of the head was granted. -/
def Repairs.Claimed (s : Repairs) (changesetId headSha : Text) : Prop :=
  ∃ c ∈ s.claims.rows, c.changesetId = changesetId ∧ c.failedHeadSha = headSha

/-- The commit has its place among the heads. -/
def Repairs.Placed (s : Repairs) (changesetId : Text) (pushed : Option (Text × ℕ)) : Prop :=
  ∀ p ∈ pushed, (s.heads changesetId)[p.2]? = some p.1

/-- The reading is of the last head that there was. -/
def Repairs.Saw (s : Repairs) (r : Sighting) : Prop :=
  ∃ n, r.at_ = n + 1 ∧ (s.heads r.obs.changesetId)[n]? = some r.obs.headSha

/-- What fresh steps keep. -/
structure Repairs.Inv (maxAttempts : ℕ) (s : Repairs) : Prop where
  counted : ∀ changesetId, s.claims.rows.countP (fun c => c.changesetId == changesetId) =
    ((s.get changesetId).map Changeset.ciRetryCount).getD 0
  counted_le : ∀ changesetId row, s.get changesetId = some row → row.ciRetryCount ≤ maxAttempts
  saw : ∀ r ∈ s.sightings, s.Saw r
  repairs : ∀ r ∈ s.repairs, s.Claimed r.obs.changesetId r.obs.headSha ∧
    s.Placed r.obs.changesetId r.pushed
  results : ∀ r ∈ s.results, r.recorded = some r.failedHead ∧ s.Claimed r.changesetId r.failedHead ∧
    s.Placed r.changesetId r.resulting
  again : ∀ r ∈ s.results, ∀ p ∈ r.resulting, r.failedHead ≠ p.1 →
    ∀ row ∈ s.get r.changesetId, row.headSha = some r.failedHead →
      s.Returned r.changesetId r.failedHead p.2

/-- The heads of every pull request are kept, and others are added. -/
def Repairs.Extends (s s' : Repairs) : Prop := ∀ changesetId, s.heads changesetId <+: s'.heads changesetId

lemma Repairs.Extends.getElem? (h : s.Extends s') {changesetId headSha : Text} {n : ℕ}
    (hn : (s.heads changesetId)[n]? = some headSha) : (s'.heads changesetId)[n]? = some headSha := by
  obtain ⟨more, hmore⟩ := h changesetId
  rw [← hmore]
  exact Rows.getElem?_append_of_some more hn

lemma extends_update {s : Repairs} (changesetId headSha : Text) (changesetId' : Text) :
    s.heads changesetId' <+:
      Function.update s.heads changesetId (s.heads changesetId ++ [headSha]) changesetId' := by
  by_cases h : changesetId' = changesetId
  · subst h
    simpa only [Function.update_self] using List.prefix_append _ _
  · exact ⟨[], by rw [List.append_nil, Function.update_of_ne h]⟩

/-- **A step that grants no claim and projects no result** keeps the invariant, if every head that it records
was recorded before or comes after the repairs of it. -/
lemma Repairs.Inv.of_frame (h : s.Inv maxAttempts)
    (hcount : ∀ k, (s'.get k).map Changeset.ciRetryCount = (s.get k).map Changeset.ciRetryCount)
    (hclaims : s'.claims = s.claims) (hheads : s.Extends s')
    (hsaw : ∀ r ∈ s'.sightings, r ∈ s.sightings ∨ s'.Saw r)
    (hrepairs : ∀ r ∈ s'.repairs, r ∈ s.repairs ∨
      s'.Claimed r.obs.changesetId r.obs.headSha ∧ s'.Placed r.obs.changesetId r.pushed)
    (hresults : s'.results = s.results)
    (hagain : ∀ k row', s'.get k = some row' → ∀ head, row'.headSha = some head →
      (∃ row, s.get k = some row ∧ row.headSha = some head) ∨
        AfterRepairs s k head fun place => s'.Returned k head place) :
    s'.Inv maxAttempts := by
  have hclaimed : ∀ {k head : Text}, s.Claimed k head → s'.Claimed k head := by
    intro k head hc
    unfold Repairs.Claimed
    rwa [hclaims]
  have hplaced : ∀ {k : Text} {pushed : Option (Text × ℕ)}, s.Placed k pushed → s'.Placed k pushed :=
    fun hp p hmem => hheads.getElem? (hp p hmem)
  constructor
  case counted =>
    intro k
    rw [hclaims, h.counted k, hcount k]
  case counted_le =>
    intro k row' hrow'
    have hk := hcount k
    rw [hrow', Option.map_some] at hk
    obtain ⟨row, hrow, heq⟩ := Option.map_eq_some_iff.1 hk.symm
    exact heq ▸ h.counted_le k row hrow
  case saw =>
    intro r hr
    rcases hsaw r hr with hold | hnew
    · obtain ⟨n, hn, hhead⟩ := h.saw r hold
      exact ⟨n, hn, hheads.getElem? hhead⟩
    · exact hnew
  case repairs =>
    intro r hr
    rcases hrepairs r hr with hold | hnew
    · exact ⟨hclaimed (h.repairs r hold).1, hplaced (h.repairs r hold).2⟩
    · exact hnew
  case results =>
    intro r hr
    rw [hresults] at hr
    obtain ⟨hrecorded, hc, hp⟩ := h.results r hr
    exact ⟨hrecorded, hclaimed hc, hplaced hp⟩
  case again =>
    intro r hr p hp hne row' hrow' hhead
    rw [hresults] at hr
    rcases hagain _ row' hrow' _ hhead with ⟨row, hrow, hhead'⟩ | hafter
    · obtain ⟨j, hlt, hj⟩ := h.again r hr p hp hne row hrow hhead'
      exact ⟨j, hlt, hheads.getElem? hj⟩
    · exact hafter r hr rfl rfl p hp hne

/-! ## Rows -/

/-- The columns of claims and of the head are kept. -/
structure KeepsRow (row row' : Changeset) : Prop where
  key : row'.changesetId = row.changesetId
  count : row'.ciRetryCount = row.ciRetryCount
  head : row'.headSha = row.headSha

/-- The tables whose rows keep their columns of claims and of the head. -/
def KeepsRows (t t' : Table Changeset.changesetId) : Prop :=
  t' = t ∨ ∃ row row', t.get row.changesetId = some row ∧ KeepsRow row row' ∧ t' = t.replace row'

lemma KeepsRows.count {t t' : Table Changeset.changesetId} (h : KeepsRows t t') (k : Text) :
    (t'.get k).map Changeset.ciRetryCount = (t.get k).map Changeset.ciRetryCount := by
  obtain rfl | ⟨row, row', hget, hkeeps, rfl⟩ := h
  · rfl
  · rw [Table.get_replace_of_get (by rw [hkeeps.key]; exact hget)]
    by_cases hk : k = row'.changesetId
    · rw [if_pos hk, hk, hkeeps.key, hget, Option.map_some, Option.map_some, hkeeps.count]
    · rw [if_neg hk]

lemma KeepsRows.head {t t' : Table Changeset.changesetId} (h : KeepsRows t t') {k : Text}
    {row' : Changeset} (hrow' : t'.get k = some row') :
    ∃ row, t.get k = some row ∧ row.headSha = row'.headSha := by
  obtain rfl | ⟨old, new, hget, hkeeps, rfl⟩ := h
  · exact ⟨row', hrow', rfl⟩
  · rw [Table.get_replace_of_get (by rw [hkeeps.key]; exact hget)] at hrow'
    by_cases hk : k = new.changesetId
    · rw [if_pos hk] at hrow'
      exact ⟨old, by rw [hk, hkeeps.key, hget], Option.some.inj hrow' ▸ hkeeps.head.symm⟩
    · rw [if_neg hk] at hrow'
      exact ⟨row', hrow', rfl⟩

variable {obs : CIVerificationObservation}

lemma applyCi_keepsRows {store : Store} {p : Store × ApplyReason}
    (h : applyCiVerificationObservation sha256 store obs = some p) :
    KeepsRows store.changesets p.1.changesets := by
  unfold applyCiVerificationObservation at h
  split at h
  · cases h
    exact .inl rfl
  split at h
  · cases h
    exact .inl rfl
  cases hget : store.changesets.get obs.changesetId with
  | none =>
    rw [hget] at h
    cases h
    exact .inl rfl
  | some row =>
    rw [hget] at h
    dsimp only at h
    split at h
    · cases h
      exact .inl rfl
    · obtain ⟨attempts, -, rfl⟩ := Option.map_eq_some_iff.1 h
      have hkey : row.changesetId = obs.changesetId := Table.get_key hget
      exact .inr ⟨row, row.check obs, hkey ▸ hget, ⟨rfl, rfl, rfl⟩, rfl⟩

lemma Repairs.Inv.of_keeps (h : s.Inv maxAttempts) (hrows : KeepsRows s.changesets s'.changesets)
    (hclaims : s'.claims = s.claims) (hheads : s.Extends s')
    (hsaw : ∀ r ∈ s'.sightings, r ∈ s.sightings ∨ s'.Saw r)
    (hrepairs : ∀ r ∈ s'.repairs, r ∈ s.repairs ∨
      s'.Claimed r.obs.changesetId r.obs.headSha ∧ s'.Placed r.obs.changesetId r.pushed)
    (hresults : s'.results = s.results) : s'.Inv maxAttempts := by
  refine h.of_frame hrows.count hclaims hheads hsaw hrepairs hresults fun k row' hrow' head hhead => ?_
  obtain ⟨row, hrow, heq⟩ := hrows.head hrow'
  exact .inl ⟨row, hrow, heq.trans hhead⟩

/-! ## Claims and results -/

lemma claim_cases {row : Changeset} {checks : List CIVerificationObservation}
    {claims : Table RemediationClaim.key} {scope : Text}
    {budgetExpired : Bool} {r : Changeset × Table RemediationClaim.key × ClaimReason}
    (h : row.claim checks claims obs scope maxAttempts budgetExpired = r) :
    (KeepsRow row r.1 ∧ r.2.1 = claims ∧ ∀ n, r.2.2 ≠ .claimed n) ∨
      (r.1.changesetId = row.changesetId ∧ r.1.headSha = row.headSha ∧
        r.1.ciRetryCount = row.ciRetryCount + 1 ∧ row.ciRetryCount < maxAttempts ∧
        r.2.1.rows = claims.rows ++ [⟨obs.changesetId, obs.headSha, scope, obs.observationId⟩]) := by
  subst h
  unfold Changeset.claim
  split
  · exact .inl ⟨⟨rfl, rfl, rfl⟩, rfl, fun n hn => by cases hn⟩
  split
  · exact .inl ⟨⟨rfl, rfl, rfl⟩, rfl, fun n hn => by cases hn⟩
  rename_i hbudget
  split
  · exact .inl ⟨⟨rfl, rfl, rfl⟩, rfl, fun n hn => by cases hn⟩
  split
  · exact .inl ⟨⟨rfl, rfl, rfl⟩, rfl, fun n hn => by cases hn⟩
  · rename_i claims' hinsert
    refine .inr ⟨rfl, rfl, rfl, ?_, Table.rows_of_insert hinsert⟩
    exact Nat.lt_of_not_le fun hle => hbudget (.inl hle)

/-- **A claim keeps the invariant**: a granted one is counted. -/
lemma Repairs.Inv.claim (h : s.Inv maxAttempts) {scope : Text}
    {budgetExpired : Bool} (hstep : s.claim maxAttempts obs scope budgetExpired = some s') :
    s'.Inv maxAttempts := by
  unfold Repairs.claim at hstep
  split at hstep
  · cases hstep
  cases hget : s.get obs.changesetId with
  | none =>
    rw [hget] at hstep
    cases hstep
    exact h
  | some row =>
    rw [hget] at hstep
    dsimp only at hstep
    cases hstep
    have hkey : row.changesetId = obs.changesetId := Table.get_key hget
    generalize hr : row.claim s.db.store.checks.rows s.claims obs scope maxAttempts budgetExpired = r
    obtain ⟨new, claims, reason⟩ := r
    rcases claim_cases hr with ⟨hkeeps, hclaims, hreason⟩ | ⟨hkey', hhead', hcount', hlt, hrows⟩
    · refine h.of_keeps (.inr ⟨row, new, hkey ▸ hget, hkeeps, rfl⟩) hclaims
        (fun _ => List.prefix_rfl) (fun r hr => .inl hr) (fun r hr => .inl ?_) rfl
      rcases List.mem_append.1 hr with hold | hnew
      · exact hold
      · cases reason with
        | claimed n => exact absurd rfl (hreason n)
        | _ => cases hnew
    · have hclaimed : ∀ {k head : Text}, s.Claimed k head → ∃ c ∈ claims.rows,
          c.changesetId = k ∧ c.failedHeadSha = head := by
        rintro k head ⟨c, hc, hceq⟩
        exact ⟨c, hrows ▸ List.mem_append_left _ hc, hceq⟩
      have hgets : ∀ k, (s.changesets.replace new).get k =
          if k = obs.changesetId then some new else s.get k := by
        intro k
        rw [Table.get_replace_of_get (by rw [hkey', hkey]; exact hget), hkey', hkey]
        rfl
      constructor
      case counted =>
        intro k
        show claims.rows.countP _ = (((s.changesets.replace new).get k).map _).getD 0
        rw [hgets, hrows, List.countP_append, h.counted k, List.countP_singleton]
        by_cases hk : k = obs.changesetId
        · rw [if_pos hk, hk, hget, if_pos (beq_self_eq_true _)]
          exact hcount'.symm
        · have hne : ¬ (obs.changesetId == k) = true := fun heq => hk (beq_iff_eq.1 heq).symm
          rw [if_neg hk, if_neg hne, Nat.add_zero]
      case counted_le =>
        intro k row₂ hrow₂
        have hfound : (s.changesets.replace new).get k = some row₂ := hrow₂
        rw [hgets] at hfound
        by_cases hk : k = obs.changesetId
        · rw [if_pos hk] at hfound
          rw [← Option.some.inj hfound, hcount']
          exact hlt
        · rw [if_neg hk] at hfound
          exact h.counted_le k row₂ hfound
      case saw => exact h.saw
      case repairs =>
        intro r hr
        rcases List.mem_append.1 hr with hold | hnew
        · exact ⟨hclaimed (h.repairs r hold).1, (h.repairs r hold).2⟩
        · cases reason with
          | claimed n =>
            rw [List.mem_singleton.1 hnew]
            refine ⟨⟨_, hrows ▸ List.mem_append_right _ (List.mem_singleton.2 rfl), rfl, rfl⟩, ?_⟩
            intro p hp
            cases hp
          | _ => cases hnew
      case results =>
        intro r hr
        obtain ⟨hrecorded, hc, hp⟩ := h.results r hr
        exact ⟨hrecorded, hclaimed hc, hp⟩
      case again =>
        intro r hr p hp hne row₂ hrow₂ hhead
        have hfound : (s.changesets.replace new).get r.changesetId = some row₂ := hrow₂
        rw [hgets] at hfound
        by_cases hk : r.changesetId = obs.changesetId
        · rw [if_pos hk] at hfound
          rw [← Option.some.inj hfound, hhead'] at hhead
          exact h.again r hr p hp hne row (by rw [hk]; exact hget) hhead
        · rw [if_neg hk] at hfound
          exact h.again r hr p hp hne row₂ hfound hhead

lemma projectResult_head (row : Changeset) (resulting : Option Text) (exhausted : Bool)
    (error : Option Text) :
    (row.projectResult resulting exhausted error).headSha = resulting.or row.headSha := by
  cases resulting <;> rfl

lemma projectResult_keeps (row : Changeset) (resulting : Option Text) (exhausted : Bool)
    (error : Option Text) :
    (row.projectResult resulting exhausted error).changesetId = row.changesetId ∧
      (row.projectResult resulting exhausted error).ciRetryCount = row.ciRetryCount := by
  cases resulting <;> exact ⟨rfl, rfl⟩

/-- **A result keeps the invariant**, if the commit that it records comes after the repairs of it. -/
lemma Repairs.Inv.project (h : s.Inv maxAttempts) {k : ℕ} {success exhausted : Bool}
    {error : Option Text} (hfresh : Fresh s (.project k success exhausted error))
    (hstep : s.project k success exhausted error = some s') : s'.Inv maxAttempts := by
  obtain ⟨rep, hrep, hstep⟩ := Option.bind_eq_some_iff.1 hstep
  split at hstep
  · cases hstep
  have hkept : ∀ r ∈ s.repairs.eraseIdx k, r ∈ s.repairs := fun r hr => List.mem_of_mem_eraseIdx hr
  have hended : ({ s with repairs := s.repairs.eraseIdx k } : Repairs).Inv maxAttempts :=
    h.of_keeps (.inl rfl) rfl (fun _ => List.prefix_rfl) (fun r hr => .inl hr)
      (fun r hr => .inl (hkept r hr)) rfl
  cases hget : s.get rep.obs.changesetId with
  | none =>
    rw [hget] at hstep
    cases hstep
    exact hended
  | some row =>
    rw [hget] at hstep
    dsimp only at hstep
    split at hstep
    · cases hstep
      exact hended
    rename_i hat
    have hatHead : row.atHead rep.obs.headSha = true := Bool.not_eq_false _ ▸ hat
    cases hstep
    obtain ⟨hclaimed, hplaced⟩ := h.repairs rep (List.mem_of_getElem? hrep)
    have hkey : row.changesetId = rep.obs.changesetId := Table.get_key hget
    have hrecorded : row.headSha = some rep.obs.headSha := by
      simp only [Changeset.atHead, Bool.and_eq_true, beq_iff_eq] at hatHead
      exact hatHead.2
    generalize hresulting : (if success = true then rep.pushed else none) = resulting
    have hpushed : ∀ p ∈ resulting, p ∈ rep.pushed ∧ success = true := by
      intro p hp
      rw [← hresulting] at hp
      split at hp
      · rename_i hs
        exact ⟨hp, hs⟩
      · cases hp
    obtain ⟨hid, hcount⟩ := projectResult_keeps row (resulting.map Prod.fst) exhausted error
    have hhead := projectResult_head row (resulting.map Prod.fst) exhausted error
    generalize row.projectResult (resulting.map Prod.fst) exhausted error = new at hid hcount hhead
    have hgets : ∀ k, (s.changesets.replace new).get k =
        if k = rep.obs.changesetId then some new else s.get k := by
      intro k
      rw [Table.get_replace_of_get (by rw [hid, hkey]; exact hget), hid, hkey]
      rfl
    constructor
    case counted =>
      intro k
      show s.claims.rows.countP _ = (((s.changesets.replace new).get k).map _).getD 0
      rw [hgets, h.counted k]
      by_cases hk : k = rep.obs.changesetId
      · rw [if_pos hk, hk, hget, Option.map_some, Option.map_some, hcount]
      · rw [if_neg hk]
    case counted_le =>
      intro k row₂ hrow₂
      have hfound : (s.changesets.replace new).get k = some row₂ := hrow₂
      rw [hgets] at hfound
      by_cases hk : k = rep.obs.changesetId
      · rw [if_pos hk] at hfound
        rw [← Option.some.inj hfound, hcount]
        exact h.counted_le _ row hget
      · rw [if_neg hk] at hfound
        exact h.counted_le k row₂ hfound
    case saw => exact h.saw
    case repairs => exact fun r hr => h.repairs r (hkept r hr)
    case results =>
      intro r hr
      rcases List.mem_append.1 hr with hold | hnew
      · exact h.results r hold
      · rw [List.mem_singleton.1 hnew]
        exact ⟨hrecorded, hclaimed, fun p hp => hplaced p (hpushed p hp).1⟩
    case again =>
      intro r hr p hp hne row₂ hrow₂ hhead₂
      have hfound : (s.changesets.replace new).get r.changesetId = some row₂ := hrow₂
      rw [hgets] at hfound
      rcases List.mem_append.1 hr with hold | hnew
      · by_cases hk : r.changesetId = rep.obs.changesetId
        · rw [if_pos hk] at hfound
          rw [← Option.some.inj hfound, hhead] at hhead₂
          cases hcase : resulting with
          | none =>
            rw [hcase] at hhead₂
            exact h.again r hold p hp hne row (by rw [hk]; exact hget) hhead₂
          | some q =>
            -- an older result moved away from the commit that is recorded now
            rw [hcase] at hhead₂
            have hq : q.1 = r.failedHead := Option.some.inj hhead₂
            obtain ⟨hqpushed, hsuccess⟩ := hpushed q hcase
            rw [hsuccess] at hfresh
            have hlt : p.2 < q.2 :=
              hfresh rep hrep row hget hatHead q hqpushed r hold hk hq.symm p hp hne
            have hplace : (s.heads r.changesetId)[q.2]? = some r.failedHead := by
              rw [hk, hplaced q hqpushed, hq]
            exact ⟨q.2, hlt, hplace⟩
        · rw [if_neg hk] at hfound
          exact h.again r hold p hp hne row₂ hfound hhead₂
      · obtain rfl := List.mem_singleton.1 hnew
        rw [if_pos rfl] at hfound
        have hsome : resulting = some p := hp
        rw [← Option.some.inj hfound, hhead, hsome] at hhead₂
        exact absurd (Option.some.inj hhead₂).symm hne

/-- **A statement keeps the invariant**, if an observation that it projects was read after the repairs of its
head. -/
lemma Repairs.Inv.observe (h : s.Inv maxAttempts) {a : Statement} (hfresh : Fresh s (.observe a))
    (hstep : s.observe a = some s') : s'.Inv maxAttempts := by
  unfold Repairs.observe at hstep
  split at hstep
  case isFalse => cases hstep
  obtain ⟨db, hdb, rfl⟩ := Option.map_eq_some_iff.1 hstep
  have hsame : db.store.changesets = s.changesets → ({ s with db := db } : Repairs).Inv maxAttempts :=
    fun heq => h.of_keeps (.inl heq) rfl (fun _ => List.prefix_rfl) (fun r hr => .inl hr)
      (fun r hr => .inl hr) rfl
  by_cases hcommit : ∃ i, a = .commit i
  case neg => exact hsame (perform_changesets hdb fun i hi => hcommit ⟨i, hi⟩)
  obtain ⟨i, rfl⟩ := hcommit
  rcases commit_cases hdb with heq | ⟨t, p, ht, hphase, hp, hchangesets⟩
  · exact hsame heq
  rcases project_cases hp with heq | ⟨row, next, hget, hmatch, hnext, hreplace⟩
  · exact hsame (hchangesets.trans heq)
  have hkey : row.changesetId = t.obs.changesetId := Table.get_key hget
  have hgets : ∀ k, db.store.changesets.get k =
      if k = t.obs.changesetId then some (row.observe t.obs next) else s.get k := by
    intro k
    have hself : (row.observe t.obs next).changesetId = t.obs.changesetId := hkey
    rw [hchangesets, hreplace, Table.get_replace_of_get (by rw [hself]; exact hget), hself]
    rfl
  have hafter := hfresh t ht hphase row hget hmatch (by rw [hnext]; exact Option.some_ne_none _)
  refine h.of_frame ?_ rfl (fun _ => List.prefix_rfl) (fun r hr => .inl hr) (fun r hr => .inl hr) rfl ?_
  · intro k
    show (db.store.changesets.get k).map _ = _
    rw [hgets]
    by_cases hk : k = t.obs.changesetId
    · have hrow : s.get t.obs.changesetId = some row := hget
      rw [if_pos hk, hk, hrow]
      rfl
    · rw [if_neg hk]
  · intro k row' hrow' head hhead
    have hfound : db.store.changesets.get k = some row' := hrow'
    rw [hgets] at hfound
    by_cases hk : k = t.obs.changesetId
    · rw [if_pos hk] at hfound
      rw [← Option.some.inj hfound] at hhead
      have hhead' : t.obs.headSha = head := Option.some.inj hhead
      refine .inr fun r hr hrk hrhead q hq hne => ?_
      obtain ⟨sighting, hmem, hobs, hlt⟩ :=
        hafter r hr (hrk.trans hk) (hrhead.trans hhead'.symm) q hq hne
      obtain ⟨n, hn, hsaw⟩ := h.saw sighting hmem
      rw [hobs, ← hk, hhead'] at hsaw
      refine ⟨n, Nat.lt_of_le_of_ne (by omega) ?_, hsaw⟩
      -- at its own place the push is not the head that it repaired
      rintro rfl
      have hplaced := (h.results r hr).2.2 q hq
      rw [hrk, hsaw] at hplaced
      exact hne (hrhead.trans (Option.some.inj hplaced))
    · rw [if_neg hk] at hfound
      exact .inl ⟨row', hfound, hhead⟩

theorem Repairs.Inv.step (h : s.Inv maxAttempts) {a : RepairAction} (hfresh : Fresh s a)
    (hstep : s.step sha256 maxAttempts a = some s') : s'.Inv maxAttempts := by
  cases a with
  | sight obs =>
    rw [Repairs.step, Repairs.sight] at hstep
    split at hstep
    case isFalse => cases hstep
    rename_i hlast
    cases hstep
    refine h.of_keeps (.inl rfl) rfl (fun _ => List.prefix_rfl) (fun r hr => ?_) (fun r hr => .inl hr)
      rfl
    rcases List.mem_append.1 hr with hold | hnew
    · exact .inl hold
    · rw [List.mem_singleton.1 hnew]
      rw [List.getLast?_eq_getElem?] at hlast
      have hlt := (List.getElem?_eq_some_iff.1 hlast).1
      exact .inr ⟨_, by dsimp only; omega, hlast⟩
  | observe a => exact h.observe hfresh hstep
  | applyChecks obs =>
    rw [Repairs.step, Repairs.applyChecks] at hstep
    split at hstep
    · cases hstep
    obtain ⟨p, hp, rfl⟩ := Option.map_eq_some_iff.1 hstep
    exact h.of_keeps (applyCi_keepsRows hp) rfl (fun _ => List.prefix_rfl) (fun r hr => .inl hr)
      (fun r hr => .inl hr) rfl
  | claim obs scope budgetExpired => exact h.claim hstep
  | recordAttempt a =>
    cases hstep
    exact h.of_keeps (.inl rfl) rfl (fun _ => List.prefix_rfl) (fun r hr => .inl hr)
      (fun r hr => .inl hr) rfl
  | progress changesetId failedHead status =>
    rw [Repairs.step] at hstep
    split at hstep
    · cases hstep
    cases hget : s.get changesetId with
    | none =>
      rw [hget] at hstep
      cases hstep
      exact h
    | some row =>
      rw [hget] at hstep
      cases hstep
      have hkey : row.changesetId = changesetId := Table.get_key hget
      have hkeeps : KeepsRow row (row.setRemediationInProgress failedHead status) := by
        unfold Changeset.setRemediationInProgress
        split <;> exact ⟨rfl, rfl, rfl⟩
      exact h.of_keeps (.inr ⟨row, _, hkey ▸ hget, hkeeps, rfl⟩) rfl (fun _ => List.prefix_rfl)
        (fun r hr => .inl hr) (fun r hr => .inl hr) rfl
  | push k headSha =>
    obtain ⟨rep, hrep, hstep⟩ := Option.bind_eq_some_iff.1 hstep
    dsimp only at hstep
    split at hstep
    · cases hstep
    cases hstep
    refine h.of_keeps (.inl rfl) rfl (fun c => extends_update _ _ c) (fun r hr => .inl hr)
      (fun r hr => ?_) rfl
    rcases List.mem_or_eq_of_mem_set hr with hold | rfl
    · exact .inl hold
    · refine .inr ⟨(h.repairs rep (List.mem_of_getElem? hrep)).1, fun p hp => ?_⟩
      cases hp
      dsimp only
      rw [Function.update_self, List.getElem?_concat_length]
  | move changesetId headSha =>
    cases hstep
    exact h.of_keeps (.inl rfl) rfl (fun c => extends_update _ _ c) (fun r hr => .inl hr)
      (fun r hr => .inl hr) rfl
  | project k success exhausted error => exact h.project hfresh hstep

lemma Repairs.Inv.init {initial : Store} {heads : Text → List Text}
    (hfresh : ∀ row ∈ initial.changesets.rows, row.ciRetryCount = 0) :
    (repairing sha256 maxAttempts initial heads).init.Inv maxAttempts where
  counted k := by
    show 0 = ((initial.changesets.get k).map Changeset.ciRetryCount).getD 0
    cases hget : initial.changesets.get k with
    | none => rfl
    | some row => exact (hfresh row (Table.mem_of_get hget)).symm
  counted_le k row hget := by
    rw [hfresh row (Table.mem_of_get hget)]
    exact Nat.zero_le _
  saw r hr := absurd hr List.not_mem_nil
  repairs r hr := absurd hr List.not_mem_nil
  results r hr := absurd hr List.not_mem_nil
  again r hr := absurd hr List.not_mem_nil

/-- **Repairs are bounded and tied to an exact head**, in every run of fresh steps from tables in which no
repair was claimed. -/
theorem repairs_bounded {initial : Store} {heads : Text → List Text}
    (hfresh : ∀ row ∈ initial.changesets.rows, row.ciRetryCount = 0)
    (hr : (repairing sha256 maxAttempts initial heads).ReachUnder Fresh s) :
    Bounded maxAttempts s := by
  have hinv : s.Inv maxAttempts :=
    StepMachine.ReachUnder.induct (P := Repairs.Inv maxAttempts) (Repairs.Inv.init hfresh)
      (fun s a s' _ hp hok hst => hp.step hok hst) hr
  refine ⟨fun k => ?_, s.claims.nodup, fun r hr => ?_, hinv.again⟩
  · rw [hinv.counted k]
    cases hget : s.get k with
    | none => exact Nat.zero_le _
    | some row => exact hinv.counted_le k row hget
  · exact ⟨(hinv.results r hr).1, (hinv.results r hr).2.1⟩

/-! ## A slow reader -/

/-- The checks of head `4f2a9c` of the example failed. -/
def exampleFailure : CIVerificationObservation where
  changesetId := Text.ofString "cs-1"
  repository := Text.ofString "acme/shop"
  prNumber := 7
  headSha := Text.ofString "4f2a9c"
  status := .failed
  signals := [
    { signalId := Text.ofString "commit_status:17869985454780608328b511"
      kind := .commitStatus
      name := Text.ofString "ci/build"
      conclusion := .failed
      githubUrl := none
      checkSuiteId := none
      checkRunId := none
      summary := none
      annotations := [] }]
  requirementResults := []
  failureKey := some (Text.ofString "ci_failure:4f2a9c:24c1895f75e0bc87e198e4bc")
  failureSummary :=
    some (Text.ofString "ci/build (commit_status:17869985454780608328b511): failed")
  observationId := Text.ofString "ciobs_b4d5a03551d80ee7e39b6bfe9f9a0466"
  observedAt := 1

/-- The pull request of the example has had one head. -/
def exampleHeads : Text → List Text := fun _ => [Text.ofString "4f2a9c"]

/-- Workers with two attempts for each changeset. -/
def exampleRepairing : StepMachine Repairs RepairAction :=
  repairing exampleSha256 2 exampleStore exampleHeads

/-- The failed checks are repaired: the head becomes `9be012`. -/
def exampleRepair : List RepairAction :=
  [.applyChecks exampleFailure,
    .claim exampleFailure (Text.ofString "commit_status:17869985454780608328b511") false,
    .push 0 (Text.ofString "9be012"), .project 0 true false none]

/-- An observation that was read is applied. -/
def exampleApply (obs : PullRequestObservation) : List RepairAction :=
  [.observe (.insert obs), .observe (.check 0), .observe (.lock 0), .observe (.commit 0)]

/-- The recorded head and the results. -/
def Repairs.summary (s : Repairs) : Option (Option Text) × List ProjectedResult :=
  ((s.get (Text.ofString "cs-1")).map Changeset.headSha, s.results)

def exampleResult : ProjectedResult where
  changesetId := Text.ofString "cs-1"
  failedHead := Text.ofString "4f2a9c"
  recorded := some (Text.ofString "4f2a9c")
  resulting := some (Text.ofString "9be012", 1)

lemma exampleStore_unclaimed : ∀ row ∈ exampleStore.changesets.rows, row.ciRetryCount = 0 := by
  intro row hrow
  rw [List.mem_singleton.1 hrow]
  rfl

/-- A reading from before the repair is applied before it, and one from after the repair is applied after
it. -/
theorem repairs_bounded_in_order : ∃ s, exampleRepairing.ReachUnder Fresh s ∧
    s.summary = (some (some (Text.ofString "9be012")), [exampleResult]) ∧ Bounded 2 s := by
  have hrun : (exampleRepairing.runUnder Fresh exampleRepairing.init
      (.sight (examplePush "pr_observation:1" "4f2a9c" 1) ::
        exampleApply (examplePush "pr_observation:1" "4f2a9c" 1) ++ exampleRepair ++
          .sight (examplePush "pr_observation:2" "9be012" 2) ::
            exampleApply (examplePush "pr_observation:2" "9be012" 2))).map Repairs.summary =
      some (some (some (Text.ofString "9be012")), [exampleResult]) := by
    decide +kernel
  obtain ⟨s, hs, hsummary⟩ := Option.map_eq_some_iff.1 hrun
  have hr := StepMachine.reachUnder_of_runUnder .init hs
  exact ⟨s, hr, hsummary, repairs_bounded exampleStore_unclaimed hr⟩

/-- **A slow reader**: it reads the pull request before the repair is pushed and applies the reading after the
result was projected, and the head that was repaired is recorded again. -/
theorem repaired_head_recorded_again : ∃ s, exampleRepairing.Reach s ∧
    s.summary = (some (some (Text.ofString "4f2a9c")), [exampleResult]) ∧
    s.heads (Text.ofString "cs-1") = [Text.ofString "4f2a9c", Text.ofString "9be012"] ∧
    ¬ Bounded 2 s := by
  have hrun : (exampleRepairing.run exampleRepairing.init
      (.sight (examplePush "pr_observation:1" "4f2a9c" 1) :: exampleRepair ++
        exampleApply (examplePush "pr_observation:1" "4f2a9c" 1))).map
          (fun s => (s.summary, s.heads (Text.ofString "cs-1"))) =
      some ((some (some (Text.ofString "4f2a9c")), [exampleResult]),
        [Text.ofString "4f2a9c", Text.ofString "9be012"]) := by
    decide +kernel
  obtain ⟨s, hs, hvalues⟩ := Option.map_eq_some_iff.1 hrun
  obtain ⟨hsummary, hheads⟩ := Prod.mk.inj hvalues
  refine ⟨s, StepMachine.reach_of_run hs, hsummary, hheads, fun hbounded => ?_⟩
  obtain ⟨hhead, hresults⟩ := Prod.mk.inj hsummary
  obtain ⟨row, hrow, hrecorded⟩ := Option.map_eq_some_iff.1 hhead
  have hresult : exampleResult ∈ s.results := by
    rw [hresults]
    exact List.mem_singleton.2 rfl
  obtain ⟨j, hlt, hj⟩ := hbounded.not_recorded_again exampleResult hresult
    (Text.ofString "9be012", 1) rfl (by decide +kernel) row hrow hrecorded
  have hplaces : (s.heads (Text.ofString "cs-1"))[j]? = some (Text.ofString "4f2a9c") := hj
  rw [hheads] at hplaces
  have hshort := (List.getElem?_eq_some_iff.1 hplaces).1
  simp only [List.length_cons, List.length_nil] at hshort
  omega

end Apdl.Codegen
