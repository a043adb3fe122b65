import Apdl.Agents.Quota.Model
import Mathlib.Algebra.Order.Ring.Int

set_option autoImplicit false

/-!
# Mutation quotas bound every hour

The count of a transaction has no upper end: it takes in the reservations of transactions that started
later and got the lock earlier. So when a row is committed, fewer than the limit lie in the hour before
its time or after it, and no hour at all can come to contain more than the limit.

## Main results

* `quota_of_reach` — every hour is bounded, and repeated keys succeed without a reservation.
-/

namespace Apdl.Agents.Quota

open Text (ofString)

variable {hash : Text → ℤ}

/-! ## Rows -/

/-- The times of the reservations for a project and an action. -/
def times (rows : List Row) (projectId : Text) (actionType : ActionType) : List ℤ :=
  (rows.filter fun row => row.isFor projectId actionType).map Row.occurredAt

/-- There is no reservation for the identity. -/
def Fresh (rows : List Row) (identity : Identity) : Prop := ∀ row ∈ rows, row.identity ≠ identity

lemma times_append (rows : List Row) (row : Row) (projectId : Text) (actionType : ActionType) :
    times (rows ++ [row]) projectId actionType =
      times rows projectId actionType ++
        if row.isFor projectId actionType then [row.occurredAt] else [] := by
  rw [times, List.filter_append, List.map_append, ← times]
  by_cases h : row.isFor projectId actionType = true
  · simp [h]
  · simp [h]

variable {rows : List Row}

lemma selectCount_eq (h : ∀ row ∈ rows, row.policyVersion = policyVersion)
    (identity : Identity) (now : ℤ) :
    selectCount rows identity now =
      Rolling.countSince window now (times rows identity.projectId identity.actionType) := by
  rw [selectCount, Rolling.countSince, times, List.countP_map, List.countP_filter]
  refine List.countP_congr fun row hrow => ?_
  simp [h row hrow, and_comm]

variable {identity : Identity}

lemma fresh_of_selectExisting (h : selectExisting rows identity = none) : Fresh rows identity := by
  intro row hrow heq
  rw [selectExisting, Option.map_eq_none_iff, List.find?_eq_none] at h
  exact h row hrow (by simp [heq])

variable {row : Row}

lemma filter_identity (h : (rows.map Row.identity).Nodup)
    (hrow : row ∈ rows) : rows.filter (fun r => decide (r.identity = row.identity)) = [row] := by
  induction rows with
  | nil => exact absurd hrow List.not_mem_nil
  | cons r rest ih =>
    rw [List.map_cons, List.nodup_cons] at h
    rcases List.mem_cons.1 hrow with rfl | hin
    · have hnone : rest.filter (fun r => decide (r.identity = row.identity)) = [] := by
        rw [List.filter_eq_nil_iff]
        intro u hu heq
        exact h.1 (List.mem_map.2 ⟨u, hu, of_decide_eq_true heq⟩)
      rw [List.filter_cons, if_pos (decide_eq_true rfl), hnone]
    · have hne : r.identity ≠ row.identity := fun heq =>
        h.1 (List.mem_map.2 ⟨row, hin, heq.symm⟩)
      rw [List.filter_cons_of_neg (by simp [hne]), ih h.2 hin]

lemma insertRow_of_fresh (h : Fresh rows identity) (now : ℤ) :
    insertRow rows identity now = some ⟨identity, policyVersion, now⟩ := by
  refine if_neg ?_
  rw [List.any_eq_true]
  rintro ⟨row, hrow, heq⟩
  exact h row hrow (beq_iff_eq.1 heq)

/-- What a transaction knows of the table while it has the lock. -/
def Transaction.Ok (rows : List Row) (t : Transaction) : Prop :=
  match t.stage with
  | .waiting | .locked | .ended _ => True
  | .searched existing => existing = none → Fresh rows t.identity
  | .counted existing count =>
    count = selectCount rows t.identity t.now ∧ (existing = none → Fresh rows t.identity)
  | .inserted row count =>
    row = some ⟨t.identity, policyVersion, t.now⟩ ∧ count = selectCount rows t.identity t.now ∧
      count < limit t.identity.actionType ∧ Fresh rows t.identity

lemma Transaction.ok_of_not_holds {t : Transaction} (h : t.stage.holds = false) :
    t.Ok rows := by
  unfold Transaction.Ok
  cases hstage : t.stage <;> simp_all [Stage.holds]

lemma Transaction.Ok.append {t : Transaction} (h : t.Ok rows)
    (hrow : row.isFor t.identity.projectId t.identity.actionType = false) : t.Ok (rows ++ [row]) := by
  have hcount : selectCount (rows ++ [row]) t.identity t.now = selectCount rows t.identity t.now := by
    simp [selectCount, hrow]
  have hfresh : Fresh rows t.identity → Fresh (rows ++ [row]) t.identity := by
    intro hf r hr heq
    rw [List.mem_append, List.mem_singleton] at hr
    rcases hr with hr | rfl
    · exact hf r hr heq
    · simp [Row.isFor, heq] at hrow
  unfold Transaction.Ok at h ⊢
  cases hstage : t.stage with
  | waiting | locked | ended => trivial
  | searched existing =>
    rw [hstage] at h
    exact fun he => hfresh (h he)
  | counted existing count =>
    rw [hstage] at h
    exact ⟨h.1.trans hcount.symm, fun he => hfresh (h.2 he)⟩
  | inserted inserted count =>
    rw [hstage] at h
    exact ⟨h.1, h.2.1.trans hcount.symm, h.2.2.1, hfresh h.2.2.2⟩

/-! ## The invariant -/

/-- What holds in every reachable state. -/
structure Inv (hash : Text → ℤ) (s : State) : Prop where
  policy : ∀ row ∈ s.rows, row.policyVersion = policyVersion
  bounded : ∀ projectId actionType,
    Rolling.Bounded window (limit actionType) (times s.rows projectId actionType)
  unique : (s.rows.map Row.identity).Nodup
  exclusive : ∀ {i j : ℕ} {t u : Transaction}, s.transactions[i]? = some t →
    s.transactions[j]? = some u → t.stage.holds = true → u.stage.holds = true →
    lockKey hash t.identity = lockKey hash u.identity → i = j
  ok : ∀ {i : ℕ} {t : Transaction}, s.transactions[i]? = some t → t.Ok s.rows

variable {s s' : State} {i : ℕ} {t : Transaction}

lemma Inv.setStage {stage : Stage} (h : Inv hash s) (ht : s.transactions[i]? = some t)
    (hholds : stage.holds = true → t.stage.holds = true ∨
      s.isLocked hash (lockKey hash t.identity) = false)
    (hok : Transaction.Ok s.rows { t with stage := stage }) : Inv hash (s.setStage i t stage) := by
  refine ⟨h.policy, h.bounded, h.unique, ?_, ?_⟩
  · intro j k u v hu hv hju hkv hkey
    simp only [State.setStage] at hu hv
    rw [Rows.getElem?_set_of_some ht] at hu hv
    -- nobody else holds the key of the transaction that goes on
    have hother : ∀ {m : ℕ} {w : Transaction}, m ≠ i → stage.holds = true →
        s.transactions[m]? = some w → w.stage.holds = true →
        lockKey hash w.identity = lockKey hash t.identity → False := by
      intro m w hm hs hw hwh hwk
      rcases hholds hs with ht' | hfree
      · exact hm (h.exclusive hw ht hwh ht' hwk)
      · rw [State.isLocked, List.any_eq_false] at hfree
        exact hfree w (List.mem_of_getElem? hw) (by simp [hwh, hwk])
    by_cases hj : j = i <;> by_cases hk : k = i
    · rw [hj, hk]
    · rw [if_pos hj, Option.some.injEq] at hu
      rw [if_neg hk] at hv
      subst hu
      exact (hother hk hju hv hkv hkey.symm).elim
    · rw [if_neg hj] at hu
      rw [if_pos hk, Option.some.injEq] at hv
      subst hv
      exact (hother hj hkv hu hju hkey).elim
    · rw [if_neg hj] at hu
      rw [if_neg hk] at hv
      exact h.exclusive hu hv hju hkv hkey
  · intro j u hu
    simp only [State.setStage] at hu ⊢
    rw [Rows.getElem?_set_of_some ht] at hu
    by_cases hj : j = i
    · rw [if_pos hj, Option.some.injEq] at hu
      exact hu ▸ hok
    · rw [if_neg hj] at hu
      exact h.ok hu

lemma Inv.begin (h : Inv hash s) (identity : Identity) (now : ℤ) :
    Inv hash { s with transactions := s.transactions ++ [⟨identity, now, .waiting⟩] } := by
  refine ⟨h.policy, h.bounded, h.unique, ?_, ?_⟩
  · intro j k u v hu hv hju hkv hkey
    rcases Rows.getElem?_append_cases hu with hu | ⟨m, -, hu⟩
    · rcases Rows.getElem?_append_cases hv with hv | ⟨m, -, hv⟩
      · exact h.exclusive hu hv hju hkv hkey
      · obtain rfl := List.mem_singleton.1 (List.mem_of_getElem? hv)
        cases hkv
    · obtain rfl := List.mem_singleton.1 (List.mem_of_getElem? hu)
      cases hju
  · intro j u hu
    rcases Rows.getElem?_append_cases hu with hu | ⟨m, -, hu⟩
    · exact h.ok hu
    · obtain rfl := List.mem_singleton.1 (List.mem_of_getElem? hu)
      exact Transaction.ok_of_not_holds rfl

lemma lockKey_of_isFor (h : row.isFor identity.projectId identity.actionType = true) :
    lockKey hash identity = lockKey hash row.identity := by
  rw [Row.isFor, Bool.and_eq_true, beq_iff_eq, beq_iff_eq] at h
  rw [lockKey, lockKey, h.1, h.2]

/-- A transaction commits its row.

**Proof sketch.** The transaction has the lock, so what it counted is still so: fewer than the limit lie
in the hour before its time or later, and there is no row for its key. Whoever else has a lock is not
concerned with this project and action. -/
lemma Inv.commit {outcome : Outcome} {row : Option Row} {count : ℕ} (h : Inv hash s)
    (ht : s.transactions[i]? = some t) (hstage : t.stage = .inserted row count) :
    Inv hash { (s.setStage i t (.ended outcome)) with rows := s.rows ++ row.toList } := by
  have hok := h.ok ht
  rw [Transaction.Ok, hstage] at hok
  obtain ⟨rfl, hcount, hlt, hfresh⟩ := hok
  have hended : Inv hash (s.setStage i t (.ended outcome)) :=
    h.setStage ht (fun hh => nomatch hh) (Transaction.ok_of_not_holds rfl)
  refine ⟨?_, ?_, ?_, hended.exclusive, ?_⟩
  · intro r hr
    rcases List.mem_append.1 hr with hr | hr
    · exact h.policy r hr
    · rw [List.mem_singleton.1 hr]
  · intro projectId actionType
    rw [Option.toList_some, times_append]
    by_cases hfor : Row.isFor ⟨t.identity, policyVersion, t.now⟩ projectId actionType = true
    · have hboth := hfor
      rw [Row.isFor, Bool.and_eq_true, beq_iff_eq, beq_iff_eq] at hboth
      obtain ⟨rfl, rfl⟩ := hboth
      rw [if_pos hfor]
      refine (h.bounded _ _).append ?_
      rw [← selectCount_eq h.policy, ← hcount]
      exact hlt
    · rw [if_neg hfor, List.append_nil]
      exact h.bounded projectId actionType
  · rw [Option.toList_some, List.map_append, List.map_singleton]
    refine List.nodup_append.2 ⟨h.unique, List.pairwise_singleton _ _, ?_⟩
    intro a ha b hb heq
    obtain ⟨r, hr, rfl⟩ := List.mem_map.1 ha
    exact hfresh r hr (heq.trans (List.mem_singleton.1 hb))
  · intro j u hu
    have hbefore := hended.ok hu
    by_cases hholds : u.stage.holds = true
    · refine Transaction.Ok.append hbefore ?_
      rw [Bool.eq_false_iff]
      intro hfor
      -- the only transaction with this lock is the one that has ended
      simp only [State.setStage] at hu
      rw [Rows.getElem?_set_of_some ht] at hu
      by_cases hj : j = i
      · rw [if_pos hj, Option.some.injEq] at hu
        rw [← hu] at hholds
        cases hholds
      · rw [if_neg hj] at hu
        exact hj (h.exclusive hu ht hholds (by rw [hstage]; rfl) (lockKey_of_isFor hfor))
    · exact Transaction.ok_of_not_holds (Bool.eq_false_iff.2 hholds)

lemma ok_decideStage {existing : Option String} {count : ℕ} (h : t.Ok s.rows)
    (hstage : t.stage = .counted existing count) :
    Transaction.Ok s.rows { t with stage := decideStage s.rows t existing count } := by
  rw [Transaction.Ok, hstage] at h
  cases existing with
  | some policy => exact Transaction.ok_of_not_holds rfl
  | none =>
    by_cases hlimit : limit t.identity.actionType ≤ count
    · rw [decideStage, if_pos hlimit]
      exact Transaction.ok_of_not_holds rfl
    · rw [decideStage, if_neg hlimit]
      exact ⟨insertRow_of_fresh (h.2 rfl) t.now, h.1, not_le.1 hlimit, h.2 rfl⟩

variable {a : Act}

lemma step_cases (hst : step hash s a = some s') :
    (∃ identity now, s' = { s with transactions := s.transactions ++ [⟨identity, now, .waiting⟩] }) ∨
    (∃ i t stage, s.transactions[i]? = some t ∧ s' = s.setStage i t stage ∧
      ((t.stage = .waiting ∧ stage = .locked ∧
          s.isLocked hash (lockKey hash t.identity) = false) ∨
        (t.stage = .locked ∧ stage = .searched (selectExisting s.rows t.identity)) ∨
        (∃ existing, t.stage = .searched existing ∧
          stage = .counted existing (selectCount s.rows t.identity t.now)) ∨
        (∃ existing count, t.stage = .counted existing count ∧
          stage = decideStage s.rows t existing count) ∨
        stage = .ended (.unavailable t.identity))) ∨
    ∃ i t row count outcome, s.transactions[i]? = some t ∧ t.stage = .inserted row count ∧
      s' = { (s.setStage i t (.ended outcome)) with rows := s.rows ++ row.toList } := by
  cases a with
  | begin projectId actionType idempotencyKey now =>
    simp only [step] at hst
    split at hst
    · cases hst
      exact .inl ⟨_, _, rfl⟩
    · cases hst
  | lock i =>
    simp only [step] at hst
    split at hst
    · rename_i t ht
      split_ifs at hst with hif
      cases hst
      exact .inr (.inl ⟨i, t, _, ht, rfl, .inl ⟨hif.1, rfl, Bool.eq_false_iff.2 hif.2⟩⟩)
    · cases hst
  | search i =>
    simp only [step] at hst
    split at hst
    · rename_i t ht
      split_ifs at hst with hif
      cases hst
      exact .inr (.inl ⟨i, t, _, ht, rfl, .inr (.inl ⟨hif, rfl⟩)⟩)
    · cases hst
  | count i =>
    simp only [step] at hst
    split at hst
    · rename_i t ht
      split at hst
      · rename_i existing hstage
        cases hst
        exact .inr (.inl ⟨i, t, _, ht, rfl, .inr (.inr (.inl ⟨existing, hstage, rfl⟩))⟩)
      · cases hst
    · cases hst
  | decide i =>
    simp only [step] at hst
    split at hst
    · rename_i t ht
      split at hst
      · rename_i existing count hstage
        cases hst
        exact .inr (.inl ⟨i, t, _, ht, rfl,
          .inr (.inr (.inr (.inl ⟨existing, count, hstage, rfl⟩)))⟩)
      · cases hst
    · cases hst
  | commit i lost =>
    simp only [step] at hst
    split at hst
    · rename_i t ht
      split at hst
      · rename_i row count hstage
        cases hst
        exact .inr (.inr ⟨i, t, row, count, _, ht, hstage, rfl⟩)
      · cases hst
    · cases hst
  | abort i =>
    simp only [step] at hst
    split at hst
    · rename_i t ht
      split at hst
      · cases hst
      · cases hst
        exact .inr (.inl ⟨i, t, _, ht, rfl, .inr (.inr (.inr (.inr rfl)))⟩)
    · cases hst

lemma Inv.step (h : Inv hash s) (hst : step hash s a = some s') : Inv hash s' := by
  obtain ⟨identity, now, rfl⟩ | ⟨i, t, stage, ht, rfl, hstage⟩ |
    ⟨i, t, row, count, outcome, ht, hstage, rfl⟩ := step_cases hst
  · exact h.begin identity now
  · rcases hstage with ⟨-, rfl, hfree⟩ | ⟨hlocked, rfl⟩ | ⟨existing, hsearched, rfl⟩ |
      ⟨existing, count, hcounted, rfl⟩ | rfl
    · exact h.setStage ht (fun _ => .inr hfree) trivial
    · exact h.setStage ht (fun _ => .inl (by rw [hlocked]; rfl)) fresh_of_selectExisting
    · have hok := h.ok ht
      rw [Transaction.Ok, hsearched] at hok
      exact h.setStage ht (fun _ => .inl (by rw [hsearched]; rfl)) ⟨rfl, hok⟩
    · exact h.setStage ht (fun _ => .inl (by rw [hcounted]; rfl)) (ok_decideStage (h.ok ht) hcounted)
    · exact h.setStage ht (fun hh => nomatch hh) trivial
  · exact h.commit ht hstage

theorem inv_reach (h : (machine hash).Reach s) : Inv hash s := by
  refine h.induct (P := Inv hash) ?_ fun _ _ _ _ hi hst => hi.step hst
  refine ⟨fun row hrow => absurd hrow List.not_mem_nil, fun _ _ => Rolling.bounded_nil _ _,
    List.nodup_nil, ?_, ?_⟩
  · intro i j t u ht
    simp [machine] at ht
  · intro i t ht
    simp [machine] at ht

/-! ## Repeated keys -/

/-- How far a request can have got whose key was reserved before it started: it succeeds without a
reservation, unless the database fails. -/
def Transaction.Repeats (t : Transaction) : Prop :=
  match t.stage with
  | .waiting | .locked => True
  | .searched existing | .counted existing _ => existing.isSome = true
  | .inserted _ _ => False
  | .ended (.reserved reservation) => reservation.alreadyReserved = true
  | .ended (.exceeded _ _ _) => False
  | .ended (.unavailable _) => True

lemma selectExisting_isSome (h : ¬ Fresh rows identity) :
    (selectExisting rows identity).isSome = true := by
  rw [Option.isSome_iff_ne_none]
  exact fun hnone => h (fresh_of_selectExisting hnone)

lemma repeats_step {n : ℕ} (hi : Inv hash s)
    (hreserved : ¬ Fresh s.rows identity) (hn : n ≤ s.transactions.length)
    (h : ∀ i t, n ≤ i → s.transactions[i]? = some t → t.identity = identity → t.Repeats)
    (hst : step hash s a = some s') :
    s'.rows.filter (fun row => decide (row.identity = identity)) =
        s.rows.filter (fun row => decide (row.identity = identity)) ∧
      n ≤ s'.transactions.length ∧
      ∀ i t, n ≤ i → s'.transactions[i]? = some t → t.identity = identity → t.Repeats := by
  obtain ⟨identity', now, rfl⟩ | ⟨i, t, stage, ht, rfl, hstage⟩ |
    ⟨i, t, row, count, outcome, ht, hstage, rfl⟩ := step_cases hst
  · refine ⟨rfl, ?_, fun j u hj hu hid => ?_⟩
    · rw [List.length_append]
      omega
    · rcases Rows.getElem?_append_cases hu with hu | ⟨m, -, hu⟩
      · exact h j u hj hu hid
      · rw [List.mem_singleton.1 (List.mem_of_getElem? hu)]
        trivial
  · refine ⟨rfl, ?_, fun j u hj hu hid => ?_⟩
    · rw [State.setStage, List.length_set]
      exact hn
    · simp only [State.setStage] at hu
      rw [Rows.getElem?_set_of_some ht] at hu
      by_cases hji : j = i
      · subst hji
        rw [if_pos rfl, Option.some.injEq] at hu
        subst hu
        have hbefore := h j t hj ht hid
        rw [Transaction.Repeats] at hbefore
        rcases hstage with ⟨-, rfl, -⟩ | ⟨-, rfl⟩ | ⟨existing, hsearched, rfl⟩ |
          ⟨existing, count, hcounted, rfl⟩ | rfl
        · trivial
        · exact selectExisting_isSome (by rw [hid]; exact hreserved)
        · rw [hsearched] at hbefore
          exact hbefore
        · rw [hcounted] at hbefore
          obtain ⟨policy, rfl⟩ := Option.isSome_iff_exists.1 hbefore
          exact rfl
        · trivial
      · rw [if_neg hji] at hu
        exact h j u hj hu hid
  · have hok := hi.ok ht
    rw [Transaction.Ok, hstage] at hok
    obtain ⟨rfl, -, -, hfresh⟩ := hok
    -- the committed row has another identity, since there was none with its own
    have hne : t.identity ≠ identity := fun heq => hreserved (heq ▸ hfresh)
    refine ⟨?_, ?_, fun j u hj hu hid => ?_⟩
    · simp [hne]
    · simp only [State.setStage, List.length_set]
      exact hn
    · simp only [State.setStage] at hu
      rw [Rows.getElem?_set_of_some ht] at hu
      by_cases hji : j = i
      · rw [if_pos hji, Option.some.injEq] at hu
        subst hu
        exact absurd hid hne
      · rw [if_neg hji] at hu
        exact h j u hj hu hid

lemma not_fresh_of_filter {rows' : List Row} (h : ¬ Fresh rows identity)
    (heq : rows'.filter (fun row => decide (row.identity = identity)) =
      rows.filter (fun row => decide (row.identity = identity))) : ¬ Fresh rows' identity := by
  intro hfresh
  refine h fun row hrow hid => ?_
  have hmem : row ∈ rows'.filter (fun row => decide (row.identity = identity)) := by
    rw [heq]
    exact List.mem_filter.2 ⟨hrow, by simp [hid]⟩
  exact hfresh row (List.mem_filter.1 hmem).1 hid

/-- **Mutation quotas.** However transactions interleave, and whatever their times, every closed hour
contains at most the limit of reservations for a project and an action. A request whose key is reserved
succeeds as already reserved, unless the database fails, and the reservation of the key stays the
only one.

**Proof sketch.** The bound is the invariant. For a reserved key, `repeats_step` goes along the path:
no row with the key is added, and every later request with the key finds it. -/
theorem quota_of_reach (h : (machine hash).Reach s) :
    (∀ projectId actionType start,
      Rolling.countWithin window start (times s.rows projectId actionType) ≤ limit actionType) ∧
    ∀ row ∈ s.rows, ∀ s', (machine hash).Path s s' →
      s'.rows.filter (fun r => decide (r.identity = row.identity)) = [row] ∧
      ∀ i t, s.transactions.length ≤ i → s'.transactions[i]? = some t → t.identity = row.identity →
        t.Repeats := by
  refine ⟨fun projectId actionType start => (inv_reach h).bounded projectId actionType start, ?_⟩
  intro row hrow s' hpath
  have hreserved : ¬ Fresh s.rows row.identity := fun hf => hf row hrow rfl
  have hone : s.rows.filter (fun r => decide (r.identity = row.identity)) = [row] :=
    filter_identity (inv_reach h).unique hrow
  have key : (machine hash).Reach s' ∧
      s'.rows.filter (fun r => decide (r.identity = row.identity)) =
        s.rows.filter (fun r => decide (r.identity = row.identity)) ∧
      s.transactions.length ≤ s'.transactions.length ∧
      ∀ i t, s.transactions.length ≤ i → s'.transactions[i]? = some t → t.identity = row.identity →
        t.Repeats := by
    induction hpath with
    | refl =>
      refine ⟨h, rfl, le_refl _, fun i t hi ht => ?_⟩
      rw [List.getElem?_eq_none hi] at ht
      cases ht
    | tail _ hst ih =>
      obtain ⟨a, ha⟩ := hst
      obtain ⟨hreach, hrows, hlen, hrepeats⟩ := ih
      obtain ⟨hrows', hlen', hrepeats'⟩ := repeats_step (inv_reach hreach)
        (not_fresh_of_filter hreserved hrows) hlen hrepeats ha
      exact ⟨hreach.next ha, hrows'.trans hrows, hlen', hrepeats'⟩
  exact ⟨key.2.1.trans hone, key.2.2.2⟩

/-- Two transactions, the second of which starts earlier and gets the lock later, and a third one that
repeats the key of the first. -/
def lateLock : List Act :=
  [.begin (ofString "p1") "feature_proposal" (ofString "a") 10,
    .begin (ofString "p1") "feature_proposal" (ofString "b") 5,
    .lock 0, .search 0, .count 0, .decide 0, .commit 0 false,
    .lock 1, .search 1, .count 1, .decide 1, .commit 1 true,
    .begin (ofString "p1") "feature_proposal" (ofString "a") 7,
    .lock 2, .search 2, .count 2, .decide 2]

/-- The times of the reservations of `lateLock` are out of order, and the bound holds for them. -/
theorem quota_of_reach_late_lock : ∃ s, (machine fun t => (t.length : ℤ)).Reach s ∧
    times s.rows (ofString "p1") .featureProposal = [10, 5] ∧
    Rolling.countWithin window 0 (times s.rows (ofString "p1") .featureProposal) ≤ 3 := by
  have hrun : ((machine fun t => (t.length : ℤ)).run ⟨[], []⟩ lateLock).map
      (fun s => times s.rows (ofString "p1") .featureProposal) = some [10, 5] := by decide +kernel
  obtain ⟨s, hs, htimes⟩ := Option.map_eq_some_iff.1 hrun
  have hreach : (machine fun t => (t.length : ℤ)).Reach s := StepMachine.reach_of_run hs
  exact ⟨s, hreach, htimes, (quota_of_reach hreach).1 _ _ 0⟩

end Apdl.Agents.Quota
