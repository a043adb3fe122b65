import Apdl.Ingest.RateLimit.Buckets
import Apdl.Lib.TokenBucket
import Mathlib.Algebra.Order.Floor.Semiring
import Mathlib.Tactic.FieldSimp

set_option autoImplicit false

/-!
# What the quotas guarantee

Every bucket of the ingestion service is a token bucket on the millisecond clock of the script, and
the expiry of its key makes no difference to it.

## Main results

* `quota_guarantees` — stored tokens, debits, intervals and retry delays.

## Design

The script reads `TIME` in microseconds and drops what is below a millisecond. An interval of the
clock is therefore charged for the whole milliseconds that begin within it.
-/

namespace Apdl.Ingest.RateLimit

variable {env : Env}

/-! ## The script -/

/-- The level of a bucket now. -/
def State.level (s : State) (d : BucketDebit) : ℚ :=
  candidateTokens (nowMs s.timeUs) s.store d.argument

/-- The tokens per millisecond that flow into a bucket. -/
def BucketLimit.rate (limit : BucketLimit) : ℚ := limit.refillPerSecond / 1000

variable {now : ℕ} {store : Store}

lemma candidateTokens_none {d : BucketDebit} (h : store d.key = none) :
    candidateTokens now store d.argument = d.limit.capacity := by
  simp [candidateTokens, BucketDebit.argument, h]

lemma candidateTokens_some {d : BucketDebit} {cell : Cell} (h : store d.key = some cell) :
    candidateTokens now store d.argument =
      TokenBucket.refill (d.limit.capacity : ℚ) d.limit.rate cell.tokens
        ((now - cell.updatedAtMs : ℕ) : ℚ) := by
  simp only [candidateTokens, BucketDebit.argument, h, Option.elim_some, TokenBucket.refill,
    BucketLimit.rate, mul_div_assoc]

lemma reject_spec (now : ℕ) (store : Store) (arguments : List Argument) (rejected : Reply) :
    rejected.retryAfter ≤ (arguments.foldl (rejectStep now store) rejected).retryAfter ∧
      ((arguments.foldl (rejectStep now store) rejected).allowed = true →
        rejected.allowed = true) ∧
      (∀ a ∈ arguments, candidateTokens now store a < a.cost →
        max ⌈((a.cost : ℚ) - candidateTokens now store a) / a.refillPerSecond⌉ 1 ≤
          (arguments.foldl (rejectStep now store) rejected).retryAfter) ∧
      ((∀ a ∈ arguments, (a.cost : ℚ) ≤ candidateTokens now store a) →
        arguments.foldl (rejectStep now store) rejected = rejected) := by
  induction arguments generalizing rejected with
  | nil => simp
  | cons a arguments ih =>
    obtain ⟨hmono, hallowed, hdelay, hsame⟩ := ih (rejectStep now store rejected a)
    rw [List.foldl_cons]
    -- what one bucket does
    have hstep : rejected.retryAfter ≤ (rejectStep now store rejected a).retryAfter ∧
        ((rejectStep now store rejected a).allowed = true → rejected.allowed = true) ∧
        (candidateTokens now store a < a.cost →
          max ⌈((a.cost : ℚ) - candidateTokens now store a) / a.refillPerSecond⌉ 1 ≤
            (rejectStep now store rejected a).retryAfter) ∧
        ((a.cost : ℚ) ≤ candidateTokens now store a → rejectStep now store rejected a = rejected) := by
      simp only [rejectStep]
      split_ifs with hshort hlonger
      · exact ⟨hlonger.le, by simp, fun _ => le_rfl, fun hle => absurd hshort (not_lt.2 hle)⟩
      · exact ⟨le_rfl, id, fun _ => not_lt.1 hlonger, fun _ => rfl⟩
      · exact ⟨le_rfl, id, fun h => absurd h hshort, fun _ => rfl⟩
    refine ⟨hstep.1.trans hmono, fun h => hstep.2.1 (hallowed h), ?_, ?_⟩
    · intro b hb hshort
      rcases List.mem_cons.1 hb with rfl | hb
      · exact (hstep.2.2.1 hshort).trans hmono
      · exact hdelay b hb hshort
    · intro hall
      have ha := hstep.2.2.2 (hall a (List.mem_cons_self ..))
      rw [ha] at hsame ⊢
      exact hsame fun b hb => hall b (List.mem_cons_of_mem _ hb)

lemma debitAll_of_notMem {before : Store} {arguments : List Argument} {key : String}
    (h : key ∉ arguments.map Argument.key) : debitAll now before store arguments key = store key := by
  induction arguments generalizing store with
  | nil => rfl
  | cons a arguments ih =>
    rw [List.map_cons, List.mem_cons, not_or] at h
    rw [debitAll, List.foldl_cons]
    refine (ih h.2).trans ?_
    simp [Store.set, h.1]

lemma debitAll_of_mem {before : Store} {arguments : List Argument} {a : Argument}
    (hnodup : (arguments.map Argument.key).Nodup) (ha : a ∈ arguments) :
    debitAll now before store arguments a.key =
      some ⟨candidateTokens now before a - a.cost, now, now + a.ttlSeconds * 1000⟩ := by
  induction arguments generalizing store with
  | nil => cases ha
  | cons b arguments ih =>
    rw [List.map_cons, List.nodup_cons] at hnodup
    rw [debitAll, List.foldl_cons]
    rcases List.mem_cons.1 ha with rfl | ha
    · refine (debitAll_of_notMem hnodup.1).trans ?_
      simp [Store.set]
    · exact ih hnodup.2 ha

/-- **The script debits all buckets or none**, and all of them exactly when each can pay. -/
lemma script_spec (now : ℕ) (store : Store) (arguments : List Argument) :
    (∀ a ∈ arguments, (a.cost : ℚ) ≤ candidateTokens now store a) ∧
        (script now store arguments).2.allowed = true ∧
        (script now store arguments).1 = debitAll now store store arguments ∨
      (∃ a ∈ arguments, candidateTokens now store a < a.cost) ∧
        (script now store arguments).2.allowed = false ∧
        (script now store arguments).1 = store ∧
        ∀ a ∈ arguments, candidateTokens now store a < a.cost →
          max ⌈((a.cost : ℚ) - candidateTokens now store a) / a.refillPerSecond⌉ 1 ≤
            (script now store arguments).2.retryAfter := by
  obtain ⟨-, hallowed, hdelay, hsame⟩ := reject_spec now store arguments ⟨false, 0, 0, 0⟩
  by_cases hall : ∀ a ∈ arguments, (a.cost : ℚ) ≤ candidateTokens now store a
  · left
    have hzero := hsame hall
    simp only [script, hzero, lt_irrefl, if_false]
    exact ⟨hall, trivial, trivial⟩
  · right
    push Not at hall
    obtain ⟨a, ha, hshort⟩ := hall
    have hpos : 0 < (arguments.foldl (rejectStep now store) ⟨false, 0, 0, 0⟩).retryAfter :=
      lt_of_lt_of_le (by omega) (hdelay a ha hshort)
    have hno : (arguments.foldl (rejectStep now store) ⟨false, 0, 0, 0⟩).allowed = false := by
      cases hcase : (arguments.foldl (rejectStep now store) ⟨false, 0, 0, 0⟩).allowed with
      | false => rfl
      | true => exact absurd (hallowed hcase) (by simp)
    simp only [script, hpos, if_true]
    exact ⟨⟨a, ha, hshort⟩, hno, trivial, hdelay⟩

/-! ## The invariant -/

/-- What an execution of the script took from a key. -/
def Entry.costOn (e : Entry) (key : String) : ℕ :=
  ((e.debits.filter fun d => decide (d.key = key)).map BucketDebit.cost).sum

/-- The payments of a key on the millisecond clock. -/
def charges (key : String) (log : List Entry) : List (ℚ × ℚ) :=
  log.map fun e => ((nowMs e.timeUs : ℚ), (e.costOn key : ℚ))

structure State.BucketOk (s : State) (d : BucketDebit) : Prop where
  tokens : ∀ cell, s.store d.key = some cell → 0 ≤ cell.tokens ∧ cell.tokens ≤ d.limit.capacity
  updated : ∀ cell, s.store d.key = some cell → cell.updatedAtMs ≤ nowMs s.timeUs ∧
    cell.expireAtMs = cell.updatedAtMs + ttlSeconds d.limit * 1000
  metered : TokenBucket.Metered (d.limit.capacity : ℚ) d.limit.rate (charges d.key s.log)
    (nowMs s.timeUs) (s.level d)

/-- What holds of every bucket. -/
def State.Ok (env : Env) (s : State) : Prop :=
  ∀ (c : Check) (d : BucketDebit), d ∈ c.buckets env → s.BucketOk d

section Invariant

variable {s s' : State} {c : Check} {d : BucketDebit}

lemma rate_nonneg (limit : BucketLimit) : 0 ≤ limit.rate := by
  unfold BucketLimit.rate
  positivity

lemma State.BucketOk.level_nonneg (h : s.BucketOk d) : 0 ≤ s.level d := by
  unfold State.level
  cases hcell : s.store d.key with
  | none =>
    rw [candidateTokens_none hcell]
    positivity
  | some cell =>
    obtain ⟨hlow, hhigh⟩ := h.tokens cell hcell
    rw [candidateTokens_some hcell]
    exact hlow.trans (TokenBucket.le_refill hhigh (rate_nonneg _) (by positivity))

lemma level_tick (h : s.BucketOk d) (us : ℕ) :
    State.level { s with timeUs := s.timeUs + us } d =
      TokenBucket.refill (d.limit.capacity : ℚ) d.limit.rate (s.level d)
        ((nowMs (s.timeUs + us) - nowMs s.timeUs : ℕ) : ℚ) := by
  have hmono : nowMs s.timeUs ≤ nowMs (s.timeUs + us) := Nat.div_le_div_right (Nat.le_add_right _ _)
  unfold State.level
  cases hcell : s.store d.key with
  | none =>
    rw [candidateTokens_none hcell, candidateTokens_none hcell]
    refine (TokenBucket.refill_eq_capacity ?_).symm
    have hflow : 0 ≤ ((nowMs (s.timeUs + us) - nowMs s.timeUs : ℕ) : ℚ) * d.limit.rate :=
      mul_nonneg (by positivity) (rate_nonneg _)
    linarith
  | some cell =>
    obtain ⟨hupdated, -⟩ := h.updated cell hcell
    rw [candidateTokens_some hcell, candidateTokens_some hcell,
      TokenBucket.refill_refill (rate_nonneg _) (by positivity)]
    congr 1
    rw [← Nat.cast_add]
    congr 1
    change nowMs (s.timeUs + us) - cell.updatedAtMs = _
    omega

lemma State.BucketOk.tick (h : s.BucketOk d) (us : ℕ) :
    State.BucketOk { s with timeUs := s.timeUs + us } d where
  tokens := h.tokens
  updated := by
    intro cell hcell
    obtain ⟨hupdated, hexpire⟩ := h.updated cell hcell
    exact ⟨hupdated.trans (Nat.div_le_div_right (Nat.le_add_right _ _)), hexpire⟩
  metered := by
    have hmono : nowMs s.timeUs ≤ nowMs (s.timeUs + us) :=
      Nat.div_le_div_right (Nat.le_add_right _ _)
    rw [level_tick h us]
    refine h.metered.advance (rate_nonneg _) (by exact_mod_cast hmono)
      TokenBucket.refill_le_capacity ?_
    refine TokenBucket.refill_le_add.trans ?_
    rw [Nat.cast_sub hmono, mul_comm]

lemma level_expire (h : s.BucketOk d) (hd : d ∈ c.buckets env) {cell : Cell}
    (hcell : s.store d.key = some cell) (hexpired : cell.expireAtMs ≤ nowMs s.timeUs) :
    s.level d = d.limit.capacity := by
  obtain ⟨hupdated, hexpire⟩ := h.updated cell hcell
  obtain ⟨stage, scope, -, hgoverns⟩ := governs_of_mem hd
  have hfull := hgoverns.sound.2
  unfold State.level
  rw [candidateTokens_some hcell]
  refine TokenBucket.refill_eq_capacity ?_
  have helapsed : ((ttlSeconds d.limit * 1000 : ℕ) : ℚ) ≤
      ((nowMs s.timeUs - cell.updatedAtMs : ℕ) : ℚ) := by
    have hnat : ttlSeconds d.limit * 1000 ≤ nowMs s.timeUs - cell.updatedAtMs := by omega
    exact_mod_cast hnat
  have hflow : (d.limit.capacity : ℚ) ≤ ((ttlSeconds d.limit * 1000 : ℕ) : ℚ) * d.limit.rate := by
    have hcast : (d.limit.capacity : ℚ) ≤ ttlSeconds d.limit * d.limit.refillPerSecond := by
      exact_mod_cast hfull
    unfold BucketLimit.rate
    push_cast
    linarith
  have hpos := (h.tokens cell hcell).1
  have hmul := mul_le_mul_of_nonneg_right helapsed (rate_nonneg d.limit)
  linarith

lemma State.BucketOk.expire (h : s.BucketOk d) (hd : d ∈ c.buckets env) {key : String} {cell : Cell}
    (hcell : s.store key = some cell) (hexpired : cell.expireAtMs ≤ nowMs s.timeUs) :
    State.level { s with store := s.store.del key } d = s.level d ∧
      State.BucketOk { s with store := s.store.del key } d := by
  by_cases hkey : d.key = key
  · subst hkey
    have hgone : s.store.del d.key d.key = none := by simp [Store.del]
    have hlevel : State.level { s with store := s.store.del d.key } d = s.level d := by
      rw [level_expire h hd hcell hexpired]
      exact candidateTokens_none hgone
    refine ⟨hlevel, ?_, ?_, ?_⟩
    · intro cell' hcell'
      cases hgone.symm.trans hcell'
    · intro cell' hcell'
      cases hgone.symm.trans hcell'
    · rw [hlevel]
      exact h.metered
  · have hsame : s.store.del key d.key = s.store d.key := by simp [Store.del, hkey]
    have hlevel : State.level { s with store := s.store.del key } d = s.level d := by
      simp only [State.level, candidateTokens, BucketDebit.argument, hsame]
    refine ⟨hlevel, ?_, ?_, ?_⟩
    · intro cell' hcell'
      exact h.tokens cell' (hsame ▸ hcell')
    · intro cell' hcell'
      exact h.updated cell' (hsame ▸ hcell')
    · rw [hlevel]
      exact h.metered

lemma costOn_of_mem {e : Entry} (he : e.debits = c.buckets env) (hd : d ∈ c.buckets env) :
    e.costOn d.key = d.cost := by
  have hfilter : (c.buckets env).filter (fun b => decide (b.key = d.key)) = [d] := by
    have hnodup : ((c.buckets env).filter fun b => decide (b.key = d.key)).Nodup :=
      (List.Nodup.of_map _ (nodup_keys c)).filter _
    refine List.perm_singleton.1 ((List.perm_ext_iff_of_nodup hnodup (List.nodup_singleton d)).2 ?_)
    intro b
    simp only [List.mem_filter, decide_eq_true_eq, List.mem_singleton]
    constructor
    · rintro ⟨hb, hkey⟩
      exact eq_of_key_eq hb hd hkey
    · rintro rfl
      exact ⟨hd, rfl⟩
  rw [Entry.costOn, he, hfilter]
  simp

lemma costOn_of_notMem {e : Entry} {key : String}
    (h : key ∉ e.debits.map BucketDebit.key) : e.costOn key = 0 := by
  have hnone : e.debits.filter (fun b => decide (b.key = key)) = [] := by
    rw [List.filter_eq_nil_iff]
    intro b hb
    simp only [decide_eq_true_eq]
    rintro rfl
    exact h (List.mem_map_of_mem hb)
  rw [Entry.costOn, hnone]
  rfl

/-- The state after the script has debited the buckets of a request. -/
def State.debited (env : Env) (s : State) (c : Check) : State :=
  { s with
    store := debitAll (nowMs s.timeUs) s.store s.store ((c.buckets env).map BucketDebit.argument)
    log := s.log ++ [⟨s.timeUs, c.buckets env⟩] }

lemma map_argument_key (l : List BucketDebit) :
    (l.map BucketDebit.argument).map Argument.key = l.map BucketDebit.key := by
  rw [List.map_map]
  rfl

lemma level_debited_of_mem (h : s.BucketOk d) (hd : d ∈ c.buckets env) :
    (s.debited env c).store d.key =
        some ⟨s.level d - d.cost, nowMs s.timeUs, nowMs s.timeUs + ttlSeconds d.limit * 1000⟩ ∧
      (s.debited env c).level d = s.level d - d.cost := by
  have hnodup : (((c.buckets env).map BucketDebit.argument).map Argument.key).Nodup := by
    rw [map_argument_key]
    exact nodup_keys c
  have hcell : (s.debited env c).store d.key =
      some ⟨s.level d - d.cost, nowMs s.timeUs, nowMs s.timeUs + ttlSeconds d.limit * 1000⟩ :=
    debitAll_of_mem hnodup (List.mem_map_of_mem hd)
  refine ⟨hcell, ?_⟩
  have hle : s.level d - d.cost ≤ d.limit.capacity := by
    have hcost : (0 : ℚ) ≤ d.cost := by positivity
    have hlevel := h.metered.level_le
    linarith
  have hnow : nowMs (s.debited env c).timeUs - nowMs s.timeUs = 0 := Nat.sub_self _
  calc (s.debited env c).level d
      = TokenBucket.refill (d.limit.capacity : ℚ) d.limit.rate (s.level d - d.cost)
          ((nowMs (s.debited env c).timeUs - nowMs s.timeUs : ℕ) : ℚ) := candidateTokens_some hcell
    _ = s.level d - d.cost := by
        rw [hnow, Nat.cast_zero]
        exact TokenBucket.refill_zero hle

lemma level_debited_of_notMem (hd : d.key ∉ (c.buckets env).map BucketDebit.key) :
    (s.debited env c).store d.key = s.store d.key ∧ (s.debited env c).level d = s.level d := by
  have hcell : (s.debited env c).store d.key = s.store d.key := by
    refine debitAll_of_notMem ?_
    rw [map_argument_key]
    exact hd
  refine ⟨hcell, ?_⟩
  unfold State.level candidateTokens
  simp only [BucketDebit.argument, hcell]
  rfl

lemma State.Ok.debited (h : s.Ok env) (hpays : ∀ d ∈ c.buckets env, (d.cost : ℚ) ≤ s.level d) :
    (s.debited env c).Ok env := by
  intro c' d' hd'
  have hbefore := h c' d' hd'
  have hcharges : charges d'.key (s.debited env c).log = charges d'.key s.log ++
      [((nowMs s.timeUs : ℚ), ((⟨s.timeUs, c.buckets env⟩ : Entry).costOn d'.key : ℚ))] := by
    simp [charges, State.debited]
  by_cases hkey : d'.key ∈ (c.buckets env).map BucketDebit.key
  · obtain ⟨d, hd, heq⟩ := List.mem_map.1 hkey
    have hlimit : d.limit = d'.limit := limit_eq_of_key_eq hd hd' heq
    have hok := h c d hd
    obtain ⟨hcell, hlevel⟩ := level_debited_of_mem hok hd
    have hsame : ∀ t : State, t.level d' = t.level d := by
      intro t
      simp only [State.level, candidateTokens, BucketDebit.argument, heq, hlimit]
    have hcost : (⟨s.timeUs, c.buckets env⟩ : Entry).costOn d'.key = d.cost := by
      rw [← heq]
      exact costOn_of_mem rfl hd
    have hzero : (0 : ℚ) ≤ d.cost := by positivity
    refine ⟨?_, ?_, ?_⟩
    · intro cell hstored
      rw [← heq, hcell, Option.some.injEq] at hstored
      subst hstored
      have hle := hok.metered.level_le
      have hpay := hpays d hd
      rw [← hlimit]
      constructor <;> simp only <;> linarith
    · intro cell hstored
      rw [← heq, hcell, Option.some.injEq] at hstored
      subst hstored
      rw [← hlimit]
      exact ⟨le_rfl, rfl⟩
    · rw [hcharges, hcost, hsame, hlevel, ← hsame s]
      refine hbefore.metered.pay (rate_nonneg _) hzero ?_
      rw [hsame]
      exact hpays d hd
  · obtain ⟨hcell, hlevel⟩ := level_debited_of_notMem (s := s) hkey
    have hcost : (⟨s.timeUs, c.buckets env⟩ : Entry).costOn d'.key = 0 := costOn_of_notMem hkey
    refine ⟨?_, ?_, ?_⟩
    · intro cell hstored
      exact hbefore.tokens cell (hcell ▸ hstored)
    · intro cell hstored
      exact hbefore.updated cell (hcell ▸ hstored)
    · rw [hcharges, hcost, hlevel, Nat.cast_zero]
      have hpay := hbefore.metered.pay (rate_nonneg _) le_rfl hbefore.level_nonneg
      rwa [sub_zero] at hpay

/-- **What `_admit` does**: nothing where Redis is not reached, all debits where every bucket can
pay, and none with a long enough delay otherwise. -/
lemma admit_cases (env : Env) (s : State) (c : Check) (delivery : Delivery) :
    (delivery = .unreachable ∧ s.admitBuckets env c delivery = (s, some .unavailable)) ∨
      (delivery ≠ .unreachable ∧ (∀ d ∈ c.buckets env, (d.cost : ℚ) ≤ s.level d) ∧
        s.admitBuckets env c delivery =
          (s.debited env c, if delivery = .lost then some .unavailable else none)) ∨
      (delivery ≠ .unreachable ∧ (∃ d ∈ c.buckets env, s.level d < d.cost) ∧
        ∃ retryAfter limit remaining, s.admitBuckets env c delivery =
          (s, if delivery = .lost then some .unavailable else
            some (.rateLimited (c.quotaName ++ " quota exceeded") retryAfter limit remaining)) ∧
          ∀ d ∈ c.buckets env, s.level d < d.cost →
            max ⌈((d.cost : ℚ) - s.level d) / d.limit.refillPerSecond⌉ 1 ≤ retryAfter) := by
  by_cases hreached : delivery = .unreachable
  · subst hreached
    exact .inl ⟨rfl, rfl⟩
  right
  have hresult : s.admitBuckets env c delivery =
      (let result := script (nowMs s.timeUs) s.store ((c.buckets env).map BucketDebit.argument)
      let s' : State := { s with
        store := result.1
        log := if result.2.allowed then s.log ++ [⟨s.timeUs, c.buckets env⟩] else s.log }
      if delivery = .lost then (s', some .unavailable)
      else if result.2.allowed then (s', none)
      else (s', some (.rateLimited (c.quotaName ++ " quota exceeded") (max result.2.retryAfter 1)
        result.2.limit (max result.2.remaining 0)))) := by
    cases delivery with
    | unreachable => exact absurd rfl hreached
    | answered => rfl
    | lost => rfl
  rcases script_spec (nowMs s.timeUs) s.store ((c.buckets env).map BucketDebit.argument) with
    ⟨hpays, hallowed, hstore⟩ | ⟨⟨a, ha, hshort⟩, hallowed, hstore, hdelay⟩
  · left
    refine ⟨hreached, fun d hd => hpays _ (List.mem_map_of_mem hd), ?_⟩
    rw [hresult]
    simp only [hallowed, hstore, if_true]
    split_ifs <;> rfl
  · right
    obtain ⟨d, hd, rfl⟩ := List.mem_map.1 ha
    set result := script (nowMs s.timeUs) s.store ((c.buckets env).map BucketDebit.argument)
    refine ⟨hreached, ⟨d, hd, hshort⟩, max result.2.retryAfter 1, result.2.limit,
      max result.2.remaining 0, ?_, ?_⟩
    · rw [hresult]
      simp only [hallowed, hstore, if_false, Bool.false_eq_true]
      split_ifs <;> rfl
    · intro d' hd' hshort'
      exact (hdelay _ (List.mem_map_of_mem hd') hshort').trans (le_max_left _ _)

lemma admit_state (env : Env) (s : State) (c : Check) (delivery : Delivery) :
    (s.admitBuckets env c delivery).1 = s ∨
      (∀ d ∈ c.buckets env, (d.cost : ℚ) ≤ s.level d) ∧
        (s.admitBuckets env c delivery).1 = s.debited env c := by
  rcases admit_cases env s c delivery with
    ⟨-, hresult⟩ | ⟨-, hpays, hresult⟩ | ⟨-, -, retryAfter, limit, remaining, hresult, -⟩
  · exact .inl (congrArg Prod.fst hresult)
  · exact .inr ⟨hpays, congrArg Prod.fst hresult⟩
  · exact .inl (congrArg Prod.fst hresult)

theorem step_ok {a : Act} (h : s.Ok env) (hs : s.step env a = some s') : s'.Ok env := by
  cases a with
  | tick us =>
    cases hs
    exact fun c d hd => (h c d hd).tick us
  | check c delivery =>
    cases hs
    rcases admit_state env s c delivery with hsame | ⟨hpays, hdebited⟩
    · rw [hsame]
      exact h
    · rw [hdebited]
      exact h.debited hpays
  | expire key =>
    simp only [State.step, Option.bind_eq_some_iff] at hs
    obtain ⟨cell, hcell, hs⟩ := hs
    split_ifs at hs with hexpired
    cases hs
    exact fun c d hd => ((h c d hd).expire hd hcell hexpired).2

lemma init_ok (start : ℕ) : (machine env start).init.Ok env := by
  intro c d hd
  refine ⟨fun cell hcell => ?_, fun cell hcell => ?_, ?_⟩
  · cases hcell
  · cases hcell
  · have hlevel : (machine env start).init.level d = d.limit.capacity := candidateTokens_none rfl
    rw [hlevel]
    exact TokenBucket.Metered.full (by positivity) (rate_nonneg _) _

theorem ok_of_reach {start : ℕ} (h : (machine env start).Reach s) : s.Ok env :=
  StepMachine.Reach.induct (P := State.Ok env) (init_ok start)
    (fun _ _ _ _ hok hs => step_ok hok hs) h

end Invariant

/-! ## Waiting -/

section Waiting

variable {s s' : State} {c : Check} {d : BucketDebit}

lemma step_quiet {a : Act} (h : s.Ok env) (hd : d ∈ c.buckets env)
    (hs : s.step env a = some s') :
    s.timeUs ≤ s'.timeUs ∧ ∃ tail, s'.log = s.log ++ tail ∧
      ((∀ e ∈ tail, d.key ∉ e.debits.map BucketDebit.key) →
        s'.level d = TokenBucket.refill (d.limit.capacity : ℚ) d.limit.rate (s.level d)
          ((nowMs s'.timeUs - nowMs s.timeUs : ℕ) : ℚ)) := by
  have hok := h c d hd
  have hstill : s.level d = TokenBucket.refill (d.limit.capacity : ℚ) d.limit.rate (s.level d)
      ((nowMs s.timeUs - nowMs s.timeUs : ℕ) : ℚ) := by
    rw [Nat.sub_self, Nat.cast_zero, TokenBucket.refill_zero hok.metered.level_le]
  cases a with
  | tick us =>
    cases hs
    exact ⟨Nat.le_add_right _ _, [], (List.append_nil _).symm, fun _ => level_tick hok us⟩
  | check c' delivery =>
    cases hs
    rcases admit_state env s c' delivery with hsame | ⟨hpays, hdebited⟩
    · rw [hsame]
      exact ⟨le_rfl, [], (List.append_nil _).symm, fun _ => hstill⟩
    · rw [hdebited]
      refine ⟨le_rfl, [⟨s.timeUs, c'.buckets env⟩], rfl, fun hquiet => ?_⟩
      rw [(level_debited_of_notMem (hquiet _ (List.mem_singleton_self _))).2]
      exact hstill
  | expire key =>
    simp only [State.step, Option.bind_eq_some_iff] at hs
    obtain ⟨cell, hcell, hs⟩ := hs
    split_ifs at hs with hexpired
    cases hs
    refine ⟨le_rfl, [], (List.append_nil _).symm, fun _ => ?_⟩
    rw [(hok.expire hd hcell hexpired).1]
    exact hstill

theorem run_quiet (as : List Act) (h : s.Ok env) (hd : d ∈ c.buckets env) {start : ℕ}
    (hrun : (machine env start).run s as = some s') :
    s.timeUs ≤ s'.timeUs ∧ ∃ tail, s'.log = s.log ++ tail ∧
      ((∀ e ∈ tail, d.key ∉ e.debits.map BucketDebit.key) →
        s'.level d = TokenBucket.refill (d.limit.capacity : ℚ) d.limit.rate (s.level d)
          ((nowMs s'.timeUs - nowMs s.timeUs : ℕ) : ℚ)) := by
  induction as generalizing s with
  | nil =>
    cases hrun
    refine ⟨le_rfl, [], (List.append_nil _).symm, fun _ => ?_⟩
    rw [Nat.sub_self, Nat.cast_zero, TokenBucket.refill_zero (h c d hd).metered.level_le]
  | cons a as ih =>
    rw [StepMachine.run_cons, Option.bind_eq_some_iff] at hrun
    obtain ⟨t, ht, hrest⟩ := hrun
    obtain ⟨htime, tail, hlog, hfirst⟩ := step_quiet h hd ht
    obtain ⟨htime', tail', hlog', hlater⟩ := ih (step_ok h ht) hrest
    refine ⟨htime.trans htime', tail ++ tail', by rw [hlog', hlog, List.append_assoc], ?_⟩
    intro hquiet
    rw [hlater fun e he => hquiet e (List.mem_append_right _ he),
      hfirst fun e he => hquiet e (List.mem_append_left _ he),
      TokenBucket.refill_refill (rate_nonneg _) (by positivity), ← Nat.cast_add]
    have hmono : nowMs s.timeUs ≤ nowMs t.timeUs := Nat.div_le_div_right htime
    have hmono' : nowMs t.timeUs ≤ nowMs s'.timeUs := Nat.div_le_div_right htime'
    congr 2
    omega

lemma nowMs_add_seconds {timeUs timeUs' seconds : ℕ} (h : timeUs + seconds * 1000000 ≤ timeUs') :
    seconds * 1000 ≤ nowMs timeUs' - nowMs timeUs := by
  unfold nowMs
  omega

lemma pays_after_delay {level : ℚ} {retryAfter : ℤ} {elapsedMs : ℕ} (hd : d ∈ c.buckets env)
    (hdelay : level < d.cost → max ⌈((d.cost : ℚ) - level) / d.limit.refillPerSecond⌉ 1 ≤ retryAfter)
    (helapsed : retryAfter * 1000 ≤ elapsedMs) :
    (d.cost : ℚ) ≤ TokenBucket.refill (d.limit.capacity : ℚ) d.limit.rate level elapsedMs := by
  obtain ⟨stage, scope, -, hgoverns⟩ := governs_of_mem hd
  have hrefill : (0 : ℚ) < d.limit.refillPerSecond := by exact_mod_cast hgoverns.sound.1
  have hcapacity : (d.cost : ℚ) ≤ d.limit.capacity := by exact_mod_cast cost_le_capacity hd
  refine le_min hcapacity ?_
  rcases le_or_gt (d.cost : ℚ) level with hpays | hshort
  · have hflow : 0 ≤ (elapsedMs : ℚ) * d.limit.rate := mul_nonneg (by positivity) (rate_nonneg _)
    linarith
  · have hceil : ((d.cost : ℚ) - level) / d.limit.refillPerSecond ≤ retryAfter :=
      (Int.le_ceil _).trans (by exact_mod_cast (le_max_left _ _).trans (hdelay hshort))
    rw [div_le_iff₀ hrefill] at hceil
    have hwait : (retryAfter : ℚ) * 1000 ≤ elapsedMs := by exact_mod_cast helapsed
    have hgain := mul_le_mul_of_nonneg_right hwait (rate_nonneg d.limit)
    have hrate : (retryAfter : ℚ) * 1000 * d.limit.rate = retryAfter * d.limit.refillPerSecond := by
      unfold BucketLimit.rate
      ring
    linarith

end Waiting

/-! ## Guarantees -/

/-- What was debited from a key at times from `a` to `b`, in microseconds. -/
def admittedCost (key : String) (a b : ℕ) (log : List Entry) : ℕ :=
  ((log.filter fun e => decide (a ≤ e.timeUs) && decide (e.timeUs ≤ b)).map
    fun e => e.costOn key).sum

lemma admittedCost_le_spent (key : String) (a b : ℕ) (log : List Entry) :
    (admittedCost key a b log : ℚ) ≤
      TokenBucket.spent (charges key log) (nowMs a : ℚ) (nowMs b : ℚ) := by
  induction log with
  | nil => simp [admittedCost, charges, TokenBucket.spent]
  | cons e log ih =>
    have hcost : (0 : ℚ) ≤ e.costOn key := by positivity
    simp only [admittedCost, charges, TokenBucket.spent, List.map_cons] at ih ⊢
    by_cases hin : a ≤ e.timeUs ∧ e.timeUs ≤ b
    · have ha : nowMs a ≤ nowMs e.timeUs := Nat.div_le_div_right hin.1
      have hb : nowMs e.timeUs ≤ nowMs b := Nat.div_le_div_right hin.2
      rw [List.filter_cons_of_pos (by simpa using hin),
        List.filter_cons_of_pos (by simpa using ⟨ha, hb⟩)]
      simp only [List.map_cons, List.sum_cons, Nat.cast_add]
      linarith
    · rw [List.filter_cons_of_neg (by simpa using hin), List.filter_cons]
      split_ifs
      · simp only [List.map_cons, List.sum_cons]
        linarith
      · exact ih

lemma nowMs_sub_le (a b : ℕ) : (nowMs b - nowMs a) * 1000 ≤ b - a + 999 := by
  unfold nowMs
  omega

lemma admittedCost_le {s : State} {c : Check} {d : BucketDebit} (h : s.Ok env)
    (hd : d ∈ c.buckets env) {a b : ℕ} (hab : a ≤ b) :
    (admittedCost d.key a b s.log : ℚ) ≤
      d.limit.capacity + d.limit.refillPerSecond * ((nowMs b - nowMs a : ℕ) : ℚ) / 1000 := by
  have hmono : nowMs a ≤ nowMs b := Nat.div_le_div_right hab
  have hwindow := (h c d hd).metered.window (nowMs a) (nowMs b) (by exact_mod_cast hmono)
  refine (admittedCost_le_spent d.key a b s.log).trans (hwindow.trans (le_of_eq ?_))
  rw [Nat.cast_sub hmono, BucketLimit.rate]
  ring

lemma admitted_after_delay {s s' : State} {c : Check} (h : s.Ok env) {message : String}
    {retryAfter remaining : ℤ} {limit : ℕ}
    (hturned : (s.admitBuckets env c .answered).2 =
      some (.rateLimited message retryAfter limit remaining))
    {as : List Act} {start : ℕ} (hrun : (machine env start).run s as = some s')
    (hquiet : ∀ e ∈ s'.log.drop s.log.length, ∀ d ∈ c.buckets env,
      d.key ∉ e.debits.map BucketDebit.key)
    (hwait : s.timeUs + retryAfter.toNat * 1000000 ≤ s'.timeUs) :
    (s'.admitBuckets env c .answered).2 = none := by
  -- the delay is long enough for every bucket
  have hdelay : 1 ≤ retryAfter ∧ ∀ d ∈ c.buckets env, s.level d < d.cost →
      max ⌈((d.cost : ℚ) - s.level d) / d.limit.refillPerSecond⌉ 1 ≤ retryAfter := by
    rcases admit_cases env s c .answered with
      ⟨hno, -⟩ | ⟨-, -, hresult⟩ | ⟨-, ⟨d, hd, hshort⟩, delay, limit', remaining', hresult, hdelay⟩
    · cases hno
    · rw [hresult] at hturned
      cases hturned
    · rw [hresult] at hturned
      cases hturned
      exact ⟨(le_max_right _ _).trans (hdelay d hd hshort), hdelay⟩
  -- so every bucket can pay now
  have hpays : ∀ d ∈ c.buckets env, (d.cost : ℚ) ≤ s'.level d := by
    intro d hd
    obtain ⟨-, tail, hlog, hlevel⟩ := run_quiet as h hd hrun
    have htail : s'.log.drop s.log.length = tail := by rw [hlog, List.drop_left]
    rw [hlevel fun e he => hquiet e (htail ▸ he) d hd]
    refine pays_after_delay hd (hdelay.2 d hd) ?_
    have hms := nowMs_add_seconds hwait
    have hnat : (retryAfter.toNat : ℤ) = retryAfter := Int.toNat_of_nonneg (by omega)
    omega
  rcases admit_cases env s' c .answered with
    ⟨hno, -⟩ | ⟨-, -, hresult⟩ | ⟨-, ⟨d, hd, hshort⟩, -⟩
  · cases hno
  · rw [hresult]
    rfl
  · exact absurd hshort (not_lt.2 (hpays d hd))

/-- **The quotas of the ingestion service.** Stored tokens stay between zero and the capacity. A
check debits all buckets of the request or none. In an interval of the clock a bucket takes at most
its capacity and what flows in during the milliseconds that begin in it, so for at most a
millisecond more than the interval. A request that was turned away is admitted after the delay it
was given. -/
theorem quota_guarantees {start : ℕ} {s : State} (h : (machine env start).Reach s) :
    (∀ c d cell, d ∈ Check.buckets env c → s.store d.key = some cell →
        0 ≤ cell.tokens ∧ cell.tokens ≤ d.limit.capacity) ∧
      (∀ c delivery,
        ((s.admitBuckets env c delivery).1 = s ∧
          (delivery = .answered → (s.admitBuckets env c delivery).2 ≠ none)) ∨
        ((∀ d ∈ Check.buckets env c, (d.cost : ℚ) ≤ s.level d ∧
            (s.admitBuckets env c delivery).1.level d = s.level d - d.cost) ∧
          (delivery = .answered → (s.admitBuckets env c delivery).2 = none))) ∧
      (∀ c d a b, d ∈ Check.buckets env c → a ≤ b →
        (admittedCost d.key a b s.log : ℚ) ≤
            d.limit.capacity + d.limit.refillPerSecond * ((nowMs b - nowMs a : ℕ) : ℚ) / 1000 ∧
          (admittedCost d.key a b s.log : ℚ) ≤
            d.limit.capacity + d.limit.refillPerSecond * ((b - a + 999 : ℕ) : ℚ) / 1000000) ∧
      ∀ c message retryAfter limit remaining as s',
        (s.admitBuckets env c .answered).2 =
          some (.rateLimited message retryAfter limit remaining) →
        (machine env start).run s as = some s' →
        (∀ e ∈ s'.log.drop s.log.length, ∀ d ∈ Check.buckets env c,
          d.key ∉ e.debits.map BucketDebit.key) →
        s.timeUs + retryAfter.toNat * 1000000 ≤ s'.timeUs →
        (s'.admitBuckets env c .answered).2 = none := by
  have hok : s.Ok env := ok_of_reach h
  refine ⟨fun c d cell hd => (hok c d hd).tokens cell, ?_, ?_, ?_⟩
  · intro c delivery
    rcases admit_cases env s c delivery with
      ⟨hunreached, hresult⟩ | ⟨hreached, hpays, hresult⟩ | ⟨hreached, -, _, _, _, hresult, -⟩
    · left
      rw [hresult]
      exact ⟨rfl, fun _ => by simp⟩
    · right
      rw [hresult]
      refine ⟨fun d hd => ⟨hpays d hd, (level_debited_of_mem (hok c d hd) hd).2⟩, ?_⟩
      rintro rfl
      rfl
    · left
      rw [hresult]
      refine ⟨rfl, ?_⟩
      rintro rfl
      simp
  · intro c d a b hd hab
    have hbound := admittedCost_le hok hd hab
    refine ⟨hbound, hbound.trans ?_⟩
    have hms : ((nowMs b - nowMs a : ℕ) : ℚ) * 1000 ≤ ((b - a + 999 : ℕ) : ℚ) := by
      exact_mod_cast nowMs_sub_le a b
    have hscaled := mul_le_mul_of_nonneg_left hms
      (by positivity : (0 : ℚ) ≤ d.limit.refillPerSecond / 1000000)
    linarith
  · intro c message retryAfter limit remaining as s' hturned hrun hquiet hwait
    exact admitted_after_delay hok hturned hrun hquiet hwait

/-- Hashes that show what they hash, and browser credentials only. -/
def textEnv : Env := ⟨fun kind value => kind ++ "/" ++ value, fun _ => .browser, fun _ _ _ => rfl⟩

/-- A browser sends a body of the largest size, and a small one 49.001 milliseconds later. -/
def quickRun : List Act :=
  [.check (.bytes ⟨"c1", "p1"⟩ "192.0.2.1" ⟨524288, by decide⟩) .answered, .tick 49001,
    .check (.bytes ⟨"c1", "p1"⟩ "192.0.2.1" ⟨1024, by decide⟩) .answered]

/-- The browser's bucket in `quickRun`. -/
def quickBucket : BucketDebit :=
  ⟨keyText .byte (.credential (textEnv.hashBucketIdentifier "credential" "c1")), browserByteLimit, 1⟩

/-- `quota_guarantees` after `quickRun`. -/
theorem quota_guarantees_quick :
    ∃ s, (machine textEnv 999).Reach s ∧ admittedCost quickBucket.key 999 50000 s.log = 513 ∧
      (admittedCost quickBucket.key 999 50000 s.log : ℚ) ≤ 512 + 20 * 50 / 1000 := by
  have hrun : ((machine textEnv 999).run (machine textEnv 999).init quickRun).map (fun s =>
      decide (admittedCost quickBucket.key 999 50000 s.log = 513)) = some true := by decide +kernel
  obtain ⟨s, hs, hend⟩ := Option.map_eq_some_iff.1 hrun
  have hreach : (machine textEnv 999).Reach s := StepMachine.reach_of_run hs
  have hmem : quickBucket ∈
      Check.buckets textEnv (.bytes ⟨"c1", "p1"⟩ "192.0.2.1" ⟨1024, by decide⟩) := by decide +kernel
  have hbound := ((quota_guarantees hreach).2.2.1 _ _ 999 50000 hmem (by decide)).1
  refine ⟨s, hreach, by simpa using hend, hbound.trans (le_of_eq ?_)⟩
  norm_num [quickBucket, browserByteLimit, nowMs]

/-- In 49.001 milliseconds a bucket of 512 tokens that gains 20 a second has paid for 513. -/
theorem submillisecond_interval :
    ∃ s, (machine textEnv 999).Reach s ∧
      quickBucket ∈ Check.buckets textEnv (.bytes ⟨"c1", "p1"⟩ "192.0.2.1" ⟨1024, by decide⟩) ∧
      (quickBucket.limit.capacity : ℚ) +
          quickBucket.limit.refillPerSecond * ((50000 - 999 : ℕ) : ℚ) / 1000000 <
        admittedCost quickBucket.key 999 50000 s.log := by
  have hrun : ((machine textEnv 999).run (machine textEnv 999).init quickRun).map (fun s =>
      decide (admittedCost quickBucket.key 999 50000 s.log = 513)) = some true := by decide +kernel
  obtain ⟨s, hs, hend⟩ := Option.map_eq_some_iff.1 hrun
  refine ⟨s, StepMachine.reach_of_run hs, by decide +kernel, ?_⟩
  rw [decide_eq_true_eq] at hend
  rw [hend]
  norm_num [quickBucket, browserByteLimit]

end Apdl.Ingest.RateLimit
