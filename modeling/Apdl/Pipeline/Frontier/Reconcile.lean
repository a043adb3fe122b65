import Apdl.Lib.StepMachine
import Apdl.Pipeline.Frontier.Stores

set_option autoImplicit false

/-!
# Reconciling acknowledged history

`_reconcile_acknowledged_history` trims a stream to a bound that it computes from two reads of its
group. Any number of calls, of this and of other writers, interleave with appends, deliveries and
acknowledgements.

## Main results

* `Reconcile.reconciliation_safe` — trimmed entries were delivered and acknowledged.

## Design

A bound stays safe because the head of the group only moves forward, and only entries behind the
head of that time become pending later. Entries are removed by acknowledgements too (`XDEL`), and
`XAUTOCLAIM` drops pending entries that were removed.
-/

namespace Apdl.Pipeline

/-- `XACK`. -/
def Redis.acknowledge (r : Redis) (ids : List StreamId) : Redis :=
  { r with group := r.group.map fun g =>
      { g with pending := g.pending.filter fun id => decide (id ∉ ids) } }

namespace Reconcile

/-- Where a call of `_reconcile_acknowledged_history` is with the stream. -/
inductive Call
  /-- Before `XINFO GROUPS`. -/
  | inspect (requireGroup : Bool)
  /-- Before `XPENDING`. -/
  | summarize
  /-- Before `XTRIM MINID`. -/
  | trim (minId : StreamId)
  /-- The call goes on with the next stream. -/
  | done
  | raised
  deriving DecidableEq

/-- The stream with its group, the calls, and the history. -/
structure State where
  redis : Redis
  calls : List Call
  delivered : List StreamId
  acknowledged : List StreamId
  trimmed : List StreamId

/-- What can happen next; `k` is the index of a call. -/
inductive Act
  | append (e : Entry)
  | createGroup
  | readGroup (count : ℕ)
  | autoClaim (ids : List StreamId)
  /-- `XACK`, as legacy writers do. -/
  | acknowledge (ids : List StreamId)
  /-- `XACK` and `XDEL`. -/
  | finalize (ids : List StreamId)
  | call (requireGroup : Bool)
  | inspect (k : ℕ)
  | summarize (k : ℕ)
  | trim (k : ℕ) (reply : Reply)

/-- What a call does with the reply of `XINFO GROUPS`. A stream without the key has no group. -/
def inspectGroup (requireGroup : Bool) : Option Group → Call
  | none => if requireGroup then .raised else .done
  | some g =>
    if g.lastDelivered = .zero then .done
    else if g.pending = [] then .trim (nextStreamId g.lastDelivered)
    else .summarize

/-- What a call does with the reply of `XPENDING`. -/
def summarizePending : Option Group → Call
  | none => .raised
  | some g =>
    match g.pending with
    | [] => .done
    | id :: ids => .trim (ids.foldl min id)

namespace State

def setCall (s : State) (k : ℕ) (c : Call) : State := { s with calls := s.calls.set k c }

/-- The pending ones of the IDs. -/
def pendingOf (s : State) (ids : List StreamId) : List StreamId :=
  ids.filter fun id => decide (id ∈ s.redis.pending)

/-- The IDs that a trim removes. -/
def below (s : State) (minId : StreamId) : List StreamId :=
  (s.redis.log.map Entry.id).filter fun id => decide (id < minId) && decide (id ∉ s.redis.deleted)

def step (s : State) : Act → Option State
  | .append e =>
    if s.redis.canAppend e.id then some { s with redis := s.redis.append e } else none
  | .createGroup =>
    if s.redis.group = none then
      some { s with redis := { s.redis with group := some ⟨.zero, 0, []⟩ } }
    else none
  | .readGroup count => s.redis.group.map fun g =>
      { s with
        redis := (s.redis.readGroup g count).2
        delivered := s.delivered ++ (s.redis.readGroup g count).1.map Entry.id }
  | .autoClaim ids => s.redis.group.map fun g =>
      { s with redis := (s.redis.autoClaim g ids).2.2 }
  | .acknowledge ids => some
      { s with
        redis := s.redis.acknowledge ids
        acknowledged := s.acknowledged ++ s.pendingOf ids }
  | .finalize ids => some
      { s with
        redis := s.redis.finalize ids
        acknowledged := s.acknowledged ++ s.pendingOf ids }
  | .call requireGroup => some { s with calls := s.calls ++ [.inspect requireGroup] }
  | .inspect k =>
    match s.calls[k]? with
    | some (.inspect requireGroup) => some (s.setCall k (inspectGroup requireGroup s.redis.group))
    | _ => none
  | .summarize k =>
    match s.calls[k]? with
    | some .summarize => some (s.setCall k (summarizePending s.redis.group))
    | _ => none
  | .trim k reply =>
    match s.calls[k]? with
    | some (.trim minId) =>
      match reply with
      | .failed => some (s.setCall k .raised)
      | .lost => some { s.setCall k .raised with
          redis := s.redis.trim minId, trimmed := s.trimmed ++ s.below minId }
      | .done => some { s.setCall k .done with
          redis := s.redis.trim minId, trimmed := s.trimmed ++ s.below minId }
    | _ => none

end State

/-- The stream from its first entry on. -/
def machine : StepMachine State Act := ⟨⟨⟨[], [], none, []⟩, [], [], [], []⟩, State.step⟩

/-! ## The invariant -/

/-- A bound before which every entry is delivered and none is pending. -/
def Safe (r : Redis) (minId : StreamId) : Prop :=
  ∀ id : StreamId, (ofLex id).2 < sequenceLimit → id < minId → id ≤ r.head ∧ id ∉ r.pending

/-- The invariant of the states. -/
structure Ok (s : State) : Prop where
  sorted : s.redis.log.Pairwise fun e e' => e.id < e'.id
  sequence : ∀ e ∈ s.redis.log, (ofLex e.id).2 < sequenceLimit
  head_le : s.redis.head ≤ s.redis.lastId
  pending_le : ∀ id ∈ s.redis.pending, id ≤ s.redis.head
  /-- What was read and is still there was delivered, and is pending or acknowledged. -/
  read : ∀ e ∈ s.redis.log, e.id ∉ s.redis.deleted → e.id ≤ s.redis.head →
    e.id ∈ s.delivered ∧ (e.id ∈ s.redis.pending ∨ e.id ∈ s.acknowledged)
  calls : ∀ minId, .trim minId ∈ s.calls → Safe s.redis minId
  trimmed : ∀ id ∈ s.trimmed, id ∈ s.delivered ∧ id ∈ s.acknowledged

variable {s s' : State} {r : Redis}

variable {minId : StreamId}

lemma Safe.of_head_le {r' : Redis} (h : Safe r minId) (hhead : r.head ≤ r'.head)
    (hpending : ∀ id ∈ r'.pending, id ∈ r.pending ∨ r.head < id) : Safe r' minId := by
  intro id hseq hlt
  obtain ⟨hle, hnot⟩ := h id hseq hlt
  refine ⟨hle.trans hhead, fun hin => ?_⟩
  obtain hold | hnew := hpending id hin
  · exact hnot hold
  · exact absurd hnew (not_lt.2 hle)

variable {g : Group}

lemma head_of_group (hg : r.group = some g) : r.head = g.lastDelivered := by
  rw [Redis.head, hg]

lemma pending_of_group (hg : r.group = some g) : r.pending = g.pending := by
  rw [Redis.pending, hg]

lemma Ok.safe_of_reply (h : Ok s) (requireGroup : Bool)
    (hreply : inspectGroup requireGroup s.redis.group = .trim minId ∨
      summarizePending s.redis.group = .trim minId) : Safe s.redis minId := by
  cases hg : s.redis.group with
  | none =>
    rw [hg] at hreply
    cases requireGroup <;> simp [inspectGroup, summarizePending] at hreply
  | some g =>
    rw [hg] at hreply
    obtain hreply | hreply := hreply
    · unfold inspectGroup at hreply
      dsimp only at hreply
      split_ifs at hreply with hzero hempty
      obtain rfl := Call.trim.inj hreply
      intro id hseq hlt
      rw [head_of_group hg, pending_of_group hg, hempty]
      exact ⟨le_of_lt_nextStreamId hseq hlt, List.not_mem_nil⟩
    · cases hpending : g.pending with
      | nil => simp [summarizePending, hpending] at hreply
      | cons id ids =>
        simp only [summarizePending, hpending, Call.trim.injEq] at hreply
        subst hreply
        have hmem := List.foldl_min_mem ids id
        rw [← hpending, ← pending_of_group hg] at hmem
        intro x _ hlt
        refine ⟨hlt.le.trans (h.pending_le _ hmem), fun hx => ?_⟩
        rw [pending_of_group hg, hpending] at hx
        obtain rfl | hx := List.mem_cons.1 hx
        · exact absurd hlt (not_lt.2 (List.foldl_min_le_base ids x))
        · exact absurd hlt (not_lt.2 (List.foldl_min_le hx id))

lemma Ok.setCall (h : Ok s) (k : ℕ) {c : Call} (hc : ∀ minId, c = .trim minId → Safe s.redis minId) :
    Ok (s.setCall k c) :=
  { h with
    calls := fun minId hmem => by
      obtain hold | hnew := List.mem_or_eq_of_mem_set hmem
      · exact h.calls minId hold
      · exact hc minId hnew.symm }

lemma Ok.setRedis (h : Ok s) {delivered acknowledged : List StreamId} (hlog : r.log = s.redis.log)
    (hmono : s.redis.head ≤ r.head) (hlast : r.head ≤ r.lastId)
    (hpending : ∀ id ∈ r.pending, id ≤ r.head ∧ (id ∈ s.redis.pending ∨ s.redis.head < id))
    (hdelivered : ∀ id ∈ s.delivered, id ∈ delivered)
    (hacknowledged : ∀ id ∈ s.acknowledged, id ∈ acknowledged)
    (hread : ∀ e ∈ s.redis.log, e.id ∉ r.deleted → e.id ≤ r.head →
      e.id ∈ delivered ∧ (e.id ∈ r.pending ∨ e.id ∈ acknowledged)) :
    Ok { s with redis := r, delivered := delivered, acknowledged := acknowledged } where
  sorted := by
    dsimp only
    rw [hlog]
    exact h.sorted
  sequence e he := h.sequence e (hlog ▸ he)
  head_le := hlast
  pending_le id hid := (hpending id hid).1
  read e he := hread e (hlog ▸ he)
  calls minId hmem := (h.calls minId hmem).of_head_le hmono fun id hid => (hpending id hid).2
  trimmed id hid := (h.trimmed id hid).imp (hdelivered id) (hacknowledged id)

/-! ## Steps -/

lemma Ok.append (h : Ok s) {e : Entry} (he : s.redis.canAppend e.id = true) :
    Ok { s with redis := s.redis.append e } := by
  simp only [Redis.canAppend, Bool.and_eq_true, decide_eq_true_eq] at he
  have hbehind : ∀ x ∈ s.redis.log, x.id < e.id := fun x hx =>
    (List.le_foldl_max (List.mem_map_of_mem hx) _).trans_lt he.1
  refine ⟨?_, fun x hx => ?_, ?_, h.pending_le, fun x hx => ?_, h.calls, h.trimmed⟩
  · refine List.pairwise_append.2 ⟨h.sorted, List.pairwise_singleton _ _, fun x hx y hy => ?_⟩
    rw [List.mem_singleton.1 hy]
    exact hbehind x hx
  · obtain hx | hx := List.mem_append.1 hx
    · exact h.sequence x hx
    · rw [List.mem_singleton.1 hx]
      exact he.2
  · refine h.head_le.trans (he.1.le.trans (List.le_foldl_max ?_ _))
    exact List.mem_map_of_mem (List.mem_append_right _ List.mem_cons_self)
  · obtain hx | hx := List.mem_append.1 hx
    · exact h.read x hx
    · rw [List.mem_singleton.1 hx]
      exact fun _ hle => absurd (h.head_le.trans_lt he.1) (not_lt.2 hle)

lemma Ok.createGroup (h : Ok s) (hg : s.redis.group = none) :
    Ok { s with redis := { s.redis with group := some ⟨.zero, 0, []⟩ } } := by
  have hhead : s.redis.head = .zero := by rw [Redis.head, hg]
  refine h.setRedis rfl hhead.le (StreamId.zero_le _) (fun id hid => ?_) (fun _ => id)
    (fun _ => id) fun e he hkept hle => ?_
  · exact absurd hid List.not_mem_nil
  · obtain ⟨hdelivered, hpending⟩ := h.read e he hkept (hle.trans hhead.ge)
    refine ⟨hdelivered, .inr (hpending.resolve_left fun hin => ?_)⟩
    rw [Redis.pending, hg] at hin
    cases hin

/-- A read moves the head over entries that become pending.

**Proof sketch.** The new head is the ID of a delivered entry, and the delivered entries are a
prefix of those that are there behind the old head; so an entry that is there, up to the new head,
was read before or is delivered now. -/
lemma Ok.readGroup (h : Ok s) (hg : s.redis.group = some g) (count : ℕ) :
    Ok { s with
      redis := (s.redis.readGroup g count).2
      delivered := s.delivered ++ (s.redis.readGroup g count).1.map Entry.id } := by
  set entries := (s.redis.undelivered g).take count with hentries
  have hmem : ∀ e ∈ entries, e ∈ s.redis.log ∧ s.redis.head < e.id := by
    intro e he
    obtain ⟨hlog, hahead⟩ := List.mem_filter.1 (List.mem_of_mem_take he)
    simp only [Bool.and_eq_true, decide_eq_true_eq] at hahead
    exact ⟨hlog, head_of_group hg ▸ hahead.1⟩
  have hhead : (s.redis.readGroup g count).2.head =
      (entries.map Entry.id).foldl max s.redis.head := by
    rw [head_of_group hg]
    rfl
  have hpending : (s.redis.readGroup g count).2.pending = s.redis.pending ++ entries.map Entry.id := by
    rw [pending_of_group hg]
    rfl
  have hmono : s.redis.head ≤ (s.redis.readGroup g count).2.head := by
    rw [hhead]
    exact List.base_le_foldl_max _ _
  refine h.setRedis rfl hmono ?_ (fun id hid => ?_) (fun _ => List.mem_append_left _) (fun _ => id)
    fun e he hkept hle => ?_
  · rw [hhead]
    obtain hsame | hnew := List.foldl_max_mem (entries.map Entry.id) s.redis.head
    · rw [hsame]
      exact h.head_le
    · obtain ⟨e, he, heq⟩ := List.mem_map.1 hnew
      rw [← heq]
      exact List.le_foldl_max (List.mem_map_of_mem (hmem e he).1) _
  · rw [hpending] at hid
    obtain hid | hid := List.mem_append.1 hid
    · exact ⟨(h.pending_le id hid).trans hmono, .inl hid⟩
    · rw [hhead]
      refine ⟨List.le_foldl_max hid _, ?_⟩
      obtain ⟨e, he, rfl⟩ := List.mem_map.1 hid
      exact .inr (hmem e he).2
  · rw [hpending]
    by_cases hold : e.id ≤ s.redis.head
    · exact (h.read e he hkept hold).imp (List.mem_append_left _)
        (Or.imp_left (List.mem_append_left _))
    · rw [hhead] at hle
      have hin : e ∈ entries := by
        obtain hsame | hnew := List.foldl_max_mem (entries.map Entry.id) s.redis.head
        · exact absurd (hsame ▸ hle) hold
        · obtain ⟨x, hx, hxid⟩ := List.mem_map.1 hnew
          refine List.mem_take_of_le (h.sorted.filter _) ?_ hx (hxid ▸ hle)
          refine List.mem_filter.2 ⟨he, ?_⟩
          simp only [Bool.and_eq_true, decide_eq_true_eq]
          exact ⟨head_of_group hg ▸ not_le.1 hold, hkept⟩
      have hid := List.mem_map_of_mem (f := Entry.id) hin
      exact ⟨List.mem_append_right _ hid, .inl (List.mem_append_right _ hid)⟩

lemma Ok.autoClaim (h : Ok s) (hg : s.redis.group = some g) (ids : List StreamId) :
    Ok { s with redis := (s.redis.autoClaim g ids).2.2 } := by
  have hhead : (s.redis.autoClaim g ids).2.2.head = s.redis.head := (head_of_group hg).symm
  refine h.setRedis rfl hhead.ge (hhead.trans_le h.head_le) (fun id hid => ?_) (fun _ => id)
    (fun _ => id) fun e he hkept hle => ?_
  · have hold : id ∈ s.redis.pending := pending_of_group hg ▸ (List.mem_filter.1 hid).1
    exact ⟨hhead ▸ h.pending_le id hold, .inl hold⟩
  · replace hkept : e.id ∉ s.redis.deleted := hkept
    refine (h.read e he hkept (hhead ▸ hle)).imp_right (Or.imp_left fun hin => ?_)
    refine List.mem_filter.2 ⟨pending_of_group hg ▸ hin, ?_⟩
    rw [decide_eq_false hkept, Bool.and_false, Bool.not_false]

lemma Ok.acknowledge (h : Ok s) {ids : List StreamId} (hlog : r.log = s.redis.log)
    (hgroup : r.group = (s.redis.acknowledge ids).group)
    (hdeleted : ∀ id ∈ s.redis.deleted, id ∈ r.deleted) :
    Ok { s with redis := r, acknowledged := s.acknowledged ++ s.pendingOf ids } := by
  have hhead : r.head = s.redis.head := by
    rw [Redis.head, Redis.head, hgroup, Redis.acknowledge]
    cases s.redis.group <;> rfl
  have hpending : r.pending = s.redis.pending.filter fun id => decide (id ∉ ids) := by
    rw [Redis.pending, Redis.pending, hgroup, Redis.acknowledge]
    cases s.redis.group <;> rfl
  have hlast : r.lastId = s.redis.lastId := by rw [Redis.lastId, hlog, Redis.lastId]
  refine h.setRedis hlog hhead.ge (hhead.trans_le (h.head_le.trans hlast.ge)) (fun id hid => ?_)
    (fun _ => id) (fun _ => List.mem_append_left _) fun e he hkept hle => ?_
  · rw [hpending] at hid
    have hold := (List.mem_filter.1 hid).1
    exact ⟨hhead ▸ h.pending_le id hold, .inl hold⟩
  · obtain ⟨hdelivered, hin | hack⟩ :=
      h.read e he (fun hdel => hkept (hdeleted e.id hdel)) (hhead ▸ hle)
    · refine ⟨hdelivered, ?_⟩
      by_cases hids : e.id ∈ ids
      · exact .inr (List.mem_append_right _ (List.mem_filter.2 ⟨hids, decide_eq_true hin⟩))
      · rw [hpending]
        exact .inl (List.mem_filter.2 ⟨hin, decide_eq_true hids⟩)
    · exact ⟨hdelivered, .inr (List.mem_append_left _ hack)⟩

lemma present_iff {id : StreamId} :
    r.present id = true ↔ id ∈ r.log.map Entry.id ∧ id ∉ r.deleted := by
  simp only [Redis.present, Bool.and_eq_true, decide_eq_true_eq]

/-- **What a safe bound removes** was delivered and acknowledged, and is not pending. -/
lemma Ok.below (h : Ok s) (hsafe : Safe s.redis minId) {id : StreamId} (hid : id ∈ s.below minId) :
    id ∈ s.delivered ∧ id ∈ s.acknowledged ∧ id ∉ s.redis.pending ∧ id ≤ s.redis.head := by
  obtain ⟨hlog, hbelow⟩ := List.mem_filter.1 hid
  obtain ⟨e, he, rfl⟩ := List.mem_map.1 hlog
  simp only [Bool.and_eq_true, decide_eq_true_eq] at hbelow
  obtain ⟨hle, hnot⟩ := hsafe e.id (h.sequence e he) hbelow.1
  obtain ⟨hdelivered, hack⟩ := h.read e he hbelow.2 hle
  exact ⟨hdelivered, hack.resolve_left hnot, hnot, hle⟩

lemma Ok.trim (h : Ok s) (hsafe : Safe s.redis minId) :
    Ok { s with redis := s.redis.trim minId, trimmed := s.trimmed ++ s.below minId } :=
  { h with
    read := fun e he hkept hle =>
      h.read e he (fun hdel => hkept (List.mem_append_left _ hdel)) hle
    trimmed := fun id hid => (List.mem_append.1 hid).elim (h.trimmed id) fun hnew =>
      ⟨(h.below hsafe hnew).1, (h.below hsafe hnew).2.1⟩ }

lemma trim_cases {k : ℕ} {reply : Reply} (hst : s.step (.trim k reply) = some s') :
    ∃ minId, s.calls[k]? = some (.trim minId) ∧
      (s' = s.setCall k .raised ∨ ∃ c, (c = .raised ∨ c = .done) ∧ s' = { s.setCall k c with
        redis := s.redis.trim minId, trimmed := s.trimmed ++ s.below minId }) := by
  unfold State.step at hst
  dsimp only at hst
  split at hst
  · next minId hk =>
    refine ⟨minId, hk, ?_⟩
    cases reply with
    | failed => exact .inl (Option.some.inj hst).symm
    | lost => exact .inr ⟨.raised, .inl rfl, (Option.some.inj hst).symm⟩
    | done => exact .inr ⟨.done, .inr rfl, (Option.some.inj hst).symm⟩
  · cases hst

lemma Ok.step (h : Ok s) {a : Act} (hst : s.step a = some s') : Ok s' := by
  cases a with
  | append e =>
    rw [State.step, ite_eq_iff] at hst
    obtain ⟨he, hst⟩ | ⟨-, hst⟩ := hst
    · exact Option.some.inj hst ▸ h.append he
    · cases hst
  | createGroup =>
    rw [State.step, ite_eq_iff] at hst
    obtain ⟨hg, hst⟩ | ⟨-, hst⟩ := hst
    · exact Option.some.inj hst ▸ h.createGroup hg
    · cases hst
  | readGroup count =>
    obtain ⟨g, hg, rfl⟩ := Option.map_eq_some_iff.1 hst
    exact h.readGroup hg count
  | autoClaim ids =>
    obtain ⟨g, hg, rfl⟩ := Option.map_eq_some_iff.1 hst
    exact h.autoClaim hg ids
  | acknowledge ids => exact Option.some.inj hst ▸ h.acknowledge rfl rfl fun _ => id
  | finalize ids =>
    exact Option.some.inj hst ▸ h.acknowledge rfl rfl fun _ => List.mem_append_left _
  | call requireGroup =>
    refine Option.some.inj hst ▸ { h with calls := fun minId hmem => ?_ }
    obtain hold | hnew := List.mem_append.1 hmem
    · exact h.calls minId hold
    · exact absurd (List.mem_singleton.1 hnew) (by simp)
  | inspect k =>
    unfold State.step at hst
    dsimp only at hst
    split at hst
    · exact Option.some.inj hst ▸ h.setCall k fun minId hc => h.safe_of_reply _ (.inl hc)
    · cases hst
  | summarize k =>
    unfold State.step at hst
    dsimp only at hst
    split at hst
    · exact Option.some.inj hst ▸ h.setCall k fun minId hc =>
        h.safe_of_reply true (.inr hc)
    · cases hst
  | trim k reply =>
    obtain ⟨minId, hk, rfl | ⟨c, hc, rfl⟩⟩ := trim_cases hst
    · exact h.setCall k (by simp)
    · have hset : Ok (s.setCall k c) := h.setCall k (by obtain rfl | rfl := hc <;> simp)
      exact hset.trim (h.calls minId (List.mem_of_getElem? hk))

lemma ok_of_reach (h : machine.Reach s) : Ok s := by
  refine StepMachine.Reach.induct (P := Ok) ?_ (fun _ _ _ _ hs hst => hs.step hst) h
  refine ⟨List.Pairwise.nil, ?_, le_rfl, ?_, ?_, ?_, ?_⟩ <;> simp [machine, Redis.pending]

/-- **Reconciliation is safe.** However its calls interleave with appends, deliveries and
acknowledgements, an entry that is there before `XTRIM` and not after it was delivered and
acknowledged, is not pending and not unread; and so were all entries trimmed before. -/
theorem reconciliation_safe (h : machine.Reach s) :
    (∀ k reply s' id, machine.step s (.trim k reply) = some s' → s.redis.present id = true →
      s'.redis.present id = false →
        id ∈ s.delivered ∧ id ∈ s.acknowledged ∧ id ∉ s.redis.pending ∧ id ≤ s.redis.head) ∧
      ∀ id ∈ s.trimmed, id ∈ s.delivered ∧ id ∈ s.acknowledged := by
  have hok := ok_of_reach h
  refine ⟨fun k reply s' id hst hbefore hafter => ?_, hok.trimmed⟩
  obtain ⟨minId, hk, rfl | ⟨c, -, rfl⟩⟩ := trim_cases hst
  · replace hafter : s.redis.present id = false := hafter
    rw [hbefore] at hafter
    cases hafter
  · refine hok.below (hok.calls minId (List.mem_of_getElem? hk)) ?_
    rw [present_iff] at hbefore
    by_contra hnot
    have hstill : (s.redis.trim minId).present id = true :=
      present_iff.2 ⟨hbefore.1, fun hdeleted => (List.mem_append.1 hdeleted).elim hbefore.2 hnot⟩
    replace hafter : (s.redis.trim minId).present id = false := hafter
    rw [hstill] at hafter
    cases hafter

/-- Two entries are delivered and the first is acknowledged, between the reads of one call; another
one finds nothing pending later, when a third entry is unread. -/
def interleavedRun : List Act :=
  [.createGroup, .append ⟨toLex (1, 0), .row⟩, .append ⟨toLex (2, 0), .row⟩, .readGroup 2,
    .call true, .inspect 0, .acknowledge [toLex (1, 0)], .summarize 0, .trim 0 .done,
    .acknowledge [toLex (2, 0)], .call false, .inspect 1, .append ⟨toLex (3, 0), .row⟩, .trim 1 .done]

/-- The calls of the run remove the two acknowledged entries. -/
theorem reconciliation_safe_interleavedRun :
    ∃ s, machine.run machine.init interleavedRun = some s ∧
      s.trimmed = [toLex (1, 0), toLex (2, 0)] ∧ s.redis.present (toLex (3, 0)) = true ∧
      ∀ id ∈ s.trimmed, id ∈ s.delivered ∧ id ∈ s.acknowledged := by
  have hrun : (machine.run machine.init interleavedRun).map (fun s =>
      (s.trimmed, s.redis.present (toLex (3, 0)))) =
        some ([toLex (1, 0), toLex (2, 0)], true) := by decide +kernel
  obtain ⟨s, hs, hvalue⟩ := Option.map_eq_some_iff.1 hrun
  obtain ⟨htrimmed, hpresent⟩ := Prod.mk.inj hvalue
  have hreach : machine.Reach s :=
    StepMachine.reachUnder_of_run interleavedRun (fun _ _ _ => trivial) .init hs
  exact ⟨s, hs, htrimmed, hpresent, (reconciliation_safe hreach).2⟩

end Reconcile

end Apdl.Pipeline
