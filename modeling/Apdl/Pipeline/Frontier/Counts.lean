import Apdl.Pipeline.Frontier.Held

set_option autoImplicit false

/-!
# The counts of a finalization

`_finalize_durable_stream` accepts the counts of `XACK` and `XDEL` when they are those of its whole
batch, or zero after an attempt whose outcome is unknown. The batch is the durable-pending set; as
long as that set does not mix deliveries that are still pending with acknowledged ones, every count
is accepted and a finalization without further faults succeeds.

## Main results

* `counts_accepted` — under the condition, the counts are always accepted, the authority is never
  degraded for them, and the finalization can be completed.
-/

namespace Apdl.Pipeline

/-! ## Attempts -/

/-- A finalization is in progress. -/
def FlushTask.isFinalizing : FlushTask → Bool
  | .finalizing .. => true
  | _ => false

namespace Memory

/-- The deliveries of the finalization in progress, or else of the next one. -/
def attempt (m : Memory) : List StreamId :=
  if m.flush.isFinalizing then m.flush.snapshot else m.durablePendingAck

/-- A delivery joins the durable-pending set only while it is pending and, when no finalization is
in progress, while the rest of the set is. -/
def JoinsPending (r : Redis) (m m' : Memory) : Prop :=
  ∀ id ∈ m'.durablePendingAck, id ∉ m.durablePendingAck →
    id ∈ r.pending ∧ (m.flush.isFinalizing = false → ∀ x ∈ m.durablePendingAck, x ∈ r.pending)

instance (r : Redis) (m m' : Memory) : Decidable (JoinsPending r m m') :=
  inferInstanceAs (Decidable (∀ id ∈ m'.durablePendingAck, id ∉ m.durablePendingAck →
    id ∈ r.pending ∧ (m.flush.isFinalizing = false → ∀ x ∈ m.durablePendingAck, x ∈ r.pending)))

/-- A finalization that ends without success covers the whole durable-pending set, or leaves all
its deliveries pending. -/
def FailsWhole (r : Redis) (m m' : Memory) : Prop :=
  m.flush.isFinalizing = true → m'.flush.isFinalizing = false →
    (∃ id ∈ m.flush.snapshot, id ∈ m'.durablePendingAck) →
    (∀ x ∈ m'.durablePendingAck, x ∈ m.flush.snapshot) ∨ ∀ id ∈ m.flush.snapshot, id ∈ r.pending

instance (r : Redis) (m m' : Memory) : Decidable (FailsWhole r m m') :=
  inferInstanceAs (Decidable (m.flush.isFinalizing = true → m'.flush.isFinalizing = false →
    (∃ id ∈ m.flush.snapshot, id ∈ m'.durablePendingAck) →
    (∀ x ∈ m'.durablePendingAck, x ∈ m.flush.snapshot) ∨
      ∀ id ∈ m.flush.snapshot, id ∈ r.pending))

end Memory

/-- A step mixes no pending and acknowledged deliveries in the durable-pending set. -/
def keepsTogether (s : State) (a : Act) : Bool :=
  match s.process, step s a with
  | .up m, some ⟨w, .up m'⟩ =>
    decide (m.JoinsPending s.world.redis m') && decide (m.FailsWhole w.redis m')
  | _, _ => true

lemma keepsTogether_up {s s' : State} {a : Act} {m m' : Memory} (h : keepsTogether s a = true)
    (hst : step s a = some s') (hm : s.process = .up m) (hm' : s'.process = .up m') :
    m.JoinsPending s.world.redis m' ∧ m.FailsWhole s'.world.redis m' := by
  obtain ⟨w, p⟩ := s'
  obtain rfl : p = .up m' := hm'
  simpa only [keepsTogether, hm, hst, Bool.and_eq_true, decide_eq_true_eq] using h

/-! ## The stream -/

/-- What was delivered is pending or deleted. -/
structure Redis.Exact (r : Redis) : Prop where
  pending : ∀ id ∈ r.pending, id ∈ r.log.map Entry.id
  delivered : ∀ e ∈ r.log, e.id ≤ r.head → e.id ∈ r.pending ∨ e.id ∈ r.deleted

/-- The stream moves on: no delivery is acknowledged. -/
structure Redis.Moves (r r' : Redis) : Prop where
  exact : r'.Exact
  agree : ∀ id ≤ r.head, id ∈ r'.pending ↔ id ∈ r.pending
  log : ∀ id ∈ r.log.map Entry.id, id ∈ r'.log.map Entry.id
  group : r.group.isSome = true → r'.group.isSome = true

section Stream

variable {w : World}

lemma Redis.Moves.refl {r : Redis} (hx : r.Exact) : r.Moves r :=
  ⟨hx, fun _ _ => Iff.rfl, fun _ h => h, fun h => h⟩

lemma moves_append (hw : w.Ok) (hx : w.redis.Exact) {e : Entry}
    (he : w.redis.canAppend e.id = true) (dedup : List (Token × StreamId)) :
    w.redis.Moves { w.redis.append e with dedup := dedup } := by
  have hhead : w.redis.head < e.id := by
    simp only [Redis.canAppend, Bool.and_eq_true, decide_eq_true_eq] at he
    exact hw.head_le.trans_lt he.1
  have hlog : ∀ id ∈ w.redis.log.map Entry.id, id ∈ (w.redis.log ++ [e]).map Entry.id := by
    intro id hid
    rw [List.map_append]
    exact List.mem_append_left _ hid
  refine ⟨⟨fun id hid => hlog id (hx.pending id hid), fun x hmem hle => ?_⟩,
    fun _ _ => Iff.rfl, hlog, fun h => h⟩
  obtain hmem | hmem := List.mem_append.1 hmem
  · exact hx.delivered x hmem hle
  · obtain rfl := List.mem_singleton.1 hmem
    exact absurd hhead (not_lt.2 hle)

lemma moves_readGroup (hw : w.Ok) (hx : w.redis.Exact) {g : Group} (hg : w.redis.group = some g)
    (count : ℕ) : w.redis.Moves (w.redis.readGroup g count).2 := by
  have hhead : w.redis.head = g.lastDelivered := by simp [Redis.head, hg]
  have hpend : w.redis.pending = g.pending := by simp [Redis.pending, hg]
  have hpend' : (w.redis.readGroup g count).2.pending =
      w.redis.pending ++ (w.redis.readGroup g count).1.map Entry.id := by
    rw [hpend]
    rfl
  refine ⟨⟨fun id hid => ?_, fun e he hle => ?_⟩, fun id hle => ?_, fun _ h => h, fun _ => rfl⟩
  · rw [hpend'] at hid
    obtain hid | hid := List.mem_append.1 hid
    · exact hx.pending id hid
    · obtain ⟨e, he, rfl⟩ := List.mem_map.1 hid
      exact List.mem_map_of_mem (World.readGroup_entries he).1
  · rw [hpend']
    obtain hold | hnew := World.readGroup_covers hw hg he hle
    · exact (hx.delivered e he hold).imp_left (List.mem_append_left _)
    · exact .inl (List.mem_append_right _ (List.mem_map_of_mem hnew))
  · rw [hpend', List.mem_append]
    refine or_iff_left fun hid => ?_
    obtain ⟨e, he, rfl⟩ := List.mem_map.1 hid
    have hnew := (List.mem_filter.1 (List.mem_of_mem_take he)).2
    simp only [Bool.and_eq_true, decide_eq_true_eq] at hnew
    exact absurd (hhead ▸ hnew.1) (not_lt.2 hle)

lemma moves_trim (hx : w.redis.Exact) (minId : StreamId) : w.redis.Moves (w.redis.trim minId) :=
  ⟨⟨hx.pending, fun e he hle => (hx.delivered e he hle).imp_right (List.mem_append_left _)⟩,
    fun _ _ => Iff.rfl, fun _ h => h, fun h => h⟩

lemma moves_createGroup (hw : w.Ok) (hg : w.redis.group = none) :
    w.redis.Moves { w.redis with group := some ⟨.zero, 0, []⟩ } := by
  have hpend : w.redis.pending = [] := by simp [Redis.pending, hg]
  refine ⟨⟨fun id hid => absurd hid List.not_mem_nil, fun e he hle => ?_⟩, fun id _ => ?_,
    fun _ h => h, fun _ => rfl⟩
  · exact absurd (hw.positive e he) (not_lt.2 hle)
  · rw [hpend]
    exact Iff.rfl

lemma exact_finalize (hw : w.Ok) (hx : w.redis.Exact) (ids : List StreamId) :
    (w.redis.finalize ids).Exact := by
  constructor
  · intro id hid
    rw [World.finalize_pending] at hid
    exact hx.pending id (List.mem_filter.1 hid).1
  · intro e he hle
    rw [World.finalize_head] at hle
    rw [World.finalize_pending, List.mem_filter, decide_eq_true_eq]
    have hlog : e.id ∈ w.redis.log.map Entry.id := List.mem_map_of_mem he
    obtain hp | hd := hx.delivered e he hle
    · by_cases hin : e.id ∈ ids
      · refine .inr (List.mem_append_right _ (List.mem_filter.2 ⟨hin, ?_⟩))
        simp only [Redis.present, Bool.and_eq_true, decide_eq_true_eq]
        exact ⟨hlog, hw.pending_kept e.id hp⟩
      · exact .inl ⟨hp, hin⟩
    · exact .inr (List.mem_append_left _ hd)

end Stream

/-! ## Whole batches -/

/-- The deliveries are all pending, or an uncertain attempt has acknowledged all of them. -/
def Whole (r : Redis) (uncertain : Bool) (ids : List StreamId) : Prop :=
  (∀ id ∈ ids, id ∈ r.pending) ∨ uncertain = true ∧ ∀ id ∈ ids, id ∉ r.pending

variable {ids : List StreamId}

lemma Whole.mono {r : Redis} {uncertain : Bool} {ids' : List StreamId}
    (h : Whole r uncertain ids) (hsub : ∀ id ∈ ids', id ∈ ids) : Whole r uncertain ids' :=
  h.imp (fun h id hid => h id (hsub id hid)) fun h => ⟨h.1, fun id hid => h.2 id (hsub id hid)⟩

/-- The counts of `_finalize_durable_stream` that it accepts. -/
def Accepted (r : Redis) (uncertain : Bool) (ids : List StreamId) : Prop :=
  r.finalizeCounts ids = (ids.length, ids.length) ∨
    uncertain = true ∧ r.finalizeCounts ids = (0, 0)

lemma finalizeCounts_eq (r : Redis) (ids : List StreamId) :
    r.finalizeCounts ids =
      ((ids.filter fun id => decide (id ∈ r.pending)).length, (ids.filter r.present).length) := by
  cases hg : r.group <;> simp [Redis.finalizeCounts, Redis.pending, hg]

/-- The counts of a whole batch are accepted.

**Proof sketch.** A pending delivery is in the stream, so a pending batch has both counts full. A
delivery that is not pending any more is deleted, so an acknowledged batch has both counts zero. -/
lemma accepted_of_whole {w : World} (hw : w.Ok) (hx : w.redis.Exact) {uncertain : Bool} (hlog : ∀ id ∈ ids, id ∈ w.redis.log.map Entry.id)
    (hle : ∀ id ∈ ids, id ≤ w.redis.head) (h : Whole w.redis uncertain ids) :
    Accepted w.redis uncertain ids := by
  rw [Accepted, finalizeCounts_eq]
  refine h.imp (fun hall => ?_) fun hnone => ⟨hnone.1, ?_⟩
  · have hack : (ids.filter fun id => decide (id ∈ w.redis.pending)) = ids :=
      List.filter_eq_self.2 fun id hid => decide_eq_true (hall id hid)
    have hdel : ids.filter w.redis.present = ids := by
      refine List.filter_eq_self.2 fun id hid => ?_
      simp only [Redis.present, Bool.and_eq_true, decide_eq_true_eq]
      exact ⟨hlog id hid, hw.pending_kept id (hall id hid)⟩
    rw [hack, hdel]
  · have hack : (ids.filter fun id => decide (id ∈ w.redis.pending)) = [] := by
      refine List.filter_eq_nil_iff.2 fun id hid => ?_
      rw [decide_eq_true_eq]
      exact hnone.2 id hid
    have hdel : ids.filter w.redis.present = [] := by
      refine List.filter_eq_nil_iff.2 fun id hid => ?_
      simp only [Redis.present, Bool.and_eq_true, decide_eq_true_eq, not_and, not_not]
      intro hmem
      obtain ⟨e, he, rfl⟩ := List.mem_map.1 hmem
      exact (hx.delivered e he (hle e.id hid)).resolve_left (hnone.2 e.id hid)
    rw [hack, hdel]
    rfl

/-! ## The invariant -/

/-- The invariant of the memory: the batch of the next attempt is whole, and what is durable beside
the batch of the current one is pending. -/
structure Counted (r : Redis) (m : Memory) : Prop where
  log : ∀ id ∈ m.durablePendingAck, id ∈ r.log.map Entry.id
  subset : ∀ id ∈ m.attempt, id ∈ m.durablePendingAck
  rest : ∀ id ∈ m.durablePendingAck, id ∉ m.attempt → id ∈ r.pending
  whole : Whole r m.uncertain m.attempt
  stage : ∀ ids thenInsert, m.flush ≠ .finalizing ids .degradeMismatch thenInsert

/-- A step that neither acknowledges deliveries nor ends a finalization. -/
structure Continues (r r' : Redis) (m m' : Memory) : Prop where
  moves : r.Moves r'
  uncertain : m'.uncertain = m.uncertain
  keeps : ∀ id ∈ m.durablePendingAck, id ∈ m'.durablePendingAck
  task : m.flush.isFinalizing = false ∧ m'.attempt = m'.durablePendingAck ∨
    m.flush.isFinalizing = true ∧ m'.attempt = m.attempt
  stage : ∀ ids thenInsert, m'.flush = .finalizing ids .degradeMismatch thenInsert →
    m.flush = .finalizing ids .degradeMismatch thenInsert

section Counted

variable {w : World} {r' : Redis} {m m' : Memory}

lemma Memory.attempt_eq (h : m.flush.isFinalizing = false) : m.attempt = m.durablePendingAck := by
  simp [Memory.attempt, h]

lemma Memory.attempt_finalizing {ids : List StreamId} {stage : Stage} {thenInsert : Bool}
    (h : m.flush = .finalizing ids stage thenInsert) : m.attempt = ids := by
  simp [Memory.attempt, h, FlushTask.isFinalizing, FlushTask.snapshot]

lemma Counted.fresh (r : Redis) : Counted r Memory.fresh where
  log _ h := absurd h List.not_mem_nil
  subset _ h := absurd h List.not_mem_nil
  rest _ h := absurd h List.not_mem_nil
  whole := .inl fun _ h => absurd h List.not_mem_nil
  stage _ _ h := by simp [Memory.fresh] at h

lemma Counted.keep (hw : w.Ok) (hx : w.redis.Exact) (hm : m.Ok w) (h : Counted w.redis m)
    (hc : Continues w.redis r' m m') (hjoin : m.JoinsPending w.redis m') : Counted r' m' := by
  have hle : ∀ id ∈ m.durablePendingAck, id ≤ w.redis.head := fun id hid => (hm.durable id hid).1
  have hkeep : ∀ id, id ∈ w.redis.pending → id ∈ r'.pending :=
    fun id hp => (hc.moves.agree id (hw.pending_le id hp)).2 hp
  have hsame : ∀ ids, (∀ id ∈ ids, id ∈ m.durablePendingAck) → Whole w.redis m.uncertain ids →
      Whole r' m'.uncertain ids := by
    intro ids hids hwhole
    rw [hc.uncertain]
    refine hwhole.imp (fun hall id hid => hkeep id (hall id hid)) fun hnone => ⟨hnone.1, ?_⟩
    intro id hid hp
    exact hnone.2 id hid ((hc.moves.agree id (hle id (hids id hid))).1 hp)
  have hlog : ∀ id ∈ m'.durablePendingAck, id ∈ r'.log.map Entry.id := by
    intro id hid
    by_cases hold : id ∈ m.durablePendingAck
    · exact hc.moves.log id (h.log id hold)
    · exact hc.moves.log id (hx.pending id (hjoin id hid hold).1)
  refine ⟨hlog, ?_, ?_, ?_, fun ids thenInsert hflush => h.stage ids thenInsert (hc.stage _ _ hflush)⟩
  · obtain ⟨-, hattempt⟩ | ⟨-, hattempt⟩ := hc.task
    · rw [hattempt]
      exact fun id hid => hid
    · rw [hattempt]
      exact fun id hid => hc.keeps id (h.subset id hid)
  · obtain ⟨-, hattempt⟩ | ⟨-, hattempt⟩ := hc.task
    · rw [hattempt]
      exact fun id hid hnot => absurd hid hnot
    · rw [hattempt]
      intro id hid hnot
      by_cases hold : id ∈ m.durablePendingAck
      · exact hkeep id (h.rest id hold hnot)
      · exact hkeep id (hjoin id hid hold).1
  · obtain ⟨hidle, hattempt⟩ | ⟨-, hattempt⟩ := hc.task
    · rw [hattempt]
      by_cases hnew : ∃ id ∈ m'.durablePendingAck, id ∉ m.durablePendingAck
      · -- beside a new delivery everything is pending
        obtain ⟨x, hx', hxnew⟩ := hnew
        have hall := (hjoin x hx' hxnew).2 hidle
        refine .inl fun id hid => hkeep id ?_
        by_cases hold : id ∈ m.durablePendingAck
        · exact hall id hold
        · exact (hjoin id hid hold).1
      · push Not at hnew
        have hwhole := h.whole
        rw [Memory.attempt_eq hidle] at hwhole
        exact (hsame _ (fun id hid => hid) hwhole).mono hnew
    · rw [hattempt]
      exact hsame _ h.subset h.whole

lemma Counted.fail (h : Counted w.redis m) (hdurable : m'.durablePendingAck = m.durablePendingAck)
    (hbusy : m.flush.isFinalizing = true) (hidle : m'.flush.isFinalizing = false)
    (hlog : ∀ id ∈ w.redis.log.map Entry.id, id ∈ r'.log.map Entry.id)
    (hrest : ∀ id ∈ w.redis.pending, id ∉ m.attempt → id ∈ r'.pending)
    (hwhole : Whole r' m'.uncertain m.attempt) (hfails : m.FailsWhole r' m') : Counted r' m' := by
  have hattempt : m.attempt = m.flush.snapshot := by simp [Memory.attempt, hbusy]
  have hattempt' : m'.attempt = m.durablePendingAck := by rw [Memory.attempt_eq hidle, hdurable]
  have hothers : ∀ id ∈ m.durablePendingAck, id ∉ m.attempt → id ∈ r'.pending :=
    fun id hid hnot => hrest id (h.rest id hid hnot) hnot
  refine ⟨fun id hid => hlog id (h.log id (hdurable ▸ hid)), ?_, ?_, ?_, ?_⟩
  · rw [hattempt', hdurable]
    exact fun id hid => hid
  · rw [hattempt', hdurable]
    exact fun id hid hnot => absurd hid hnot
  · rw [hattempt']
    by_cases hnone : ∃ id ∈ m.flush.snapshot, id ∈ m'.durablePendingAck
    · obtain hall | hall := hfails hbusy hidle hnone
      · rw [hdurable, ← hattempt] at hall
        exact hwhole.mono hall
      · rw [← hattempt] at hall
        refine .inl fun id hid => ?_
        by_cases hin : id ∈ m.attempt
        · exact hall id hin
        · exact hothers id hid hin
    · push Not at hnone
      rw [← hattempt, hdurable] at hnone
      exact .inl fun id hid => hothers id hid fun hin => hnone id hin hid
  · intro ids thenInsert hflush
    rw [hflush] at hidle
    exact absurd hidle (by simp [FlushTask.isFinalizing])

lemma Counted.succeed (h : Counted w.redis m)
    (hdurable : ∀ id ∈ m'.durablePendingAck, id ∈ m.durablePendingAck ∧ id ∉ m.attempt)
    (hidle : m'.flush.isFinalizing = false) : Counted w.redis m' := by
  have hall : ∀ id ∈ m'.durablePendingAck, id ∈ w.redis.pending :=
    fun id hid => h.rest id (hdurable id hid).1 (hdurable id hid).2
  refine ⟨fun id hid => h.log id (hdurable id hid).1, ?_, fun id hid _ => hall id hid, ?_, ?_⟩
  · rw [Memory.attempt_eq hidle]
    exact fun id hid => hid
  · rw [Memory.attempt_eq hidle]
    exact .inl hall
  · intro ids thenInsert hflush
    rw [hflush] at hidle
    exact absurd hidle (by simp [FlushTask.isFinalizing])

end Counted

/-! ## The memory's own operations -/

section Memory

variable {m : Memory}

lemma mem_queueOne {id : StreamId} (hid : id ∈ m.durablePendingAck) (b : Buffered) :
    id ∈ (m.queueOne b).durablePendingAck := by
  simp only [Memory.queueOne]
  split
  · exact hid
  · exact List.mem_append_left _ hid

lemma mem_queueDurableAck {id : StreamId} (hid : id ∈ m.durablePendingAck) (bs : List Buffered) :
    id ∈ (m.queueDurableAck bs).durablePendingAck := by
  induction bs generalizing m with
  | nil => exact hid
  | cons b bs ih => exact ih (mem_queueOne hid b)

lemma startInsert_isFinalizing (m : Memory) (ackSucceeded : Bool) :
    (m.startInsert ackSucceeded).flush.isFinalizing = false := by
  unfold Memory.startInsert
  dsimp only
  split <;> rfl

lemma finalizeFailed_isFinalizing (m : Memory) (thenInsert : Bool) :
    (m.finalizeFailed thenInsert).flush.isFinalizing = false := by
  unfold Memory.finalizeFailed
  split
  · exact startInsert_isFinalizing m false
  · rfl

lemma finalizeFailed_durable (m : Memory) (thenInsert : Bool) :
    (m.finalizeFailed thenInsert).durablePendingAck = m.durablePendingAck ∧
      (m.finalizeFailed thenInsert).uncertain = m.uncertain := by
  unfold Memory.finalizeFailed
  split <;> exact ⟨rfl, rfl⟩

lemma finalizeSucceeded_isFinalizing (m : Memory) (ids : List StreamId) (thenInsert : Bool) :
    (m.finalizeSucceeded ids thenInsert).flush.isFinalizing = false := by
  unfold Memory.finalizeSucceeded
  dsimp only
  split
  · exact startInsert_isFinalizing _ _
  · rfl

lemma finalizeSucceeded_durable (m : Memory) (ids : List StreamId) (thenInsert : Bool) :
    (m.finalizeSucceeded ids thenInsert).durablePendingAck =
      m.durablePendingAck.filter fun id => decide (id ∉ ids) := by
  unfold Memory.finalizeSucceeded
  dsimp only
  split <;> rfl

end Memory

/-! ## The steps -/

/-- What a step of a running writer leaves. -/
structure Outcome (s s' : State) (m m' : Memory) : Prop where
  exact : s'.world.redis.Exact
  group : s.world.redis.group.isSome = true → s'.world.redis.group.isSome = true
  authority : s.world.pg.watermark.isSome = true → s'.world.pg.watermark.isSome = true
  counted : m.JoinsPending s.world.redis m' → m.FailsWhole s'.world.redis m' →
    Counted s'.world.redis m'

/-- A step of a running writer leaves a running one. -/
def Ends (s s' : State) (m : Memory) : Prop := ∃ m', s'.process = .up m' ∧ Outcome s s' m m'

/-- The invariant of the pipeline. -/
structure State.Counted (s : State) : Prop where
  ok : s.Ok
  exact : s.world.redis.Exact
  group : s.process ≠ .down → s.world.redis.group.isSome = true
  authority : ∀ m, s.process = .up m → s.world.pg.watermark.isSome = true
  memory : ∀ m, s.process = .up m → Apdl.Pipeline.Counted s.world.redis m

section Continues

variable {r r' : Redis} {m m' : Memory}

lemma Continues.sameFlush (hmoves : r.Moves r') (hflush : m'.flush = m.flush)
    (huncertain : m'.uncertain = m.uncertain)
    (hkeeps : ∀ id ∈ m.durablePendingAck, id ∈ m'.durablePendingAck) : Continues r r' m m' := by
  refine ⟨hmoves, huncertain, hkeeps, ?_, fun ids thenInsert h => hflush ▸ h⟩
  cases hbusy : m.flush.isFinalizing with
  | false =>
    refine .inl ⟨rfl, Memory.attempt_eq ?_⟩
    rw [hflush, hbusy]
  | true =>
    refine .inr ⟨rfl, ?_⟩
    simp [Memory.attempt, hflush, hbusy]

lemma Continues.idle (hmoves : r.Moves r') (hidle : m.flush.isFinalizing = false)
    (huncertain : m'.uncertain = m.uncertain)
    (hkeeps : ∀ id ∈ m.durablePendingAck, id ∈ m'.durablePendingAck)
    (hflush : m'.flush.isFinalizing = false ∨
      ∃ thenInsert, m'.flush = .finalizing m'.durablePendingAck .verify thenInsert) :
    Continues r r' m m' := by
  refine ⟨hmoves, huncertain, hkeeps, .inl ⟨hidle, ?_⟩, ?_⟩
  · obtain hflush | ⟨thenInsert, hflush⟩ := hflush
    · exact Memory.attempt_eq hflush
    · exact Memory.attempt_finalizing hflush
  · intro ids thenInsert h
    obtain hflush | ⟨_, hflush⟩ := hflush
    · rw [h] at hflush
      exact absurd hflush (by simp [FlushTask.isFinalizing])
    · rw [h] at hflush
      exact absurd hflush (by simp)

lemma Continues.setStage (hx : r.Exact) {ids : List StreamId} {stage stage' : Stage}
    {thenInsert : Bool} (hflush : m.flush = .finalizing ids stage thenInsert)
    (hstage : stage' ≠ .degradeMismatch) :
    Continues r r m { m with flush := .finalizing ids stage' thenInsert } := by
  refine ⟨.refl hx, rfl, fun _ h => h, .inr ⟨by rw [hflush]; rfl, ?_⟩, ?_⟩
  · rw [Memory.attempt_finalizing hflush]
    exact Memory.attempt_finalizing rfl
  · intro ids' thenInsert' h
    injection h with _ h
    exact absurd h hstage

end Continues

section Steps

variable {s s' : State} {m m' : Memory} {a : Act}

lemma degrade_isSome (p : Postgres) : p.degrade.watermark.isSome = true := by
  cases h : p.watermark <;> simp [Postgres.degrade, h]

lemma State.Counted.continues (h : s.Counted) (hm : s.process = .up m) (hm' : s'.process = .up m')
    (hc : Continues s.world.redis s'.world.redis m m')
    (hpg : s.world.pg.watermark.isSome = true → s'.world.pg.watermark.isSome = true) :
    Ends s s' m := by
  have hproc := h.ok.2
  rw [hm] at hproc
  refine ⟨m', hm', hc.moves.exact, hc.moves.group, hpg, fun hjoin _ => ?_⟩
  exact (h.memory m hm).keep h.ok.1 h.exact hproc hc hjoin

lemma State.Counted.degradeThen (h : s.Counted) (hm : s.process = .up m) {reply : Reply}
    {m₁ m₂ : Memory} (h₁ : Continues s.world.redis s.world.redis m m₁)
    (h₂ : Continues s.world.redis s.world.redis m m₂) :
    Ends s (s.degradeThen reply m₁ m₂) m := by
  cases reply with
  | done =>
    exact h.continues hm rfl h₁ fun _ => degrade_isSome _
  | lost =>
    exact h.continues hm rfl h₂ fun _ => degrade_isSome _
  | failed =>
    exact h.continues hm rfl h₂ fun h => h

lemma consumer_outcome (h : s.Counted) (hm : s.process = .up m)
    (hst : consumerStep s m a = some s') : Ends s s' m := by
  have hw := h.ok.1
  have hrefl := Redis.Moves.refl h.exact
  have hmemory : ∀ {m₂ : Memory}, m₂.flush = m.flush → m₂.uncertain = m.uncertain →
      m₂.durablePendingAck = m.durablePendingAck → Continues s.world.redis s.world.redis m m₂ :=
    fun hf hu hd => .sameFlush hrefl hf hu fun id hid => hd ▸ hid
  cases a with
  | readGroup count reply =>
    simp only [consumerStep] at hst
    split at hst
    next g _ hg =>
      have hread := moves_readGroup hw h.exact hg count
      cases reply with
      | done =>
        obtain rfl := Option.some.inj hst
        exact h.continues hm rfl (.sameFlush hread rfl rfl fun _ h => h) fun h => h
      | lost =>
        obtain rfl := Option.some.inj hst
        exact h.continues hm rfl (.sameFlush hread rfl rfl fun _ h => h) fun h => h
      | failed =>
        obtain rfl := Option.some.inj hst
        exact h.continues hm hm (hmemory rfl rfl rfl) fun h => h
    · exact absurd hst (by simp)
  | autoClaim ids reply =>
    simp only [consumerStep] at hst
    split at hst
    next g _ hg =>
      rw [World.autoClaim_redis hw hg ids] at hst
      cases reply with
      | done =>
        obtain rfl := Option.some.inj hst
        exact h.continues hm rfl (hmemory rfl rfl rfl) fun h => h
      | lost =>
        obtain rfl := Option.some.inj hst
        exact h.continues hm rfl (hmemory rfl rfl rfl) fun h => h
      | failed =>
        obtain rfl := Option.some.inj hst
        exact h.continues hm hm (hmemory rfl rfl rfl) fun h => h
    · exact absurd hst (by simp)
  | degradeLost reply =>
    simp only [consumerStep] at hst
    split at hst
    · obtain rfl := Option.some.inj hst
      exact h.degradeThen hm (hmemory rfl rfl rfl) (hmemory rfl rfl rfl)
    · exact absurd hst (by simp)
  | processMessage =>
    simp only [consumerStep] at hst
    split at hst
    · obtain rfl := Option.some.inj hst
      exact h.continues hm rfl (hmemory rfl rfl rfl) fun h => h
    · split at hst <;> obtain rfl := Option.some.inj hst
      · exact h.continues hm rfl (hmemory rfl rfl rfl) fun h => h
      · exact h.continues hm rfl (hmemory rfl rfl rfl) fun h => h
      · exact h.continues hm rfl (hmemory rfl rfl rfl) fun h => h
    · exact absurd hst (by simp)
  | leavePending =>
    simp only [consumerStep] at hst
    split at hst
    · obtain rfl := Option.some.inj hst
      exact h.continues hm rfl (hmemory rfl rfl rfl) fun h => h
    · exact absurd hst (by simp)
  | deadLetter reply =>
    simp only [consumerStep] at hst
    split at hst
    next id rest _ =>
      obtain rfl := Option.some.inj hst
      refine h.degradeThen hm (.sameFlush hrefl rfl rfl fun x hx => ?_) (hmemory rfl rfl rfl)
      exact mem_queueOne hx ⟨id, true, none⟩
    · exact absurd hst (by simp)
  | _ => exact absurd hst (by simp [consumerStep])

lemma State.Counted.accepted (h : s.Counted) (hm : s.process = .up m) {ids : List StreamId}
    {stage : Stage} {thenInsert : Bool} (hflush : m.flush = .finalizing ids stage thenInsert) :
    Accepted s.world.redis m.uncertain ids := by
  have hmem := h.memory m hm
  have hproc := h.ok.2
  rw [hm] at hproc
  have hattempt := Memory.attempt_finalizing hflush
  refine accepted_of_whole h.ok.1 h.exact (fun id hid => ?_) (fun id hid => ?_)
    (hattempt ▸ hmem.whole)
  · exact hmem.log id (hmem.subset id (hattempt ▸ hid))
  · exact (hproc.durable id (hmem.subset id (hattempt ▸ hid))).1

lemma State.Counted.fails (h : s.Counted) (hm : s.process = .up m)
    (hbusy : m.flush.isFinalizing = true) {w : World} {n : Memory}
    (hdurable : n.durablePendingAck = m.durablePendingAck)
    (hlog : w.redis.log = s.world.redis.log) (hexact : w.redis.Exact)
    (hgroup : w.redis.group.isSome = s.world.redis.group.isSome)
    (hpg : s.world.pg.watermark.isSome = true → w.pg.watermark.isSome = true)
    (hrest : ∀ id ∈ s.world.redis.pending, id ∉ m.attempt → id ∈ w.redis.pending)
    (hwhole : Whole w.redis n.uncertain m.attempt) (thenInsert : Bool) :
    Ends s ⟨w, .up (n.finalizeFailed thenInsert)⟩ m := by
  obtain ⟨hkept, huncertain⟩ := finalizeFailed_durable n thenInsert
  refine ⟨_, rfl, hexact, fun hg => hgroup.trans hg, hpg, fun _ hfails => ?_⟩
  refine (h.memory m hm).fail (hkept.trans hdurable) hbusy
    (finalizeFailed_isFinalizing n thenInsert) ?_ hrest ?_ hfails
  · rw [hlog]
    exact fun id hid => hid
  · rwa [huncertain]

lemma finalize_outcome {ids : List StreamId} {stage : Stage} {thenInsert : Bool} (h : s.Counted)
    (hm : s.process = .up m) (hflush : m.flush = .finalizing ids stage thenInsert)
    (hst : finalizeStep s m ids stage thenInsert a = some s') : Ends s s' m := by
  have hw := h.ok.1
  have hx := h.exact
  have hmem := h.memory m hm
  have hbusy : m.flush.isFinalizing = true := by rw [hflush]; rfl
  have hattempt := Memory.attempt_finalizing hflush
  have hfailed : ∀ {p : Postgres}, (s.world.pg.watermark.isSome = true → p.watermark.isSome = true) →
      Ends s ⟨s.world.setPg p, .up (m.finalizeFailed thenInsert)⟩ m :=
    fun {p} hp => h.fails (w := s.world.setPg p) hm hbusy rfl rfl hx rfl hp (fun _ hid _ => hid)
      hmem.whole thenInsert
  have hsucceeded : ∀ {p : Postgres} {m₁ : Memory}, m₁.durablePendingAck = m.durablePendingAck →
      (s.world.pg.watermark.isSome = true → p.watermark.isSome = true) →
      Ends s ⟨s.world.setPg p, .up (m₁.finalizeSucceeded ids thenInsert)⟩ m := by
    intro p m₁ hdurable hp
    refine ⟨_, rfl, hx, fun hg => hg, hp, fun _ _ => ?_⟩
    refine hmem.succeed (fun id hid => ?_) (finalizeSucceeded_isFinalizing m₁ ids thenInsert)
    rw [finalizeSucceeded_durable, hdurable, List.mem_filter, decide_eq_true_eq] at hid
    rwa [hattempt]
  cases a with
  | verify reply =>
    simp only [finalizeStep] at hst
    split at hst
    · split at hst
      · split at hst <;> obtain rfl := Option.some.inj hst
        · exact hfailed fun h => h
        next quarantine _ =>
          refine h.continues hm rfl (.setStage hx hflush ?_) fun h => h
          cases quarantine <;> simp
      · obtain rfl := Option.some.inj hst
        exact hfailed fun h => h
    · exact absurd hst (by simp)
  | degradeFinalizing reply =>
    have hdegrade : ∀ {m₁ : Memory}, Continues s.world.redis s.world.redis m m₁ →
        Ends s (s.degradeThen reply m₁ (m.finalizeFailed thenInsert)) m := by
      intro m₁ hc
      cases reply with
      | done => exact h.continues hm rfl hc fun _ => degrade_isSome _
      | lost => exact hfailed fun _ => degrade_isSome _
      | failed => exact hfailed fun h => h
    have hfails : Ends s (s.degradeThen reply (m.finalizeFailed thenInsert)
        (m.finalizeFailed thenInsert)) m := by
      cases reply with
      | done | lost => exact hfailed fun _ => degrade_isSome _
      | failed => exact hfailed fun h => h
    simp only [finalizeStep] at hst
    split at hst
    · obtain rfl := Option.some.inj hst
      exact hdegrade (.setStage hx hflush (by simp))
    · obtain rfl := Option.some.inj hst
      exact hfails
    · obtain rfl := Option.some.inj hst
      exact hfails
    · exact absurd hst (by simp)
  | exec reply =>
    simp only [finalizeStep] at hst
    split at hst
    · have hpend : ∀ id, id ∈ (s.world.redis.finalize ids).pending ↔
          id ∈ s.world.redis.pending ∧ id ∉ ids := by
        intro id
        rw [World.finalize_pending, List.mem_filter, decide_eq_true_eq]
      have hexact := exact_finalize hw hx ids
      have hgone : Whole (s.world.redis.finalize ids) true ids :=
        .inr ⟨rfl, fun id hid hp => ((hpend id).1 hp).2 hid⟩
      have hgroup : (s.world.redis.finalize ids).group.isSome = s.world.redis.group.isSome := by
        simp [Redis.finalize]
      have hrest : ∀ id ∈ s.world.redis.pending, id ∉ m.attempt →
          id ∈ (s.world.redis.finalize ids).pending := by
        rw [hattempt]
        exact fun id hid hnot => (hpend id).2 ⟨hid, hnot⟩
      have haccepted := h.accepted hm hflush
      cases reply with
      | done =>
        dsimp only at hst
        unfold Accepted at haccepted
        rw [if_pos haccepted] at hst
        obtain rfl := Option.some.inj hst
        refine ⟨_, rfl, hexact, fun hg => hgroup.trans hg, fun h => h, fun _ _ => ?_⟩
        refine ⟨hmem.log, fun id hid => hmem.subset id (hattempt ▸ hid), fun id hid hnot => ?_,
          hgone, fun ids' thenInsert' => by simp⟩
        have hnot' : id ∉ m.attempt := hattempt ▸ hnot
        exact hrest id (hmem.rest id hid hnot') hnot'
      | lost =>
        obtain rfl := Option.some.inj hst
        have hlost : Whole (s.world.redis.finalize ids) true m.attempt := hattempt ▸ hgone
        exact h.fails (w := s.world.setRedis (s.world.redis.finalize ids))
          (n := { m with uncertain := true }) hm hbusy rfl rfl hexact hgroup (fun h => h) hrest hlost
          thenInsert
      | failed =>
        obtain rfl := Option.some.inj hst
        have hmarked : Whole s.world.redis true m.attempt :=
          hmem.whole.imp (fun h => h) fun h => ⟨rfl, h.2⟩
        exact h.fails (n := { m with uncertain := true }) hm hbusy rfl rfl hx rfl (fun h => h)
          (fun _ hid _ => hid) hmarked thenInsert
    · exact absurd hst (by simp)
  | inspect usable =>
    simp only [finalizeStep] at hst
    split at hst
    · split at hst
      · split at hst <;> obtain rfl := Option.some.inj hst
        · exact h.continues hm rfl (.setStage hx hflush (by simp)) fun h => h
        · exact hsucceeded rfl fun h => h
      · obtain rfl := Option.some.inj hst
        exact h.continues hm rfl (.setStage hx hflush (by simp)) fun h => h
    · exact absurd hst (by simp)
  | commit reply =>
    simp only [finalizeStep] at hst
    split at hst
    · split at hst
      · obtain rfl := Option.some.inj hst
        exact hfailed fun h => h
      · cases reply with
        | done =>
          obtain rfl := Option.some.inj hst
          exact hsucceeded rfl fun _ => rfl
        | lost =>
          obtain rfl := Option.some.inj hst
          exact hfailed fun _ => rfl
        | failed =>
          obtain rfl := Option.some.inj hst
          exact hfailed fun h => h
    · exact absurd hst (by simp)
  | _ => exact absurd hst (by simp [finalizeStep])

lemma insert_outcome {ackSucceeded : Bool} {size : ℕ} {work : List (List Buffered)}
    {durable retry : List Buffered} (h : s.Counted) (hm : s.process = .up m)
    (hflush : m.flush = .inserting ackSucceeded size work durable retry)
    (hst : insertStep s m ackSucceeded size work durable retry a = some s') : Ends s s' m := by
  have hrefl := Redis.Moves.refl h.exact
  have hidle : m.flush.isFinalizing = false := by rw [hflush]; rfl
  have hparts : ∀ work' durable' retry', Continues s.world.redis s.world.redis m
      { m with flush := .inserting ackSucceeded size work' durable' retry' } :=
    fun _ _ _ => .idle hrefl hidle rfl (fun _ h => h) (.inl rfl)
  cases a with
  | insertBatch outcome =>
    cases work with
    | nil =>
      obtain rfl := Option.some.inj hst
      obtain ⟨-, -, -, huncertain⟩ := queueDurableAck_rest
        { m with buffer := retry ++ m.buffer.drop size, flush := .idle } durable
      refine h.continues hm rfl (.idle hrefl hidle huncertain (fun id hid => ?_) ?_) fun h => h
      · exact mem_queueDurableAck (m := { m with
          buffer := retry ++ m.buffer.drop size, flush := .idle }) hid durable
      · unfold Memory.finishInsert
        dsimp only
        split_ifs
        · exact .inr ⟨false, rfl⟩
        · exact .inl rfl
    | cons batch rest =>
      simp only [insertStep] at hst
      split at hst
      · obtain rfl := Option.some.inj hst
        exact h.continues hm rfl (hparts _ _ _) fun h => h
      · split at hst
        · obtain rfl := Option.some.inj hst
          exact h.continues hm rfl (hparts _ _ _) fun h => h
        · obtain rfl := Option.some.inj hst
          exact h.continues hm rfl (hparts _ _ _) fun h => h
        · obtain rfl := Option.some.inj hst
          exact h.continues hm rfl (hparts _ _ _) fun h => h
        · split at hst <;> obtain rfl := Option.some.inj hst
          next b _ =>
            refine h.degradeThen hm ?_ (hparts _ _ _)
            exact .idle hrefl hidle rfl (fun id hid => mem_queueOne (m := { m with
              flush := .inserting ackSucceeded size rest durable retry }) hid ⟨b.id, true, none⟩)
              (.inl rfl)
          · exact h.continues hm rfl (hparts _ _ _) fun h => h
  | _ => exact absurd hst (by simp [insertStep])

lemma flush_outcome (h : s.Counted) (hm : s.process = .up m) (hst : flushStep s m a = some s') :
    Ends s s' m := by
  have hrefl := Redis.Moves.refl h.exact
  simp only [flushStep] at hst
  split at hst
  next hflush =>
    have hidle : m.flush.isFinalizing = false := by rw [hflush]; rfl
    split at hst
    · split at hst <;> obtain rfl := Option.some.inj hst
      · exact h.continues hm rfl (.idle hrefl hidle rfl (fun _ h => h)
          (.inl (startInsert_isFinalizing m true))) fun h => h
      · exact h.continues hm rfl (.idle hrefl hidle rfl (fun _ h => h) (.inr ⟨true, rfl⟩)) fun h => h
    · split at hst
      · exact absurd hst (by simp)
      · obtain rfl := Option.some.inj hst
        exact h.continues hm rfl (.idle hrefl hidle rfl (fun _ h => h) (.inr ⟨false, rfl⟩)) fun h => h
    · exact absurd hst (by simp)
  next hflush => exact finalize_outcome h hm hflush hst
  next hflush => exact insert_outcome h hm hflush hst

lemma monitor_outcome (h : s.Counted) (hm : s.process = .up m) (hst : monitorStep s m a = some s') :
    Ends s s' m := by
  have hset : ∀ {r : Redis}, s.world.redis.Moves r → ∀ task,
      Continues s.world.redis r m { m with monitor := task } :=
    fun hmoves _ => .sameFlush hmoves rfl rfl fun _ h => h
  have hrefl := Redis.Moves.refl h.exact
  cases a with
  | monitorInfo =>
    simp only [monitorStep] at hst
    split at hst
    · split_ifs at hst <;> obtain rfl := Option.some.inj hst
      · exact h.continues hm hm (hset hrefl m.monitor) fun h => h
      · exact h.continues hm rfl (hset hrefl _) fun h => h
      · exact h.continues hm rfl (hset hrefl _) fun h => h
    · exact absurd hst (by simp)
  | monitorPending =>
    simp only [monitorStep] at hst
    split at hst
    · split at hst <;> obtain rfl := Option.some.inj hst
      · exact h.continues hm rfl (hset hrefl _) fun h => h
      · exact h.continues hm rfl (hset hrefl _) fun h => h
    · exact absurd hst (by simp)
  | monitorTrim reply =>
    simp only [monitorStep] at hst
    split at hst
    next minId _ =>
      split at hst <;> obtain rfl := Option.some.inj hst
      · exact h.continues hm rfl (hset hrefl _) fun h => h
      · exact h.continues hm rfl (hset (moves_trim h.exact minId) _) fun h => h
    · exact absurd hst (by simp)
  | _ => exact absurd hst (by simp [monitorStep])

lemma marker_outcome (h : s.Counted) (hm : s.process = .up m) (hst : markerStep s m a = some s') :
    Ends s s' m := by
  have hset : ∀ {r : Redis}, s.world.redis.Moves r → ∀ marker,
      Continues s.world.redis r m { m with marker := marker } :=
    fun hmoves _ => .sameFlush hmoves rfl rfl fun _ h => h
  have hrefl := Redis.Moves.refl h.exact
  have hsame : s' = s → Ends s s' m := by
    rintro rfl
    exact h.continues hm hm (hset hrefl m.marker) fun h => h
  cases a with
  | publishMarker token id reply =>
    simp only [markerStep] at hst
    split at hst
    · split at hst
      · split at hst
        · split at hst
          · obtain rfl := Option.some.inj hst
            exact h.continues hm rfl (hset hrefl _) fun h => h
          · exact hsame (Option.some.inj hst).symm
        · exact hsame (Option.some.inj hst).symm
      · split at hst
        next hcan =>
          have happend := moves_append (e := ⟨id, .marker token⟩) h.ok.1 h.exact hcan
            ((token, id) :: s.world.redis.dedup)
          cases reply with
          | done =>
            obtain rfl := Option.some.inj hst
            exact h.continues hm rfl (hset happend _) fun h => h
          | lost =>
            obtain rfl := Option.some.inj hst
            exact h.continues hm rfl (hset happend m.marker) fun h => h
          | failed => exact hsame (Option.some.inj hst).symm
        · exact absurd hst (by simp)
    · exact absurd hst (by simp)
  | recordMarker reply =>
    simp only [markerStep] at hst
    split at hst
    · split at hst <;> obtain rfl := Option.some.inj hst
      · exact h.continues hm rfl (hset hrefl _) fun h => h
      · exact h.continues hm rfl (hset hrefl _) fun h => h
    · exact absurd hst (by simp)
  | quarantineMarker token observed =>
    obtain rfl := Option.some.inj hst
    exact h.continues hm rfl (hset hrefl m.marker) fun h => h
  | _ => exact absurd hst (by simp [markerStep])

lemma start_counted (h : s.Counted) (hst : startStep s a = some s') : s'.Counted := by
  have hw := h.ok.1
  have hok : s'.Ok := start_ok h.ok hst
  cases a with
  | reconcileAtStart reply =>
    simp only [startStep] at hst
    split at hst
    next g hproc hg =>
      split at hst <;> obtain rfl := Option.some.inj hst
      next bound _ =>
        exact ⟨hok, (moves_trim h.exact bound).exact, by simp, by simp, by simp⟩
      next bound _ =>
        exact ⟨hok, (moves_trim h.exact bound).exact, by simp, by simp, by simp⟩
      · exact h
    · exact absurd hst (by simp)
  | ensureGroup reply =>
    simp only [startStep] at hst
    split at hst
    · split at hst
      next g hg =>
        obtain rfl := Option.some.inj hst
        exact ⟨hok, h.exact, fun _ => by simp [hg], by simp, by simp⟩
      next hg =>
        have hmoves := moves_createGroup hw hg
        cases reply with
        | done =>
          obtain rfl := Option.some.inj hst
          exact ⟨hok, hmoves.exact, fun _ => rfl, by simp, by simp⟩
        | lost =>
          obtain rfl := Option.some.inj hst
          exact ⟨hok, hmoves.exact, fun _ => rfl, by simp, by simp⟩
        | failed =>
          obtain rfl := Option.some.inj hst
          exact h
    · exact absurd hst (by simp)
  | initAuthority reply =>
    simp only [startStep] at hst
    split at hst
    next o hproc =>
      have hgroup : s.world.redis.group.isSome = true := h.group (by simp [hproc])
      have hauthority :
          (initializeAuthority s.world.pg o s.world.redis.maxDeleted).watermark.isSome = true := by
        unfold initializeAuthority
        split
        next w hr =>
          split_ifs
          · exact degrade_isSome _
          · exact degrade_isSome _
          · simp [hr]
        · rfl
      cases reply with
      | done =>
        obtain rfl := Option.some.inj hst
        exact ⟨hok, h.exact, fun _ => hgroup, fun m _ => hauthority,
          fun m hm => Process.up.inj hm ▸ Counted.fresh _⟩
      | lost =>
        obtain rfl := Option.some.inj hst
        exact ⟨hok, h.exact, by simp, by simp, by simp⟩
      | failed =>
        obtain rfl := Option.some.inj hst
        exact ⟨hok, h.exact, by simp, by simp, by simp⟩
    · exact absurd hst (by simp)
  | _ => exact absurd hst (by simp [startStep])

lemma State.Counted.grows (h : s.Counted) {w : World} (hok : State.Ok { s with world := w })
    (hmoves : s.world.redis.Moves w.redis) (hpg : w.pg.watermark = s.world.pg.watermark) :
    State.Counted { s with world := w } := by
  refine ⟨hok, hmoves.exact, fun hp => hmoves.group (h.group hp), fun m hm => ?_, fun m hm => ?_⟩
  · rw [hpg]
    exact h.authority m hm
  · have hproc := h.ok.2
    rw [hm] at hproc
    refine (h.memory m hm).keep h.ok.1 h.exact hproc (.sameFlush hmoves rfl rfl fun _ h => h) ?_
    exact fun id hid hnot => absurd hid hnot

lemma counted_of_up {f : State → Memory → Act → Option State} (h : s.Counted) (hok : s'.Ok)
    (hkeeps : keepsTogether s a = true) (hstep : step s a = some s')
    (hf : ∀ m, s.process = .up m → f s m a = some s' → Ends s s' m)
    (hst : (match s.process with
      | .up m => f s m a
      | _ => none) = some s') : s'.Counted := by
  cases hm : s.process with
  | up m =>
    rw [hm] at hst
    obtain ⟨m', hm', hout⟩ := hf m hm hst
    obtain ⟨hjoin, hfails⟩ := keepsTogether_up hkeeps hstep hm hm'
    refine ⟨hok, hout.exact, fun _ => hout.group (h.group (by simp [hm])),
      fun _ _ => hout.authority (h.authority m hm), fun m₂ hm₂ => ?_⟩
    obtain rfl := Process.up.inj (hm'.symm.trans hm₂)
    exact hout.counted hjoin hfails
  | down | starting o =>
    rw [hm] at hst
    exact absurd hst (by simp)

theorem State.Counted.next (h : s.Counted) (hkeeps : keepsTogether s a = true)
    (hst : step s a = some s') : s'.Counted := by
  have hok := h.ok.next hst
  cases a with
  | append e =>
    simp only [step] at hst
    split at hst
    next hcan =>
      obtain rfl := Option.some.inj hst
      exact h.grows hok (moves_append h.ok.1 h.exact hcan s.world.redis.dedup) rfl
    · exact absurd hst (by simp)
  | requestBoundary token =>
    simp only [step] at hst
    split at hst
    · exact absurd hst (by simp)
    · obtain rfl := Option.some.inj hst
      exact h.grows hok (.refl h.exact) rfl
  | crash =>
    obtain rfl := Option.some.inj hst
    exact ⟨hok, h.exact, by simp, by simp, by simp⟩
  | reconcileAtStart reply => exact start_counted (a := .reconcileAtStart reply) h hst
  | ensureGroup reply => exact start_counted (a := .ensureGroup reply) h hst
  | initAuthority reply => exact start_counted (a := .initAuthority reply) h hst
  | readGroup | autoClaim | degradeLost | processMessage | leavePending | deadLetter =>
    exact counted_of_up (f := consumerStep) h hok hkeeps hst (fun _ => consumer_outcome h) hst
  | flush | ackDurable | verify | degradeFinalizing | exec | inspect | commit | insertBatch =>
    exact counted_of_up (f := flushStep) h hok hkeeps hst (fun _ => flush_outcome h) hst
  | monitorInfo | monitorPending | monitorTrim =>
    exact counted_of_up (f := monitorStep) h hok hkeeps hst (fun _ => monitor_outcome h) hst
  | publishMarker | recordMarker | quarantineMarker =>
    exact counted_of_up (f := markerStep) h hok hkeeps hst (fun _ => marker_outcome h) hst

end Steps

/-! ## The main result -/

theorem reach_counted {s : State}
    (h : machine.ReachUnder (fun s a => keepsTogether s a = true) s) : s.Counted := by
  refine h.induct ?_ fun s a s' _ ih hkeeps hst => ih.next hkeeps hst
  refine ⟨⟨World.initial_ok, trivial⟩, ⟨?_, ?_⟩, ?_, ?_, ?_⟩
  · exact fun id hid => absurd hid List.not_mem_nil
  · exact fun e he => absurd he List.not_mem_nil
  · exact fun hp => absurd rfl hp
  · exact fun m hm => absurd hm (by simp [machine, initial])
  · exact fun m hm => absurd hm (by simp [machine, initial])

lemma completes_of_accepted {s : State} {m : Memory} {thenInsert : Bool}
    (hm : s.process = .up m) (hflush : m.flush = .finalizing ids .exec thenInsert)
    (hgroup : s.world.redis.group.isSome = true) (hpg : s.world.pg.watermark.isSome = true)
    (haccepted : Accepted s.world.redis m.uncertain ids) :
    ∃ as s' m', (as = [.exec .done, .inspect true] ∨ as = [.exec .done, .inspect true, .commit .done]) ∧
      machine.run s as = some s' ∧ s'.process = .up m' ∧ ∀ id ∈ ids, id ∉ m'.durablePendingAck := by
  obtain ⟨g, hg⟩ := Option.isSome_iff_exists.1 hgroup
  obtain ⟨r, hr⟩ := Option.isSome_iff_exists.1 hpg
  set m₁ : Memory := { m with
    uncertain := true
    finalizedSinceFrontier := m.finalizedSinceFrontier ++
      ids.filter fun id => decide (id ∉ m.finalizedSinceFrontier)
    flush := .finalizing ids .inspect thenInsert } with hm₁
  set w := s.world.setRedis (s.world.redis.finalize ids) with hw
  set g' : Group := { g with pending := g.pending.filter fun id => decide (id ∉ ids) } with hg'
  have hgroup' : w.redis.group = some g' := by simp [hw, World.setRedis, Redis.finalize, hg, hg']
  have hexec : machine.step s (.exec .done) = some ⟨w, .up m₁⟩ := by
    unfold Accepted at haccepted
    simp only [machine, step, hm, flushStep, hflush, finalizeStep, if_pos haccepted]
    rfl
  have hgone : ∀ (n : Memory) (id), id ∈ ids → id ∉ (n.finalizeSucceeded ids thenInsert).durablePendingAck := by
    intro n id hid
    rw [finalizeSucceeded_durable, List.mem_filter, decide_eq_true_eq]
    exact fun h => h.2 hid
  have hflush₁ : m₁.flush = .finalizing ids .inspect thenInsert := rfl
  by_cases hp : g'.pending = []
  · -- the frontier transaction follows
    set m₂ : Memory := { m₁ with
      flush := .finalizing ids (.commit g'.lastDelivered g'.entriesRead) thenInsert } with hm₂
    have hflush₂ : m₂.flush = .finalizing ids (.commit g'.lastDelivered g'.entriesRead) thenInsert :=
      rfl
    have hinspect : machine.step ⟨w, .up m₁⟩ (.inspect true) = some ⟨w, .up m₂⟩ := by
      simp only [machine, step, flushStep, hflush₁, finalizeStep, hgroup', if_pos hp]
      rfl
    have hcommit : machine.step ⟨w, .up m₂⟩ (.commit .done) = some
        ⟨w.setPg { w.pg with watermark := some (r.advance m₂.finalizedSinceFrontier g'.lastDelivered
          g'.entriesRead) },
          .up ({ m₂ with finalizedSinceFrontier := [] }.finalizeSucceeded ids thenInsert)⟩ := by
      have hr' : w.pg.watermark = some r := hr
      simp only [machine, step, flushStep, hflush₂, finalizeStep, hr']
    have hrun := calc
      machine.run s [.exec .done, .inspect true, .commit .done]
          = machine.run _ [.inspect true, .commit .done] := StepMachine.run_of_step hexec _
      _ = machine.run _ [.commit .done] := StepMachine.run_of_step hinspect _
      _ = some _ := StepMachine.run_of_step hcommit []
    exact ⟨_, _, _, .inr rfl, hrun, rfl, hgone { m₂ with finalizedSinceFrontier := [] }⟩
  · have hinspect : machine.step ⟨w, .up m₁⟩ (.inspect true) =
        some ⟨w, .up (m₁.finalizeSucceeded ids thenInsert)⟩ := by
      simp only [machine, step, flushStep, hflush₁, finalizeStep, hgroup', if_neg hp]
      rfl
    have hrun := calc
      machine.run s [.exec .done, .inspect true]
          = machine.run _ [.inspect true] := StepMachine.run_of_step hexec _
      _ = some _ := StepMachine.run_of_step hinspect []
    exact ⟨_, _, _, .inl rfl, hrun, rfl, hgone m₁⟩

/-- **No false degradation**: in every run that does not mix pending and acknowledged deliveries in
the durable-pending set, `EXEC` returns counts that are accepted; the authority is never degraded
for them; and from there the finalization is completed by its remaining calls. -/
theorem counts_accepted {s : State}
    (h : machine.ReachUnder (fun s a => keepsTogether s a = true) s) {m : Memory}
    (hm : s.process = .up m) :
    (∀ ids thenInsert, m.flush ≠ .finalizing ids .degradeMismatch thenInsert) ∧
      ∀ ids thenInsert, m.flush = .finalizing ids .exec thenInsert →
        Accepted s.world.redis m.uncertain ids ∧
          ∃ as s' m', (as = [.exec .done, .inspect true] ∨
              as = [.exec .done, .inspect true, .commit .done]) ∧
            machine.run s as = some s' ∧ s'.process = .up m' ∧
            ∀ id ∈ ids, id ∉ m'.durablePendingAck := by
  have hinv := reach_counted h
  refine ⟨(hinv.memory m hm).stage, fun ids thenInsert hflush => ?_⟩
  have haccepted := hinv.accepted hm hflush
  exact ⟨haccepted, completes_of_accepted hm hflush (hinv.group (by simp [hm]))
    (hinv.authority m hm) haccepted⟩

/-- The reply of `EXEC` is lost and the retry finds the delivery acknowledged; meanwhile another
delivery arrives, is inserted after the finalization and is at its own `EXEC`. -/
def retriedRun : List Act :=
  [.append ⟨toLex (1, 0), .row⟩, .ensureGroup .done, .initAuthority .done, .readGroup 10 .done,
    .processMessage, .processMessage, .flush, .insertBatch .inserted, .insertBatch .inserted,
    .verify .done, .exec .lost, .append ⟨toLex (2, 0), .row⟩, .readGroup 10 .done, .processMessage,
    .processMessage, .flush, .verify .done, .exec .done, .inspect true,
    .insertBatch .inserted, .insertBatch .inserted, .verify .done]

/-- At the end of that run the second delivery is about to be acknowledged, and its counts are
accepted. -/
theorem counts_accepted_retriedRun :
    ∃ s m, machine.runUnder (fun s a => keepsTogether s a = true) machine.init retriedRun = some s ∧
      s.process = .up m ∧ m.flush = .finalizing [toLex (2, 0)] .exec false ∧
      Accepted s.world.redis m.uncertain [toLex (2, 0)] := by
  have hrun : (machine.runUnder (fun s a => keepsTogether s a = true) machine.init
      retriedRun).bind (fun s => match s.process with
        | .up m => some m.flush
        | _ => none) = some (.finalizing [toLex (2, 0)] .exec false) := by
    decide +kernel
  obtain ⟨s, hs, hflush⟩ := Option.bind_eq_some_iff.1 hrun
  cases hm : s.process with
  | up m =>
    rw [hm] at hflush
    have hexec := Option.some.inj hflush
    have haccepted := counts_accepted (StepMachine.reachUnder_of_runUnder .init hs) hm
    exact ⟨s, m, hs, hm, hexec, (haccepted.2 _ _ hexec).1⟩
  | down | starting =>
    rw [hm] at hflush
    exact absurd hflush (by simp)

/-- The reply of `EXEC` is lost; at the retry Redis is not reachable, and the flush goes on to
insert another delivery, which joins the acknowledged one. -/
def mixedRun : List Act :=
  [.append ⟨toLex (1, 0), .row⟩, .ensureGroup .done, .initAuthority .done, .readGroup 10 .done,
    .processMessage, .processMessage, .flush, .insertBatch .inserted, .insertBatch .inserted,
    .verify .done, .exec .lost, .append ⟨toLex (2, 0), .row⟩, .readGroup 10 .done, .processMessage,
    .processMessage, .flush, .verify .done, .exec .failed, .insertBatch .inserted,
    .insertBatch .inserted, .ackDurable, .verify .done]

/-- At the end of that run the batch has two deliveries and `EXEC` acknowledges one, without any
other client of the group; the writer then degrades the authority, which was healthy. -/
theorem mixed_batch_degrades :
    (∃ s m, machine.Reach s ∧ s.process = .up m ∧
      m.flush = .finalizing [toLex (1, 0), toLex (2, 0)] .exec false ∧
      s.world.redis.finalizeCounts [toLex (1, 0), toLex (2, 0)] = (1, 1)) ∧
      (machine.run machine.init mixedRun).map (fun s => s.world.pg.watermark) =
        some (some ⟨.zero, 0, .healthy⟩) ∧
      (machine.run machine.init (mixedRun ++ [.exec .done, .degradeFinalizing .done])).map
        (fun s => s.world.pg.watermark) = some (some ⟨.zero, 0, .degraded⟩) := by
  refine ⟨?_, by decide +kernel, by decide +kernel⟩
  have hrun : (machine.run machine.init mixedRun).bind (fun s => match s.process with
      | .up m => some (m.flush, s.world.redis.finalizeCounts [toLex (1, 0), toLex (2, 0)])
      | _ => none) = some (.finalizing [toLex (1, 0), toLex (2, 0)] .exec false, (1, 1)) := by
    decide +kernel
  obtain ⟨s, hs, hfinal⟩ := Option.bind_eq_some_iff.1 hrun
  cases hm : s.process with
  | up m =>
    rw [hm] at hfinal
    obtain ⟨hflush, hcounts⟩ := Prod.mk.inj (Option.some.inj hfinal)
    exact ⟨s, m, StepMachine.reach_of_run hs, hm, hflush, hcounts⟩
  | down | starting =>
    rw [hm] at hfinal
    exact absurd hfinal (by simp)

end Apdl.Pipeline
