import Apdl.Pipeline.Frontier.Stores

set_option autoImplicit false

/-!
# Soundness of the completeness frontier

While the authority row is healthy, every stream entry up to its contiguous stream ID is in
ClickHouse or is a published boundary marker of the project, in every state the pipeline reaches.

## Main results

* `frontier_sound` — the frontier covers only kept entries.
-/

namespace Apdl.Pipeline

/-! ## The invariant of the memory -/

/-- A buffered event comes from a delivered entry; one without a row is a marker with its token. -/
def Sourced (w : World) (b : Buffered) : Prop :=
  b.id ≤ w.redis.head ∧
    (b.row = true ∧ b.token = none ∨
      ∃ t, b.token = some t ∧ ⟨b.id, .marker t⟩ ∈ w.redis.log)

/-- A delivery may be finalized: it is settled, or it is a marker that will be verified. -/
def Ready (w : World) (tokens : List (StreamId × Token)) (id : StreamId) : Prop :=
  id ≤ w.redis.head ∧ (w.Settled id ∨ (tokens.lookup id).isSome = true)

/-- What is known of the deliveries at each stage of their finalization. -/
def StageOk (w : World) (tokens : List (StreamId × Token)) (ids : List StreamId) : Stage → Prop
  | .verify => ∀ id ∈ ids, Ready w tokens id
  | .exec => ∀ id ∈ ids, w.Settled id
  | .commit candidate _ => candidate ≤ w.redis.head ∧ w.Covered candidate
  | _ => True

/-- The holder of the flush lock. -/
def FlushOk (w : World) (tokens : List (StreamId × Token)) : FlushTask → Prop
  | .idle => True
  | .finalizing ids stage _ => (∀ id ∈ ids, id ≤ w.redis.head) ∧ StageOk w tokens ids stage
  | .inserting _ _ work durable retry =>
    (∀ batch ∈ work, ∀ b ∈ batch, Sourced w b) ∧
      (∀ b ∈ durable, Sourced w b ∧ (b.row = true → w.Settled b.id)) ∧ ∀ b ∈ retry, Sourced w b

/-- Messages are delivered entries. -/
def Delivered (w : World) (messages : List Entry) : Prop :=
  ∀ e ∈ messages, e ∈ w.redis.log ∧ e.id ≤ w.redis.head

/-- The consume loop. -/
def ConsumerOk (w : World) : ConsumerTask → Prop
  | .idle => True
  | .degradeLost messages | .processing messages => Delivered w messages
  | .deadLetter id rest => id ≤ w.redis.head ∧ Delivered w rest

def MonitorOk (w : World) : MonitorTask → Prop
  | .trim minId => w.TrimBound minId
  | _ => True

structure Memory.Ok (w : World) (m : Memory) : Prop where
  buffer : ∀ b ∈ m.buffer, Sourced w b
  tokens : ∀ d ∈ m.boundaryTokens, ⟨d.1, .marker d.2⟩ ∈ w.redis.log
  durable : ∀ id ∈ m.durablePendingAck, Ready w m.boundaryTokens id
  flush : FlushOk w m.boundaryTokens m.flush
  consumer : ConsumerOk w m.consumer
  monitor : MonitorOk w m.monitor

/-- The invariant of the stores and the writer. -/
def State.Ok (s : State) : Prop :=
  s.world.Ok ∧
    match s.process with
    | .up m => m.Ok s.world
    | _ => True

/-! ## Frames: the stores grow -/

section Grows

variable {w w' : World}

lemma Sourced.grows {b : Buffered} (h : Sourced w b) (hg : w.Grows w') : Sourced w' b :=
  ⟨h.1.trans hg.head, h.2.imp id fun ⟨t, ht, hmem⟩ => ⟨t, ht, hg.mem_log hmem⟩⟩

variable {tokens : List (StreamId × Token)}

lemma Ready.grows {id : StreamId} (h : Ready w tokens id) (hg : w.Grows w') : Ready w' tokens id :=
  ⟨h.1.trans hg.head, h.2.imp (hg.settled h.1) fun h => h⟩

lemma Delivered.grows {messages : List Entry} (h : Delivered w messages) (hg : w.Grows w') :
    Delivered w' messages :=
  fun e he => ⟨hg.mem_log (h e he).1, (h e he).2.trans hg.head⟩

lemma StageOk.grows {ids : List StreamId} {stage : Stage}
    (hids : ∀ id ∈ ids, id ≤ w.redis.head) (h : StageOk w tokens ids stage) (hg : w.Grows w') :
    StageOk w' tokens ids stage := by
  cases stage with
  | verify => exact fun id hid => (h id hid).grows hg
  | exec => exact fun id hid => hg.settled (hids id hid) (h id hid)
  | commit candidate entriesRead => exact ⟨h.1.trans hg.head, hg.covered h.1 h.2⟩
  | degradeQuarantine | degradeMismatch | inspect | degradeInspect => trivial

lemma FlushOk.grows {task : FlushTask}
    (h : FlushOk w tokens task) (hg : w.Grows w') : FlushOk w' tokens task := by
  cases task with
  | idle => trivial
  | finalizing ids stage thenInsert =>
    exact ⟨fun id hid => (h.1 id hid).trans hg.head, StageOk.grows h.1 h.2 hg⟩
  | inserting ackSucceeded size work durable retry =>
    refine ⟨fun batch hb b hmem => (h.1 batch hb b hmem).grows hg, fun b hb => ?_,
      fun b hb => (h.2.2 b hb).grows hg⟩
    obtain ⟨hsrc, hset⟩ := h.2.1 b hb
    exact ⟨hsrc.grows hg, fun hrow => hg.settled hsrc.1 (hset hrow)⟩

lemma ConsumerOk.grows {task : ConsumerTask} (h : ConsumerOk w task) (hg : w.Grows w') :
    ConsumerOk w' task := by
  cases task with
  | idle => trivial
  | degradeLost messages | processing messages => exact Delivered.grows h hg
  | deadLetter id rest => exact ⟨h.1.trans hg.head, h.2.grows hg⟩

lemma MonitorOk.grows {task : MonitorTask} (h : MonitorOk w task) (hg : w.Grows w') :
    MonitorOk w' task := by
  cases task with
  | trim minId => exact hg.trimBound h
  | idle | summarize => trivial

lemma Memory.Ok.grows {m : Memory} (h : m.Ok w) (hg : w.Grows w') : m.Ok w' where
  buffer b hb := (h.buffer b hb).grows hg
  tokens d hd := hg.mem_log (h.tokens d hd)
  durable id hid := (h.durable id hid).grows hg
  flush := h.flush.grows hg
  consumer := h.consumer.grows hg
  monitor := h.monitor.grows hg

end Grows

/-! ## The memory's own operations -/

section Memory

variable {w : World} {m : Memory}

lemma Memory.fresh_ok (w : World) : Memory.fresh.Ok w where
  buffer _ h := absurd h List.not_mem_nil
  tokens _ h := absurd h List.not_mem_nil
  durable _ h := absurd h List.not_mem_nil
  flush := trivial
  consumer := trivial
  monitor := trivial

lemma Memory.Ok.setFlush (h : m.Ok w) {task : FlushTask} (hf : FlushOk w m.boundaryTokens task) :
    Memory.Ok w { m with flush := task } :=
  { h with flush := hf }

lemma Memory.Ok.setConsumer (h : m.Ok w) {task : ConsumerTask} (hc : ConsumerOk w task) :
    Memory.Ok w { m with consumer := task } :=
  { h with consumer := hc }

lemma Memory.Ok.setMonitor (h : m.Ok w) {task : MonitorTask} (hm : MonitorOk w task) :
    Memory.Ok w { m with monitor := task } :=
  { h with monitor := hm }

lemma Memory.Ok.queueOne_settled (h : m.Ok w) {id : StreamId} {row : Bool}
    (hid : id ≤ w.redis.head) (hset : w.Settled id) : (m.queueOne ⟨id, row, none⟩).Ok w :=
  { h with
    durable := by
      intro x hx
      simp only [Memory.queueOne] at hx
      split at hx
      · exact h.durable x hx
      · rcases List.mem_append.1 hx with hx | hx
        · exact h.durable x hx
        · obtain rfl := List.mem_singleton.1 hx
          exact ⟨hid, .inl hset⟩ }

lemma Memory.Ok.queueOne (h : m.Ok w) (hflush : m.flush = .idle) {b : Buffered}
    (hsrc : Sourced w b) (hset : b.row = true → w.Settled b.id) : (m.queueOne b).Ok w := by
  rcases hsrc.2 with ⟨hrow, htoken⟩ | ⟨t, htoken, hmem⟩
  · obtain ⟨id, row, token⟩ := b
    obtain rfl : token = none := htoken
    exact h.queueOne_settled hsrc.1 (hset hrow)
  · -- the new token only makes more lookups succeed
    have hkeep : ∀ id, Ready w m.boundaryTokens id →
        Ready w ((b.id, t) :: m.boundaryTokens) id := by
      intro id hready
      refine ⟨hready.1, hready.2.imp (fun h => h) fun hsome => ?_⟩
      rw [List.lookup_cons]
      split
      · rfl
      · exact hsome
    have hself : Ready w ((b.id, t) :: m.boundaryTokens) b.id :=
      ⟨hsrc.1, .inr (by rw [List.lookup_cons, beq_self_eq_true]; rfl)⟩
    refine { h with tokens := ?_, durable := ?_, flush := ?_ }
    · simp only [Memory.queueOne, htoken]
      intro d hd
      rcases List.mem_cons.1 hd with rfl | hd
      · exact hmem
      · exact h.tokens d hd
    · simp only [Memory.queueOne, htoken]
      intro x hx
      split at hx
      · exact hkeep x (h.durable x hx)
      · rcases List.mem_append.1 hx with hx | hx
        · exact hkeep x (h.durable x hx)
        · exact List.mem_singleton.1 hx ▸ hself
    · simp only [Memory.queueOne, hflush]
      trivial

lemma Memory.Ok.queueDurableAck {bs : List Buffered} (h : m.Ok w) (hflush : m.flush = .idle)
    (hbs : ∀ b ∈ bs, Sourced w b ∧ (b.row = true → w.Settled b.id)) :
    (m.queueDurableAck bs).Ok w := by
  induction bs generalizing m with
  | nil => exact h
  | cons b bs ih =>
    obtain ⟨hsrc, hset⟩ := hbs b List.mem_cons_self
    exact ih (h.queueOne hflush hsrc hset) hflush fun x hx => hbs x (List.mem_cons_of_mem b hx)

lemma Memory.Ok.startInsert (h : m.Ok w) (ackSucceeded : Bool) :
    (m.startInsert ackSucceeded).Ok w := by
  unfold Memory.startInsert
  split
  · exact h.setFlush trivial
  · refine h.setFlush ⟨?_, ?_, ?_⟩
    · intro batch hbatch b hb
      exact h.buffer b (List.mem_singleton.1 hbatch ▸ hb)
    · exact fun _ hb => absurd hb List.not_mem_nil
    · exact fun _ hb => absurd hb List.not_mem_nil

lemma Memory.Ok.finalizeFailed (h : m.Ok w) (thenInsert : Bool) :
    (m.finalizeFailed thenInsert).Ok w := by
  unfold Memory.finalizeFailed
  split
  · exact h.startInsert false
  · exact h.setFlush trivial

lemma lookup_filter_of_notMem {ids : List StreamId} {id : StreamId} (hid : id ∉ ids)
    (tokens : List (StreamId × Token)) :
    (tokens.filter fun d => decide (d.1 ∉ ids)).lookup id = tokens.lookup id := by
  induction tokens with
  | nil => rfl
  | cons d tokens ih =>
    by_cases hd : id = d.1
    · have hbeq : (id == d.1) = true := by simpa using hd
      have hd' : d.1 ∉ ids := hd ▸ hid
      rw [List.filter_cons_of_pos (by simpa using hd'), List.lookup_cons, List.lookup_cons, hbeq]
    · have hbeq : (id == d.1) = false := by simpa using hd
      rw [List.filter_cons]
      split
      · rw [List.lookup_cons, List.lookup_cons, hbeq, ih]
      · rw [List.lookup_cons, hbeq, ih]

lemma Memory.Ok.finalizeSucceeded (h : m.Ok w) (ids : List StreamId) (thenInsert : Bool) :
    (m.finalizeSucceeded ids thenInsert).Ok w := by
  have hkept : Memory.Ok w { m with
      uncertain := false
      durablePendingAck := m.durablePendingAck.filter fun id => decide (id ∉ ids)
      boundaryTokens := m.boundaryTokens.filter fun d => decide (d.1 ∉ ids)
      flush := .idle } :=
    { h with
      tokens := fun d hd => h.tokens d (List.mem_filter.1 hd).1
      durable := by
        intro id hid
        obtain ⟨hmem, hnot⟩ := List.mem_filter.1 hid
        obtain ⟨hle, hready⟩ := h.durable id hmem
        refine ⟨hle, hready.imp (fun h => h) fun hsome => ?_⟩
        rwa [lookup_filter_of_notMem (by simpa using hnot)]
      flush := trivial }
  unfold Memory.finalizeSucceeded
  dsimp only
  split
  · exact hkept.startInsert _
  · exact hkept

lemma Memory.Ok.finishInsert {durable retry : List Buffered} (h : m.Ok w)
    (hdurable : ∀ b ∈ durable, Sourced w b ∧ (b.row = true → w.Settled b.id))
    (hretry : ∀ b ∈ retry, Sourced w b) (ackSucceeded : Bool) (size : ℕ) :
    (m.finishInsert ackSucceeded size durable retry).Ok w := by
  have hbuffer : Memory.Ok w { m with buffer := retry ++ m.buffer.drop size, flush := .idle } :=
    { h with
      buffer := by
        intro b hb
        rcases List.mem_append.1 hb with hb | hb
        · exact hretry b hb
        · exact h.buffer b (List.mem_of_mem_drop hb)
      flush := trivial }
  have hqueued := hbuffer.queueDurableAck rfl hdurable
  unfold Memory.finishInsert
  refine hqueued.setFlush ?_
  split
  · exact ⟨fun id hid => (hqueued.durable id hid).1, hqueued.durable⟩
  · trivial

lemma settled_of_verifyBoundaries (hw : w.Ok) (h : m.Ok w) {ids : List StreamId}
    (hready : ∀ id ∈ ids, Ready w m.boundaryTokens id)
    (hverify : verifyBoundaries w.pg (m.expectedTokens ids) = some false) :
    ∀ id ∈ ids, w.Settled id := by
  intro id hid
  rcases (hready id hid).2 with hset | hsome
  · exact hset
  · obtain ⟨t, ht⟩ := Option.isSome_iff_exists.1 hsome
    have hexp : (id, t) ∈ m.expectedTokens ids :=
      List.mem_filterMap.2 ⟨id, hid, by rw [ht]; rfl⟩
    unfold verifyBoundaries at hverify
    split at hverify
    next hall =>
      have hcase := List.all_eq_true.1 hall _ hexp
      have hquarantine := List.any_eq_false.1 (Option.some.inj hverify) _ hexp
      simp only [Bool.or_eq_true, decide_eq_true_eq] at hcase
      have hpub : w.pg.published t id := hcase.resolve_right hquarantine
      -- the entry with this ID is the marker whose token was queued
      intro e he heq
      obtain ⟨l₁, l₂, hsplit, -⟩ := List.lookup_eq_some_iff.1 ht
      have hmarker := h.tokens (id, t) (by rw [hsplit]; simp)
      obtain rfl := List.eq_of_key_eq hw.sorted he hmarker heq
      exact .inr (.inr ⟨t, rfl, hpub⟩)
    · exact absurd hverify (by simp)

end Memory

/-! ## The steps -/

section Steps

variable {s s' : State} {m : Memory} {a : Act}

lemma degradeThen_ok {reply : Reply} {m₁ m₂ : Memory} (hw : s.world.Ok)
    (h₁ : (s.world.setPg s.world.pg.degrade).Degraded →
      s.world.Grows (s.world.setPg s.world.pg.degrade) →
      m₁.Ok (s.world.setPg s.world.pg.degrade))
    (h₂ : m₂.Ok s.world) : (s.degradeThen reply m₁ m₂).Ok := by
  have hdegrade := World.degrade_ok hw
  cases reply with
  | done => exact ⟨hdegrade.2, h₁ s.world.degrade_degraded hdegrade.1⟩
  | lost => exact ⟨hdegrade.2, h₂.grows hdegrade.1⟩
  | failed => exact ⟨hw, h₂⟩

lemma consumer_ok (hw : s.world.Ok) (hm : m.Ok s.world) (hs : s.process = .up m)
    (hst : consumerStep s m a = some s') : s'.Ok := by
  cases a with
  | readGroup count reply =>
    simp only [consumerStep] at hst
    split at hst
    next g _ hg =>
      have hread := World.readGroup_ok hw hg count
      cases reply with
      | done =>
        obtain rfl := Option.some.inj hst
        refine ⟨hread.2, (hm.grows hread.1).setConsumer ?_⟩
        exact fun e he => World.readGroup_entries he
      | lost =>
        obtain rfl := Option.some.inj hst
        exact ⟨hread.2, hm.grows hread.1⟩
      | failed =>
        obtain rfl := Option.some.inj hst
        exact ⟨hw, by rw [hs]; exact hm⟩
    · exact absurd hst (by simp)
  | autoClaim ids reply =>
    simp only [consumerStep] at hst
    split at hst
    next g _ hg =>
      have hclaim := World.autoClaim_ok hw hg ids
      have hentries : Delivered s.world (s.world.redis.autoClaim g ids).1 :=
        fun e he => World.autoClaim_entries hw hg he
      cases reply with
      | done =>
        obtain rfl := Option.some.inj hst
        refine ⟨hclaim.2, (hm.grows hclaim.1).setConsumer ?_⟩
        split
        · exact hentries.grows hclaim.1
        · exact hentries.grows hclaim.1
      | lost =>
        obtain rfl := Option.some.inj hst
        exact ⟨hclaim.2, hm.grows hclaim.1⟩
      | failed =>
        obtain rfl := Option.some.inj hst
        exact ⟨hw, by rw [hs]; exact hm⟩
    · exact absurd hst (by simp)
  | degradeLost reply =>
    simp only [consumerStep] at hst
    split at hst
    next messages hc =>
      obtain rfl := Option.some.inj hst
      have hmessages : ConsumerOk s.world (.degradeLost messages) := hc ▸ hm.consumer
      refine degradeThen_ok hw (fun _ hg => ?_) (hm.setConsumer trivial)
      exact (hm.grows hg).setConsumer (Delivered.grows hmessages hg)
    · exact absurd hst (by simp)
  | processMessage =>
    simp only [consumerStep] at hst
    split at hst
    · obtain rfl := Option.some.inj hst
      exact ⟨hw, hm.setConsumer trivial⟩
    next e rest hc =>
      have hmessages : Delivered s.world (e :: rest) := by
        have hcons := hm.consumer
        rwa [hc] at hcons
      obtain ⟨hlog, hle⟩ := hmessages e List.mem_cons_self
      have hrest : Delivered s.world rest := fun x hx => hmessages x (List.mem_cons_of_mem e hx)
      have hbuffer : ∀ b, Sourced s.world b → ∀ x ∈ m.buffer ++ [b], Sourced s.world x := by
        intro b hb x hx
        rcases List.mem_append.1 hx with hx | hx
        · exact hm.buffer x hx
        · exact List.mem_singleton.1 hx ▸ hb
      split at hst <;> obtain rfl := Option.some.inj hst
      · refine ⟨hw, { hm with buffer := hbuffer _ ?_, consumer := hrest }⟩
        exact ⟨hle, .inl ⟨rfl, rfl⟩⟩
      next t hcontent =>
        refine ⟨hw, { hm with buffer := hbuffer _ ?_, consumer := hrest }⟩
        refine ⟨hle, .inr ⟨t, rfl, ?_⟩⟩
        rw [← hcontent]
        exact hlog
      · exact ⟨hw, hm.setConsumer ⟨hle, hrest⟩⟩
    · exact absurd hst (by simp)
  | leavePending =>
    simp only [consumerStep] at hst
    split at hst
    · obtain rfl := Option.some.inj hst
      exact ⟨hw, hm.setConsumer trivial⟩
    · exact absurd hst (by simp)
  | deadLetter reply =>
    simp only [consumerStep] at hst
    split at hst
    next id rest hc =>
      obtain rfl := Option.some.inj hst
      have hcons : ConsumerOk s.world (.deadLetter id rest) := hc ▸ hm.consumer
      refine degradeThen_ok hw (fun hdeg hg => ?_) (hm.setConsumer hcons.2)
      -- the malformed entry is finalized only after the authority is degraded
      have hqueued : (m.queueOne ⟨id, true, none⟩).Ok _ :=
        (hm.grows hg).queueOne_settled (hcons.1.trans hg.head) (hdeg.settled id)
      exact hqueued.setConsumer (hcons.2.grows hg)
    · exact absurd hst (by simp)
  | _ => exact absurd hst (by simp [consumerStep])

lemma Memory.Ok.setUncertain {w : World} (h : m.Ok w) (uncertain : Bool) :
    Memory.Ok w { m with uncertain := uncertain } :=
  { h with }

lemma finalize_step_ok {ids : List StreamId} {stage : Stage} {thenInsert : Bool}
    (hw : s.world.Ok) (hm : m.Ok s.world) (hflush : m.flush = .finalizing ids stage thenInsert)
    (hst : finalizeStep s m ids stage thenInsert a = some s') : s'.Ok := by
  obtain ⟨hids, hstage⟩ : FlushOk s.world m.boundaryTokens (.finalizing ids stage thenInsert) :=
    hflush ▸ hm.flush
  have hfailed : State.Ok (s.setMemory (m.finalizeFailed thenInsert)) :=
    ⟨hw, hm.finalizeFailed thenInsert⟩
  cases a with
  | verify reply =>
    simp only [finalizeStep] at hst
    split at hst
    · split at hst
      · split at hst <;> obtain rfl := Option.some.inj hst
        · exact hfailed
        next quarantine hverify =>
          refine ⟨hw, hm.setFlush ⟨hids, ?_⟩⟩
          cases quarantine with
          | true => trivial
          | false => exact settled_of_verifyBoundaries hw hm hstage hverify
      · obtain rfl := Option.some.inj hst
        exact hfailed
    · exact absurd hst (by simp)
  | degradeFinalizing reply =>
    simp only [finalizeStep] at hst
    split at hst
    · obtain rfl := Option.some.inj hst
      refine degradeThen_ok hw (fun hdeg hg => ?_) (hm.finalizeFailed thenInsert)
      refine (hm.grows hg).setFlush ⟨fun id hid => (hids id hid).trans hg.head, ?_⟩
      exact fun id _ => hdeg.settled id
    · obtain rfl := Option.some.inj hst
      exact degradeThen_ok hw (fun _ hg => (hm.grows hg).finalizeFailed thenInsert)
        (hm.finalizeFailed thenInsert)
    · obtain rfl := Option.some.inj hst
      exact degradeThen_ok hw (fun _ hg => (hm.grows hg).finalizeFailed thenInsert)
        (hm.finalizeFailed thenInsert)
    · exact absurd hst (by simp)
  | exec reply =>
    simp only [finalizeStep] at hst
    split at hst
    · have hfin := World.finalize_ok hw fun id hid => ⟨hids id hid, hstage id hid⟩
      have hhead : ∀ id ∈ ids, id ≤ (s.world.setRedis (s.world.redis.finalize ids)).redis.head :=
        fun id hid => (hids id hid).trans hfin.1.head
      have hm' := hm.grows hfin.1
      cases reply with
      | done =>
        dsimp only at hst
        split at hst <;> obtain rfl := Option.some.inj hst
        · exact ⟨hfin.2, { hm' with flush := ⟨hhead, trivial⟩ }⟩
        · exact ⟨hfin.2, hm'.setFlush ⟨hhead, trivial⟩⟩
      | lost =>
        obtain rfl := Option.some.inj hst
        exact ⟨hfin.2, (hm'.setUncertain true).finalizeFailed thenInsert⟩
      | failed =>
        obtain rfl := Option.some.inj hst
        exact ⟨hw, (hm.setUncertain true).finalizeFailed thenInsert⟩
    · exact absurd hst (by simp)
  | inspect usable =>
    simp only [finalizeStep] at hst
    split at hst
    · split at hst
      next g hg =>
        split at hst <;> obtain rfl := Option.some.inj hst
        next hp => exact ⟨hw, hm.setFlush ⟨hids, hw.covered_head hg hp⟩⟩
        · exact ⟨hw, hm.finalizeSucceeded ids thenInsert⟩
      · obtain rfl := Option.some.inj hst
        exact ⟨hw, hm.setFlush ⟨hids, trivial⟩⟩
    · exact absurd hst (by simp)
  | commit reply =>
    simp only [finalizeStep] at hst
    split at hst
    next candidate entriesRead =>
      split at hst
      · obtain rfl := Option.some.inj hst
        exact hfailed
      next r hr =>
        have hadvance := World.advance_ok hw hr hstage.1 hstage.2 m.finalizedSinceFrontier entriesRead
        have hm' := hm.grows hadvance.1
        cases reply with
        | done =>
          obtain rfl := Option.some.inj hst
          have hcleared : Memory.Ok _ { m with finalizedSinceFrontier := [] } := { hm' with }
          exact ⟨hadvance.2, hcleared.finalizeSucceeded ids thenInsert⟩
        | lost =>
          obtain rfl := Option.some.inj hst
          exact ⟨hadvance.2, hm'.finalizeFailed thenInsert⟩
        | failed =>
          obtain rfl := Option.some.inj hst
          exact hfailed
    · exact absurd hst (by simp)
  | _ => exact absurd hst (by simp [finalizeStep])

lemma insert_ok {ackSucceeded : Bool} {size : ℕ} {work : List (List Buffered)}
    {durable retry : List Buffered} (hw : s.world.Ok) (hm : m.Ok s.world)
    (hflush : m.flush = .inserting ackSucceeded size work durable retry)
    (hst : insertStep s m ackSucceeded size work durable retry a = some s') : s'.Ok := by
  obtain ⟨hwork, hdurable, hretry⟩ :
      FlushOk s.world m.boundaryTokens (.inserting ackSucceeded size work durable retry) :=
    hflush ▸ hm.flush
  cases a with
  | insertBatch outcome =>
    cases work with
    | nil =>
      obtain rfl := Option.some.inj hst
      exact ⟨hw, hm.finishInsert hdurable hretry ackSucceeded size⟩
    | cons batch rest =>
      have hbatch := hwork batch List.mem_cons_self
      have hrest : ∀ batch ∈ rest, ∀ b ∈ batch, Sourced s.world b :=
        fun b hb => hwork b (List.mem_cons_of_mem batch hb)
      have hretry' : ∀ b ∈ retry ++ batch, Sourced s.world b := by
        intro b hb
        rcases List.mem_append.1 hb with hb | hb
        · exact hretry b hb
        · exact hbatch b hb
      have hinsert := World.insertRows_ok hw batch
      simp only [insertStep] at hst
      split at hst
      next hmarkers =>
        obtain rfl := Option.some.inj hst
        refine ⟨hw, hm.setFlush ⟨hrest, fun b hb => ?_, hretry⟩⟩
        rcases List.mem_append.1 hb with hb | hb
        · exact hdurable b hb
        · refine ⟨hbatch b hb, fun hrow => ?_⟩
          have hnot := List.all_eq_true.1 hmarkers b hb
          simp [hrow] at hnot
      · split at hst
        · obtain rfl := Option.some.inj hst
          have hflush' : FlushOk (s.world.insertRows batch) m.boundaryTokens
              (.inserting ackSucceeded size rest durable retry) :=
            FlushOk.grows (w := s.world) ⟨hrest, hdurable, hretry⟩ hinsert.1
          refine ⟨hinsert.2, (hm.grows hinsert.1).setFlush ⟨hflush'.1, fun b hb => ?_, hflush'.2.2⟩⟩
          rcases List.mem_append.1 hb with hb | hb
          · exact hflush'.2.1 b hb
          · exact ⟨(hbatch b hb).grows hinsert.1, s.world.insertRows_settled hb⟩
        · obtain rfl := Option.some.inj hst
          exact ⟨hinsert.2, (hm.grows hinsert.1).setFlush
            (FlushOk.grows (w := s.world) ⟨hrest, hdurable, hretry'⟩ hinsert.1)⟩
        · obtain rfl := Option.some.inj hst
          exact ⟨hw, hm.setFlush ⟨hrest, hdurable, hretry'⟩⟩
        next reply =>
          have hm' : Memory.Ok s.world
              { m with flush := .inserting ackSucceeded size rest durable retry } :=
            hm.setFlush ⟨hrest, hdurable, hretry⟩
          split at hst <;> obtain rfl := Option.some.inj hst
          next b _ =>
            refine degradeThen_ok hw (fun hdeg hg => ?_) hm'
            have hb := hbatch b (List.mem_singleton.2 rfl)
            exact (hm'.grows hg).queueOne_settled (hb.1.trans hg.head) (hdeg.settled b.id)
          · refine ⟨hw, hm.setFlush ⟨?_, hdurable, hretry⟩⟩
            intro part hpart b hb
            rcases List.mem_cons.1 hpart with rfl | hpart
            · exact hbatch b (List.mem_of_mem_take hb)
            · rcases List.mem_cons.1 hpart with rfl | hpart
              · exact hbatch b (List.mem_of_mem_drop hb)
              · exact hrest part hpart b hb
  | _ => exact absurd hst (by simp [insertStep])

lemma flush_ok (hw : s.world.Ok) (hm : m.Ok s.world) (hst : flushStep s m a = some s') :
    s'.Ok := by
  have hdurable : FlushOk s.world m.boundaryTokens (.finalizing m.durablePendingAck .verify true) ∧
      FlushOk s.world m.boundaryTokens (.finalizing m.durablePendingAck .verify false) :=
    ⟨⟨fun id hid => (hm.durable id hid).1, hm.durable⟩,
      ⟨fun id hid => (hm.durable id hid).1, hm.durable⟩⟩
  simp only [flushStep] at hst
  split at hst
  · split at hst
    · split at hst <;> obtain rfl := Option.some.inj hst
      · exact ⟨hw, hm.startInsert true⟩
      · exact ⟨hw, hm.setFlush hdurable.1⟩
    · split at hst
      · exact absurd hst (by simp)
      · obtain rfl := Option.some.inj hst
        exact ⟨hw, hm.setFlush hdurable.2⟩
    · exact absurd hst (by simp)
  next hflush => exact finalize_step_ok hw hm hflush hst
  next hflush => exact insert_ok hw hm hflush hst

lemma monitor_ok (hw : s.world.Ok) (hm : m.Ok s.world) (hs : s.process = .up m)
    (hst : monitorStep s m a = some s') : s'.Ok := by
  cases a with
  | monitorInfo =>
    simp only [monitorStep] at hst
    split at hst
    next g _ hg =>
      split_ifs at hst with hzero hp <;> obtain rfl := Option.some.inj hst
      · exact ⟨hw, by rw [hs]; exact hm⟩
      · exact ⟨hw, hm.setMonitor (World.trimBound_next hg hp)⟩
      · exact ⟨hw, hm.setMonitor trivial⟩
    · exact absurd hst (by simp)
  | monitorPending =>
    simp only [monitorStep] at hst
    split at hst
    next g _ hg =>
      split at hst <;> obtain rfl := Option.some.inj hst
      · exact ⟨hw, hm.setMonitor trivial⟩
      next hp => exact ⟨hw, hm.setMonitor (World.trimBound_min hw hg hp)⟩
    · exact absurd hst (by simp)
  | monitorTrim reply =>
    simp only [monitorStep] at hst
    split at hst
    next minId hmon =>
      have hbound : MonitorOk s.world (.trim minId) := hmon ▸ hm.monitor
      have htrim := World.trim_ok hw hbound
      split at hst <;> obtain rfl := Option.some.inj hst
      · exact ⟨hw, hm.setMonitor trivial⟩
      · exact ⟨htrim.2, (hm.grows htrim.1).setMonitor trivial⟩
    · exact absurd hst (by simp)
  | _ => exact absurd hst (by simp [monitorStep])

lemma marker_ok (hw : s.world.Ok) (hm : m.Ok s.world) (hs : s.process = .up m)
    (hst : markerStep s m a = some s') : s'.Ok := by
  have hsame : s.Ok := ⟨hw, by rw [hs]; exact hm⟩
  have hset : ∀ {w : World} (marker : Option (Token × StreamId)), m.Ok w →
      Memory.Ok w { m with marker := marker } := fun _ h => { h with }
  cases a with
  | publishMarker token id reply =>
    simp only [markerStep] at hst
    split at hst
    · split at hst
      · split at hst
        · split at hst <;> obtain rfl := Option.some.inj hst
          · exact ⟨hw, hset _ hm⟩
          · exact hsame
        · obtain rfl := Option.some.inj hst
          exact hsame
      · split at hst
        next hcan =>
          have happend := World.append_ok (e := ⟨id, .marker token⟩) hw hcan
            ((token, id) :: s.world.redis.dedup)
          cases reply with
          | done =>
            obtain rfl := Option.some.inj hst
            exact ⟨happend.2, hset _ (hm.grows happend.1)⟩
          | lost =>
            obtain rfl := Option.some.inj hst
            exact ⟨happend.2, hm.grows happend.1⟩
          | failed =>
            obtain rfl := Option.some.inj hst
            exact hsame
        · exact absurd hst (by simp)
    · exact absurd hst (by simp)
  | recordMarker reply =>
    simp only [markerStep] at hst
    split at hst
    next token id _ =>
      have hmarker := World.setMarker_ok hw token (.published id)
      split at hst <;> obtain rfl := Option.some.inj hst
      · exact ⟨hw, hset _ hm⟩
      · exact ⟨hmarker.2, hset _ (hm.grows hmarker.1)⟩
    · exact absurd hst (by simp)
  | quarantineMarker token observed =>
    obtain rfl := Option.some.inj hst
    have hmarker := World.setMarker_ok hw token (.quarantined observed)
    exact ⟨hmarker.2, hm.grows hmarker.1⟩
  | _ => exact absurd hst (by simp [markerStep])

lemma start_ok (hok : s.Ok) (hst : startStep s a = some s') : s'.Ok := by
  have hw := hok.1
  cases a with
  | reconcileAtStart reply =>
    simp only [startStep] at hst
    split at hst
    next g hproc hg =>
      have htrim : ∀ bound, g.trimBound = some bound →
          State.Ok ⟨s.world.setRedis (s.world.redis.trim bound), .down⟩ := by
        intro bound hbound
        exact ⟨(World.trim_ok hw (World.trimBound_start hw hg hbound)).2, trivial⟩
      split at hst <;> obtain rfl := Option.some.inj hst
      next bound hbound => exact htrim bound hbound
      next bound hbound => exact htrim bound hbound
      · exact hok
    · exact absurd hst (by simp)
  | ensureGroup reply =>
    simp only [startStep] at hst
    split at hst
    · split at hst
      · obtain rfl := Option.some.inj hst
        exact ⟨hw, trivial⟩
      next hg =>
        have hcreate := World.createGroup_ok hw hg
        cases reply with
        | done =>
          obtain rfl := Option.some.inj hst
          exact ⟨hcreate.2, trivial⟩
        | lost =>
          obtain rfl := Option.some.inj hst
          exact ⟨hcreate.2, trivial⟩
        | failed =>
          obtain rfl := Option.some.inj hst
          exact hok
    · exact absurd hst (by simp)
  | initAuthority reply =>
    simp only [startStep] at hst
    split at hst
    next o _ =>
      have hinit := World.initializeAuthority_ok hw o s.world.redis.maxDeleted
      cases reply with
      | done =>
        obtain rfl := Option.some.inj hst
        exact ⟨hinit.2, Memory.fresh_ok _⟩
      | lost =>
        obtain rfl := Option.some.inj hst
        exact ⟨hinit.2, trivial⟩
      | failed =>
        obtain rfl := Option.some.inj hst
        exact ⟨hw, trivial⟩
    · exact absurd hst (by simp)
  | _ => exact absurd hst (by simp [startStep])

lemma State.Ok.grows (hok : s.Ok) {w : World} (hg : s.world.Grows w ∧ w.Ok) :
    State.Ok { s with world := w } := by
  refine ⟨hg.2, ?_⟩
  have hproc := hok.2
  revert hproc
  cases s.process with
  | up m => exact fun hm => hm.grows hg.1
  | down | starting o => exact fun _ => trivial

lemma ok_of_up {f : State → Memory → Act → Option State} (hok : s.Ok)
    (hf : ∀ m, m.Ok s.world → s.process = .up m → f s m a = some s' → s'.Ok)
    (hst : (match s.process with
      | .up m => f s m a
      | _ => none) = some s') : s'.Ok := by
  have hproc := hok.2
  cases h : s.process with
  | up m =>
    rw [h] at hst hproc
    exact hf m hproc h hst
  | down | starting o =>
    rw [h] at hst
    exact absurd hst (by simp)

theorem State.Ok.next (hok : s.Ok) (hst : step s a = some s') : s'.Ok := by
  have hw := hok.1
  cases a with
  | append e =>
    simp only [step] at hst
    split at hst
    next hcan =>
      obtain rfl := Option.some.inj hst
      exact hok.grows (World.append_ok hw hcan s.world.redis.dedup)
    · exact absurd hst (by simp)
  | requestBoundary token =>
    simp only [step] at hst
    split at hst
    · exact absurd hst (by simp)
    · obtain rfl := Option.some.inj hst
      exact hok.grows (World.requestBoundary_ok hw ⟨token, .pending⟩)
  | crash =>
    obtain rfl := Option.some.inj hst
    exact ⟨hw, trivial⟩
  | reconcileAtStart reply => exact start_ok (a := .reconcileAtStart reply) hok hst
  | ensureGroup reply => exact start_ok (a := .ensureGroup reply) hok hst
  | initAuthority reply => exact start_ok (a := .initAuthority reply) hok hst
  | readGroup | autoClaim | degradeLost | processMessage | leavePending | deadLetter =>
    exact ok_of_up (f := consumerStep) hok (fun _ hm hs => consumer_ok hw hm hs) hst
  | flush | ackDurable | verify | degradeFinalizing | exec | inspect | commit | insertBatch =>
    exact ok_of_up (f := flushStep) hok (fun _ hm _ => flush_ok hw hm) hst
  | monitorInfo | monitorPending | monitorTrim =>
    exact ok_of_up (f := monitorStep) hok (fun _ hm hs => monitor_ok hw hm hs) hst
  | publishMarker | recordMarker | quarantineMarker =>
    exact ok_of_up (f := markerStep) hok (fun _ hm hs => marker_ok hw hm hs) hst

end Steps

theorem reach_ok {s : State} (h : machine.Reach s) : s.Ok :=
  h.induct ⟨World.initial_ok, trivial⟩ fun _ _ _ _ hok hst => hok.next hst

/-- **Frontier soundness**: in every reachable state, while the authority is healthy, every entry
of the stream up to the contiguous stream ID is in ClickHouse or is a boundary marker of the
project that PostgreSQL records under this ID. -/
theorem frontier_sound {s : State} (h : machine.Reach s) {r : Watermark}
    (hr : s.world.pg.watermark = some r) (hhealthy : r.status = .healthy) {e : Entry}
    (he : e ∈ s.world.redis.log) (hle : e.id ≤ r.contiguous) :
    e.id ∈ s.world.inserted ∨ ∃ t, e.content = .marker t ∧ s.world.pg.published t e.id := by
  obtain ⟨hw, -⟩ := reach_ok h
  rcases (hw.frontier r hr).2 e he hle with ⟨r', hr', hdegraded⟩ | hkept
  · obtain rfl : r = r' := Option.some.inj (hr.symm.trans hr')
    exact absurd (hhealthy.symm.trans hdegraded) (by simp)
  · exact hkept

/-- A row and a boundary marker are delivered and made durable; the reply of the first finalization
is lost, and the writer crashes and restarts after the second one has advanced the frontier. -/
def finalizedRun : List Act :=
  [.append ⟨toLex (1, 0), .row⟩, .ensureGroup .done, .initAuthority .done, .requestBoundary "b",
    .publishMarker "b" (toLex (2, 0)) .done, .recordMarker .done, .readGroup 10 .done,
    .processMessage, .processMessage, .processMessage, .flush, .insertBatch .inserted,
    .insertBatch .inserted, .verify .done, .exec .lost, .ackDurable, .verify .done, .exec .done,
    .inspect true, .commit .done, .crash, .ensureGroup .done, .initAuthority .done]

/-- After that run the authority is healthy at the ID of the marker, and the two entries are
kept. -/
theorem frontier_sound_finalizedRun :
    ∃ s r, machine.run machine.init finalizedRun = some s ∧ s.world.pg.watermark = some r ∧
      r = ⟨toLex (2, 0), 2, .healthy⟩ ∧
      s.world.redis.log = [⟨toLex (1, 0), .row⟩, ⟨toLex (2, 0), .marker "b"⟩] ∧
      ∀ e ∈ s.world.redis.log, e.id ∈ s.world.inserted ∨
        ∃ t, e.content = .marker t ∧ s.world.pg.published t e.id := by
  have hrun : (machine.run machine.init finalizedRun).map
      (fun s => (s.world.pg.watermark, s.world.redis.log)) =
      some (some ⟨toLex (2, 0), 2, .healthy⟩,
        [⟨toLex (1, 0), .row⟩, ⟨toLex (2, 0), .marker "b"⟩]) := by
    decide +kernel
  obtain ⟨s, hs, hstores⟩ := Option.map_eq_some_iff.1 hrun
  obtain ⟨hr, hlog⟩ := Prod.mk.inj hstores
  refine ⟨s, _, hs, hr, rfl, hlog, fun e he => ?_⟩
  refine frontier_sound (StepMachine.reach_of_run hs) hr rfl he ?_
  rw [hlog] at he
  simp only [List.mem_cons, List.not_mem_nil, or_false] at he
  rcases he with rfl | rfl
  · decide
  · exact le_rfl

end Apdl.Pipeline
