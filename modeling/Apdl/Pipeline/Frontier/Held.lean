import Mathlib.Data.List.Nodup
import Apdl.Pipeline.Frontier.Sound

set_option autoImplicit false

/-!
# What the writer holds

A delivery is held while it is in the buffer, in the batch that is being flushed or among the
deliveries that wait for their finalization. As long as `XAUTOCLAIM` returns no delivery that the
writer holds, each one is held once, and a delivery that was finalized is never held again.

## Main results

* `buffered_once` — each delivery is held once, and not after its finalization.

## Design

While a flush inserts, the copy of the buffer that it took is counted by its parts (the batches still
to insert, the durable and the retried events), and the buffer by what was added behind it.
-/

namespace Apdl.Pipeline

/-! ## The deliveries in memory -/

/-- The events that are buffered or in the batch being flushed. -/
def FlushTask.inFlight (buffer : List Buffered) : FlushTask → List Buffered
  | .inserting _ size work durable retry => buffer.drop size ++ (work.flatten ++ (durable ++ retry))
  | _ => buffer

@[simp] lemma FlushTask.inFlight_idle (buffer : List Buffered) :
    FlushTask.idle.inFlight buffer = buffer := rfl

@[simp] lemma FlushTask.inFlight_finalizing (buffer : List Buffered) (ids : List StreamId)
    (stage : Stage) (thenInsert : Bool) :
    (FlushTask.finalizing ids stage thenInsert).inFlight buffer = buffer := rfl

@[simp] lemma FlushTask.inFlight_inserting (buffer : List Buffered) (ackSucceeded : Bool) (size : ℕ)
    (work : List (List Buffered)) (durable retry : List Buffered) :
    (FlushTask.inserting ackSucceeded size work durable retry).inFlight buffer =
      buffer.drop size ++ (work.flatten ++ (durable ++ retry)) := rfl

/-- The number of events of the buffer that are being flushed. -/
def FlushTask.size : FlushTask → ℕ
  | .inserting _ size _ _ _ => size
  | _ => 0

/-- The deliveries that are being finalized. -/
def FlushTask.snapshot : FlushTask → List StreamId
  | .finalizing ids _ _ => ids
  | _ => []

/-- `EXEC` has returned. -/
def Stage.acknowledged : Stage → Bool
  | .verify | .degradeQuarantine | .exec => false
  | _ => true

/-- The deliveries that are being finalized and that `EXEC` has acknowledged. -/
def FlushTask.acknowledged : FlushTask → List StreamId
  | .finalizing ids stage _ => if stage.acknowledged then ids else []
  | _ => []

/-- The deliveries that the consume loop has received and not processed. -/
def ConsumerTask.inbox : ConsumerTask → List StreamId
  | .idle => []
  | .degradeLost messages | .processing messages => messages.map Entry.id
  | .deadLetter id rest => id :: rest.map Entry.id

namespace Memory

/-- The deliveries that are buffered or in the batch being flushed. -/
def unsettled (m : Memory) : List StreamId := (m.flush.inFlight m.buffer).map Buffered.id

/-- The deliveries that the consume loop has received and not processed. -/
def inbox (m : Memory) : List StreamId := m.consumer.inbox

/-- The deliveries in the buffer, in the batch being flushed and in the durable-pending set. -/
def held (m : Memory) : List StreamId := m.unsettled ++ m.durablePendingAck

/-- How often a delivery is in memory. -/
def tally (m : Memory) (id : StreamId) : ℕ :=
  m.unsettled.count id + m.durablePendingAck.count id + m.inbox.count id

end Memory

/-- The deliveries whose finalization a step completes. -/
def finished (s : State) (a : Act) : List StreamId :=
  match s.process with
  | .up m =>
    match m.flush, a with
    | .finalizing ids .inspect _, .inspect true => if s.world.redis.pending = [] then [] else ids
    | .finalizing ids (.commit _ _) _, .commit .done =>
      if s.world.pg.watermark = none then [] else ids
    | _, _ => []
  | _ => []

/-- The pipeline with the deliveries whose finalization has succeeded. -/
def tracked : StepMachine (State × List StreamId) Act where
  init := (initial, [])
  step s a := (step s.1 a).map fun s' => (s', s.2 ++ finished s.1 a)

/-- The deliveries that the writer holds. -/
def Process.held : Process → List StreamId
  | .up m => m.held
  | _ => []

/-- The deliveries that `XAUTOCLAIM` is asked for, when its reply arrives. -/
def Act.reclaimed : Act → List StreamId
  | .autoClaim ids .done => ids
  | _ => []

/-- A reclaim returns no delivery that the writer holds. -/
def NoSelfReclaim (s : State) (a : Act) : Prop :=
  ∀ id ∈ a.reclaimed, id ∈ s.world.redis.pending → id ∉ s.process.held

instance (s : State) (a : Act) : Decidable (NoSelfReclaim s a) :=
  inferInstanceAs (Decidable (∀ id ∈ a.reclaimed, id ∈ s.world.redis.pending → id ∉ s.process.held))

/-! ## The invariant -/

/-- The invariant of the memory: every delivery is in one place; what is not durable is pending; a
finalization works on durable deliveries; none of the `done` ones is waiting again. -/
structure Holds (r : Redis) (done : List StreamId) (m : Memory) : Prop where
  once : ∀ id, m.tally id ≤ 1
  pending : ∀ id ∈ m.unsettled ++ m.inbox, id ∈ r.pending
  size : m.flush.size ≤ m.buffer.length
  snapshot : ∀ id ∈ m.flush.snapshot, id ∈ m.durablePendingAck
  acknowledged : ∀ id ∈ m.flush.acknowledged, id ∉ r.pending
  done : ∀ id ∈ done, id ∉ m.durablePendingAck

/-- The invariant of the tracked pipeline. -/
structure Tracked (s : State) (done : List StreamId) : Prop where
  ok : s.Ok
  gone : ∀ id ∈ done, id ≤ s.world.redis.head ∧ id ∉ s.world.redis.pending
  memory : ∀ m, s.process = .up m → Holds s.world.redis done m

section Holds

variable {r r' : Redis} {done : List StreamId} {m m' : Memory}

lemma Holds.fresh (r : Redis) (done : List StreamId) : Holds r done Memory.fresh where
  once id := by simp [Memory.tally, Memory.unsettled, Memory.inbox, Memory.fresh,
    FlushTask.inFlight, ConsumerTask.inbox]
  pending id h := by simp [Memory.unsettled, Memory.inbox, Memory.fresh, FlushTask.inFlight,
    ConsumerTask.inbox] at h
  size := Nat.le_refl 0
  snapshot id h := absurd h List.not_mem_nil
  acknowledged id h := absurd h List.not_mem_nil
  done id _ := List.not_mem_nil

lemma Holds.redis (h : Holds r done m)
    (hkeep : ∀ id ∈ m.unsettled ++ m.inbox, id ∈ r.pending → id ∈ r'.pending)
    (hack : ∀ id ∈ m.flush.acknowledged, id ∈ r'.pending → id ∈ r.pending) : Holds r' done m :=
  { h with
    pending := fun id hid => hkeep id hid (h.pending id hid)
    acknowledged := fun id hid hp => h.acknowledged id hid (hack id hid hp) }

lemma Holds.moves (h : Holds r done m) (hdone : ∀ id ∈ done, id ∉ r.pending)
    (htally : ∀ id, m'.tally id ≤ m.tally id)
    (hmem : ∀ id ∈ m'.unsettled ++ m'.inbox, id ∈ m.unsettled ++ m.inbox)
    (hdurable : ∀ id ∈ m'.durablePendingAck,
      id ∈ m.durablePendingAck ∨ id ∈ m.unsettled ++ m.inbox)
    (hsize : m'.flush.size ≤ m'.buffer.length)
    (hsnapshot : ∀ id ∈ m'.flush.snapshot, id ∈ m'.durablePendingAck)
    (hack : ∀ id ∈ m'.flush.acknowledged, id ∉ r.pending) : Holds r done m' where
  once id := (htally id).trans (h.once id)
  pending id hid := h.pending id (hmem id hid)
  size := hsize
  snapshot := hsnapshot
  acknowledged := hack
  done id hid hd := by
    obtain hd | hd := hdurable id hd
    · exact h.done id hid hd
    · exact hdone id hid (h.pending id hd)

variable {id : StreamId}

lemma Holds.not_durable (h : Holds r done m) (hid : id ∈ m.unsettled ++ m.inbox) :
    id ∉ m.durablePendingAck := by
  intro hd
  have honce := h.once id
  have hpos : 0 < m.durablePendingAck.count id := List.count_pos_iff.2 hd
  have hpos' : 0 < m.unsettled.count id + m.inbox.count id := by
    rw [← List.count_append]
    exact List.count_pos_iff.2 hid
  unfold Memory.tally at honce
  omega

lemma count_cons_eq_add (x y : StreamId) (l : List StreamId) :
    (y :: l).count x = [y].count x + l.count x := by
  rw [← List.count_append, List.singleton_append]

lemma mem_of_count_le {l l' : List StreamId} (h : ∀ id, l'.count id ≤ l.count id)
    (hid : id ∈ l') : id ∈ l :=
  List.count_pos_iff.1 ((List.count_pos_iff.2 hid).trans_le (h id))

variable (hdone : ∀ id ∈ done, id ∉ r.pending)

include hdone

lemma Holds.setFlush (h : Holds r done m) {task : FlushTask}
    (hcount : ∀ id, ((task.inFlight m.buffer).map Buffered.id).count id ≤ m.unsettled.count id)
    (hsize : task.size ≤ m.buffer.length)
    (hsnapshot : ∀ id ∈ task.snapshot, id ∈ m.durablePendingAck)
    (hack : ∀ id ∈ task.acknowledged, id ∉ r.pending) : Holds r done { m with flush := task } := by
  refine h.moves hdone (fun id => ?_) (fun id hid => ?_) (fun id hid => .inl hid) hsize hsnapshot hack
  · have := hcount id
    show ((task.inFlight m.buffer).map Buffered.id).count id + m.durablePendingAck.count id +
      m.inbox.count id ≤ m.tally id
    unfold Memory.tally
    omega
  · rw [List.mem_append] at hid ⊢
    exact hid.imp_left (mem_of_count_le hcount)

lemma Holds.setStage (h : Holds r done m) {ids : List StreamId} {stage stage' : Stage}
    {thenInsert : Bool} (hflush : m.flush = .finalizing ids stage thenInsert)
    (hack : stage'.acknowledged = true → ∀ id ∈ ids, id ∉ r.pending) :
    Holds r done { m with flush := .finalizing ids stage' thenInsert } := by
  have hids := h.snapshot
  rw [hflush] at hids
  refine h.setFlush hdone (fun id => ?_) (Nat.zero_le _) hids ?_
  · simp [Memory.unsettled, hflush]
  · intro id hid
    simp only [FlushTask.acknowledged] at hid
    split_ifs at hid with hstage
    · exact hack hstage id hid
    · exact absurd hid List.not_mem_nil

lemma Holds.startInsert (h : Holds r done m) (hbuffer : m.flush.inFlight m.buffer = m.buffer)
    (ackSucceeded : Bool) : Holds r done (m.startInsert ackSucceeded) := by
  unfold Memory.startInsert
  split_ifs with hempty
  · refine h.setFlush hdone (fun id => ?_) (Nat.zero_le _) (fun id hid => absurd hid List.not_mem_nil)
      (fun id hid => absurd hid List.not_mem_nil)
    simp [hempty]
  · refine h.setFlush hdone (fun id => ?_) (Nat.le_refl _) (fun id hid => absurd hid List.not_mem_nil)
      (fun id hid => absurd hid List.not_mem_nil)
    simp [Memory.unsettled, hbuffer]

lemma Holds.finalizeFailed (h : Holds r done m) (hbuffer : m.flush.inFlight m.buffer = m.buffer)
    (thenInsert : Bool) : Holds r done (m.finalizeFailed thenInsert) := by
  unfold Memory.finalizeFailed
  split_ifs
  · exact h.startInsert hdone hbuffer false
  · refine h.setFlush hdone (fun id => ?_) (Nat.zero_le _) (fun id hid => absurd hid List.not_mem_nil)
      (fun id hid => absurd hid List.not_mem_nil)
    simp [Memory.unsettled, hbuffer]

lemma Holds.finalizeSucceeded (h : Holds r done m) (hbuffer : m.flush.inFlight m.buffer = m.buffer)
    {ids : List StreamId} (hids : ∀ id ∈ ids, id ∉ r.pending) (thenInsert : Bool) :
    Holds r (done ++ ids) (m.finalizeSucceeded ids thenInsert) := by
  have hkept : Holds r done { m with
      uncertain := false
      durablePendingAck := m.durablePendingAck.filter fun id => decide (id ∉ ids)
      boundaryTokens := m.boundaryTokens.filter fun d => decide (d.1 ∉ ids)
      flush := .idle } := by
    refine h.moves hdone (fun id => ?_) (fun id hid => ?_) (fun id hid => .inl ?_) (Nat.zero_le _)
      (fun id hid => absurd hid List.not_mem_nil) (fun id hid => absurd hid List.not_mem_nil)
    · have hle : (m.durablePendingAck.filter fun id => decide (id ∉ ids)).count id ≤
          m.durablePendingAck.count id := (List.filter_sublist).count_le id
      simp only [Memory.tally, Memory.unsettled, FlushTask.inFlight_idle, Memory.inbox, hbuffer]
      omega
    · simpa [Memory.unsettled, Memory.inbox, hbuffer] using hid
    · exact (List.mem_filter.1 hid).1
  have hall : Holds r (done ++ ids) { m with
      uncertain := false
      durablePendingAck := m.durablePendingAck.filter fun id => decide (id ∉ ids)
      boundaryTokens := m.boundaryTokens.filter fun d => decide (d.1 ∉ ids)
      flush := .idle } :=
    { hkept with
      done := by
        intro id hid hmem
        obtain hid | hid := List.mem_append.1 hid
        · exact hkept.done id hid hmem
        · have hnot := (List.mem_filter.1 hmem).2
          simp [hid] at hnot }
  unfold Memory.finalizeSucceeded
  dsimp only
  split
  · refine Holds.startInsert ?_ hall rfl _
    intro id hid
    obtain hid | hid := List.mem_append.1 hid
    · exact hdone id hid
    · exact hids id hid
  · exact hall

lemma Holds.queue (h : Holds r done m)
    (hdurable : m'.durablePendingAck = m.durablePendingAck ++ [id])
    (hcount : ∀ x, m'.unsettled.count x + m'.inbox.count x + [id].count x ≤
      m.unsettled.count x + m.inbox.count x)
    (hsize : m'.flush.size ≤ m'.buffer.length)
    (hsnapshot : m'.flush.snapshot = m.flush.snapshot)
    (hack : m'.flush.acknowledged = m.flush.acknowledged) : Holds r done m' := by
  have hmem : ∀ x, x ∈ m'.unsettled ++ m'.inbox ∨ x = id → x ∈ m.unsettled ++ m.inbox := by
    intro x hx
    apply List.count_pos_iff.1
    have hle := hcount x
    rw [List.count_append]
    obtain hx | rfl := hx
    · have hpos := List.count_pos_iff.2 hx
      rw [List.count_append] at hpos
      omega
    · simp only [List.count_singleton_self] at hle
      omega
  refine h.moves hdone (fun x => ?_) (fun x hx => hmem x (.inl hx)) (fun x hx => ?_) hsize
    (fun x hx => ?_) (fun x hx => h.acknowledged x (hack ▸ hx))
  · have hle := hcount x
    simp only [Memory.tally, hdurable, List.count_append]
    omega
  · rw [hdurable, List.mem_append, List.mem_singleton] at hx
    exact hx.imp_right fun hx => hmem x (.inr hx)
  · rw [hdurable]
    exact List.mem_append_left _ (h.snapshot x (hsnapshot ▸ hx))

lemma Holds.buffer (h : Holds r done m) {b : Buffered} {rest : List Entry}
    (hb : b.id = id) (hinbox : m.inbox = id :: rest.map Entry.id) :
    Holds r done { m with buffer := m.buffer ++ [b], consumer := .processing rest } := by
  have hunsettled : ∀ x, (Memory.unsettled { m with
      buffer := m.buffer ++ [b], consumer := .processing rest }).count x =
      m.unsettled.count x + [id].count x := by
    intro x
    subst hb
    have hsize := h.size
    cases htask : m.flush with
    | inserting ackSucceeded size work durable retry =>
      rw [htask] at hsize
      have hdrop : (m.buffer ++ [b]).drop size = m.buffer.drop size ++ [b] :=
        List.drop_append_of_le_length hsize
      simp only [Memory.unsettled, htask, FlushTask.inFlight_inserting, hdrop, List.map_append,
        List.count_append, List.map_cons, List.map_nil]
      omega
    | idle | finalizing =>
      simp [Memory.unsettled, htask]
  have hcount : ∀ x, (Memory.unsettled { m with
      buffer := m.buffer ++ [b], consumer := .processing rest }).count x +
      (rest.map Entry.id).count x = m.unsettled.count x + m.inbox.count x := by
    intro x
    rw [hunsettled, hinbox, count_cons_eq_add x id (rest.map Entry.id)]
    omega
  refine h.moves hdone (fun x => ?_) (fun x hx => ?_) (fun x hx => .inl hx) ?_ h.snapshot
    h.acknowledged
  · have := hcount x
    show Memory.tally _ x ≤ m.unsettled.count x + m.durablePendingAck.count x + m.inbox.count x
    change _ + m.durablePendingAck.count x + (rest.map Entry.id).count x ≤ _
    omega
  · refine List.count_pos_iff.1 ?_
    have hpos := List.count_pos_iff.2 hx
    rw [List.count_append] at hpos ⊢
    exact hpos.trans_le (hcount x).le
  · exact h.size.trans (by simp)

end Holds

lemma queueOne_durable {m : Memory} {b : Buffered} (hb : b.id ∉ m.durablePendingAck) :
    (m.queueOne b).durablePendingAck = m.durablePendingAck ++ [b.id] := by
  simp [Memory.queueOne, hb]

lemma queueDurableAck_durable {m : Memory} {bs : List Buffered} (hnodup : (bs.map Buffered.id).Nodup)
    (hbs : ∀ b ∈ bs, b.id ∉ m.durablePendingAck) :
    (m.queueDurableAck bs).durablePendingAck = m.durablePendingAck ++ bs.map Buffered.id := by
  induction bs generalizing m with
  | nil => simp [Memory.queueDurableAck]
  | cons b bs ih =>
    rw [List.map_cons, List.nodup_cons] at hnodup
    have hb := queueOne_durable (hbs b List.mem_cons_self)
    have hrest := @ih (m.queueOne b) hnodup.2 fun x hx => by
      rw [hb, List.mem_append, List.mem_singleton, not_or]
      refine ⟨hbs x (List.mem_cons_of_mem _ hx), fun heq => hnodup.1 ?_⟩
      exact List.mem_map.2 ⟨x, hx, heq⟩
    show ((m.queueOne b).queueDurableAck bs).durablePendingAck = _
    rw [hrest, hb]
    simp

lemma queueDurableAck_rest (m : Memory) (bs : List Buffered) :
    (m.queueDurableAck bs).buffer = m.buffer ∧ (m.queueDurableAck bs).flush = m.flush ∧
      (m.queueDurableAck bs).consumer = m.consumer ∧
      (m.queueDurableAck bs).uncertain = m.uncertain := by
  induction bs generalizing m with
  | nil => exact ⟨rfl, rfl, rfl, rfl⟩
  | cons b bs ih => exact ih (m.queueOne b)

section Insert

variable {r : Redis} {done : List StreamId} {m : Memory}

lemma Holds.finishInsert (h : Holds r done m) (hdone : ∀ id ∈ done, id ∉ r.pending)
    {ackSucceeded : Bool} {size : ℕ} {durable retry : List Buffered}
    (hflush : m.flush = .inserting ackSucceeded size [] durable retry) :
    Holds r done (m.finishInsert ackSucceeded size durable retry) := by
  have hunsettled : m.unsettled = (m.buffer.drop size).map Buffered.id ++
      (durable.map Buffered.id ++ retry.map Buffered.id) := by
    simp [Memory.unsettled, hflush]
  have hnew : ∀ b ∈ durable, b.id ∉ m.durablePendingAck := by
    intro b hb
    refine h.not_durable (List.mem_append_left _ ?_)
    rw [hunsettled]
    exact List.mem_append_right _ (List.mem_append_left _ (List.mem_map_of_mem hb))
  have hnodup : (durable.map Buffered.id).Nodup := by
    rw [List.nodup_iff_count_le_one]
    intro id
    have honce := h.once id
    simp only [Memory.tally, hunsettled, List.count_append] at honce
    omega
  set q := Memory.queueDurableAck { m with buffer := retry ++ m.buffer.drop size, flush := .idle }
    durable with hq
  have hqdurable : q.durablePendingAck = m.durablePendingAck ++ durable.map Buffered.id :=
    queueDurableAck_durable hnodup hnew
  obtain ⟨hqbuffer, hqflush, hqconsumer, -⟩ := queueDurableAck_rest
    { m with buffer := retry ++ m.buffer.drop size, flush := .idle } durable
  rw [← hq] at hqbuffer hqflush hqconsumer
  have hqunsettled : q.unsettled = retry.map Buffered.id ++ (m.buffer.drop size).map Buffered.id := by
    simp [Memory.unsettled, hqflush, hqbuffer]
  have hqinbox : q.inbox = m.inbox := by simp [Memory.inbox, hqconsumer]
  have hkept : Holds r done q := by
    refine h.moves hdone (fun id => ?_) (fun id hid => ?_) (fun id hid => ?_) ?_ ?_ ?_
    · simp only [Memory.tally, hqdurable, hqunsettled, hqinbox, hunsettled, List.count_append]
      omega
    · rw [hqunsettled, hqinbox] at hid
      rw [hunsettled]
      simp only [List.mem_append] at hid ⊢
      tauto
    · rw [hqdurable] at hid
      rw [hunsettled]
      simp only [List.mem_append] at hid ⊢
      tauto
    · rw [hqflush]
      exact Nat.zero_le _
    · rw [hqflush]
      exact fun id hid => absurd hid List.not_mem_nil
    · rw [hqflush]
      exact fun id hid => absurd hid List.not_mem_nil
  unfold Memory.finishInsert
  rw [← hq]
  refine hkept.setFlush hdone (fun id => ?_) ?_ ?_ ?_
  · split_ifs <;> simp [Memory.unsettled, hqflush]
  · split_ifs <;> exact Nat.zero_le _
  · split_ifs
    · exact fun id hid => hid
    · exact fun id hid => absurd hid List.not_mem_nil
  · split_ifs <;> exact fun id hid => absurd hid List.not_mem_nil

end Insert

/-! ## The steps -/

/-- The head of the stream does not move back, and only new entries become pending. -/
structure Redis.Advances (r r' : Redis) : Prop where
  head : r.head ≤ r'.head
  pending : ∀ id ∈ r'.pending, id ∈ r.pending ∨ r.head < id

lemma World.Grows.advances {w w' : World} (h : w.Grows w') : w.redis.Advances w'.redis :=
  ⟨h.head, h.pending⟩

lemma Redis.Advances.refl (r : Redis) : r.Advances r := ⟨le_rfl, fun _ h => .inl h⟩

/-- What a step leaves: the stream advances, and the memory satisfies its invariant. -/
def Carries (s s' : State) (done : List StreamId) : Prop :=
  s.world.redis.Advances s'.world.redis ∧
    ∀ m', s'.process = .up m' → Holds s'.world.redis done m'

section Steps

variable {s s' : State} {m : Memory} {a : Act} {done : List StreamId}

lemma Carries.memory {m' : Memory} (h : Holds s.world.redis done m') :
    Carries s (s.setMemory m') done :=
  ⟨.refl _, fun _ hm => Process.up.inj hm ▸ h⟩

lemma Carries.same (hs : s.process = .up m) (h : Holds s.world.redis done m) : Carries s s done :=
  ⟨.refl _, fun _ hm => Process.up.inj (hs.symm.trans hm) ▸ h⟩

lemma Carries.pg {m' : Memory} (p : Postgres) (h : Holds s.world.redis done m') :
    Carries s ⟨s.world.setPg p, .up m'⟩ done :=
  ⟨.refl _, fun _ hm => Process.up.inj hm ▸ h⟩

lemma Carries.degradeThen {reply : Reply} {m₁ m₂ : Memory} (h₁ : Holds s.world.redis done m₁)
    (h₂ : Holds s.world.redis done m₂) : Carries s (s.degradeThen reply m₁ m₂) done := by
  cases reply with
  | done => exact .pg _ h₁
  | lost => exact .pg _ h₂
  | failed => exact .memory h₂

lemma Holds.setConsumer {r : Redis} (hdone : ∀ id ∈ done, id ∉ r.pending) (h : Holds r done m)
    {task : ConsumerTask} (hcount : ∀ id, task.inbox.count id ≤ m.inbox.count id) :
    Holds r done { m with consumer := task } := by
  refine h.moves hdone (fun id => ?_) (fun id hid => ?_) (fun id hid => .inl hid) h.size h.snapshot
    h.acknowledged
  · have := hcount id
    show m.unsettled.count id + m.durablePendingAck.count id + task.inbox.count id ≤ m.tally id
    unfold Memory.tally
    omega
  · rw [List.mem_append] at hid ⊢
    exact hid.imp_right (mem_of_count_le hcount)

lemma Holds.receive {r : Redis} (h : Holds r done m) (hidle : m.consumer = .idle)
    {task : ConsumerTask} (hnodup : task.inbox.Nodup)
    (hnew : ∀ id ∈ task.inbox, id ∈ r.pending ∧ id ∉ m.held) :
    Holds r done { m with consumer := task } := by
  have hinbox : m.inbox = [] := by simp [Memory.inbox, hidle, ConsumerTask.inbox]
  refine { h with once := fun id => ?_, pending := fun id hid => ?_ }
  · have honce := h.once id
    have hle := List.nodup_iff_count_le_one.1 hnodup id
    show m.unsettled.count id + m.durablePendingAck.count id + task.inbox.count id ≤ 1
    simp only [Memory.tally, hinbox, List.count_nil] at honce
    by_cases hid : id ∈ task.inbox
    · have hheld := List.count_eq_zero.2 (hnew id hid).2
      simp only [Memory.held, List.count_append] at hheld
      omega
    · have hzero := List.count_eq_zero.2 hid
      omega
  · obtain hid | hid := List.mem_append.1 hid
    · exact h.pending id (List.mem_append_left _ hid)
    · exact (hnew id hid).1

variable {w : World}

lemma World.Ok.nodup_ids (hw : w.Ok) {es : List Entry}
    (hsub : es.Sublist w.redis.log) : (es.map Entry.id).Nodup := by
  rw [List.nodup_iff_pairwise_ne, List.pairwise_map]
  exact (hw.sorted.sublist hsub).imp fun h => ne_of_lt h

variable {id : StreamId}

lemma Holds.held_le (h : Holds s.world.redis done m) (hw : s.world.Ok) (hm : m.Ok s.world) (hid : id ∈ m.held) : id ≤ s.world.redis.head := by
  obtain hid | hid := List.mem_append.1 hid
  · exact hw.pending_le id (h.pending id (List.mem_append_left _ hid))
  · exact (hm.durable id hid).1

lemma Memory.Ok.snapshot_le (hm : m.Ok w) (hid : id ∈ m.flush.snapshot) : id ≤ w.redis.head := by
  have hflush := hm.flush
  cases htask : m.flush with
  | finalizing ids stage thenInsert =>
    rw [htask] at hflush hid
    exact hflush.1 id hid
  | idle | inserting =>
    rw [htask] at hid
    exact absurd hid List.not_mem_nil

lemma FlushTask.acknowledged_subset (task : FlushTask)
    (hid : id ∈ task.acknowledged) : id ∈ task.snapshot := by
  cases task with
  | finalizing ids stage thenInsert =>
    simp only [FlushTask.acknowledged] at hid
    split_ifs at hid
    · exact hid
    · exact absurd hid List.not_mem_nil
  | idle | inserting => exact absurd hid List.not_mem_nil

lemma Holds.grows {w' : World} (h : Holds w.redis done m) (hm : m.Ok w) (hg : w.Grows w')
    (hkeep : ∀ id ∈ m.unsettled ++ m.inbox, id ∈ w.redis.pending → id ∈ w'.redis.pending) :
    Holds w'.redis done m := by
  refine h.redis hkeep fun id hid hp => ?_
  obtain hp | hp := hg.pending id hp
  · exact hp
  · exact absurd hp (not_lt.2 (hm.snapshot_le (m.flush.acknowledged_subset hid)))

lemma consumer_carries (hw : s.world.Ok) (hm : m.Ok s.world) (hs : s.process = .up m)
    (hdone : ∀ id ∈ done, id ∉ s.world.redis.pending) (h : Holds s.world.redis done m)
    (hclaim : NoSelfReclaim s a) (hst : consumerStep s m a = some s') : Carries s s' done := by
  cases a with
  | readGroup count reply =>
    simp only [consumerStep] at hst
    split at hst
    next g hidle hg =>
      have hread := World.readGroup_ok hw hg count
      have hpend : s.world.redis.pending = g.pending := by simp [Redis.pending, hg]
      have hhead : s.world.redis.head = g.lastDelivered := by simp [Redis.head, hg]
      have hpend' : (s.world.redis.readGroup g count).2.pending =
          g.pending ++ (s.world.redis.readGroup g count).1.map Entry.id := rfl
      have hkept : Holds (s.world.redis.readGroup g count).2 done m := by
        refine h.grows hm hread.1 fun id _ hp => ?_
        show id ∈ (s.world.redis.readGroup g count).2.pending
        rw [hpend']
        exact List.mem_append_left _ (hpend ▸ hp)
      cases reply with
      | done =>
        obtain rfl := Option.some.inj hst
        refine ⟨hread.1.advances, fun m' hm' => ?_⟩
        obtain rfl := Process.up.inj hm'
        refine hkept.receive hidle ?_ fun id hid => ⟨?_, fun hheld => ?_⟩
        · exact hw.nodup_ids ((List.take_sublist _ _).trans List.filter_sublist)
        · show id ∈ (s.world.redis.readGroup g count).2.pending
          rw [hpend']
          exact List.mem_append_right _ hid
        · -- a new delivery lies ahead of the old head
          obtain ⟨e, he, rfl⟩ := List.mem_map.1 hid
          have hnew := (List.mem_filter.1 (List.mem_of_mem_take he)).2
          simp only [Bool.and_eq_true, decide_eq_true_eq] at hnew
          exact absurd (hhead ▸ hnew.1) (not_lt.2 (h.held_le hw hm hheld))
      | lost =>
        obtain rfl := Option.some.inj hst
        exact ⟨hread.1.advances, fun m' hm' => Process.up.inj hm' ▸ hkept⟩
      | failed =>
        obtain rfl := Option.some.inj hst
        exact .same hs h
    · exact absurd hst (by simp)
  | autoClaim ids reply =>
    simp only [consumerStep] at hst
    split at hst
    next g hidle hg =>
      have hpend : s.world.redis.pending = g.pending := by simp [Redis.pending, hg]
      have hredis := World.autoClaim_redis hw hg ids
      rw [hredis] at hst
      cases reply with
      | done =>
        obtain rfl := Option.some.inj hst
        refine Carries.memory (h.receive hidle ?_ ?_)
        · split
          · exact hw.nodup_ids List.filter_sublist
          · exact hw.nodup_ids List.filter_sublist
        · intro id hid
          have hmem : id ∈ (s.world.redis.autoClaim g ids).1.map Entry.id := by
            revert hid
            split <;> exact fun hid => hid
          obtain ⟨e, he, rfl⟩ := List.mem_map.1 hmem
          have hin := (List.mem_filter.1 he).2
          simp only [Bool.and_eq_true, decide_eq_true_eq] at hin
          obtain ⟨hids, hp⟩ := List.mem_filter.1 hin.1
          rw [decide_eq_true_eq, ← hpend] at hp
          have hfree := hclaim e.id hids hp
          rw [hs] at hfree
          exact ⟨hp, hfree⟩
      | lost =>
        obtain rfl := Option.some.inj hst
        exact Carries.memory h
      | failed =>
        obtain rfl := Option.some.inj hst
        exact .same hs h
    · exact absurd hst (by simp)
  | degradeLost reply =>
    simp only [consumerStep] at hst
    split at hst
    next messages hc =>
      obtain rfl := Option.some.inj hst
      refine Carries.degradeThen (h.setConsumer hdone fun id => ?_) (h.setConsumer hdone fun id => ?_)
      · simp [Memory.inbox, hc, ConsumerTask.inbox]
      · simp [ConsumerTask.inbox]
    · exact absurd hst (by simp)
  | processMessage =>
    simp only [consumerStep] at hst
    split at hst
    · obtain rfl := Option.some.inj hst
      exact Carries.memory (h.setConsumer hdone fun id => by simp [ConsumerTask.inbox])
    next e rest hc =>
      have hinbox : m.inbox = e.id :: rest.map Entry.id := by simp [Memory.inbox, hc, ConsumerTask.inbox]
      have hbuffer : ∀ b : Buffered, b.id = e.id → Holds s.world.redis done
          { m with buffer := m.buffer ++ [b], consumer := .processing rest } := by
        intro b hb
        exact h.buffer hdone hb hinbox
      split at hst <;> obtain rfl := Option.some.inj hst
      · exact Carries.memory (hbuffer _ rfl)
      · exact Carries.memory (hbuffer _ rfl)
      · refine Carries.memory (h.setConsumer hdone fun id => ?_)
        simp [hinbox, ConsumerTask.inbox]
    · exact absurd hst (by simp)
  | leavePending =>
    simp only [consumerStep] at hst
    split at hst
    · obtain rfl := Option.some.inj hst
      exact Carries.memory (h.setConsumer hdone fun id => by simp [ConsumerTask.inbox])
    · exact absurd hst (by simp)
  | deadLetter reply =>
    simp only [consumerStep] at hst
    split at hst
    next id rest hc =>
      obtain rfl := Option.some.inj hst
      have hinbox : m.inbox = id :: rest.map Entry.id := by simp [Memory.inbox, hc, ConsumerTask.inbox]
      have hnew : id ∉ m.durablePendingAck :=
        h.not_durable (List.mem_append_right _ (hinbox ▸ List.mem_cons_self))
      refine Carries.degradeThen ?_ (h.setConsumer hdone fun x => ?_)
      · refine h.queue hdone (queueOne_durable (b := ⟨id, true, none⟩) hnew) (fun x => ?_) h.size rfl rfl
        show m.unsettled.count x + (rest.map Entry.id).count x + [id].count x ≤ _
        rw [hinbox, count_cons_eq_add x id (rest.map Entry.id)]
        omega
      · rw [hinbox]
        exact List.count_le_count_cons
    · exact absurd hst (by simp)
  | _ => exact absurd hst (by simp [consumerStep])

lemma finalize_carries {ids : List StreamId} {stage : Stage} {thenInsert : Bool}
    (hs : s.process = .up m) (hflush : m.flush = .finalizing ids stage thenInsert)
    (hdone : ∀ id ∈ done, id ∉ s.world.redis.pending) (h : Holds s.world.redis done m)
    (hst : finalizeStep s m ids stage thenInsert a = some s') :
    Carries s s' (done ++ finished s a) := by
  have hbuffer : m.flush.inFlight m.buffer = m.buffer := by rw [hflush]; rfl
  have hdurable : ∀ id ∈ ids, id ∈ m.durablePendingAck := by
    have hsnapshot := h.snapshot
    rwa [hflush] at hsnapshot
  have hacked : stage.acknowledged = true → ∀ id ∈ ids, id ∉ s.world.redis.pending := by
    intro hstage
    have hack := h.acknowledged
    simpa only [hflush, FlushTask.acknowledged, hstage, if_true] using hack
  have hfailed := h.finalizeFailed hdone hbuffer thenInsert
  cases a with
  | verify reply =>
    have hnone : finished s (.verify reply) = [] := by
      cases stage <;> simp [finished, hs, hflush]
    rw [hnone, List.append_nil]
    simp only [finalizeStep] at hst
    split at hst
    · split at hst
      · split at hst <;> obtain rfl := Option.some.inj hst
        · exact .memory hfailed
        next quarantine _ =>
          refine .memory (h.setStage hdone hflush fun hstage => ?_)
          cases quarantine <;> exact absurd hstage (by simp [Stage.acknowledged])
      · obtain rfl := Option.some.inj hst
        exact .memory hfailed
    · exact absurd hst (by simp)
  | degradeFinalizing reply =>
    have hnone : finished s (.degradeFinalizing reply) = [] := by
      cases stage <;> simp [finished, hs, hflush]
    rw [hnone, List.append_nil]
    simp only [finalizeStep] at hst
    split at hst
    · obtain rfl := Option.some.inj hst
      refine .degradeThen (h.setStage hdone hflush fun hstage => ?_) hfailed
      exact absurd hstage (by simp [Stage.acknowledged])
    · obtain rfl := Option.some.inj hst
      exact .degradeThen hfailed hfailed
    · obtain rfl := Option.some.inj hst
      exact .degradeThen hfailed hfailed
    · exact absurd hst (by simp)
  | exec reply =>
    have hnone : finished s (.exec reply) = [] := by
      cases stage <;> simp [finished, hs, hflush]
    rw [hnone, List.append_nil]
    simp only [finalizeStep] at hst
    split at hst
    · have hpend : ∀ id, id ∈ (s.world.redis.finalize ids).pending ↔
          id ∈ s.world.redis.pending ∧ id ∉ ids := by
        intro id
        rw [World.finalize_pending, List.mem_filter, decide_eq_true_eq]
      have hadvance : s.world.redis.Advances (s.world.redis.finalize ids) :=
        ⟨(World.finalize_head _ _).ge, fun id hid => .inl ((hpend id).1 hid).1⟩
      have hdone' : ∀ id ∈ done, id ∉ (s.world.redis.finalize ids).pending :=
        fun id hid hp => hdone id hid ((hpend id).1 hp).1
      -- what is acknowledged is durable, and nothing durable waits elsewhere
      have hkept : Holds (s.world.redis.finalize ids) done m := by
        refine h.redis (fun id hid hp => (hpend id).2 ⟨hp, fun hin => ?_⟩)
          fun id _ hp => ((hpend id).1 hp).1
        exact h.not_durable hid (hdurable id hin)
      have hgone : ∀ id ∈ ids, id ∉ (s.world.redis.finalize ids).pending :=
        fun id hid hp => ((hpend id).1 hp).2 hid
      cases reply with
      | done =>
        dsimp only at hst
        split at hst <;> obtain rfl := Option.some.inj hst
        · refine ⟨hadvance, fun m' hm' => Process.up.inj hm' ▸ ?_⟩
          have hmarked : Holds (s.world.redis.finalize ids) done { m with
              uncertain := true
              finalizedSinceFrontier := m.finalizedSinceFrontier ++
                ids.filter fun id => decide (id ∉ m.finalizedSinceFrontier) } := { hkept with }
          exact hmarked.setStage hdone' hflush fun _ => hgone
        · refine ⟨hadvance, fun m' hm' => Process.up.inj hm' ▸ ?_⟩
          exact hkept.setStage hdone' hflush fun _ => hgone
      | lost =>
        obtain rfl := Option.some.inj hst
        refine ⟨hadvance, fun m' hm' => Process.up.inj hm' ▸ ?_⟩
        have hmarked : Holds (s.world.redis.finalize ids) done { m with uncertain := true } :=
          { hkept with }
        exact hmarked.finalizeFailed hdone' hbuffer thenInsert
      | failed =>
        obtain rfl := Option.some.inj hst
        have hmarked : Holds s.world.redis done { m with uncertain := true } := { h with }
        exact .memory (hmarked.finalizeFailed hdone hbuffer thenInsert)
    · exact absurd hst (by simp)
  | inspect usable =>
    simp only [finalizeStep] at hst
    split at hst
    · split at hst
      next g hg =>
        have hpend : s.world.redis.pending = g.pending := by simp [Redis.pending, hg]
        split at hst <;> obtain rfl := Option.some.inj hst
        next hp =>
          have hnone : finished s (.inspect true) = [] := by simp [finished, hs, hflush, hpend, hp]
          rw [hnone, List.append_nil]
          exact .memory (h.setStage hdone hflush fun _ => hacked rfl)
        next hp =>
          have hids : finished s (.inspect true) = ids := by simp [finished, hs, hflush, hpend, hp]
          rw [hids]
          exact .memory (h.finalizeSucceeded hdone hbuffer (hacked rfl) thenInsert)
      next usable _ _ hgroup =>
        obtain rfl := Option.some.inj hst
        have hnone : finished s (.inspect usable) = [] := by
          cases usable with
          | false => simp [finished, hs, hflush]
          | true =>
            cases hg : s.world.redis.group with
            | none => simp [finished, hs, hflush, Redis.pending, hg]
            | some g => exact (hgroup g rfl hg).elim
        rw [hnone, List.append_nil]
        exact .memory (h.setStage hdone hflush fun _ => hacked rfl)
    · exact absurd hst (by simp)
  | commit reply =>
    simp only [finalizeStep] at hst
    split at hst
    next candidate entriesRead =>
      split at hst
      next hr =>
        obtain rfl := Option.some.inj hst
        have hnone : finished s (.commit reply) = [] := by cases reply <;> simp [finished, hs, hflush, hr]
        rw [hnone, List.append_nil]
        exact .memory hfailed
      next r hr =>
        cases reply with
        | done =>
          obtain rfl := Option.some.inj hst
          have hids : finished s (.commit .done) = ids := by simp [finished, hs, hflush, hr]
          rw [hids]
          have hcleared : Holds s.world.redis done { m with finalizedSinceFrontier := [] } := { h with }
          exact .pg _ (hcleared.finalizeSucceeded hdone hbuffer (hacked rfl) thenInsert)
        | lost =>
          obtain rfl := Option.some.inj hst
          have hnone : finished s (.commit .lost) = [] := by simp [finished, hs, hflush]
          rw [hnone, List.append_nil]
          exact .pg _ hfailed
        | failed =>
          obtain rfl := Option.some.inj hst
          have hnone : finished s (.commit .failed) = [] := by simp [finished, hs, hflush]
          rw [hnone, List.append_nil]
          exact .memory hfailed
    · exact absurd hst (by simp)
  | _ => exact absurd hst (by simp [finalizeStep])

lemma Holds.setInsert {r : Redis} (hdone : ∀ id ∈ done, id ∉ r.pending) (h : Holds r done m)
    {ackSucceeded : Bool} {size : ℕ} {work work' : List (List Buffered)}
    {durable durable' retry retry' : List Buffered}
    (hflush : m.flush = .inserting ackSucceeded size work durable retry)
    (hparts : (work'.flatten ++ (durable' ++ retry')).Perm (work.flatten ++ (durable ++ retry))) :
    Holds r done { m with flush := .inserting ackSucceeded size work' durable' retry' } := by
  have hsize := h.size
  rw [hflush] at hsize
  refine h.setFlush hdone (fun id => ?_) hsize (fun id hid => absurd hid List.not_mem_nil)
    fun id hid => absurd hid List.not_mem_nil
  have hall := ((hparts.append_left (m.buffer.drop size)).map Buffered.id).count_eq id
  simp only [Memory.unsettled, hflush, FlushTask.inFlight_inserting]
  exact hall.le

lemma insert_carries {ackSucceeded : Bool} {size : ℕ} {work : List (List Buffered)}
    {durable retry : List Buffered}
    (hflush : m.flush = .inserting ackSucceeded size work durable retry)
    (hdone : ∀ id ∈ done, id ∉ s.world.redis.pending) (h : Holds s.world.redis done m)
    (hst : insertStep s m ackSucceeded size work durable retry a = some s') :
    Carries s s' done := by
  cases a with
  | insertBatch outcome =>
    cases work with
    | nil =>
      obtain rfl := Option.some.inj hst
      exact .memory (h.finishInsert hdone hflush)
    | cons batch rest =>
      have hdurable : Holds s.world.redis done
          { m with flush := .inserting ackSucceeded size rest (durable ++ batch) retry } :=
        h.setInsert hdone hflush (by grind)
      have hretry : Holds s.world.redis done
          { m with flush := .inserting ackSucceeded size rest durable (retry ++ batch) } :=
        h.setInsert hdone hflush (by grind)
      simp only [insertStep] at hst
      split at hst
      · obtain rfl := Option.some.inj hst
        exact .memory hdurable
      · split at hst
        · obtain rfl := Option.some.inj hst
          exact ⟨.refl _, fun m' hm' => Process.up.inj hm' ▸ hdurable⟩
        · obtain rfl := Option.some.inj hst
          exact ⟨.refl _, fun m' hm' => Process.up.inj hm' ▸ hretry⟩
        · obtain rfl := Option.some.inj hst
          exact .memory hretry
        next reply =>
          split at hst <;> obtain rfl := Option.some.inj hst
          next b _ =>
            have hunsettled : ∀ x, m.unsettled.count x = (Memory.unsettled { m with
                flush := .inserting ackSucceeded size rest durable retry }).count x +
                  [b.id].count x := by
              intro x
              simp only [Memory.unsettled, hflush, FlushTask.inFlight_inserting, List.flatten_cons,
                List.map_append, List.count_append, List.map_cons, List.map_nil]
              omega
            have hsize := h.size
            rw [hflush] at hsize
            have hnew : b.id ∉ m.durablePendingAck := by
              refine h.not_durable (List.mem_append_left _ (List.count_pos_iff.1 ?_))
              rw [hunsettled, List.count_singleton_self]
              omega
            refine .degradeThen ?_ ?_
            · refine h.queue hdone (queueOne_durable (b := ⟨b.id, true, none⟩) hnew) (fun x => ?_)
                hsize ?_ ?_
              · rw [hunsettled x]
                show _ + m.inbox.count x + _ ≤ _
                rw [Nat.add_right_comm]
                exact le_rfl
              · rw [hflush]
                rfl
              · rw [hflush]
                rfl
            · refine h.setFlush hdone (fun x => ?_) hsize (fun id hid => absurd hid List.not_mem_nil)
                fun id hid => absurd hid List.not_mem_nil
              have hle := hunsettled x
              exact (Nat.le_add_right _ _).trans hle.ge
          · refine .memory (h.setInsert hdone hflush ?_)
            rw [List.flatten_cons, List.flatten_cons, ← List.append_assoc (batch.take _),
              List.take_append_drop, List.flatten_cons]
  | _ => exact absurd hst (by simp [insertStep])

lemma flush_carries (hs : s.process = .up m) (hdone : ∀ id ∈ done, id ∉ s.world.redis.pending)
    (h : Holds s.world.redis done m) (hst : flushStep s m a = some s') :
    Carries s s' (done ++ finished s a) := by
  simp only [flushStep] at hst
  split at hst
  next hflush =>
    have hnone : finished s a = [] := by simp [finished, hs, hflush]
    rw [hnone, List.append_nil]
    have hbuffer : m.flush.inFlight m.buffer = m.buffer := by rw [hflush]; rfl
    have hstart : ∀ thenInsert, Holds s.world.redis done
        { m with flush := .finalizing m.durablePendingAck .verify thenInsert } := by
      intro thenInsert
      refine h.setFlush hdone (fun id => ?_) (Nat.zero_le _) (fun id hid => hid)
        fun id hid => absurd hid List.not_mem_nil
      simp [Memory.unsettled, hflush]
    split at hst
    · split at hst <;> obtain rfl := Option.some.inj hst
      · exact .memory (h.startInsert hdone hbuffer true)
      · exact .memory (hstart true)
    · split at hst
      · exact absurd hst (by simp)
      · obtain rfl := Option.some.inj hst
        exact .memory (hstart false)
    · exact absurd hst (by simp)
  next hflush => exact finalize_carries hs hflush hdone h hst
  next hflush =>
    have hnone : finished s a = [] := by simp [finished, hs, hflush]
    rw [hnone, List.append_nil]
    exact insert_carries hflush hdone h hst

lemma Carries.frame {m' : Memory} (hm : m.Ok s.world) (h : Holds s.world.redis done m)
    (hg : s.world.Grows w) (hpending : w.redis.pending = s.world.redis.pending)
    (hmemory : ∀ r, Holds r done m → Holds r done m') : Carries s ⟨w, .up m'⟩ done := by
  refine ⟨hg.advances, fun m₂ hm₂ => Process.up.inj hm₂ ▸ ?_⟩
  exact hmemory _ (h.grows hm hg fun id _ hp => hpending ▸ hp)

lemma monitor_carries (hw : s.world.Ok) (hm : m.Ok s.world) (hs : s.process = .up m)
    (h : Holds s.world.redis done m) (hst : monitorStep s m a = some s') : Carries s s' done := by
  have hset : ∀ (task : MonitorTask) r, Holds r done m → Holds r done { m with monitor := task } :=
    fun _ _ h => { h with }
  cases a with
  | monitorInfo =>
    simp only [monitorStep] at hst
    split at hst
    · split_ifs at hst <;> obtain rfl := Option.some.inj hst
      · exact .same hs h
      · exact .memory (hset _ _ h)
      · exact .memory (hset _ _ h)
    · exact absurd hst (by simp)
  | monitorPending =>
    simp only [monitorStep] at hst
    split at hst
    · split at hst <;> obtain rfl := Option.some.inj hst
      · exact .memory (hset _ _ h)
      · exact .memory (hset _ _ h)
    · exact absurd hst (by simp)
  | monitorTrim reply =>
    simp only [monitorStep] at hst
    split at hst
    next minId hmon =>
      have hbound : MonitorOk s.world (.trim minId) := hmon ▸ hm.monitor
      split at hst <;> obtain rfl := Option.some.inj hst
      · exact .memory (hset _ _ h)
      · exact .frame hm h (World.trim_ok hw hbound).1 rfl (hset _)
    · exact absurd hst (by simp)
  | _ => exact absurd hst (by simp [monitorStep])

lemma marker_carries (hw : s.world.Ok) (hm : m.Ok s.world) (hs : s.process = .up m)
    (h : Holds s.world.redis done m) (hst : markerStep s m a = some s') : Carries s s' done := by
  have hset : ∀ (marker : Option (Token × StreamId)) r, Holds r done m →
      Holds r done { m with marker := marker } := fun _ _ h => { h with }
  cases a with
  | publishMarker token id reply =>
    simp only [markerStep] at hst
    split at hst
    · split at hst
      · split at hst
        · split at hst <;> obtain rfl := Option.some.inj hst
          · exact .memory (hset _ _ h)
          · exact .same hs h
        · obtain rfl := Option.some.inj hst
          exact .same hs h
      · split at hst
        next hcan =>
          have happend := World.append_ok (e := ⟨id, .marker token⟩) hw hcan
            ((token, id) :: s.world.redis.dedup)
          cases reply with
          | done =>
            obtain rfl := Option.some.inj hst
            exact .frame hm h happend.1 rfl (hset _)
          | lost =>
            obtain rfl := Option.some.inj hst
            exact .frame hm h happend.1 rfl fun _ h => h
          | failed =>
            obtain rfl := Option.some.inj hst
            exact .same hs h
        · exact absurd hst (by simp)
    · exact absurd hst (by simp)
  | recordMarker reply =>
    simp only [markerStep] at hst
    split at hst
    · split at hst <;> obtain rfl := Option.some.inj hst
      · exact .memory (hset _ _ h)
      · exact .pg _ (hset _ _ h)
    · exact absurd hst (by simp)
  | quarantineMarker token observed =>
    obtain rfl := Option.some.inj hst
    exact .pg _ h
  | _ => exact absurd hst (by simp [markerStep])

lemma start_carries (hok : s.Ok) (hst : startStep s a = some s')
    (h : ∀ m, s.process = .up m → Holds s.world.redis done m) : Carries s s' done := by
  have hw := hok.1
  have hdown : ∀ {w : World} {p : Process}, s.world.Grows w → (∀ m, p ≠ .up m) →
      Carries s ⟨w, p⟩ done :=
    fun hg hp => ⟨hg.advances, fun m hm => absurd hm (hp m)⟩
  cases a with
  | reconcileAtStart reply =>
    simp only [startStep] at hst
    split at hst
    next g hproc hg =>
      have htrim : ∀ bound, g.trimBound = some bound →
          Carries s ⟨s.world.setRedis (s.world.redis.trim bound), .down⟩ done :=
        fun bound hbound => hdown (World.trim_ok hw (World.trimBound_start hw hg hbound)).1 (by simp)
      split at hst <;> obtain rfl := Option.some.inj hst
      next bound hbound => exact htrim bound hbound
      next bound hbound => exact htrim bound hbound
      · exact ⟨.refl _, h⟩
    · exact absurd hst (by simp)
  | ensureGroup reply =>
    simp only [startStep] at hst
    split at hst
    · split at hst
      · obtain rfl := Option.some.inj hst
        exact hdown (World.Grows.refl _) (by simp)
      next hg =>
        have hcreate := World.createGroup_ok hw hg
        cases reply with
        | done =>
          obtain rfl := Option.some.inj hst
          exact hdown hcreate.1 (by simp)
        | lost =>
          obtain rfl := Option.some.inj hst
          exact hdown hcreate.1 (by simp)
        | failed =>
          obtain rfl := Option.some.inj hst
          exact ⟨.refl _, h⟩
    · exact absurd hst (by simp)
  | initAuthority reply =>
    simp only [startStep] at hst
    split at hst
    next o _ =>
      have hinit := World.initializeAuthority_ok hw o s.world.redis.maxDeleted
      cases reply with
      | done =>
        obtain rfl := Option.some.inj hst
        exact ⟨hinit.1.advances, fun m hm => Process.up.inj hm ▸ Holds.fresh _ _⟩
      | lost =>
        obtain rfl := Option.some.inj hst
        exact hdown hinit.1 (by simp)
      | failed =>
        obtain rfl := Option.some.inj hst
        exact hdown (World.Grows.refl _) (by simp)
    · exact absurd hst (by simp)
  | _ => exact absurd hst (by simp [startStep])

lemma finished_eq_nil (hinspect : a ≠ .inspect true) (hcommit : a ≠ .commit .done) :
    finished s a = [] := by
  unfold finished
  split
  · split
    · exact absurd rfl hinspect
    · exact absurd rfl hcommit
    · rfl
  · rfl

lemma acknowledged_of_finished (hid : id ∈ finished s a) :
    ∃ m, s.process = .up m ∧ id ∈ m.flush.acknowledged := by
  unfold finished at hid
  split at hid
  next m hs =>
    refine ⟨m, hs, ?_⟩
    split at hid
    next hflush =>
      rw [hflush]
      split at hid
      · exact absurd hid List.not_mem_nil
      · exact hid
    next hflush =>
      rw [hflush]
      split at hid
      · exact absurd hid List.not_mem_nil
      · exact hid
    · exact absurd hid List.not_mem_nil
  · exact absurd hid List.not_mem_nil

lemma carries_of_up {f : State → Memory → Act → Option State} (hok : s.Ok)
    (hf : ∀ m, m.Ok s.world → s.process = .up m → f s m a = some s' → Carries s s' done)
    (hst : (match s.process with
      | .up m => f s m a
      | _ => none) = some s') : Carries s s' done := by
  have hproc := hok.2
  cases h : s.process with
  | up m =>
    rw [h] at hst hproc
    exact hf m hproc h hst
  | down | starting o =>
    rw [h] at hst
    exact absurd hst (by simp)

lemma Tracked.carries (h : Tracked s done) (hclaim : NoSelfReclaim s a)
    (hst : step s a = some s') : Carries s s' (done ++ finished s a) := by
  have hw := h.ok.1
  have hdone : ∀ id ∈ done, id ∉ s.world.redis.pending := fun id hid => (h.gone id hid).2
  have hgrows : ∀ {w : World}, s.world.Grows w → w.redis.pending = s.world.redis.pending →
      Carries s { s with world := w } done := by
    refine fun hg hpending => ⟨hg.advances, fun m hm => ?_⟩
    have hproc := h.ok.2
    rw [hm] at hproc
    exact (h.memory m hm).grows hproc hg fun id _ hp => hpending ▸ hp
  -- only the holder of the flush lock finalizes
  have hother : finished s a = [] → Carries s s' done → Carries s s' (done ++ finished s a) :=
    fun hnone hcarries => by rwa [hnone, List.append_nil]
  cases a with
  | append e =>
    refine hother (finished_eq_nil (by simp) (by simp)) ?_
    simp only [step] at hst
    split at hst
    next hcan =>
      obtain rfl := Option.some.inj hst
      exact hgrows (World.append_ok hw hcan s.world.redis.dedup).1 rfl
    · exact absurd hst (by simp)
  | requestBoundary token =>
    refine hother (finished_eq_nil (by simp) (by simp)) ?_
    simp only [step] at hst
    split at hst
    · exact absurd hst (by simp)
    · obtain rfl := Option.some.inj hst
      exact hgrows (World.requestBoundary_ok hw ⟨token, .pending⟩).1 rfl
  | crash =>
    obtain rfl := Option.some.inj hst
    exact ⟨.refl _, fun m hm => absurd hm (by simp)⟩
  | reconcileAtStart reply =>
    refine hother (finished_eq_nil (by simp) (by simp)) ?_
    exact start_carries (a := .reconcileAtStart reply) h.ok hst h.memory
  | ensureGroup reply =>
    refine hother (finished_eq_nil (by simp) (by simp)) ?_
    exact start_carries (a := .ensureGroup reply) h.ok hst h.memory
  | initAuthority reply =>
    refine hother (finished_eq_nil (by simp) (by simp)) ?_
    exact start_carries (a := .initAuthority reply) h.ok hst h.memory
  | readGroup | autoClaim | degradeLost | processMessage | leavePending | deadLetter =>
    refine hother (finished_eq_nil (by simp) (by simp)) ?_
    refine carries_of_up (f := consumerStep) h.ok ?_ hst
    exact fun m hm hs => consumer_carries hw hm hs hdone (h.memory m hs) hclaim
  | flush | ackDurable | verify | degradeFinalizing | exec | inspect | commit | insertBatch =>
    refine carries_of_up (f := flushStep) h.ok ?_ hst
    exact fun m hm hs => flush_carries hs hdone (h.memory m hs)
  | monitorInfo | monitorPending | monitorTrim =>
    refine hother (finished_eq_nil (by simp) (by simp)) ?_
    refine carries_of_up (f := monitorStep) h.ok ?_ hst
    exact fun m hm hs => monitor_carries hw hm hs (h.memory m hs)
  | publishMarker | recordMarker | quarantineMarker =>
    refine hother (finished_eq_nil (by simp) (by simp)) ?_
    refine carries_of_up (f := markerStep) h.ok ?_ hst
    exact fun m hm hs => marker_carries hw hm hs (h.memory m hs)

theorem Tracked.next (h : Tracked s done) (hclaim : NoSelfReclaim s a)
    (hst : step s a = some s') : Tracked s' (done ++ finished s a) := by
  obtain ⟨hadvance, hmemory⟩ := h.carries hclaim hst
  refine ⟨h.ok.next hst, fun id hid => ?_, hmemory⟩
  have hgone : id ≤ s.world.redis.head ∧ id ∉ s.world.redis.pending := by
    obtain hid | hid := List.mem_append.1 hid
    · exact h.gone id hid
    · obtain ⟨m, hs, hack⟩ := acknowledged_of_finished hid
      have hproc := h.ok.2
      rw [hs] at hproc
      exact ⟨hproc.snapshot_le (m.flush.acknowledged_subset hack),
        (h.memory m hs).acknowledged id hack⟩
  refine ⟨hgone.1.trans hadvance.head, fun hp => ?_⟩
  obtain hp | hp := hadvance.pending id hp
  · exact hgone.2 hp
  · exact absurd hp (not_lt.2 hgone.1)

end Steps

/-! ## The main result -/

theorem reach_tracked {s : State × List StreamId}
    (h : tracked.ReachUnder (fun s a => NoSelfReclaim s.1 a) s) : Tracked s.1 s.2 := by
  refine h.induct (P := fun s => Tracked s.1 s.2) ?_ fun s a s' _ ih hclaim hst => ?_
  · refine ⟨⟨World.initial_ok, trivial⟩, fun id hid => absurd hid List.not_mem_nil, ?_⟩
    exact fun m hm => absurd hm (by simp [tracked, initial])
  · obtain ⟨t, ht, rfl⟩ := Option.map_eq_some_iff.1 hst
    exact ih.next hclaim ht

/-- **Each delivery is held once**: in every run in which no reclaim returns a delivery that the
writer holds, no delivery occurs twice in the buffer, the batch being flushed and the
durable-pending set, and none of them comes back after its finalization has succeeded. -/
theorem buffered_once {s : State × List StreamId}
    (h : tracked.ReachUnder (fun s a => NoSelfReclaim s.1 a) s) :
    s.1.process.held.Nodup ∧ ∀ id ∈ s.2, id ∉ s.1.process.held := by
  have hinv := reach_tracked h
  cases hs : s.1.process with
  | up m =>
    have hmem := hinv.memory m hs
    refine ⟨List.nodup_iff_count_le_one.2 fun id => ?_, fun id hid hheld => ?_⟩
    · have honce := hmem.once id
      show (m.unsettled ++ m.durablePendingAck).count id ≤ 1
      rw [List.count_append]
      unfold Memory.tally at honce
      omega
    · obtain hheld | hheld := List.mem_append.1 hheld
      · exact (hinv.gone id hid).2 (hmem.pending id (List.mem_append_left _ hheld))
      · exact hmem.done id hid hheld
  | down | starting => exact ⟨List.nodup_nil, fun id _ hheld => absurd hheld List.not_mem_nil⟩

/-- The reply of a read is lost, and its delivery is reclaimed while another one is buffered; both
are inserted and finalized, and a third delivery is buffered. -/
def reclaimedRun : List Act :=
  [.append ⟨toLex (1, 0), .row⟩, .ensureGroup .done, .initAuthority .done, .readGroup 10 .lost,
    .append ⟨toLex (2, 0), .row⟩, .readGroup 10 .done, .processMessage, .processMessage,
    .autoClaim [toLex (1, 0)] .done, .processMessage, .processMessage, .flush,
    .insertBatch .inserted, .insertBatch .inserted, .verify .done, .exec .done, .inspect true,
    .commit .done, .append ⟨toLex (3, 0), .row⟩, .readGroup 10 .done, .processMessage]

/-- After that run the first two deliveries are finalized and the third one is held. -/
theorem buffered_once_reclaimedRun :
    ∃ s, tracked.runUnder (fun s a => NoSelfReclaim s.1 a) tracked.init reclaimedRun = some s ∧
      s.2 = [toLex (2, 0), toLex (1, 0)] ∧ s.1.process.held = [toLex (3, 0)] ∧
      s.1.process.held.Nodup ∧ ∀ id ∈ s.2, id ∉ s.1.process.held := by
  have hrun : (tracked.runUnder (fun s a => NoSelfReclaim s.1 a) tracked.init reclaimedRun).map
      (fun s => (s.2, s.1.process.held)) =
      some ([toLex (2, 0), toLex (1, 0)], [toLex (3, 0)]) := by
    decide +kernel
  obtain ⟨s, hs, hfinal⟩ := Option.map_eq_some_iff.1 hrun
  obtain ⟨hdone, hheld⟩ := Prod.mk.inj hfinal
  refine ⟨s, hs, hdone, hheld, ?_⟩
  exact buffered_once (StepMachine.reachUnder_of_runUnder .init hs)

/-- ClickHouse is unavailable for longer than the claim threshold: the buffered delivery is
reclaimed, and it is finalized between the reclaim and its processing. -/
def selfReclaimRun : List Act :=
  [.append ⟨toLex (1, 0), .row⟩, .ensureGroup .done, .initAuthority .done, .readGroup 10 .done,
    .processMessage, .processMessage, .flush, .insertBatch (.transient false),
    .insertBatch (.transient false), .autoClaim [toLex (1, 0)] .done]

/-- The reclaimed delivery is buffered a second time; or, when the next flush succeeds before it is
processed, it is buffered after its finalization. -/
theorem self_reclaim_buffers_twice :
    (∃ s, tracked.Reach s ∧ s.1.process.held = [toLex (1, 0), toLex (1, 0)]) ∧
      ∃ s, tracked.Reach s ∧ s.2 = [toLex (1, 0)] ∧ s.1.process.held = [toLex (1, 0)] := by
  have htwice : (tracked.run tracked.init (selfReclaimRun ++ [.processMessage])).map
      (fun s => s.1.process.held) = some [toLex (1, 0), toLex (1, 0)] := by
    decide +kernel
  have hagain : (tracked.run tracked.init (selfReclaimRun ++ [.flush, .insertBatch .inserted,
      .insertBatch .inserted, .verify .done, .exec .done, .inspect true, .commit .done,
      .processMessage])).map (fun s => (s.2, s.1.process.held)) =
      some ([toLex (1, 0)], [toLex (1, 0)]) := by
    decide +kernel
  obtain ⟨s, hs, hheld⟩ := Option.map_eq_some_iff.1 htwice
  obtain ⟨t, ht, hfinal⟩ := Option.map_eq_some_iff.1 hagain
  obtain ⟨hdone, hheld'⟩ := Prod.mk.inj hfinal
  exact ⟨⟨s, StepMachine.reach_of_run hs, hheld⟩, t, StepMachine.reach_of_run ht, hdone, hheld'⟩

end Apdl.Pipeline
