import Apdl.Sdk.PyQueue.Ledger

set_option autoImplicit false

/-!
# Delivery by the Python event queue

Where every event of the queue is, in every interleaving of its callers.

## Main results

* `step_ok`, `ok_of_reach` — every step keeps the invariant.

## Design

The drain lock has one holder, so at most one drain holds events. From the moment `stop` has got the
drain lock no other drain starts, since `flush` checks `_stopping` under the lock.
-/

namespace Apdl.Sdk.PyQueue

variable {E : Type}

/-- The events that a drain has taken from the queue. -/
def Drain.items : Drain E → List (Item E)
  | .sending batch rights _ _ => batch ++ rights.flatten
  | .requeuing retryable _ _ => retryable
  | _ => []

/-- The parts of `stop` that have the drain lock. -/
def StopStage.holdsDrain : StopStage E → Bool
  | .draining _ | .recalling | .recalled _ => true
  | _ => false

/-- The events that a stage of `stop` has taken. -/
def StopStage.items : StopStage E → List (Item E)
  | .draining d => d.items
  | _ => []

namespace State

/-- The events that the holder of the drain lock has taken. -/
def held (s : State E) : List (Item E) :=
  match s.drainLock, s.stopLock with
  | some (.flush _ (.draining d)), _ => d.items
  | some .stop, some stage => stage.items
  | _, _ => []

/-- A call of `flush` is draining. -/
def FlushDrains (s : State E) : Prop :=
  ∃ caller d, s.drainLock = some (.flush caller (.draining d))

end State

/-- Nothing is taken in after the fence. -/
def Fence (log : List (Effect E)) : Prop :=
  ∀ before after, log = before ++ .stop :: after → enqueued after = []

lemma Fence.of_notMem {log : List (Effect E)} (h : Effect.stop ∉ log) : Fence log := by
  rintro before after rfl
  simp at h

lemma Fence.append {log tail : List (Effect E)} (h : Fence log) (htail : enqueued tail = [])
    (hstop : Effect.stop ∉ tail) : Fence (log ++ tail) := by
  intro before after heq
  rcases List.append_eq_append_iff.1 heq with ⟨mid, rfl, hmid⟩ | ⟨mid, rfl, hmid⟩
  · -- the fence is not in the tail
    rw [hmid] at hstop
    simp at hstop
  · cases mid with
    | nil =>
      rw [List.nil_append] at hmid
      rw [← hmid] at hstop
      simp at hstop
    | cons e mid =>
      rw [List.cons_append, List.cons.injEq] at hmid
      obtain ⟨rfl, rfl⟩ := hmid
      rw [enqueued_append, htail, List.append_nil]
      exact h before mid rfl

lemma Fence.stop {log : List (Effect E)} (h : Fence log) : Fence (log ++ [.stop]) := by
  intro before after heq
  rcases List.eq_nil_or_concat after with rfl | ⟨after', e, rfl⟩
  · rfl
  · rw [List.concat_eq_append, ← List.cons_append, ← List.append_assoc] at heq
    obtain ⟨hlog, hlast⟩ := List.append_inj' heq rfl
    rw [List.concat_eq_append, enqueued_append, h before after' hlog, ← hlast]
    rfl

/-! ## Drains -/

lemma takeBatchFrom_append (cfg : Settings E) (n : ℕ) (batch queue : List (Item E)) :
    (takeBatchFrom cfg n batch queue).1 ++ (takeBatchFrom cfg n batch queue).2 = batch ++ queue := by
  induction n generalizing batch queue with
  | zero => rfl
  | succ n ih =>
    cases queue with
    | nil => rfl
    | cons x queue =>
      unfold takeBatchFrom
      split_ifs
      · rfl
      · rw [ih, List.append_assoc]
        rfl

/-- What a step of a drain does: only the queue and the log change, the ledger stays balanced, and
nothing is taken in. -/
structure DrainStep (s : State E) (d : Drain E) (s' : State E)
    (out : Drain E ⊕ DeliveryReport E) : Prop where
  frame : ∃ queue log, s' = { s with queue := queue, log := log }
  ledger : Balanced s.log d.items s.queue s.next →
    Balanced s'.log (out.elim Drain.items fun _ => []) s'.queue s.next
  tail : ∃ tail, s'.log = s.log ++ tail ∧ enqueued tail = [] ∧ Effect.stop ∉ tail
  report : ∀ report, out = .inr report → report.undeliveredEvents = s'.queue ∧ d.items = []

lemma resume_spec (s : State E) (rights : List (List (Item E))) (a r : ℕ) :
    (∃ log, (s.resume rights a r).1 = { s with log := log }) ∧
    (Balanced s.log rights.flatten s.queue s.next →
      Balanced (s.resume rights a r).1.log (s.resume rights a r).2.items s.queue s.next) ∧
    ∃ tail, (s.resume rights a r).1.log = s.log ++ tail ∧ enqueued tail = [] ∧
      Effect.stop ∉ tail := by
  cases rights with
  | nil => exact ⟨⟨s.log, rfl⟩, fun h => h, [], by simp [State.resume], rfl, by simp⟩
  | cons right rights =>
    simp only [State.resume]
    split_ifs
    · exact ⟨⟨s.log, rfl⟩, fun h => h, [], by simp, rfl, by simp⟩
    · refine ⟨⟨_, rfl⟩, fun h => ?_, [.attempt right], rfl, rfl, by simp⟩
      exact h.attempt fun x hx => List.mem_append_left _ hx

lemma deliver_spec (s : State E) (batch : List (Item E)) (rights : List (List (Item E))) (a r : ℕ)
    (o : TransportOutcome) :
    DrainStep s (.sending batch rights a r) (s.deliver batch rights a r o).1
      (.inl (s.deliver batch rights a r o).2) := by
  -- a settled batch, and what follows it
  have hsettled : ∀ (e : Effect E) (a' r' : ℕ), enqueued [e] = [] → e ≠ .stop →
      (Balanced s.log (batch ++ rights.flatten) s.queue s.next →
        Balanced (s.log ++ [e]) rights.flatten s.queue s.next) →
      DrainStep s (.sending batch rights a r) ((s.emit e).resume rights a' r').1
        (.inl ((s.emit e).resume rights a' r').2) := by
    intro e a' r' hnew hstop hledger
    obtain ⟨⟨log, hframe⟩, hbal, tail, htail, hnone, hnostop⟩ :=
      resume_spec (s.emit e) rights a' r'
    refine ⟨⟨s.queue, log, by rw [hframe]; rfl⟩, fun h => ?_, ⟨e :: tail, ?_, ?_, ?_⟩,
      fun report heq => by cases heq⟩
    · have hqueue : ((s.emit e).resume rights a' r').1.queue = s.queue := by
        rw [hframe]
        rfl
      rw [hqueue]
      exact hbal (hledger h)
    · rw [htail]
      simp [State.emit]
    · rw [← List.singleton_append, enqueued_append, hnew, hnone]
      rfl
    · simp [hnostop, hstop.symm]
  -- everything goes back
  have hretry : DrainStep s (.sending batch rights a r) s
      (.inl (.requeuing (batch ++ rights.flatten) a r)) :=
    ⟨⟨s.queue, s.log, rfl⟩, fun h => h, ⟨[], by simp, rfl, by simp⟩, fun report heq => by cases heq⟩
  cases o with
  | accepted => exact hsettled _ _ _ rfl (fun h => by cases h) fun h => h.accept
  | retryable => exact hretry
  | permanentRejection => exact hsettled _ _ _ rfl (fun h => by cases h) fun h => h.reject
  | payloadRejected =>
    simp only [State.deliver]
    split_ifs
    · exact hsettled _ _ _ rfl (fun h => by cases h) fun h => h.reject
    · exact hretry
    · -- the batch is split, and its left half is sent
      refine ⟨⟨s.queue, _, rfl⟩, fun h => ?_, ⟨[.attempt (batch.take (batch.length / 2))], rfl, rfl,
        by simp⟩, fun report heq => by cases heq⟩
      have hitems : (Drain.sending (batch.take (batch.length / 2))
          (batch.drop (batch.length / 2) :: rights) a r).items = batch ++ rights.flatten := by
        simp [Drain.items, ← List.append_assoc]
      have hbal : Balanced (s.log ++ [.attempt (batch.take (batch.length / 2))])
          (batch ++ rights.flatten) s.queue s.next :=
        h.attempt fun x hx => List.mem_append_left _ (List.mem_of_mem_take hx)
      rw [← hitems] at hbal
      exact hbal

/-- **What a step of a drain does.** -/
lemma drain_spec (cfg : Settings E) (s : State E) (result : PostResult) (d : Drain E) :
    DrainStep s d (s.drain cfg result d).1 (s.drain cfg result d).2 := by
  cases d with
  | taking a r =>
    have hsplit := takeBatchFrom_append cfg cfg.batchSize [] s.queue
    rw [List.nil_append] at hsplit
    simp only [State.drain, takeBatch]
    generalize takeBatchFrom cfg cfg.batchSize [] s.queue = taken at hsplit ⊢
    obtain ⟨batch, rest⟩ := taken
    cases batch with
    | nil =>
      exact ⟨⟨s.queue, s.log, rfl⟩, fun h => h, ⟨[], by simp, rfl, by simp⟩,
        fun report heq => by cases heq⟩
    | cons x batch =>
      refine ⟨⟨rest, _, rfl⟩, fun h => ?_, ⟨[.attempt (x :: batch)], rfl, rfl, by simp⟩,
        fun report heq => by cases heq⟩
      have hbal : Balanced s.log [] (x :: batch ++ rest) s.next := by
        rw [hsplit]
        exact h
      simpa [Drain.items, State.send, State.emit] using hbal.take
  | sending batch rights a r => exact deliver_spec s batch rights a r (attemptSend result)
  | requeuing retryable a r =>
    exact ⟨⟨_, s.log, rfl⟩, fun h => h.requeue, ⟨[], by simp [State.drain], rfl, by simp⟩,
      fun report heq => by cases heq⟩
  | reporting a r =>
    refine ⟨⟨s.queue, s.log, rfl⟩, fun h => h, ⟨[], by simp [State.drain], rfl, by simp⟩, ?_⟩
    intro report heq
    cases heq
    exact ⟨rfl, rfl⟩

lemma held_of_drainLock {s t : State E} (hlock : t.drainLock = s.drainLock)
    (hns : s.drainLock ≠ some .stop) : t.held = s.held := by
  unfold State.held
  rw [hlock]
  cases hl : s.drainLock with
  | none => rfl
  | some holder =>
    cases holder with
    | flush caller stage => cases stage <;> rfl
    | stop => exact absurd hl hns

/-! ## The invariant -/

/-- What holds between the steps of all threads. -/
structure State.Ok (s : State E) : Prop where
  ledger : Balanced s.log s.held s.queue s.next
  fence : Fence s.log
  fenced : Effect.stop ∈ s.log → s.accepting = false
  /-- The drain lock is with `stop` in those of its parts that have it. -/
  locked : s.drainLock = some .stop ↔
    ∃ stage, s.stopLock = some stage ∧ stage.holdsDrain = true
  /-- A call of `stop` has fenced the intake, and then it has set `_stopping`. -/
  stopping : ∀ stage, s.stopLock = some stage →
    s.accepting = false ∧ (s.stopping = true ∨ stage = .fenced)
  /-- The report is what the queue has, and no drain can change that. -/
  reported : ∀ report, s.stopLock = some (.closing report) ∨ s.shutdownReport = some report →
    report.undeliveredEvents = s.queue ∧ s.accepting = false ∧ s.stopping = true ∧ ¬ s.FlushDrains
  shutdown : s.shutdownReport.isSome → s.stopLock = none ∧ s.closed = true

lemma initial_ok : (State.initial : State E).Ok where
  ledger := .empty
  fence := Fence.of_notMem (by simp [State.initial])
  fenced := by simp [State.initial]
  locked := by simp [State.initial]
  stopping := by simp [State.initial]
  reported := by simp [State.initial]
  shutdown := by simp [State.initial]

namespace State.Ok

variable {s s' : State E}

lemma transfer (h : s.Ok) (hlog : s'.log = s.log) (hqueue : s'.queue = s.queue)
    (hnext : s'.next = s.next) (haccepting : s'.accepting = s.accepting)
    (hstopping : s'.stopping = s.stopping) (hstop : s'.stopLock = s.stopLock)
    (hreport : s'.shutdownReport = s.shutdownReport) (hclosed : s'.closed = s.closed)
    (hheld : s'.held = s.held) (hlock : s'.drainLock = some .stop ↔ s.drainLock = some .stop)
    (hdrains : s'.FlushDrains → s.FlushDrains ∨ s.stopping = false) : s'.Ok where
  ledger := by
    rw [hlog, hheld, hqueue, hnext]
    exact h.ledger
  fence := by
    rw [hlog]
    exact h.fence
  fenced := by
    rw [hlog, haccepting]
    exact h.fenced
  locked := by
    rw [hlock, hstop]
    exact h.locked
  stopping := by
    rw [hstop, haccepting, hstopping]
    exact h.stopping
  reported := by
    rw [hstop, hreport, hqueue, haccepting, hstopping]
    intro report hr
    obtain ⟨hundelivered, hacc, hstp, hno⟩ := h.reported report hr
    refine ⟨hundelivered, hacc, hstp, fun hd => ?_⟩
    rcases hdrains hd with hflush | hrunning
    · exact hno hflush
    · rw [hstp] at hrunning
      cases hrunning
  shutdown := by
    rw [hreport, hstop, hclosed]
    exact h.shutdown

lemma no_report (h : s.Ok) {stage : StopStage E} (hstage : s.stopLock = some stage) :
    s.shutdownReport = none := by
  cases hr : s.shutdownReport with
  | none => rfl
  | some report =>
    have hnone := (h.shutdown (by rw [hr]; rfl)).1
    rw [hstage] at hnone
    cases hnone

lemma not_locked (h : s.Ok) (hstop : s.stopLock = none) : s.drainLock ≠ some .stop := by
  intro hlock
  obtain ⟨stage, hstage, -⟩ := h.locked.1 hlock
  rw [hstop] at hstage
  cases hstage

lemma not_held (h : s.Ok) {stage : StopStage E} (hstage : s.stopLock = some stage)
    (hholds : stage.holdsDrain = false) : s.drainLock ≠ some .stop := by
  intro hlock
  obtain ⟨stage', hstage', hholds'⟩ := h.locked.1 hlock
  rw [hstage, Option.some.injEq] at hstage'
  rw [← hstage', hholds] at hholds'
  cases hholds'

lemma flushDrain (h : s.Ok) {caller : Caller} {d : Drain E} {t : State E}
    {out : Drain E ⊕ DeliveryReport E}
    (hlock : s.drainLock = some (.flush caller (.draining d))) (hstep : DrainStep s d t out)
    (stage : FlushStage E)
    (hstage : stage = out.elim FlushStage.draining FlushStage.finishing) :
    { t with drainLock := some (.flush caller stage) : State E }.Ok := by
  obtain ⟨⟨queue, log, rfl⟩, hledger, ⟨tail, htail, hnew, hnostop⟩, -⟩ := hstep
  subst hstage
  have hdrains : s.FlushDrains := ⟨caller, d, hlock⟩
  have hheld : s.held = d.items := by simp [State.held, hlock]
  -- this drain runs, so there is no report
  have hnone : ∀ report, ¬ (s.stopLock = some (.closing report) ∨
      s.shutdownReport = some report) := fun report hr => (h.reported report hr).2.2.2 hdrains
  refine ⟨?_, ?_, ?_, ?_, h.stopping, fun report hr => absurd hr (hnone report), h.shutdown⟩
  · have hbal := hledger (hheld ▸ h.ledger)
    cases out with
    | inl d' => exact hbal
    | inr report => exact hbal
  · have hfence := h.fence.append hnew hnostop
    rw [← htail] at hfence
    exact hfence
  · intro hmem
    change Effect.stop ∈ log at hmem
    have hlog : log = s.log ++ tail := htail
    rw [hlog, List.mem_append] at hmem
    exact h.fenced (hmem.resolve_right hnostop)
  · refine ⟨fun heq => ?_, fun hstop => ?_⟩
    · cases heq
    · have hlock' := h.locked.2 hstop
      rw [hlock] at hlock'
      cases hlock'

lemma stopDrain (h : s.Ok) {d : Drain E} {t : State E} {out : Drain E ⊕ DeliveryReport E}
    (hstage : s.stopLock = some (.draining d)) (hstep : DrainStep s d t out) :
    (out.elim (fun d' => { t with stopLock := some (.draining d') })
      fun report => { t with drainLock := none, stopLock := some (.closing report) } :
      State E).Ok := by
  obtain ⟨⟨queue, log, rfl⟩, hledger, ⟨tail, htail, hnew, hnostop⟩, hrep⟩ := hstep
  have hlock : s.drainLock = some .stop := h.locked.2 ⟨_, hstage, rfl⟩
  have hheld : s.held = d.items := by simp [State.held, hlock, hstage, StopStage.items]
  have hbal := hledger (hheld ▸ h.ledger)
  have hlog : log = s.log ++ tail := htail
  have hfence : Fence log := by
    rw [hlog]
    exact h.fence.append hnew hnostop
  have hfenced : Effect.stop ∈ log → s.accepting = false := by
    rw [hlog, List.mem_append]
    exact fun hmem => h.fenced (hmem.resolve_right hnostop)
  obtain ⟨hacc, hstp⟩ := h.stopping _ hstage
  have hstopping : s.stopping = true := hstp.resolve_right (fun heq => by cases heq)
  have hnone := h.no_report hstage
  have hshutdown : s.shutdownReport.isSome → False := by simp [hnone]
  cases out with
  | inl d' =>
    refine ⟨?_, hfence, hfenced, ?_, ?_, ?_, fun hs => (hshutdown hs).elim⟩
    · have hheld' : State.held ({ s with
          queue := queue, log := log, stopLock := some (.draining d') } : State E) = d'.items := by
        simp [State.held, hlock, StopStage.items]
      exact hheld' ▸ hbal
    · exact ⟨fun _ => ⟨_, rfl, rfl⟩, fun _ => hlock⟩
    · rintro stage hs
      cases hs
      exact ⟨hacc, .inl hstopping⟩
    · rintro report (hr | hr)
      · cases hr
      · change s.shutdownReport = some report at hr
        rw [hnone] at hr
        cases hr
  | inr report =>
    obtain ⟨hundelivered, -⟩ := hrep report rfl
    refine ⟨hbal, hfence, hfenced, ?_, ?_, ?_, fun hs => (hshutdown hs).elim⟩
    · refine ⟨fun heq => ?_, fun ⟨stage, hs, hholds⟩ => ?_⟩
      · cases heq
      · cases hs
        cases hholds
    · rintro stage hs
      cases hs
      exact ⟨hacc, .inl hstopping⟩
    · rintro report' (hr | hr)
      · cases hr
        refine ⟨hundelivered, hacc, hstopping, ?_⟩
        rintro ⟨caller, d', hd'⟩
        cases hd'
      · change s.shutdownReport = some report' at hr
        rw [hnone] at hr
        cases hr

end State.Ok

/-! ## The steps -/

section Steps

variable {cfg : Settings E} {s s' : State E}

lemma append_ok (h : s.Ok) {i : ℕ} (hs : s.step cfg (.append i) = some s') : s'.Ok := by
  obtain ⟨canonical, -, rfl⟩ := Option.map_eq_some_iff.1 hs
  have hquiet : { s with enqueuing := s.enqueuing.eraseIdx i : State E }.Ok :=
    h.transfer rfl rfl rfl rfl rfl rfl rfl rfl rfl Iff.rfl Or.inl
  dsimp only
  split_ifs with hopen
  · -- the intake is open, so there is no fence and no report
    have hnofence : Effect.stop ∉ s.log := fun hmem => by
      have hshut := h.fenced hmem
      rw [hopen.1] at hshut
      cases hshut
    refine ⟨h.ledger.append canonical, Fence.of_notMem ?_, ?_, h.locked, ?_, ?_, h.shutdown⟩
    · simpa [State.emit] using hnofence
    · intro hmem
      simp [State.emit, hnofence] at hmem
    · intro stage hstage
      exact h.stopping stage hstage
    · intro report hr
      have hshut := (h.reported report hr).2.1
      rw [hopen.1] at hshut
      cases hshut
  · exact hquiet

lemma flushStep_ok (h : s.Ok) {caller : Caller} {stage : FlushStage E} (result : PostResult)
    (hlock : s.drainLock = some (.flush caller stage)) :
    (s.flushStep cfg caller result stage).Ok := by
  have hns : ¬ s.drainLock = some .stop := by
    rw [hlock]
    exact fun heq => by cases heq
  cases stage with
  | entered =>
    have hheld : s.held = [] := by simp [State.held, hlock]
    simp only [State.flushStep]
    split_ifs with hcan
    · refine h.transfer rfl rfl rfl rfl rfl rfl rfl rfl ?_ ?_ fun _ => .inr hcan.1
      · rw [hheld]
        rfl
      · exact iff_of_false (fun heq => by cases heq) hns
    · refine h.transfer rfl rfl rfl rfl rfl rfl rfl rfl ?_ ?_ ?_
      · rw [hheld]
        rfl
      · exact iff_of_false (fun heq => by cases heq) hns
      · rintro ⟨caller', d, hd⟩
        cases hd
  | refused =>
    have hheld : s.held = [] := by simp [State.held, hlock]
    refine h.transfer rfl rfl rfl rfl rfl rfl rfl rfl ?_ ?_ ?_
    · rw [hheld]
      rfl
    · exact iff_of_false (fun heq => by cases heq) hns
    · rintro ⟨caller', d, hd⟩
      cases hd
  | draining d =>
    have hstep := drain_spec cfg s result d
    simp only [State.flushStep]
    generalize s.drain cfg result d = out at hstep ⊢
    obtain ⟨t, d' | report⟩ := out
    · exact h.flushDrain hlock hstep _ rfl
    · exact h.flushDrain hlock hstep _ rfl
  | finishing report =>
    have hheld : s.held = [] := by simp [State.held, hlock]
    refine h.transfer rfl rfl rfl rfl rfl rfl rfl rfl ?_ ?_ ?_
    · rw [hheld]
      rfl
    · exact iff_of_false (fun heq => by cases heq) hns
    · rintro ⟨caller', d, hd⟩
      cases hd

lemma stop_ok (h : s.Ok) (hs : s.step cfg .stop = some s') : s'.Ok := by
  simp only [State.step] at hs
  split_ifs at hs with hbusy hclosed
  · obtain ⟨report, -, rfl⟩ := Option.map_eq_some_iff.1 hs
    exact h.transfer rfl rfl rfl rfl rfl rfl rfl rfl rfl Iff.rfl Or.inl
  · cases hs
    have hfree : s.stopLock = none := by simpa using hbusy
    have hns := h.not_locked hfree
    have hnone : s.shutdownReport = none := by
      cases hr : s.shutdownReport with
      | none => rfl
      | some report => exact absurd (h.shutdown (by rw [hr]; rfl)).2 hclosed
    refine ⟨?_, h.fence.stop, fun _ => rfl, ?_, ?_, ?_, ?_⟩
    · have hheld : State.held ((({ s with
          accepting := false, stopLock := some .fenced } : State E)).emit .stop) = s.held :=
        held_of_drainLock rfl hns
      rw [hheld]
      exact h.ledger.stop
    · refine ⟨fun heq => absurd heq hns, fun ⟨stage, hstage, hholds⟩ => ?_⟩
      cases hstage
      cases hholds
    · rintro stage hstage
      cases hstage
      exact ⟨rfl, .inr rfl⟩
    · rintro report (hr | hr)
      · cases hr
      · change s.shutdownReport = some report at hr
        rw [hnone] at hr
        cases hr
    · intro hsome
      change s.shutdownReport.isSome = true at hsome
      rw [hnone] at hsome
      cases hsome

lemma stage_ok (h : s.Ok) {stage : StopStage E} (stage' : StopStage E)
    (hstage : s.stopLock = some stage)
    (hholds : stage'.holdsDrain = stage.holdsDrain) (hitems : stage'.items = stage.items)
    (hclosing : ∀ report, stage' ≠ .closing report) {b : Bool}
    (hb : b = true) : { s with stopping := b, stopLock := some stage' : State E }.Ok := by
  have hnone := h.no_report hstage
  refine ⟨?_, h.fence, h.fenced, ?_, ?_, ?_, ?_⟩
  · have hheld : State.held ({ s with stopping := b, stopLock := some stage' } : State E) =
        s.held := by
      simp only [State.held, hstage]
      split
      · rename_i heq
        simp_all
      · rename_i heq
        simp_all
      · rename_i hne₁ hne₂
        split
        · rename_i heq
          simp_all
        · rename_i heq
          simp_all
        · rfl
    rw [hheld]
    exact h.ledger
  · rw [h.locked]
    constructor
    · rintro ⟨st, hst, hd⟩
      rw [hstage, Option.some.injEq] at hst
      subst hst
      exact ⟨stage', rfl, hholds.trans hd⟩
    · rintro ⟨st, hst, hd⟩
      cases hst
      exact ⟨stage, hstage, hholds.symm.trans hd⟩
  · rintro st hst
    exact ⟨(h.stopping stage hstage).1, .inl hb⟩
  · rintro report (hr | hr)
    · exact absurd (Option.some.inj hr) (hclosing report)
    · change s.shutdownReport = some report at hr
      rw [hnone] at hr
      cases hr
  · intro hsome
    change s.shutdownReport.isSome = true at hsome
    rw [hnone] at hsome
    cases hsome

lemma stopStep_ok (h : s.Ok) {stage : StopStage E} (result : PostResult)
    (hstage : s.stopLock = some stage) (hs : s.stopStep cfg result stage = some s') : s'.Ok := by
  have hnone := h.no_report hstage
  have hnoreport : ∀ report, ¬ s.shutdownReport = some report := by simp [hnone]
  obtain ⟨hacc, hstp⟩ := h.stopping stage hstage
  cases stage with
  | fenced =>
    cases hs
    exact stage_ok h .signalled hstage rfl rfl (fun report heq => by cases heq) rfl
  | signalled =>
    cases hs
    have hstopping : s.stopping = true := hstp.resolve_right fun heq => by cases heq
    exact stage_ok h (.joining s.drainActive) hstage rfl rfl (fun report heq => by cases heq) hstopping
  | joining hadActiveDrain =>
    have hstopping : s.stopping = true := hstp.resolve_right fun heq => by cases heq
    simp only [State.stopStep] at hs
    split_ifs at hs with hjoined hactive
    all_goals
      cases hs
      have hfree : s.drainLock = none := by simpa using hjoined.2
      have hheld : s.held = [] := by simp [State.held, hfree]
      refine ⟨?_, h.fence, h.fenced, ⟨fun _ => ⟨_, rfl, rfl⟩, fun _ => rfl⟩, ?_, ?_, ?_⟩
      · have hbal := h.ledger
        rw [hheld] at hbal
        exact hbal
      · rintro st hst
        exact ⟨hacc, .inl hstopping⟩
      · rintro report (hr | hr)
        · cases hr
        · exact absurd hr (hnoreport report)
      · intro hsome
        change s.shutdownReport.isSome = true at hsome
        rw [hnone] at hsome
        cases hsome
  | recalling =>
    cases hs
    have hstopping : s.stopping = true := hstp.resolve_right fun heq => by cases heq
    exact stage_ok h (.recalled s.lastDrainReport) hstage rfl rfl (fun report heq => by cases heq) hstopping
  | recalled attempt =>
    cases hs
    have hstopping : s.stopping = true := hstp.resolve_right fun heq => by cases heq
    have hlock : s.drainLock = some .stop := h.locked.2 ⟨_, hstage, rfl⟩
    have hheld : s.held = [] := by simp [State.held, hlock, hstage, StopStage.items]
    refine ⟨?_, h.fence, h.fenced, ?_, ?_, ?_, ?_⟩
    · have hbal := h.ledger
      rw [hheld] at hbal
      exact hbal
    · refine iff_of_false (fun heq => by cases heq) ?_
      rintro ⟨st, hst, hholds⟩
      cases hst
      cases hholds
    · rintro st hst
      exact ⟨hacc, .inl hstopping⟩
    · rintro report (hr | hr)
      · cases hr
        refine ⟨rfl, hacc, hstopping, ?_⟩
        rintro ⟨caller, d, hd⟩
        cases hd
      · exact absurd hr (hnoreport report)
    · intro hsome
      change s.shutdownReport.isSome = true at hsome
      rw [hnone] at hsome
      cases hsome
  | draining d =>
    have hstep := drain_spec cfg s result d
    simp only [State.stopStep] at hs
    generalize s.drain cfg result d = out at hstep hs
    obtain ⟨t, d' | report⟩ := out
    · cases hs
      exact h.stopDrain hstage hstep
    · cases hs
      exact h.stopDrain hstage hstep
  | closing report =>
    cases hs
    obtain ⟨hundelivered, hacc', hstopping, hno⟩ := h.reported report (.inl hstage)
    have hns : ¬ s.drainLock = some .stop := h.not_held hstage rfl
    have hheld : State.held (({ s with
        closed := true, thread := .none, shutdownReport := some report, stopLock := none } :
          State E).reply report) = s.held := held_of_drainLock rfl hns
    refine ⟨?_, h.fence, h.fenced, ?_, ?_, ?_, fun _ => ⟨rfl, rfl⟩⟩
    · rw [hheld]
      exact h.ledger
    · refine iff_of_false hns ?_
      rintro ⟨st, hst, -⟩
      cases hst
    · rintro st hst
      cases hst
    · rintro report' (hr | hr)
      · cases hr
      · cases hr
        exact ⟨hundelivered, hacc', hstopping, hno⟩

theorem step_ok (h : s.Ok) {a : Act E} (hs : s.step cfg a = some s') : s'.Ok := by
  cases a with
  | enqueue event =>
    simp only [State.step] at hs
    split_ifs at hs
    obtain ⟨canonical, -, rfl⟩ := Option.map_eq_some_iff.1 hs
    exact h.transfer rfl rfl rfl rfl rfl rfl rfl rfl rfl Iff.rfl Or.inl
  | append i => exact append_ok h hs
  | start =>
    simp only [State.step] at hs
    split_ifs at hs
    all_goals
      cases hs
      exact h.transfer rfl rfl rfl rfl rfl rfl rfl rfl rfl Iff.rfl Or.inl
  | wake =>
    simp only [State.step] at hs
    split_ifs at hs
    cases hs
    exact h.transfer rfl rfl rfl rfl rfl rfl rfl rfl rfl Iff.rfl Or.inl
  | run =>
    simp only [State.step] at hs
    split_ifs at hs
    all_goals
      cases hs
      exact h.transfer rfl rfl rfl rfl rfl rfl rfl rfl rfl Iff.rfl Or.inl
  | flush caller =>
    simp only [State.step] at hs
    split_ifs at hs with hfree
    cases hs
    have hnone : s.drainLock = none := by simpa using hfree.1
    refine h.transfer rfl rfl rfl rfl rfl rfl rfl rfl ?_ ?_ ?_
    · simp [State.held, hnone]
    · exact iff_of_false (fun heq => by cases heq) (by rw [hnone]; exact fun heq => by cases heq)
    · rintro ⟨caller', d, hd⟩
      cases hd
  | flushStep result =>
    simp only [State.step] at hs
    split at hs
    · rename_i caller stage hlock
      cases hs
      exact flushStep_ok h result hlock
    · cases hs
  | stop => exact stop_ok h hs
  | stopStep result =>
    simp only [State.step] at hs
    split at hs
    · rename_i stage hstage
      exact stopStep_ok h result hstage hs
    · cases hs

theorem ok_of_reach (h : (machine cfg).Reach s) : s.Ok :=
  StepMachine.Reach.induct (P := State.Ok) initial_ok
    (fun _ _ _ _ hok hst => step_ok hok hst) h

end Steps

end Apdl.Sdk.PyQueue
