import Apdl.Sdk.PyQueue.Delivery
import Mathlib.Algebra.GroupWithZero.Nat

set_option autoImplicit false

/-!
# Shutdown of the Python event queue

Once `stop` has begun, the threads of the queue can only take finitely many steps before it returns
with its report, whatever the transport answers.

## Main results

* `queue_delivery` — where every event ends up.
-/

namespace Apdl.Sdk.PyQueue

variable {E : Type}

/-- The steps of the background thread and of calls that are under way. -/
def Act.Internal : Act E → Prop
  | .wake | .run | .flush .background | .flushStep _ | .stopStep _ => True
  | _ => False

/-- The steps that a drain has left once the queue is stopping; `n` events are queued. -/
def Drain.work (n : ℕ) : Drain E → ℕ
  | .taking _ _ => 3 * n + 3
  | .sending .. => 3 * n + 4
  | .requeuing .. => 2
  | .reporting .. => 1

/-- The steps of the holder of the drain lock. -/
def Holder.work (n : ℕ) : Holder E → ℕ
  | .flush _ .entered => 2
  | .flush _ .refused => 1
  | .flush _ (.draining d) => d.work n + 1
  | .flush _ (.finishing _) => 1
  | .stop => 0

/-- The steps of `stop`; `n` events are queued and `held` events are with the drain under way. -/
def StopStage.work (n held : ℕ) : StopStage E → ℕ
  | .fenced => 3 * (n + held) + 7
  | .signalled => 3 * (n + held) + 6
  | .joining _ => 3 * (n + held) + 5
  | .draining d => d.work n + 1
  | .recalling => 3
  | .recalled _ => 2
  | .closing _ => 1

namespace State

/-- The background thread has the drain lock. -/
def workerDrains (s : State E) : Bool :=
  match s.drainLock with
  | some (.flush .background _) => true
  | _ => false

/-- The steps of the background thread outside of the drain lock. -/
def threadWork (s : State E) : ℕ :=
  match s.thread with
  | .waiting => 2
  | .woken => 1
  | .flushing => if s.workerDrains then 3 else 6
  | _ => 0

/-- A bound on the number of internal steps of a queue that is stopping. -/
def work (s : State E) : ℕ :=
  s.threadWork + (s.drainLock.elim 0 (Holder.work s.queue.length)) +
    s.stopLock.elim 0 (StopStage.work s.queue.length s.held.length)

end State

lemma takeBatch_length {cfg : Settings E} {queue batch rest : List (Item E)}
    (h : takeBatch cfg queue = (batch, rest)) : batch.length + rest.length = queue.length := by
  have hsplit := takeBatchFrom_append cfg cfg.batchSize [] queue
  rw [show takeBatchFrom cfg cfg.batchSize [] queue = (batch, rest) from h] at hsplit
  simpa using congrArg List.length hsplit

lemma drain_work {cfg : Settings E} {s t : State E} {d : Drain E} {result : PostResult}
    {out : Drain E ⊕ DeliveryReport E} (hstopping : s.stopping = true)
    (h : s.drain cfg result d = (t, out)) :
    out.elim (Drain.work t.queue.length) (fun _ => 0) < d.work s.queue.length ∧
      t.queue.length + (out.elim Drain.items fun _ => []).length ≤
        s.queue.length + d.items.length := by
  cases d with
  | taking a r =>
    simp only [State.drain] at h
    split at h
    · cases h
      simp [Drain.work, Drain.items]
    · rename_i x batch rest htaken
      cases h
      have hlen := takeBatch_length htaken
      simp only [List.length_cons] at hlen
      simp only [State.send, State.emit, Drain.work, Drain.items, Sum.elim_inl, List.length_append,
        List.length_cons, List.flatten_nil, List.length_nil]
      omega
  | sending batch rights a r =>
    -- nothing else is sent by a queue that is stopping
    have hresume : ∀ (e : Effect E) (a' r' : ℕ), (t, out) =
        (((s.emit e).resume rights a' r').1, .inl ((s.emit e).resume rights a' r').2) →
        out.elim (Drain.work t.queue.length) (fun _ => 0) < 3 * s.queue.length + 4 ∧
          t.queue.length + (out.elim Drain.items fun _ => []).length ≤
            s.queue.length + (batch ++ rights.flatten).length := by
      intro e a' r' heq
      cases rights with
      | nil =>
        cases heq
        simp [State.resume, State.emit, Drain.work, Drain.items]
      | cons right rights =>
        simp only [State.resume, State.emit, hstopping, if_true] at heq
        cases heq
        simp only [Sum.elim_inl, Drain.work, Drain.items, List.flatten_cons, List.length_append]
        omega
    have hretry : (t, out) = (s, .inl (.requeuing (batch ++ rights.flatten) a r)) →
        out.elim (Drain.work t.queue.length) (fun _ => 0) < 3 * s.queue.length + 4 ∧
          t.queue.length + (out.elim Drain.items fun _ => []).length ≤
            s.queue.length + (batch ++ rights.flatten).length := by
      intro heq
      cases heq
      simp only [Sum.elim_inl, Drain.work, Drain.items]
      omega
    simp only [State.drain, State.deliver] at h
    split at h
    · exact hresume _ _ _ h.symm
    · exact hretry h.symm
    · exact hresume _ _ _ h.symm
    · split_ifs at h
      · exact hresume _ _ _ h.symm
      · exact hretry h.symm
  | requeuing retryable a r =>
    cases h
    simp only [Sum.elim_inl, Drain.work, Drain.items, List.length_append, List.length_nil]
    omega
  | reporting a r =>
    cases h
    simp [Drain.work, Drain.items]

/-! ## The background thread -/

/-- The parts of `stop` after the background thread was joined. -/
def StopStage.joined : StopStage E → Bool
  | .draining _ | .recalling | .recalled _ | .closing _ => true
  | _ => false

/-- What holds of the background thread. -/
structure State.WorkerOk (s : State E) : Prop where
  /-- The thread is in `flush` while it has the drain lock. -/
  flushing : s.workerDrains = true → s.thread = .flushing
  joined : ∀ stage, s.stopLock = some stage → stage.joined = true →
    s.thread = .none ∨ s.thread = .exited
  /-- A queue is stopping from `stop` on. -/
  busy : s.stopping = true → s.stopLock.isSome ∨ s.shutdownReport.isSome

lemma workerDrains_flush {s : State E} {caller : Caller} {stage stage' : FlushStage E}
    (hlock : s.drainLock = some (.flush caller stage)) {t : State E}
    (hlock' : t.drainLock = some (.flush caller stage')) : t.workerDrains = s.workerDrains := by
  unfold State.workerDrains
  rw [hlock, hlock']
  cases caller <;> rfl

lemma drain_frame {cfg : Settings E} {s t : State E} {d : Drain E} {result : PostResult}
    {out : Drain E ⊕ DeliveryReport E} (h : s.drain cfg result d = (t, out)) :
    ∃ queue log, t = { s with queue := queue, log := log } := by
  have hframe := (drain_spec cfg s result d).frame
  rw [h] at hframe
  exact hframe

lemma flushStep_worker {cfg : Settings E} {s : State E} {caller : Caller} {stage : FlushStage E}
    (result : PostResult) (hlock : s.drainLock = some (.flush caller stage))
    (h : s.WorkerOk) : (s.flushStep cfg caller result stage).WorkerOk := by
  -- the drain lock goes to the next stage of the same call
  have hkeep : ∀ (t : State E) (stage' : FlushStage E),
      t.drainLock = some (.flush caller stage') → t.thread = s.thread →
      t.stopLock = s.stopLock → t.stopping = s.stopping → t.shutdownReport = s.shutdownReport →
      t.WorkerOk := by
    intro t stage' hlock' hthread hstop hstopping hreport
    refine ⟨?_, ?_, ?_⟩
    · rw [workerDrains_flush hlock hlock', hthread]
      exact h.flushing
    · rw [hstop, hthread]
      exact h.joined
    · rw [hstop, hstopping, hreport]
      exact h.busy
  -- the call returns
  have hleave : ∀ (t : State E) (report : DeliveryReport E), t.thread = s.thread →
      t.stopLock = s.stopLock → t.stopping = s.stopping → t.shutdownReport = s.shutdownReport →
      (t.leaveFlush caller report).WorkerOk := by
    intro t report hthread hstop hstopping hreport
    refine ⟨fun hd => (by cases hd), ?_, ?_⟩
    · intro st hst hjoined
      change t.stopLock = some st at hst
      rw [hstop] at hst
      have hgone := h.joined st hst hjoined
      -- a thread that was joined is not in `flush`
      have hne : caller ≠ .background := by
        rintro rfl
        have hflushing : s.thread = .flushing := h.flushing (by simp [State.workerDrains, hlock])
        rw [hflushing] at hgone
        rcases hgone with hgone | hgone <;> cases hgone
      change (if caller = .background then Worker.waiting else t.thread) = .none ∨
        (if caller = .background then Worker.waiting else t.thread) = .exited
      rw [if_neg hne, hthread]
      exact hgone
    · change t.stopping = true → t.stopLock.isSome ∨ t.shutdownReport.isSome
      rw [hstop, hstopping, hreport]
      exact h.busy
  cases stage with
  | entered =>
    simp only [State.flushStep]
    split_ifs
    · exact hkeep _ _ rfl rfl rfl rfl rfl
    · exact hkeep _ _ rfl rfl rfl rfl rfl
  | refused => exact hleave s _ rfl rfl rfl rfl
  | draining d =>
    simp only [State.flushStep]
    split
    · rename_i t d' hdrain
      obtain ⟨queue, log, rfl⟩ := drain_frame hdrain
      exact hkeep _ _ rfl rfl rfl rfl rfl
    · rename_i t report hdrain
      obtain ⟨queue, log, rfl⟩ := drain_frame hdrain
      exact hkeep _ _ rfl rfl rfl rfl rfl
  | finishing report => exact hleave _ _ rfl rfl rfl rfl

lemma stopStep_worker {cfg : Settings E} {s s' : State E} {stage : StopStage E}
    (result : PostResult) (hstage : s.stopLock = some stage) (hok : s.Ok) (h : s.WorkerOk)
    (hs : s.stopStep cfg result stage = some s') : s'.WorkerOk := by
  have hfree : stage.holdsDrain = true → s.workerDrains = false := by
    intro hholds
    simp [State.workerDrains, hok.locked.2 ⟨stage, hstage, hholds⟩]
  cases stage with
  | fenced =>
    cases hs
    refine ⟨h.flushing, ?_, fun _ => .inl rfl⟩
    rintro st hst hjoined
    cases hst
    cases hjoined
  | signalled =>
    cases hs
    refine ⟨h.flushing, ?_, fun _ => .inl rfl⟩
    rintro st hst hjoined
    cases hst
    cases hjoined
  | joining hadActiveDrain =>
    simp only [State.stopStep] at hs
    split_ifs at hs with hjoined hactive
    all_goals
      cases hs
      exact ⟨fun hd => (by cases hd), fun _ _ _ => hjoined.1, fun _ => .inl rfl⟩
  | draining d =>
    simp only [State.stopStep] at hs
    split at hs
    · rename_i t d' hdrain
      cases hs
      obtain ⟨queue, log, rfl⟩ := drain_frame hdrain
      refine ⟨fun hd => ?_, fun _ _ _ => h.joined _ hstage rfl, fun _ => .inl rfl⟩
      have hd' : s.workerDrains = true := hd
      rw [hfree rfl] at hd'
      cases hd'
    · rename_i t report hdrain
      cases hs
      obtain ⟨queue, log, rfl⟩ := drain_frame hdrain
      exact ⟨fun hd => (by cases hd), fun _ _ _ => h.joined _ hstage rfl, fun _ => .inl rfl⟩
  | recalling =>
    cases hs
    refine ⟨fun hd => ?_, fun _ _ _ => h.joined _ hstage rfl, fun _ => .inl rfl⟩
    have hd' : s.workerDrains = true := hd
    rw [hfree rfl] at hd'
    cases hd'
  | recalled attempt =>
    cases hs
    exact ⟨fun hd => (by cases hd), fun _ _ _ => h.joined _ hstage rfl, fun _ => .inl rfl⟩
  | closing report =>
    cases hs
    refine ⟨fun hd => ?_, fun st hst => (by cases hst), fun _ => .inr rfl⟩
    have hthread := h.flushing hd
    rcases h.joined _ hstage rfl with hgone | hgone
    · rw [hthread] at hgone
      cases hgone
    · rw [hthread] at hgone
      cases hgone

lemma step_worker {cfg : Settings E} {s s' : State E} {a : Act E} (hok : s.Ok) (h : s.WorkerOk)
    (hs : s.step cfg a = some s') : s'.WorkerOk := by
  cases a with
  | enqueue event =>
    simp only [State.step] at hs
    split_ifs at hs
    obtain ⟨canonical, -, rfl⟩ := Option.map_eq_some_iff.1 hs
    exact ⟨h.flushing, h.joined, h.busy⟩
  | append i =>
    obtain ⟨canonical, -, rfl⟩ := Option.map_eq_some_iff.1 hs
    dsimp only
    split_ifs
    · exact ⟨h.flushing, h.joined, h.busy⟩
    · exact ⟨h.flushing, h.joined, h.busy⟩
  | start =>
    simp only [State.step] at hs
    split_ifs at hs with hopen hnew
    · cases hs
      refine ⟨fun hd => ?_, fun stage hstage => ?_, h.busy⟩
      · have hthread := h.flushing hd
        rw [hnew] at hthread
        cases hthread
      · have hshut := (hok.stopping stage hstage).1
        rw [hopen] at hshut
        cases hshut
    · cases hs
      exact h
  | wake =>
    simp only [State.step] at hs
    split_ifs at hs with hwait
    cases hs
    refine ⟨fun hd => ?_, fun stage hstage hjoined => ?_, h.busy⟩
    · exact absurd (hwait.symm.trans (h.flushing hd)) (by decide)
    · rcases h.joined stage hstage hjoined with hgone | hgone
      · exact absurd (hwait.symm.trans hgone) (by decide)
      · exact absurd (hwait.symm.trans hgone) (by decide)
  | run =>
    simp only [State.step] at hs
    split_ifs at hs with hwoken hstopping
    all_goals
      cases hs
      refine ⟨fun hd => ?_, fun stage hstage hjoined => ?_, h.busy⟩
      · exact absurd (hwoken.symm.trans (h.flushing hd)) (by decide)
      · rcases h.joined stage hstage hjoined with hgone | hgone
        · exact absurd (hwoken.symm.trans hgone) (by decide)
        · exact absurd (hwoken.symm.trans hgone) (by decide)
  | flush caller =>
    simp only [State.step] at hs
    split_ifs at hs with hfree
    cases hs
    refine ⟨fun hd => ?_, h.joined, h.busy⟩
    cases caller with
    | background => exact hfree.2 rfl
    | application => cases hd
  | flushStep result =>
    simp only [State.step] at hs
    split at hs
    · rename_i caller stage hlock
      cases hs
      exact flushStep_worker result hlock h
    · cases hs
  | stop =>
    simp only [State.step] at hs
    split_ifs at hs with hbusy hclosed
    · obtain ⟨report, -, rfl⟩ := Option.map_eq_some_iff.1 hs
      exact ⟨h.flushing, h.joined, h.busy⟩
    · cases hs
      refine ⟨h.flushing, ?_, fun _ => .inl rfl⟩
      rintro st hst hjoined
      cases hst
      cases hjoined
  | stopStep result =>
    simp only [State.step] at hs
    split at hs
    · rename_i stage hstage
      exact stopStep_worker result hstage hok h hs
    · cases hs

/-! ## Work -/

section Work

variable {cfg : Settings E} {s s' : State E}

lemma stopWork_le {stage : StopStage E} {n n' held held' : ℕ} (hstage : stage.holdsDrain = false)
    (h : n' + held' ≤ n + held) : stage.work n' held' ≤ stage.work n held := by
  cases stage with
  | draining d => cases hstage
  | recalling => cases hstage
  | recalled attempt => cases hstage
  | closing report => exact le_rfl
  | fenced | signalled | joining hadActiveDrain =>
    simp only [StopStage.work]
    omega

lemma stopWork_of_flush (hok : s.Ok) {caller : Caller} {stage : FlushStage E}
    (hlock : s.drainLock = some (.flush caller stage)) {t : State E}
    (hstop : t.stopLock = s.stopLock)
    (hevents : t.queue.length + t.held.length ≤ s.queue.length + s.held.length) :
    t.stopLock.elim 0 (StopStage.work t.queue.length t.held.length) ≤
      s.stopLock.elim 0 (StopStage.work s.queue.length s.held.length) := by
  rw [hstop]
  cases hs : s.stopLock with
  | none => exact le_rfl
  | some st =>
    refine stopWork_le ?_ hevents
    cases hholds : st.holdsDrain with
    | false => rfl
    | true =>
      have hlock' := hok.locked.2 ⟨st, hs, hholds⟩
      rw [hlock] at hlock'
      cases hlock'

lemma flushStep_work (result : PostResult) (hok : s.Ok) (hworker : s.WorkerOk)
    (hstopping : s.stopping = true) {caller : Caller} {stage : FlushStage E}
    (hlock : s.drainLock = some (.flush caller stage)) :
    (s.flushStep cfg caller result stage).work < s.work := by
  -- the next stage of the call
  have hkeep : ∀ (t : State E) (stage' : FlushStage E),
      t.drainLock = some (.flush caller stage') → t.thread = s.thread →
      t.stopLock = s.stopLock →
      t.queue.length + t.held.length ≤ s.queue.length + s.held.length →
      Holder.work t.queue.length (.flush caller stage') <
        Holder.work s.queue.length (.flush caller stage) → t.work < s.work := by
    intro t stage' hlock' hthread hstop hevents hless
    have hstopWork := stopWork_of_flush hok hlock hstop hevents
    have hthreadWork : t.threadWork = s.threadWork := by
      unfold State.threadWork
      rw [hthread, workerDrains_flush hlock hlock']
    unfold State.work
    rw [hthreadWork, hlock, hlock', Option.elim_some, Option.elim_some]
    omega
  -- the call returns
  have hleave : ∀ (t : State E) (report : DeliveryReport E), t.thread = s.thread →
      t.stopLock = s.stopLock → t.queue = s.queue → s.held = [] →
      0 < Holder.work s.queue.length (.flush caller stage) →
      (t.leaveFlush caller report).work < s.work := by
    intro t report hthread hstop hqueue hheld hpos
    have hevents : (t.leaveFlush caller report).queue.length +
        (t.leaveFlush caller report).held.length ≤ s.queue.length + s.held.length := by
      change t.queue.length + 0 ≤ _
      rw [hqueue]
      omega
    have hstop' : (t.leaveFlush caller report).stopLock = s.stopLock := hstop
    have hstopWork := stopWork_of_flush hok hlock hstop' hevents
    have hthreadWork : (t.leaveFlush caller report).threadWork ≤ s.threadWork := by
      cases caller with
      | background =>
        have hdrains : s.workerDrains = true := by simp [State.workerDrains, hlock]
        have hflushing := hworker.flushing hdrains
        have hafter : (t.leaveFlush .background report).threadWork = 2 := rfl
        have hbefore : s.threadWork = 3 := by simp [State.threadWork, hflushing, hdrains]
        omega
      | application =>
        have hdrains : s.workerDrains = false := by simp [State.workerDrains, hlock]
        have hafter : (t.leaveFlush .application report).threadWork = s.threadWork := by
          change (match t.thread with | .waiting => 2 | .woken => 1 | .flushing => 6 | _ => 0) = _
          rw [hthread]
          unfold State.threadWork
          rw [hdrains]
          rfl
        exact hafter.le
    have hlockWork : (t.leaveFlush caller report).drainLock.elim 0
        (Holder.work (t.leaveFlush caller report).queue.length) = 0 := rfl
    unfold State.work
    rw [hlockWork, hlock, Option.elim_some]
    omega
  cases stage with
  | entered =>
    have hheld : s.held = [] := by simp [State.held, hlock]
    simp only [State.flushStep, hstopping, Bool.true_eq_false, false_and, if_false]
    refine hkeep _ _ rfl rfl rfl ?_ ?_
    · simp [State.held]
    · simp [Holder.work]
  | refused =>
    have hheld : s.held = [] := by simp [State.held, hlock]
    exact hleave s _ rfl rfl rfl hheld Nat.one_pos
  | draining d =>
    have hheld : s.held = d.items := by simp [State.held, hlock]
    simp only [State.flushStep]
    split
    · rename_i t d' hdrain
      obtain ⟨hless, hevents⟩ := drain_work hstopping hdrain
      obtain ⟨queue, log, rfl⟩ := drain_frame hdrain
      refine hkeep _ _ rfl rfl rfl ?_ ?_
      · rw [hheld]
        exact hevents
      · exact Nat.succ_lt_succ hless
    · rename_i t report hdrain
      obtain ⟨hless, hevents⟩ := drain_work hstopping hdrain
      obtain ⟨queue, log, rfl⟩ := drain_frame hdrain
      refine hkeep _ _ rfl rfl rfl ?_ ?_
      · rw [hheld]
        exact hevents
      · exact Nat.succ_lt_succ hless
  | finishing report =>
    have hheld : s.held = [] := by simp [State.held, hlock]
    exact hleave _ _ rfl rfl rfl hheld Nat.one_pos

lemma stopStep_work (result : PostResult) (hok : s.Ok) (hworker : s.WorkerOk)
    (hstopping : s.stopping = true) {stage : StopStage E} (hstage : s.stopLock = some stage)
    (hs : s.stopStep cfg result stage = some s') : s'.work < s.work := by
  cases stage with
  | fenced =>
    cases hs
    unfold State.work
    rw [hstage, Option.elim_some]
    have hheld : State.held ({ s with stopping := true, stopLock := some .signalled } : State E) =
        s.held := held_of_drainLock rfl (hok.not_held hstage rfl)
    have hthread : State.threadWork ({ s with stopping := true, stopLock := some .signalled } :
        State E) = s.threadWork := rfl
    rw [hheld, hthread]
    simp only [Option.elim_some, StopStage.work]
    omega
  | signalled =>
    cases hs
    unfold State.work
    rw [hstage, Option.elim_some]
    have hheld : State.held ({ s with stopLock := some (.joining s.drainActive) } : State E) =
        s.held := held_of_drainLock rfl (hok.not_held hstage rfl)
    have hthread : State.threadWork ({ s with stopLock := some (.joining s.drainActive) } :
        State E) = s.threadWork := rfl
    rw [hheld, hthread]
    simp only [Option.elim_some, StopStage.work]
    omega
  | joining hadActiveDrain =>
    simp only [State.stopStep] at hs
    split_ifs at hs with hjoined hactive
    all_goals
      cases hs
      have hfree : s.drainLock = none := by simpa using hjoined.2
      have hdrains : s.workerDrains = false := by simp [State.workerDrains, hfree]
      unfold State.work
      rw [hstage, hfree]
      have hbefore : s.threadWork = 0 := by
        rcases hjoined.1 with hgone | hgone <;> simp [State.threadWork, hgone]
      simp only [Option.elim_some, Option.elim_none, StopStage.work, Holder.work, Drain.work,
        State.threadWork]
      rcases hjoined.1 with hgone | hgone <;> simp only [hgone] <;> omega
  | draining d =>
    have hlock : s.drainLock = some .stop := hok.locked.2 ⟨_, hstage, rfl⟩
    simp only [State.stopStep] at hs
    split at hs
    · rename_i t d' hdrain
      cases hs
      obtain ⟨hless, -⟩ := drain_work hstopping hdrain
      obtain ⟨queue, log, rfl⟩ := drain_frame hdrain
      have hthread : State.threadWork ({ s with
          queue := queue, log := log, stopLock := some (.draining d') } : State E) =
          s.threadWork := rfl
      unfold State.work
      rw [hthread, hstage, hlock]
      simp only [Option.elim_some, StopStage.work, Holder.work, Sum.elim_inl] at hless ⊢
      omega
    · rename_i t report hdrain
      cases hs
      obtain ⟨hless, -⟩ := drain_work hstopping hdrain
      obtain ⟨queue, log, rfl⟩ := drain_frame hdrain
      have hbefore : s.thread = .none ∨ s.thread = .exited := hworker.joined _ hstage rfl
      unfold State.work
      rw [hstage, hlock]
      simp only [Option.elim_some, Option.elim_none, StopStage.work, Holder.work, Sum.elim_inr,
        State.threadWork] at hless ⊢
      rcases hbefore with hgone | hgone <;> simp only [hgone] <;> omega
  | recalling =>
    cases hs
    have hlock : s.drainLock = some .stop := hok.locked.2 ⟨_, hstage, rfl⟩
    have hthread : State.threadWork ({ s with stopLock := some (.recalled s.lastDrainReport) } :
        State E) = s.threadWork := rfl
    unfold State.work
    rw [hthread, hstage, hlock]
    simp only [Option.elim_some, StopStage.work]
    omega
  | recalled attempt =>
    cases hs
    have hlock : s.drainLock = some .stop := hok.locked.2 ⟨_, hstage, rfl⟩
    have hbefore : s.thread = .none ∨ s.thread = .exited := hworker.joined _ hstage rfl
    unfold State.work
    rw [hstage, hlock]
    simp only [Option.elim_some, Option.elim_none, StopStage.work, Holder.work, State.threadWork]
    rcases hbefore with hgone | hgone <;> simp only [hgone] <;> omega
  | closing report =>
    cases hs
    have hbefore : s.thread = .none ∨ s.thread = .exited := hworker.joined _ hstage rfl
    unfold State.work
    rw [hstage]
    simp only [State.reply, Option.elim_some, Option.elim_none, StopStage.work, State.threadWork]
    rcases hbefore with hgone | hgone <;> simp only [hgone] <;> omega

lemma stopStep_stopping {result : PostResult} {stage : StopStage E} (hstopping : s.stopping = true)
    (hs : s.stopStep cfg result stage = some s') : s'.stopping = true := by
  cases stage with
  | joining hadActiveDrain =>
    simp only [State.stopStep] at hs
    split_ifs at hs
    all_goals
      cases hs
      exact hstopping
  | draining d =>
    simp only [State.stopStep] at hs
    split at hs
    · rename_i hdrain
      cases hs
      obtain ⟨queue, log, rfl⟩ := drain_frame hdrain
      exact hstopping
    · rename_i hdrain
      cases hs
      obtain ⟨queue, log, rfl⟩ := drain_frame hdrain
      exact hstopping
  | fenced =>
    cases hs
    rfl
  | _ =>
    cases hs
    exact hstopping

theorem work_decreases {a : Act E} (hok : s.Ok) (hworker : s.WorkerOk)
    (hstopping : s.stopping = true) (ha : a.Internal) (hs : s.step cfg a = some s') :
    s'.work < s.work ∧ s'.stopping = true := by
  cases a with
  | enqueue event => exact ha.elim
  | append i => exact ha.elim
  | start => exact ha.elim
  | stop => exact ha.elim
  | wake =>
    simp only [State.step] at hs
    split_ifs at hs with hwait
    cases hs
    refine ⟨?_, hstopping⟩
    simp only [State.work, State.threadWork, hwait, State.held]
    omega
  | run =>
    simp only [State.step] at hs
    split_ifs at hs with hwoken
    cases hs
    refine ⟨?_, hstopping⟩
    simp only [State.work, State.threadWork, hwoken, State.held]
    omega
  | flush caller =>
    cases caller with
    | application => exact ha.elim
    | background =>
      simp only [State.step] at hs
      split_ifs at hs with hfree
      cases hs
      refine ⟨?_, hstopping⟩
      have hnone : s.drainLock = none := by simpa using hfree.1
      have hthread : s.thread = .flushing := by simpa using hfree.2
      have hheld : s.held = [] := by simp [State.held, hnone]
      have hbefore : s.threadWork = 6 := by
        simp [State.threadWork, hthread, State.workerDrains, hnone]
      have hafter : State.threadWork ({ s with
          drainLock := some (.flush .background .entered) } : State E) = 3 := by
        simp [State.threadWork, hthread, State.workerDrains]
      have hheld' : State.held ({ s with
          drainLock := some (.flush .background .entered) } : State E) = [] := rfl
      unfold State.work
      rw [hbefore, hafter, hheld, hheld', hnone]
      simp only [Option.elim_some, Option.elim_none, Holder.work]
      omega
  | flushStep result =>
    simp only [State.step] at hs
    split at hs
    · rename_i caller stage hlock
      cases hs
      refine ⟨flushStep_work result hok hworker hstopping hlock, ?_⟩
      cases stage with
      | entered =>
        simp only [State.flushStep]
        split_ifs <;> exact hstopping
      | refused => exact hstopping
      | draining d =>
        simp only [State.flushStep]
        split
        · rename_i hdrain
          obtain ⟨queue, log, rfl⟩ := drain_frame hdrain
          exact hstopping
        · rename_i hdrain
          obtain ⟨queue, log, rfl⟩ := drain_frame hdrain
          exact hstopping
      | finishing report => exact hstopping
    · cases hs
  | stopStep result =>
    simp only [State.step] at hs
    split at hs
    · rename_i stage hstage
      exact ⟨stopStep_work result hok hworker hstopping hstage hs, stopStep_stopping hstopping hs⟩
    · cases hs

/-- Some internal step is enabled, where a request that waits ends with `result`. -/
def State.Enabled (cfg : Settings E) (s : State E) (result : PostResult) : Prop :=
  ∃ s', s.step cfg .wake = some s' ∨ s.step cfg .run = some s' ∨
    s.step cfg (.flush .background) = some s' ∨ s.step cfg (.flushStep result) = some s' ∨
    s.step cfg (.stopStep result) = some s'

theorem internal_enabled (hok : s.Ok) (hworker : s.WorkerOk) (hstopping : s.stopping = true)
    (result : PostResult) : s.shutdownReport.isSome ∨ s.Enabled cfg result := by
  rcases hworker.busy hstopping with hbusy | hdone
  swap
  · exact .inl hdone
  obtain ⟨stage, hstage⟩ := Option.isSome_iff_exists.1 hbusy
  right
  have hstop : ∀ s', s.stopStep cfg result stage = some s' →
      s.step cfg (.stopStep result) = some s' := by
    intro s' hs
    simpa only [State.step, hstage] using hs
  cases stage with
  | joining hadActiveDrain =>
    cases hl : s.drainLock with
    | some holder =>
      cases holder with
      | flush caller st =>
        refine ⟨s.flushStep cfg caller result st, .inr (.inr (.inr (.inl ?_)))⟩
        simp only [State.step, hl]
      | stop =>
        obtain ⟨st, hst, hholds⟩ := hok.locked.1 hl
        rw [hstage] at hst
        cases hst
        cases hholds
    | none =>
      cases ht : s.thread with
      | waiting =>
        refine ⟨{ s with thread := .woken }, .inl ?_⟩
        simp only [State.step, ht, if_true]
      | woken =>
        refine ⟨{ s with thread := .exited }, .inr (.inl ?_)⟩
        simp only [State.step, ht, hstopping, if_true]
      | flushing =>
        refine ⟨{ s with drainLock := some (.flush .background .entered) },
          .inr (.inr (.inl ?_))⟩
        simp only [State.step, hl, ht, Option.isNone_none, implies_true, and_self, if_true]
      | none =>
        refine ⟨{ s with
          drainLock := some .stop
          stopLock := some (if hadActiveDrain then .recalling else .draining (.taking 0 0)) },
          .inr (.inr (.inr (.inr (hstop _ ?_))))⟩
        rw [State.stopStep, if_pos ⟨.inl ht, by rw [hl]; rfl⟩]
      | exited =>
        refine ⟨{ s with
          drainLock := some .stop
          stopLock := some (if hadActiveDrain then .recalling else .draining (.taking 0 0)) },
          .inr (.inr (.inr (.inr (hstop _ ?_))))⟩
        rw [State.stopStep, if_pos ⟨.inr ht, by rw [hl]; rfl⟩]
  | draining d =>
    cases hd : s.drain cfg result d with
    | mk t out =>
      cases out with
      | inl d' =>
        refine ⟨{ t with stopLock := some (.draining d') }, .inr (.inr (.inr (.inr (hstop _ ?_))))⟩
        simp only [State.stopStep, hd]
      | inr report =>
        refine ⟨{ t with drainLock := none, stopLock := some (.closing report) },
          .inr (.inr (.inr (.inr (hstop _ ?_))))⟩
        simp only [State.stopStep, hd]
  | _ => exact ⟨_, .inr (.inr (.inr (.inr (hstop _ rfl))))⟩

end Work

/-! ## Runs -/

section Runs

variable {cfg : Settings E} {s s' : State E}

lemma initial_worker : (State.initial : State E).WorkerOk :=
  ⟨(fun h => by cases h), (fun _ h => by cases h), (fun h => by cases h)⟩

lemma worker_of_reach (h : (machine cfg).Reach s) : s.WorkerOk := by
  refine StepMachine.Reach.induct (P := State.WorkerOk) initial_worker ?_ h
  intro t a t' hr hworker hs
  exact step_worker (ok_of_reach hr) hworker hs

/-- A call of `stop` that has fenced the intake has set `_stopping`, or does so next. -/
def State.Begun (s : State E) : Prop :=
  s.accepting = false → s.stopping = true ∨ s.stopLock = some .fenced

lemma State.Begun.transfer (h : s.Begun) (haccepting : s'.accepting = s.accepting)
    (hstopping : s'.stopping = s.stopping) (hstop : s'.stopLock = s.stopLock) : s'.Begun := by
  unfold State.Begun
  rw [haccepting, hstopping, hstop]
  exact h

lemma step_begun {a : Act E} (hok : s.Ok) (h : s.Begun) (hs : s.step cfg a = some s') :
    s'.Begun := by
  cases a with
  | enqueue event =>
    simp only [State.step] at hs
    split_ifs at hs
    obtain ⟨canonical, -, rfl⟩ := Option.map_eq_some_iff.1 hs
    exact h.transfer rfl rfl rfl
  | append i =>
    simp only [State.step] at hs
    obtain ⟨canonical, -, rfl⟩ := Option.map_eq_some_iff.1 hs
    split_ifs <;> exact h.transfer rfl rfl rfl
  | start =>
    simp only [State.step] at hs
    split_ifs at hs <;> cases hs <;> exact h.transfer rfl rfl rfl
  | wake =>
    simp only [State.step] at hs
    split_ifs at hs
    cases hs
    exact h.transfer rfl rfl rfl
  | run =>
    simp only [State.step] at hs
    split_ifs at hs <;> cases hs <;> exact h.transfer rfl rfl rfl
  | flush caller =>
    simp only [State.step] at hs
    split_ifs at hs
    cases hs
    exact h.transfer rfl rfl rfl
  | flushStep result =>
    simp only [State.step] at hs
    split at hs
    · rename_i caller stage hlock
      cases hs
      cases stage with
      | entered =>
        simp only [State.flushStep]
        split_ifs <;> exact h.transfer rfl rfl rfl
      | refused => exact h.transfer rfl rfl rfl
      | draining d =>
        simp only [State.flushStep]
        split
        · rename_i hdrain
          obtain ⟨queue, log, rfl⟩ := drain_frame hdrain
          exact h.transfer rfl rfl rfl
        · rename_i hdrain
          obtain ⟨queue, log, rfl⟩ := drain_frame hdrain
          exact h.transfer rfl rfl rfl
      | finishing report => exact h.transfer rfl rfl rfl
    · cases hs
  | stop =>
    simp only [State.step] at hs
    split_ifs at hs
    · obtain ⟨report, -, rfl⟩ := Option.map_eq_some_iff.1 hs
      exact h.transfer rfl rfl rfl
    · cases hs
      exact fun _ => .inr rfl
  | stopStep result =>
    -- `stop` goes on, so `_stopping` is set, or this step sets it
    intro _
    left
    simp only [State.step] at hs
    split at hs
    · rename_i stage hstage
      rcases (hok.stopping stage hstage).2 with hstopping | rfl
      · exact stopStep_stopping hstopping hs
      · cases hs
        rfl
    · cases hs

lemma begun_of_reach (h : (machine cfg).Reach s) : s.Begun := by
  refine StepMachine.Reach.induct (P := State.Begun) (fun hinit => ?_) ?_ h
  · cases hinit
  · intro t a t' hr hbegun hs
    exact step_begun (ok_of_reach hr) hbegun hs

lemma internal_run (as : List (Act E)) (h : (machine cfg).Reach s) (hstopping : s.stopping = true)
    (has : ∀ a ∈ as, a.Internal) (hrun : (machine cfg).run s as = some s') :
    as.length ≤ s.work ∧ (s'.shutdownReport.isSome ∨ ∀ result, s'.Enabled cfg result) := by
  induction as generalizing s with
  | nil =>
    cases hrun
    refine ⟨Nat.zero_le _, ?_⟩
    cases hreport : s'.shutdownReport with
    | some report => exact .inl rfl
    | none =>
      right
      intro result
      rcases internal_enabled (ok_of_reach h) (worker_of_reach h) hstopping result with hr | hgo
      · rw [hreport] at hr
        cases hr
      · exact hgo
  | cons a as ih =>
    rw [StepMachine.run_cons, Option.bind_eq_some_iff] at hrun
    obtain ⟨t, ht, hrest⟩ := hrun
    obtain ⟨hless, hgoes⟩ := work_decreases (ok_of_reach h) (worker_of_reach h) hstopping
      (has a (List.mem_cons_self ..)) ht
    obtain ⟨hlen, hend⟩ := ih (h.next ht) hgoes (fun b hb => has b (List.mem_cons_of_mem _ hb)) hrest
    refine ⟨?_, hend⟩
    rw [List.length_cons]
    omega

lemma report_complete (hok : s.Ok) {report : DeliveryReport E}
    (hreport : s.shutdownReport = some report) :
    (acceptedEvents s.log ++ rejectedEvents s.log ++ report.undeliveredEvents).Perm
      (enqueued s.log) := by
  obtain ⟨hundelivered, -, -, hno⟩ := hok.reported report (.inr hreport)
  have hstop : s.stopLock = none := (hok.shutdown (by rw [hreport]; rfl)).1
  -- nobody holds events any more
  have hheld : s.held = [] := by
    unfold State.held
    split
    · rename_i caller d hlock
      exact absurd ⟨caller, d, hlock⟩ hno
    · rename_i hlock _
      exact absurd hlock (hok.not_locked hstop)
    · rfl
  have hconserved := hok.ledger.conserved
  rw [hheld, List.nil_append] at hconserved
  rw [hundelivered]
  exact hconserved

lemma firstAttempts_isPrefix (hok : s.Ok) :
    firstAttempts s.log <+: (enqueued s.log).map Item.seq := by
  obtain ⟨n, hn, hfirst, -⟩ := hok.ledger.first
  rw [hfirst, hok.ledger.numbered]
  refine ⟨List.range' n (s.next - n), ?_⟩
  rw [List.range_eq_range', List.range_eq_range']
  have happend := List.range'_append_1 (s := 0) (m := n) (n := s.next - n)
  rw [Nat.zero_add, Nat.add_sub_cancel' hn] at happend
  exact happend

/-- **Delivery.** Once `stop` has returned, every event that was taken in is accepted, rejected for
good or listed as undelivered, and in one of them only. Events are attempted first in the order of
the intake, an event that was accepted or rejected is in no later request, and nothing is taken in
once `stop` has begun. From then on the queue can only take a bounded number of steps until `stop`
returns, and it is never stuck before. -/
theorem queue_delivery (h : (machine cfg).Reach s) :
    (enqueued s.log).Nodup ∧
      (∀ report, s.shutdownReport = some report →
        (acceptedEvents s.log ++ rejectedEvents s.log ++ report.undeliveredEvents).Perm
          (enqueued s.log)) ∧
      firstAttempts s.log <+: (enqueued s.log).map Item.seq ∧
      (∀ before batch after, s.log = before ++ .attempt batch :: after →
        ∀ x ∈ batch, x ∉ acceptedEvents before ∧ x ∉ rejectedEvents before) ∧
      Fence s.log ∧
      (Effect.stop ∈ s.log → s.stopping = true ∨
        ∀ result, ∃ s', s.step cfg (.stopStep result) = some s' ∧ s'.stopping = true) ∧
      (s.stopping = true → ∀ as s', (∀ a ∈ as, a.Internal) →
        (machine cfg).run s as = some s' →
        as.length ≤ s.work ∧ (s'.shutdownReport.isSome ∨ ∀ result, s'.Enabled cfg result)) := by
  have hok : s.Ok := ok_of_reach h
  refine ⟨hok.ledger.nodup_enqueued, fun report hreport => report_complete hok hreport,
    firstAttempts_isPrefix hok, hok.ledger.once, hok.fence, fun hstop => ?_,
    fun hstopping as s' has hrun => internal_run as h hstopping has hrun⟩
  rcases begun_of_reach h (hok.fenced hstop) with hstopping | hfenced
  · exact .inl hstopping
  · right
    intro result
    refine ⟨{ s with stopping := true, stopLock := some .signalled }, ?_, rfl⟩
    simp only [State.step, hfenced, State.stopStep]

end Runs

/-- Events given by their serialised text. -/
def textSettings : Settings String where
  maxQueueSize := 10
  batchSize := 2
  canonicalize := some
  requestBytes := fun events => 12 + (events.map fun event => event.utf8ByteSize + 1).sum

/-- Three events. A request with two of them is bisected, `stop` comes while the second half is
being sent, and the third event is left. -/
def bisectedRun : List (Act String) :=
  [.enqueue "1", .append 0, .enqueue "2", .append 0, .enqueue "3", .append 0, .start, .wake, .run,
    .flush .background, .flushStep .error, .flushStep .error,
    .flushStep (.outcome .payloadRejected), .flushStep (.outcome .accepted), .stop,
    .stopStep .error, .stopStep .error, .flushStep (.outcome .permanentRejection),
    .flushStep .error, .flushStep (.outcome .retryable), .flushStep .error, .flushStep .error,
    .flushStep .error, .wake, .run, .stopStep .error, .stopStep .error, .stopStep .error,
    .stopStep .error]

/-- `queue_delivery` at the end of `bisectedRun`, where each of the three events went another
way. -/
theorem queue_delivery_bisected :
    ∃ s report, (machine textSettings).Reach s ∧ s.shutdownReport = some report ∧
      (acceptedEvents s.log).map Item.seq = [0] ∧ (rejectedEvents s.log).map Item.seq = [1] ∧
      report.undeliveredEvents.map Item.seq = [2] ∧
      (acceptedEvents s.log ++ rejectedEvents s.log ++ report.undeliveredEvents).Perm
        (enqueued s.log) := by
  have hrun : ((machine textSettings).run State.initial bisectedRun).map (fun s =>
      decide ((acceptedEvents s.log).map Item.seq = [0]) &&
        decide ((rejectedEvents s.log).map Item.seq = [1]) &&
        decide (s.shutdownReport.map (fun r => r.undeliveredEvents.map Item.seq) = some [2])) =
      some true := by decide +kernel
  obtain ⟨s, hs, hend⟩ := Option.map_eq_some_iff.1 hrun
  simp only [Bool.and_eq_true, decide_eq_true_eq] at hend
  obtain ⟨⟨haccepted, hrejected⟩, hleft⟩ := hend
  obtain ⟨report, hreport, hundelivered⟩ := Option.map_eq_some_iff.1 hleft
  have hreach : (machine textSettings).Reach s := StepMachine.reach_of_run hs
  exact ⟨s, report, hreach, hreport, haccepted, hrejected, hundelivered,
    (queue_delivery hreach).2.1 report hreport⟩

end Apdl.Sdk.PyQueue
