import Apdl.Config.Outbox.Order
import Apdl.Config.Sse.Model

set_option autoImplicit false

/-!
# The snapshot handoff

A client that stays connected has received the snapshot and exactly the broadcasts of its project
that are newer than the snapshot, in order, up to those that still wait for it.

## Main results

* `quarantined_change_missing` — a quarantined change is missing.
-/

namespace Apdl.Config.Sse

open Outbox

variable {D : Type}

/-- The broadcasts of a project with a version above the given one. -/
def newer (log : List (Broadcast D)) (projectId : String) (version : ℕ) : List (Broadcast D) :=
  log.filter fun b => decide (b.projectId = projectId) && decide (version < b.projectVersion)

lemma newer_append (log log' : List (Broadcast D)) (p : String) (v : ℕ) :
    newer (log ++ log') p v = newer log p v ++ newer log' p v :=
  List.filter_append ..

lemma newer_prefix_append (log log' : List (Broadcast D)) (p : String) (v : ℕ) :
    newer log p v <+: newer (log ++ log') p v := by
  rw [newer_append]
  exact List.prefix_append _ _

/-! ## The invariant -/

/-- A snapshot read in the past: the counter has not gone back, what the snapshot shows is at or
below its version, and every change committed since is above it. -/
structure SnapshotOk (o : Sys D) (projectId : String) (snap : Snapshot D) : Prop where
  version_le : snap.version ≤ o.db.versions projectId
  changes_le : ∀ ch ∈ snap.changes, ch.isConfig → ch.version ≤ snap.version
  later : ∀ ch ∈ o.committed, ch.isConfig → ch.projectId = projectId →
    ch ∈ snap.changes ∨ snap.version < ch.version

/-- What was sent and what waits make up the newer broadcasts: all of them while no close is
requested, an initial part of them in any case. -/
structure Handoff (o : Sys D) (c : Conn D) (snap : Snapshot D) (ups : List (Broadcast D)) :
    Prop where
  is_initial : ups ++ c.waiting snap.version <+: newer o.broadcasts c.projectId snap.version
  complete : c.closeReason = none →
    ups ++ c.waiting snap.version = newer o.broadcasts c.projectId snap.version

/-- What an ended request has sent: nothing, only the terminal event, or the snapshot with an
initial part of the newer broadcasts and at most a terminal event. -/
def EndedStream (o : Sys D) (c : Conn D) : Prop :=
  (∃ tail, c.sent = tail ∧ (tail = [] ∨ ∃ r, tail = [.streamError r])) ∨
  ∃ snap ups tail, c.sent = .config snap :: ups.map .update ++ tail ∧
    (tail = [] ∨ ∃ r, tail = [.streamError r]) ∧
    ups <+: newer o.broadcasts c.projectId snap.version

/-- The phase of the request and the events sent agree. -/
def PhaseOk (o : Sys D) (c : Conn D) : Prop :=
  match c.phase with
  | .registered => c.sent = []
  | .ready snap => c.sent = [] ∧ SnapshotOk o c.projectId snap ∧ Handoff o c snap []
  | .streaming snap _ => ∃ ups, c.sent = .config snap :: ups.map .update ∧
      SnapshotOk o c.projectId snap ∧ Handoff o c snap ups
  | .ended => EndedStream o c

/-- The invariant of the connection. -/
structure ConnOk (o : Sys D) (c : Conn D) : Prop where
  queue_log : ∀ b ∈ c.queue, b ∈ o.broadcasts ∧ b.projectId = c.projectId
  phase : PhaseOk o c

/-! ## Steps of the outbox -/

variable {p : String}

lemma SnapshotOk.extend {o o' : Sys D} {snap : Snapshot D} (h : SnapshotOk o p snap)
    (hv : ∀ q, o.db.versions q ≤ o'.db.versions q)
    (hc : ∀ ch ∈ o'.committed, ch ∈ o.committed ∨
      (ch.isConfig → o.db.versions ch.projectId < ch.version)) : SnapshotOk o' p snap := by
  refine ⟨h.version_le.trans (hv p), h.changes_le, ?_⟩
  intro ch hch hcfg hp
  rcases hc ch hch with hold | hnew
  · exact h.later ch hold hcfg hp
  · right
    have := hnew hcfg
    rw [hp] at this
    exact h.version_le.trans_lt this

lemma EndedStream.extend {o o' : Sys D} {c : Conn D} (h : EndedStream o c)
    {new : List (Broadcast D)} (hb : o'.broadcasts = o.broadcasts ++ new) : EndedStream o' c := by
  rcases h with h | ⟨snap, ups, tail, hsent, htail, hpre⟩
  · exact .inl h
  · right
    refine ⟨snap, ups, tail, hsent, htail, ?_⟩
    rw [hb]
    exact hpre.trans (newer_prefix_append ..)

lemma ConnOk.extend {o o' : Sys D} {c : Conn D} (h : ConnOk o c)
    (hv : ∀ q, o.db.versions q ≤ o'.db.versions q)
    (hc : ∀ ch ∈ o'.committed, ch ∈ o.committed ∨
      (ch.isConfig → o.db.versions ch.projectId < ch.version))
    (hb : o'.broadcasts = o.broadcasts) : ConnOk o' c := by
  refine ⟨hb ▸ h.queue_log, ?_⟩
  have hph := h.phase
  unfold PhaseOk at hph ⊢
  split
  · rename_i heq
    rw [heq] at hph
    exact hph
  · rename_i snap heq
    rw [heq] at hph
    obtain ⟨hs, hok, hi, hcm⟩ := hph
    exact ⟨hs, hok.extend hv hc, hb ▸ hi, hb ▸ hcm⟩
  · rename_i snap upd heq
    rw [heq] at hph
    obtain ⟨ups, hs, hok, hi, hcm⟩ := hph
    exact ⟨ups, hs, hok.extend hv hc, hb ▸ hi, hb ▸ hcm⟩
  · rename_i heq
    rw [heq] at hph
    have hb' : o'.broadcasts = o.broadcasts ++ [] := by simpa using hb
    exact EndedStream.extend hph hb'

lemma waiting_enqueue (c : Conn D) (b : Broadcast D) (v : ℕ) :
    Conn.waiting { c with queue := c.queue ++ [b] } v =
      c.waiting v ++ [b].filter fun b => decide (v < b.projectVersion) := by
  simp only [Conn.waiting, ← List.append_assoc, List.filter_append]

lemma newer_singleton {b : Broadcast D} (hp : p = b.projectId) (v : ℕ) :
    newer [b] p v = [b].filter fun b => decide (v < b.projectVersion) := by
  simp [newer, List.filter_cons, hp]

lemma newer_singleton_other {b : Broadcast D} (hp : p ≠ b.projectId) (v : ℕ) :
    newer [b] p v = [] := by
  simp [newer, Ne.symm hp]

@[simp] lemma requestClose_phase (c : Conn D) (r : CloseReason) :
    (c.requestClose r).phase = c.phase := by
  unfold Conn.requestClose
  split <;> rfl

@[simp] lemma requestClose_queue (c : Conn D) (r : CloseReason) :
    (c.requestClose r).queue = c.queue := by
  unfold Conn.requestClose
  split <;> rfl

@[simp] lemma requestClose_sent (c : Conn D) (r : CloseReason) :
    (c.requestClose r).sent = c.sent := by
  unfold Conn.requestClose
  split <;> rfl

@[simp] lemma requestClose_projectId (c : Conn D) (r : CloseReason) :
    (c.requestClose r).projectId = c.projectId := by
  unfold Conn.requestClose
  split <;> rfl

@[simp] lemma requestClose_waiting (c : Conn D) (r : CloseReason) (v : ℕ) :
    (c.requestClose r).waiting v = c.waiting v := by
  simp only [Conn.waiting, requestClose_phase, requestClose_queue]

lemma requestClose_closeReason (c : Conn D) (r : CloseReason) :
    (c.requestClose r).closeReason ≠ none := by
  unfold Conn.requestClose
  split
  · simp
  · rename_i h
    simp [h]

lemma Handoff.requestClose {o : Sys D} {c : Conn D} {snap : Snapshot D}
    {ups : List (Broadcast D)} (h : Handoff o c snap ups) (r : CloseReason) :
    Handoff o (c.requestClose r) snap ups := by
  refine ⟨?_, fun hnone => absurd hnone (requestClose_closeReason c r)⟩
  simpa using h.is_initial

lemma ConnOk.requestClose {o : Sys D} {c : Conn D} (h : ConnOk o c) (r : CloseReason) :
    ConnOk o (c.requestClose r) := by
  refine ⟨by simpa using h.queue_log, ?_⟩
  have hph := h.phase
  unfold PhaseOk at hph ⊢
  rw [requestClose_phase]
  cases hc : c.phase with
  | registered =>
    rw [hc] at hph
    simpa using hph
  | ready snap =>
    rw [hc] at hph
    simpa using ⟨hph.1, hph.2.1, hph.2.2.requestClose r⟩
  | streaming snap upd =>
    rw [hc] at hph
    obtain ⟨ups, hs, hok, hh⟩ := hph
    exact ⟨ups, by simpa using hs, by simpa using hok, hh.requestClose r⟩
  | ended =>
    rw [hc] at hph
    simpa [EndedStream] using hph

lemma broadcast_fixed (capacity : ℕ) (c : Conn D) (b : Broadcast D) :
    (c.broadcast capacity b).phase = c.phase ∧ (c.broadcast capacity b).sent = c.sent ∧
      (c.broadcast capacity b).projectId = c.projectId := by
  unfold Conn.broadcast
  split
  · split
    · exact ⟨rfl, rfl, rfl⟩
    · simp
  · exact ⟨rfl, rfl, rfl⟩

lemma Handoff.broadcast {o o' : Sys D} {c : Conn D} {snap : Snapshot D}
    {ups : List (Broadcast D)} (h : Handoff o c snap ups) (hreg : c.isRegistered) {b : Broadcast D}
    (hb : o'.broadcasts = o.broadcasts ++ [b]) (capacity : ℕ) :
    Handoff o' (c.broadcast capacity b) snap ups := by
  obtain ⟨hi, hcm⟩ := h
  unfold Conn.broadcast
  split
  · rename_i hopen
    simp only [Conn.isOpen, Bool.and_eq_true, decide_eq_true_eq, Option.isNone_iff_eq_none]
      at hopen
    obtain ⟨⟨-, hnone⟩, hp⟩ := hopen
    split
    · -- room in the queue: both sides grow by the event if it is newer
      have heq : ups ++ Conn.waiting { c with queue := c.queue ++ [b] } snap.version =
          newer o'.broadcasts c.projectId snap.version := by
        rw [waiting_enqueue, ← List.append_assoc, hcm hnone, hb, newer_append,
          newer_singleton hp]
      exact ⟨heq ▸ List.prefix_rfl, fun _ => heq⟩
    · refine ⟨?_, fun h => absurd h (requestClose_closeReason c _)⟩
      rw [requestClose_waiting, requestClose_projectId, hb]
      exact hi.trans (newer_prefix_append ..)
  · rename_i hskip
    refine ⟨?_, ?_⟩
    · rw [hb]
      exact hi.trans (newer_prefix_append ..)
    · intro hnone
      have hp : c.projectId ≠ b.projectId := by
        intro hp
        simp [Conn.isOpen, hreg, hnone, hp] at hskip
      rw [hb, newer_append, newer_singleton_other hp, List.append_nil]
      exact hcm hnone

lemma ConnOk.broadcast {o o' : Sys D} {c : Conn D} (h : ConnOk o c)
    (hv : ∀ q, o.db.versions q ≤ o'.db.versions q)
    (hc : ∀ ch ∈ o'.committed, ch ∈ o.committed ∨
      (ch.isConfig → o.db.versions ch.projectId < ch.version)) {b : Broadcast D}
    (hb : o'.broadcasts = o.broadcasts ++ [b]) (capacity : ℕ) :
    ConnOk o' (c.broadcast capacity b) := by
  obtain ⟨hfp, hfs, hfi⟩ := broadcast_fixed capacity c b
  refine ⟨?_, ?_⟩
  · intro b' hb'
    rw [hfi, hb]
    have hold : ∀ b' ∈ c.queue, b' ∈ o.broadcasts ++ [b] ∧ b'.projectId = c.projectId :=
      fun b' hb' => ⟨List.mem_append_left _ (h.queue_log b' hb').1, (h.queue_log b' hb').2⟩
    unfold Conn.broadcast at hb'
    split at hb'
    · rename_i hopen
      split at hb'
      · rcases List.mem_append.1 hb' with hb' | hb'
        · exact hold b' hb'
        · simp only [List.mem_singleton] at hb'
          subst hb'
          simp only [Bool.and_eq_true, decide_eq_true_eq] at hopen
          exact ⟨by simp, hopen.2.symm⟩
      · exact hold b' (by simpa using hb')
    · exact hold b' hb'
  · have hph := h.phase
    unfold PhaseOk at hph ⊢
    rw [hfp]
    cases hcp : c.phase with
    | registered =>
      rw [hcp] at hph
      exact hfs.trans hph
    | ready snap =>
      rw [hcp] at hph
      have hreg : c.isRegistered := by simp [Conn.isRegistered, hcp]
      exact ⟨hfs.trans hph.1, hfi.symm ▸ hph.2.1.extend hv hc, hph.2.2.broadcast hreg hb capacity⟩
    | streaming snap upd =>
      rw [hcp] at hph
      have hreg : c.isRegistered := by simp [Conn.isRegistered, hcp]
      obtain ⟨ups, hs, hok, hh⟩ := hph
      exact ⟨ups, hfs.trans hs, hfi.symm ▸ hok.extend hv hc, hh.broadcast hreg hb capacity⟩
    | ended =>
      rw [hcp] at hph
      have hext := EndedStream.extend hph hb
      simpa [EndedStream, hfs, hfi] using hext

/-- The last event of a request: nothing or the terminal one. -/
def IsTail (last : List (StreamEvent D)) : Prop := last = [] ∨ ∃ r, last = [.streamError r]

lemma ConnOk.finish {o : Sys D} {c : Conn D} (h : ConnOk o c) (r : CloseReason)
    {last : List (StreamEvent D)} (hlast : IsTail last) (hreg : c.isRegistered ∨ last = []) :
    ConnOk o (c.finish r last) := by
  refine ⟨by simpa [Conn.finish] using h.queue_log, ?_⟩
  have hph := h.phase
  unfold PhaseOk at hph
  change EndedStream o (c.finish r last)
  unfold EndedStream
  cases hc : c.phase with
  | registered =>
    rw [hc] at hph
    simp only at hph
    left
    exact ⟨last, by simp [Conn.finish, hph], hlast⟩
  | ready snap =>
    rw [hc] at hph
    left
    exact ⟨last, by simp [Conn.finish, hph.1], hlast⟩
  | streaming snap upd =>
    rw [hc] at hph
    obtain ⟨ups, hs, -, hh⟩ := hph
    right
    refine ⟨snap, ups, last, by simp [Conn.finish, hs], hlast, ?_⟩
    simpa [Conn.finish] using (List.prefix_append _ _).trans hh.is_initial
  | ended =>
    rw [hc] at hph
    have hnil : last = [] := by
      rcases hreg with hreg | hnil
      · simp [Conn.isRegistered, hc] at hreg
      · exact hnil
    simpa [Conn.finish, hnil, EndedStream] using hph

theorem ConnOk.outboxStep {capacity : ℕ} {eventError : D → Option String} {o o' : Sys D}
    {c : Conn D} {a : Outbox.Act D} (hl : Ledger o) (h : ConnOk o c)
    (hs : Outbox.step eventError o a = some o') :
    ConnOk o' (c.afterOutbox capacity o o' a) := by
  obtain ⟨hv, hc, hb⟩ := hl.step_extends hs
  have hplain : ∀ c' : Conn D,
      c' = (o'.broadcasts.drop o.broadcasts.length).foldl (Conn.broadcast capacity) c →
      ConnOk o' c' := by
    rintro c' rfl
    rcases hb with hb | ⟨b, hb⟩
    · rw [hb, List.drop_length]
      exact h.extend hv hc hb
    · rw [hb, List.drop_left]
      exact h.broadcast hv hc hb capacity
  cases a with
  | crash =>
    have hext : ConnOk o' c := by
      refine h.extend hv hc ?_
      simp only [Outbox.step, Option.some.injEq] at hs
      rw [← hs]
      rfl
    exact hext.finish .serverShutdown (.inl rfl) (.inr rfl)
  | _ => exact hplain _ rfl

/-! ## Steps of the connection -/

lemma getFlagSnapshot_spec {o : Sys D} (hl : Ledger o) (hlane : Lane o) (p : String) :
    SnapshotOk o p (getFlagSnapshot o p) ∧
      ∀ b ∈ o.broadcasts, b.projectId = p →
        b.projectVersion ≤ (getFlagSnapshot o p).version := by
  refine ⟨⟨le_rfl, ?_, ?_⟩, ?_⟩
  · intro ch hch hcfg
    obtain ⟨hmem, hp⟩ := List.mem_filter.1 hch
    simp only [decide_eq_true_eq] at hp
    exact hp ▸ hl.committed_le ch hmem hcfg
  · intro ch hch _ hp
    exact .inl (List.mem_filter.2 ⟨hch, by simpa using hp⟩)
  · intro b hb hp
    obtain ⟨c, hc, hcfg, -, hcp, hv⟩ := hlane.log_source b hb
    rw [← hv, ← hp, ← hcp]
    exact hl.committed_le c hc hcfg

lemma ConnOk.readSnapshot {o : Sys D} {c : Conn D} (hl : Ledger o) (hlane : Lane o)
    (h : ConnOk o c) (hph : c.phase = .registered) :
    ConnOk o { c with phase := .ready (getFlagSnapshot o c.projectId) } := by
  obtain ⟨hok, hle⟩ := getFlagSnapshot_spec hl hlane c.projectId
  have hsent := h.phase
  simp only [PhaseOk, hph] at hsent
  have hnone : newer o.broadcasts c.projectId (getFlagSnapshot o c.projectId).version = [] := by
    refine List.filter_eq_nil_iff.2 fun b hb hnew => ?_
    simp only [Bool.and_eq_true, decide_eq_true_eq] at hnew
    have := hle b hb hnew.1
    omega
  have hwait : Conn.waiting { c with phase := .ready (getFlagSnapshot o c.projectId) }
      (getFlagSnapshot o c.projectId).version = [] := by
    refine List.filter_eq_nil_iff.2 fun b hb hnew => ?_
    simp only [List.nil_append] at hb
    simp only [decide_eq_true_eq] at hnew
    have := hle b (h.queue_log b hb).1 (h.queue_log b hb).2
    omega
  have heq := hwait.trans hnone.symm
  exact ⟨h.queue_log, hsent, hok, ⟨heq ▸ List.prefix_rfl, fun _ => heq⟩⟩

lemma ConnOk.authorize {o : Sys D} {c : Conn D} (h : ConnOk o c) {snap : Snapshot D}
    (hph : c.phase = .ready snap) :
    ConnOk o { c with phase := .streaming snap none, sent := c.sent ++ [.config snap] } := by
  have hsent := h.phase
  simp only [PhaseOk, hph] at hsent
  obtain ⟨hnil, hok, hi, hcm⟩ := hsent
  have hwait : c.waiting snap.version =
      c.queue.filter fun b => decide (snap.version < b.projectVersion) := by
    simp [Conn.waiting, hph]
  rw [hwait] at hi hcm
  exact ⟨h.queue_log, [], by simp [hnil], hok, ⟨hi, hcm⟩⟩

lemma ConnOk.nextUpdate {o : Sys D} {c : Conn D} (h : ConnOk o c) {snap : Snapshot D}
    {b : Broadcast D} {queue : List (Broadcast D)} (hph : c.phase = .streaming snap none)
    (hq : c.queue = b :: queue) :
    ConnOk o { c with phase := .streaming snap (some b), queue := queue } := by
  have hsent := h.phase
  simp only [PhaseOk, hph] at hsent
  obtain ⟨ups, hs, hok, hh⟩ := hsent
  have hwait : Conn.waiting { c with phase := .streaming snap (some b), queue := queue }
      snap.version = c.waiting snap.version := by
    simp [Conn.waiting, hph, hq]
  refine ⟨fun b' hb' => h.queue_log b' (by rw [hq]; exact List.mem_cons_of_mem _ hb'), ?_⟩
  exact ⟨ups, hs, hok, ⟨hwait ▸ hh.is_initial, fun hn => hwait ▸ hh.complete hn⟩⟩

lemma ConnOk.emit {o : Sys D} {c : Conn D} (h : ConnOk o c) {snap : Snapshot D}
    {b : Broadcast D} (hph : c.phase = .streaming snap (some b)) :
    ConnOk o (if b.projectVersion ≤ snap.version then { c with phase := .streaming snap none }
      else { c with phase := .streaming snap none, sent := c.sent ++ [.update b] }) := by
  have hsent := h.phase
  simp only [PhaseOk, hph] at hsent
  obtain ⟨ups, hs, hok, hh⟩ := hsent
  split
  · rename_i hle
    have hwait : Conn.waiting { c with phase := .streaming snap none } snap.version =
        c.waiting snap.version := by
      simp [Conn.waiting, hph, hle]
    exact ⟨h.queue_log, ups, hs, hok, ⟨hwait ▸ hh.is_initial, fun hn => hwait ▸ hh.complete hn⟩⟩
  · rename_i hgt
    have hwait : ups ++ c.waiting snap.version = (ups ++ [b]) ++ Conn.waiting
        { c with phase := .streaming snap none, sent := c.sent ++ [.update b] } snap.version := by
      have hlt : snap.version < b.projectVersion := Nat.lt_of_not_le hgt
      simp [Conn.waiting, hph, hlt]
    refine ⟨h.queue_log, ups ++ [b], by simp [hs], hok, ⟨?_, fun hn => ?_⟩⟩
    · exact hwait ▸ hh.is_initial
    · exact hwait ▸ hh.complete hn

theorem ConnOk.connStep {o : Sys D} {c c' : Conn D} {a : Act D} (hl : Ledger o) (hlane : Lane o)
    (h : ConnOk o c) (hs : c.step o a = some c') : ConnOk o c' := by
  have hregistered : c.phase ≠ .ended → c.isRegistered := by
    intro hne
    unfold Conn.isRegistered
    cases hc : c.phase with
    | ended => exact absurd hc hne
    | _ => rfl
  cases a with
  | readSnapshot ok =>
    simp only [Conn.step] at hs
    split at hs
    · rename_i hph
      split at hs
      · cases hs
        exact h.readSnapshot hl hlane hph
      · cases hs
        exact h.finish _ (.inl rfl) (.inr rfl)
    · cases hs
  | authorize authority =>
    simp only [Conn.step] at hs
    split at hs
    · rename_i snap hph
      split at hs
      · cases hs
        exact h.authorize hph
      · cases hs
        exact h.finish _ (.inr ⟨_, rfl⟩) (.inl (hregistered (by simp [hph])))
    · cases hs
  | nextUpdate =>
    simp only [Conn.step] at hs
    split at hs
    · rename_i snap b queue hph hq hnone
      cases hs
      exact h.nextUpdate hph hq
    · cases hs
  | emit =>
    simp only [Conn.step] at hs
    split at hs
    · rename_i snap b hph
      rw [← apply_ite some] at hs
      cases hs
      exact h.emit hph
    · cases hs
  | recheck authority =>
    simp only [Conn.step] at hs
    split at hs
    · rename_i snap upd hph
      split at hs
      · cases hs
        exact h
      · cases hs
        exact h.finish _ (.inr ⟨_, rfl⟩) (.inl (hregistered (by simp [hph])))
    · cases hs
  | observeClose =>
    simp only [Conn.step] at hs
    split at hs
    · rename_i snap reason hph hr
      cases hs
      exact h.finish _ (.inr ⟨_, rfl⟩) (.inl (hregistered (by simp [hph])))
    · cases hs
  | expire =>
    simp only [Conn.step] at hs
    split at hs
    · cases hs
      exact h.requestClose _
    · cases hs
  | shutdown =>
    simp only [Conn.step] at hs
    split at hs
    · cases hs
      exact h.requestClose _
    · cases hs
  | disconnect =>
    simp only [Conn.step] at hs
    split at hs
    · cases hs
      exact h.finish _ (.inl rfl) (.inr rfl)
    · cases hs
  | outbox a => cases hs
  | register p => cases hs

/-! ## The result -/

/-- The invariants of the outbox and of the connection. -/
structure WorldOk (w : World D) : Prop where
  ledger : Ledger w.outbox
  lane : Lane w.outbox
  conn : ∀ c, w.conn = some c → ConnOk w.outbox c

theorem reach_worldOk {capacity : ℕ} {eventError : D → Option String} {w : World D}
    (h : (machine capacity eventError).Reach w) : WorldOk w := by
  refine StepMachine.Reach.induct (P := WorldOk)
    ⟨Ledger.initial, Lane.initial, fun c hc => by cases hc⟩ ?_ h
  intro w a w' _ hok hs
  have hconn : ∀ a' c, w.conn = some c →
      ((c.step w.outbox a').map fun c' => (⟨w.outbox, some c'⟩ : World D)) = some w' →
      WorldOk w' := by
    intro a' c hc hs
    obtain ⟨c', hc', rfl⟩ := Option.map_eq_some_iff.1 hs
    refine ⟨hok.ledger, hok.lane, fun c'' heq => ?_⟩
    cases heq
    exact (hok.conn c hc).connStep hok.ledger hok.lane hc'
  cases a with
  | outbox a =>
    obtain ⟨o', ho', rfl⟩ := Option.map_eq_some_iff.1 hs
    refine ⟨hok.ledger.step ho', hok.lane.step hok.ledger ho', ?_⟩
    intro c' hc'
    obtain ⟨c, hc, rfl⟩ := Option.map_eq_some_iff.1 hc'
    exact (hok.conn c hc).outboxStep hok.ledger ho'
  | register p =>
    simp only [machine, step] at hs
    split at hs
    · cases hs
      refine ⟨hok.ledger, hok.lane, fun c hc => ?_⟩
      cases hc
      exact ⟨by simp, rfl⟩
    · cases hs
  | _ =>
    simp only [machine, step] at hs
    split at hs
    · cases hs
    · next c hc => exact hconn _ c hc hs

lemma ConnOk.stream {o : Sys D} {c : Conn D} (h : ConnOk o c) :
    (∀ e ∈ c.sent, ∃ r, e = .streamError r) ∨
    ∃ snap ups tail, c.sent = .config snap :: ups.map .update ++ tail ∧ IsTail tail ∧
      ups <+: newer o.broadcasts c.projectId snap.version ∧
      (c.isOpen → tail = [] ∧ SnapshotOk o c.projectId snap ∧
        ups ++ c.waiting snap.version = newer o.broadcasts c.projectId snap.version) := by
  have hph := h.phase
  unfold PhaseOk at hph
  cases hc : c.phase with
  | registered =>
    rw [hc] at hph
    simp only at hph
    left
    simp [hph]
  | ready snap =>
    rw [hc] at hph
    left
    simp [hph.1]
  | streaming snap upd =>
    rw [hc] at hph
    obtain ⟨ups, hs, hok, hh⟩ := hph
    right
    refine ⟨snap, ups, [], by simp [hs], .inl rfl, (List.prefix_append _ _).trans hh.is_initial, ?_⟩
    intro hopen
    simp only [Conn.isOpen, Bool.and_eq_true, Option.isNone_iff_eq_none] at hopen
    exact ⟨rfl, hok, hh.complete hopen.2⟩
  | ended =>
    rw [hc] at hph
    have hclosed : ¬ c.isOpen := by simp [Conn.isOpen, Conn.isRegistered, hc]
    rcases hph with ⟨tail, hs, htail⟩ | ⟨snap, ups, tail, hs, htail, hpre⟩
    · left
      rcases htail with rfl | ⟨r, rfl⟩ <;> simp [hs]
    · right
      exact ⟨snap, ups, tail, hs, htail, hpre, fun hopen => absurd hopen hclosed⟩

lemma mem_newer_of_delivered {o : Sys D} (hl : Ledger o) (hlane : Lane o) {ch : Row D}
    (hch : ch ∈ o.committed) {v : ℕ} (hv : v < ch.version) (hd : ch.id ∈ o.deliveredIds) :
    ∃ b ∈ newer o.broadcasts ch.projectId v, b.rowId = ch.id := by
  obtain ⟨b, hb, hid⟩ := List.mem_map.1 hd
  obtain ⟨c, hc, -, hcid, hcp, hcv⟩ := hlane.log_source b hb
  have heq : c = ch := hl.known_inj c ch (.inl hc) (.inl hch) (hcid.trans hid)
  subst heq
  refine ⟨b, List.mem_filter.2 ⟨hb, ?_⟩, hid⟩
  simp only [Bool.and_eq_true, decide_eq_true_eq]
  exact ⟨hcp.symm, hcv ▸ hv⟩

/-- **The snapshot handoff.** In every reachable state the client has received no config data, or
the snapshot followed by an initial part of the newer broadcasts of its project (and at most a
terminal event). While the connection is open, that part and the updates that wait for the client
are all newer broadcasts, in order; and a committed change whose outbox row was never quarantined
is in the snapshot, among these updates, or still open in the outbox.

**Proof sketch.** At the snapshot everything broadcast is at or below its version (`Ledger`,
`Lane`), so nothing is newer; from then on every broadcast of the project enters the queue or
closes the connection, and the generator moves updates from the queue to the client without
dropping a newer one (`ConnOk`). A change missing from the snapshot was committed after it, so its
version is higher; if its row is not open any more it was broadcast. -/
theorem snapshot_handoff {capacity : ℕ} {eventError : D → Option String} {w : World D} {c : Conn D}
    (h : (machine capacity eventError).Reach w) (hc : w.conn = some c) :
    (∀ e ∈ c.sent, ∃ r, e = .streamError r) ∨
    ∃ snap ups tail, c.sent = .config snap :: ups.map .update ++ tail ∧ IsTail tail ∧
      ups <+: newer w.outbox.broadcasts c.projectId snap.version ∧
      (c.isOpen → tail = [] ∧
        ups ++ c.waiting snap.version = newer w.outbox.broadcasts c.projectId snap.version ∧
        ∀ ch ∈ w.outbox.committed, ch.isConfig → ch.projectId = c.projectId →
          ch.id ∉ w.outbox.everQuarantined →
          ch ∈ snap.changes ∨ (∃ b ∈ ups ++ c.waiting snap.version, b.rowId = ch.id) ∨
            ∃ r ∈ w.outbox.db.rows, SameRow r ch ∧ r.isOpen) := by
  have hok := reach_worldOk h
  rcases (hok.conn c hc).stream with herr | ⟨snap, ups, tail, hs, htail, hpre, hopen⟩
  · exact .inl herr
  right
  refine ⟨snap, ups, tail, hs, htail, hpre, fun ho => ?_⟩
  obtain ⟨hnil, hsnap, heq⟩ := hopen ho
  refine ⟨hnil, heq, fun ch hch hcfg hp hq => ?_⟩
  rcases hsnap.later ch hch hcfg hp with hin | hlater
  · exact .inl hin
  rcases hok.lane.pending_or_delivered hch hcfg hq with hrow | hd
  · exact .inr (.inr hrow)
  · right
    left
    rw [heq, ← hp]
    exact mem_newer_of_delivered hok.ledger hok.lane hch hlater hd

/-- A change committed and broadcast after the snapshot reaches the client. -/
def streamedRun : List (Act String) :=
  [.register "p", .readSnapshot true, .authorize .authorized,
    .outbox (.begin 0 "p"), .outbox (.allocate 0),
    .outbox (.insertConfig 0 .flag "f:1:flag_created" "f1"), .outbox (.commit 0),
    .outbox (.claim true), .outbox (.deliver .ok), .outbox (.settle true), .nextUpdate, .emit]

/-- The handoff on a run with one change: the client has the empty snapshot and the update. -/
theorem snapshot_handoff_streamedRun :
    ∃ (w : World String) (c : Conn String),
      (machine 256 fun _ => none).run (machine 256 fun _ => none).init streamedRun = some w ∧
      w.conn = some c ∧ c.isOpen ∧ ∃ snap ups, c.sent = .config snap :: ups.map .update ∧
        ups ++ c.waiting snap.version = newer w.outbox.broadcasts c.projectId snap.version := by
  have hrun : ((machine 256 fun _ => none).run (machine 256 fun _ => none).init streamedRun).map
      World.conn = some (some ⟨"p", [], none, .streaming ⟨0, []⟩ none,
        [.config ⟨0, []⟩, .update ⟨1, "p", .flagUpdate, 1, "f1"⟩]⟩) := by decide +kernel
  obtain ⟨w, hw, hconn⟩ := Option.map_eq_some_iff.1 hrun
  refine ⟨w, _, hw, hconn, by decide, ?_⟩
  rcases snapshot_handoff (StepMachine.reach_of_run hw) hconn with herr | hstream
  · obtain ⟨r, hr⟩ := herr (.config ⟨0, []⟩) (by simp)
    cases hr
  · obtain ⟨snap, ups, tail, hs, -, -, hopen⟩ := hstream
    obtain ⟨rfl, heq, -⟩ := hopen (by decide)
    exact ⟨snap, ups, by simpa using hs, heq⟩

/-- One failed delivery attempt of the only row, and the wait for the next. -/
def failedAttempt : List (Act String) :=
  [.outbox (.claim true), .outbox (.deliver (.error "redis unavailable")), .outbox (.settle true),
    .outbox (.tick 60)]

/-- A change is committed after the snapshot, and its eight delivery attempts fail. -/
def quarantinedRun : List (Act String) :=
  [.register "p", .readSnapshot true, .authorize .authorized,
    .outbox (.begin 0 "p"), .outbox (.allocate 0),
    .outbox (.insertConfig 0 .flag "f:1:flag_created" "f1"), .outbox (.commit 0)] ++
  (List.replicate maxDeliveryAttempts failedAttempt).flatten

/-- Without the exception for quarantined rows the handoff fails: a change whose delivery was
given up is in neither the snapshot nor the stream of an open connection, although no row is left
to deliver and nothing waits for the client. -/
theorem quarantined_change_missing :
    ¬ ∀ (w : World String) (c : Conn String), (machine 256 fun _ => none).Reach w →
      w.conn = some c → c.isOpen → (∀ r ∈ w.outbox.db.rows, r.isOpen = false) →
      (∀ v, c.waiting v = []) → ∀ ch ∈ w.outbox.committed, ch.isConfig →
      ch.projectId = c.projectId →
      (∃ snap, .config snap ∈ c.sent ∧ ch ∈ snap.changes) ∨
        ∃ b, .update b ∈ c.sent ∧ b.rowId = ch.id := by
  intro hall
  let ch : Row String :=
    insertOutbox 1 0 "p" .flagChange "f:1:flag_created" (.config .flagUpdate 1 "f1")
  let c : Conn String := ⟨"p", [], none, .streaming ⟨0, []⟩ none, [.config ⟨0, []⟩]⟩
  have hrun : ((machine 256 fun _ => none).run (machine 256 fun _ => none).init
      quarantinedRun).map (fun w => (w.conn, w.outbox.db.rows.map Row.isOpen, w.outbox.committed))
      = some (some c, [false], [ch]) := by decide +kernel
  obtain ⟨w, hw, heq⟩ := Option.map_eq_some_iff.1 hrun
  simp only [Prod.mk.injEq] at heq
  obtain ⟨hconn, hrows, hcommitted⟩ := heq
  have hclosed : ∀ r ∈ w.outbox.db.rows, r.isOpen = false := by
    intro r hr
    have := List.mem_map_of_mem (f := Row.isOpen) hr
    rw [hrows] at this
    simpa using this
  have hmissing := hall w c (StepMachine.reach_of_run hw) hconn (by decide) hclosed
    (fun v => rfl) ch (by simp [hcommitted]) (by decide) rfl
  rcases hmissing with ⟨snap, hsent, hin⟩ | ⟨b, hsent, -⟩
  · simp only [c, List.mem_singleton, StreamEvent.config.injEq] at hsent
    subst hsent
    cases hin
  · simp [c] at hsent

end Apdl.Config.Sse
