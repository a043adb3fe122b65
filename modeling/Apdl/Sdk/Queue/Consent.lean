import Apdl.Sdk.Queue.Model

set_option autoImplicit false

/-!
# The consent fence

In every run whose steps avoid the races the code leaves open, an event that the queue held when
`revokeAnalyticsConsent` was called is in no request that starts afterwards.

## Main results

* `stale_claim_crosses_fence` — a claim that is acknowledged after a revocation is not.

## Design

Every task remembers the consent epoch of what it holds. The invariant says that what it holds in
the current epoch is clean, and that a delivery of an older epoch is aborted while it may still
send; a revocation makes every epoch an older one.
-/

namespace Apdl.Sdk

/-- No request contains an event that was held at an earlier revocation. -/
def Fenced (log : List Effect) : Prop :=
  ∀ before held after, log = before ++ .revoke held :: after →
    ∀ events, Effect.send events ∈ after → ∀ x ∈ events, x ∉ held

/-- A claim goes on under the consent it was made under: it does not overtake the fence of a newer
revocation, and what it brings into the queue was claimed since the last revocation. -/
def ClaimSound (s : State) : ClaimTask → ClaimAct → Prop
  | .waitFence _, .fence _ _ => s.fencePending = false ∨ s.granted = false
  | .releasing epoch _, .released _ _ => epoch = s.consentEpoch ∨ s.granted = false
  | .acknowledging epoch claimedPending, .acknowledged =>
    epoch = s.consentEpoch ∨ claimedPending = []
  | _, _ => True

/-- The steps that avoid the races:

* a claim goes on under the consent it was made under;
* the document is not hidden while the normal drain owns a batch from before a revocation;
* a lifecycle drain that waited for a fence does not register its delivery over one of the normal
  drain that can still send;
* the clear of a fence does not fail on records;
* a failed store does not fall back to memory after a revocation. -/
def StepSound (s : State) : Act → Prop
  | .startClaim a =>
    match s.start with
    | .claiming c => ClaimSound s c a
    | _ => True
  | .normal (.claim a) =>
    match s.normal with
    | .claiming c => ClaimSound s c a
    | _ => True
  | .flushOnUnload .. =>
    match s.activeDelivery, s.normal with
    | some .normal, .working b _ =>
      s.unloadPromise ≠ none ∨ b.takenOver = true ∨ b.ownedEvents = [] ∨ b.epoch = s.consentEpoch
    | _, _ => True
  | .lifecycle _ (.fence keep _ _ _) =>
    match s.activeDelivery, s.normal with
    | some .normal, .working b _ =>
      b.aborted = true ∨ s.granted = false ∨ (dequeueBatch s.queue keep).1 = []
    | _, _ => True
  | .fenceClear commit => commit = true ∨ s.storage.records = []
  | .storeFallback _ =>
    match s.storage.failed with
    | f :: _ => f.epoch = s.consentEpoch ∨ f.events = []
    | [] => True
  | _ => True

/-! ## The invariant -/

/-- What the invariant of a task refers to. -/
structure View where
  epoch : ℕ
  settled : ℕ
  fence : FenceStage
  revoked : List EventId

def State.view (s : State) : View :=
  { epoch := s.consentEpoch
    settled := s.fencesSettled
    fence := s.fence
    revoked := revoked s.log }

/-- None of the events was held at a revocation. -/
def Clean (v : View) (events : List EventId) : Prop := ∀ x ∈ events, x ∉ v.revoked

/-- A claim of the current epoch is clean. -/
def ClaimOk (v : View) : ClaimTask → Prop
  | .claiming epoch ps =>
    epoch ≤ v.epoch ∧ (epoch = v.epoch → v.settled = v.epoch ∧ Clean v (eventsOf ps))
  | .received epoch ps | .releasing epoch ps | .acknowledging epoch ps =>
    epoch ≤ v.epoch ∧ (epoch = v.epoch → Clean v (eventsOf ps))
  | _ => True

/-- What the normal drain may still send, requeue or store. -/
def BatchStage.live : BatchStage → List Pending
  | .disposing ps | .acknowledging ps | .releasing ps | .storing ps | .returned _ _ ps => ps
  | .fetching work _ _ _ | .sleeping work _ _ _ => work.flatten
  | .clearing _ => []

/-- The stages from which requests may start. -/
def BatchStage.sends : BatchStage → Bool
  | .disposing _ | .fetching .. | .sleeping .. => true
  | _ => false

/-- The stages at which further requests start without a consent check. -/
def BatchStage.requesting : BatchStage → Bool
  | .fetching .. | .sleeping .. => true
  | _ => false

lemma sends_of_requesting {stage : BatchStage} (h : stage.requesting = true) :
    stage.sends = true := by
  cases stage <;> simp_all [BatchStage.sends, BatchStage.requesting]

/-- A batch of the current epoch is clean; while it may be sent, it is the active delivery or
aborted; and it is aborted if it is of an older epoch and being sent. -/
structure BatchOk (v : View) (active : Option ActiveRef) (b : Batch) (stage : BatchStage) :
    Prop where
  epoch_le : b.epoch ≤ v.epoch
  clean : b.epoch = v.epoch → Clean v (eventsOf b.ownedEvents) ∧ Clean v (eventsOf stage.live)
  registered : stage.sends = true → active = some .normal ∨ b.aborted = true
  aborted : stage.requesting = true → b.epoch ≠ v.epoch → b.aborted = true
  takenOver : b.takenOver = true → b.aborted = true

def NormalOk (v : View) (active : Option ActiveRef) : NormalTask → Prop
  | .claiming c => ClaimOk v c
  | .working b stage => BatchOk v active b stage
  | _ => True

def StartOk (v : View) : StartTask → Prop
  | .claiming c => ClaimOk v c
  | _ => True

/-- A lifecycle batch of the current epoch is clean. -/
def LifecycleOk (v : View) : LifecycleTask → Prop
  | .sending epoch ps => epoch ≤ v.epoch ∧ (epoch = v.epoch → Clean v (eventsOf ps))
  | _ => True

/-- The storage is clean as far as the fence of the last revocation has come. -/
structure StorageOk (v : View) (st : Storage) : Prop where
  fallback : (v.settled = v.epoch ∨ v.settled + 1 = v.epoch ∧ v.fence ≠ .waiting) →
    Clean v (st.fallbackQueue.map Record.event)
  records : (v.settled = v.epoch ∨ v.settled + 1 = v.epoch ∧ v.fence = .cleared) →
    Clean v (st.records.map Record.event)
  failed : ∀ f ∈ st.failed, f.epoch ≤ v.epoch ∧ (f.epoch = v.epoch → Clean v f.events)

/-- The invariant. -/
structure State.Ok (s : State) : Prop where
  queue : Clean s.view (eventsOf s.queue)
  normal : NormalOk s.view s.activeDelivery s.normal
  start : StartOk s.view s.start
  lifecycles : ∀ l ∈ s.lifecycles, LifecycleOk s.view l.2
  storage : StorageOk s.view s.storage
  settled : s.fencesSettled ≤ s.consentEpoch
  fence : s.fence ≠ .waiting → s.fencesSettled < s.consentEpoch
  fenced : Fenced s.log

/-! ## Clean events -/

section Clean

variable {v : View}

lemma clean_nil : Clean v [] := fun _ h => absurd h List.not_mem_nil

lemma Clean.append {xs ys : List EventId} (hx : Clean v xs) (hy : Clean v ys) :
    Clean v (xs ++ ys) :=
  fun x h => (List.mem_append.1 h).elim (hx x) (hy x)

lemma Clean.mono {xs ys : List EventId} (h : Clean v ys) (hsub : xs ⊆ ys) : Clean v xs :=
  fun x hx => h x (hsub hx)

lemma eventsOf_subset {ps qs : List Pending} (h : ps ⊆ qs) : eventsOf ps ⊆ eventsOf qs :=
  List.map_subset Pending.event h

lemma eventsOf_append (ps qs : List Pending) : eventsOf (ps ++ qs) = eventsOf ps ++ eventsOf qs :=
  List.map_append

lemma sift_subset (ps : List Pending) (keep : List Bool) :
    (sift ps keep).1 ⊆ ps ∧ (sift ps keep).2 ⊆ ps := by
  induction ps generalizing keep with
  | nil => cases keep <;> simp [sift]
  | cons p ps ih =>
    obtain ⟨h1, h2⟩ := ih keep.tail
    cases keep with
    | nil => simp [sift]
    | cons k keep =>
      cases k with
      | true => exact ⟨List.cons_subset_cons p h1, List.subset_cons_of_subset p h2⟩
      | false => exact ⟨List.subset_cons_of_subset p h1, List.cons_subset_cons p h2⟩

lemma dequeueBatch_subset (queue : List Pending) (keep : List Bool) :
    (dequeueBatch queue keep).1 ⊆ queue ∧ (dequeueBatch queue keep).2.2 ⊆ queue :=
  ⟨List.Subset.trans (sift_subset _ _).1 (List.take_subset _ _), List.drop_subset _ _⟩

@[simp] lemma revoked_send (log : List Effect) (events : List EventId) :
    revoked (log ++ [.send events]) = revoked log := by
  simp [revoked]

lemma mem_revoked {log : List Effect} {held : List EventId} (h : .revoke held ∈ log) {x : EventId}
    (hx : x ∈ held) : x ∈ revoked log :=
  List.mem_flatMap.2 ⟨.revoke held, h, hx⟩

end Clean

lemma Fenced.send {log : List Effect} (h : Fenced log) {events : List EventId}
    (hclean : ∀ x ∈ events, x ∉ revoked log) : Fenced (log ++ [.send events]) := by
  intro before held after hlog es hes x hx hheld
  rcases List.eq_nil_or_concat after with rfl | ⟨init, last, rfl⟩
  · exact absurd hes List.not_mem_nil
  · rw [List.concat_eq_append, ← List.cons_append, ← List.append_assoc] at hlog
    obtain ⟨hinit, hlast⟩ := List.append_inj' hlog rfl
    rw [List.concat_eq_append] at hes
    rcases List.mem_append.1 hes with hes | hes
    · exact h before held init hinit es hes x hx hheld
    · obtain rfl := List.mem_singleton.1 hes
      obtain rfl : events = es := by simpa using hlast
      refine hclean x hx (mem_revoked ?_ hheld)
      rw [hinit]
      simp

lemma Fenced.revoke {log : List Effect} (h : Fenced log) (held : List EventId) :
    Fenced (log ++ [.revoke held]) := by
  intro before held' after hlog es hes x hx hheld
  rcases List.eq_nil_or_concat after with rfl | ⟨init, last, rfl⟩
  · exact absurd hes List.not_mem_nil
  · rw [List.concat_eq_append, ← List.cons_append, ← List.append_assoc] at hlog
    obtain ⟨hinit, hlast⟩ := List.append_inj' hlog rfl
    rw [List.concat_eq_append] at hes
    rcases List.mem_append.1 hes with hes | hes
    · exact h before held' init hinit es hes x hx hheld
    · have : Effect.revoke held = last := by simpa using hlast
      rw [← this] at hes
      simp at hes

/-! ## Storage -/

section Storage

variable {v : View} {st : Storage}

lemma newRecords_events (st : Storage) (events : List EventId) :
    (st.newRecords events).map Record.event = events := by
  simp [Storage.newRecords, Function.comp_def]

lemma records_subset {p : Record → Bool} (rs : List Record) :
    (rs.filter p).map Record.event ⊆ rs.map Record.event :=
  List.map_subset _ (List.filter_subset_self rs)

lemma StorageOk.delete (h : StorageOk v st) (gone : Record → Bool) (commit : Bool) :
    StorageOk v (st.delete gone commit) where
  fallback hv := (h.fallback hv).mono (records_subset _)
  records hv := by
    cases commit with
    | true => exact (h.records hv).mono (records_subset _)
    | false => exact h.records hv
  failed := h.failed

lemma StorageOk.clearFallback (h : StorageOk v st) : StorageOk v st.clearFallback :=
  { h with fallback := fun _ => clean_nil }

lemma StorageOk.clearRecords (h : StorageOk v st) (commit : Bool) :
    StorageOk v (st.clearRecords commit) := by
  cases commit with
  | true => exact { h with records := fun _ => clean_nil }
  | false => exact h

lemma clean_added {rs : List Record} {events : List EventId} (hrs : Clean v (rs.map Record.event))
    (hevents : Clean v events) (evicted : List RecordId) :
    Clean v (((rs ++ st.newRecords events).filter fun r => decide (r.id ∉ evicted)).map
      Record.event) := by
  refine Clean.mono ?_ (records_subset _)
  rw [List.map_append, newRecords_events]
  exact hrs.append hevents

lemma StorageOk.store (h : StorageOk v st) {events : List EventId} (hevents : Clean v events)
    (durable : Bool) (evicted : List RecordId) :
    StorageOk v (st.store v.epoch events durable evicted) := by
  cases durable with
  | true => exact { h with records := fun hv => clean_added (h.records hv) hevents evicted }
  | false =>
    refine { h with failed := fun f hf => ?_ }
    rcases List.mem_append.1 hf with hf | hf
    · exact h.failed f hf
    · obtain rfl := List.mem_singleton.1 hf
      exact ⟨Nat.le_refl _, fun _ => hevents⟩

lemma StorageOk.fenceCalled (h : StorageOk v st) (hlt : v.settled < v.epoch) :
    StorageOk { v with fence := .called } st.clearFallback where
  fallback _ := clean_nil
  records hv := hv.elim (absurd · (Nat.ne_of_lt hlt)) fun hf => absurd hf.2 (by simp)
  failed := h.failed

lemma StorageOk.fenceCleared (h : StorageOk v st) (hfence : v.fence = .called) {commit : Bool}
    (hcommit : commit = true ∨ st.records = []) :
    StorageOk { v with fence := .cleared } (st.clearRecords commit) := by
  have hst := h.clearRecords commit
  have hrecords : (st.clearRecords commit).records = [] := by
    rcases hcommit with rfl | hnil
    · rfl
    · cases commit <;> simp [Storage.clearRecords, hnil]
  refine { hst with fallback := fun hv => hst.fallback ?_, records := fun _ => ?_ }
  · exact hv.imp_right fun hf => ⟨hf.1, by simp [hfence]⟩
  · rw [hrecords]
    exact clean_nil

lemma StorageOk.fenceSettled (h : StorageOk v st) (hfence : v.fence = .cleared) :
    StorageOk { v with settled := v.settled + 1, fence := .waiting } st where
  fallback hv := h.fallback (.inr (hv.elim (⟨·, by simp [hfence]⟩) fun hf => absurd rfl hf.2))
  records hv := h.records (.inr (hv.elim (⟨·, hfence⟩) fun hf => absurd hf.2 (by simp)))
  failed := h.failed

lemma claimed_events_subset (rs : List Record) (ids : List RecordId) :
    eventsOf (Storage.claimed rs ids) ⊆ rs.map Record.event := by
  intro x hx
  simp only [eventsOf, Storage.claimed, List.mem_map, List.mem_filter] at hx ⊢
  obtain ⟨p, ⟨r, ⟨hr, -⟩, rfl⟩, rfl⟩ := hx
  exact ⟨r, hr, rfl⟩

end Storage

/-! ## Frames -/

section Frame

variable {s : State}

lemma State.Ok.setQueue (h : s.Ok) {q : List Pending} (hq : Clean s.view (eventsOf q)) :
    State.Ok { s with queue := q } :=
  { h with queue := hq }

lemma State.Ok.setStorage (h : s.Ok) {st : Storage} (hst : StorageOk s.view st) :
    State.Ok { s with storage := st } :=
  { h with storage := hst }

lemma State.Ok.setNormal (h : s.Ok) {t : NormalTask} (ht : NormalOk s.view s.activeDelivery t) :
    State.Ok { s with normal := t } :=
  { h with normal := ht }

lemma State.Ok.setActive (h : s.Ok) {a : Option ActiveRef}
    (hn : NormalOk s.view a s.normal) :
    State.Ok { s with activeDelivery := a } :=
  { h with normal := hn }

lemma State.Ok.callClear (h : s.Ok) : s.callClear.Ok := h.setStorage h.storage.clearFallback

lemma State.Ok.finishClear (h : s.Ok) (commit : Bool) : (s.finishClear commit).Ok :=
  h.setStorage (h.storage.clearRecords commit)

@[simp] lemma view_send (s : State) (ps : List Pending) : (s.send ps).view = s.view := by
  simp [State.send, State.view]

lemma State.Ok.send (h : s.Ok) {ps : List Pending} (hps : Clean s.view (eventsOf ps)) :
    (s.send ps).Ok where
  queue := by rw [view_send]; exact h.queue
  normal := by rw [view_send]; exact h.normal
  start := by rw [view_send]; exact h.start
  lifecycles := by rw [view_send]; exact h.lifecycles
  storage := by rw [view_send]; exact h.storage
  settled := h.settled
  fence := h.fence
  fenced := h.fenced.send hps

lemma State.Ok.leaveBatch (h : s.Ok) : s.leaveBatch.Ok := { h with normal := trivial }

lemma State.Ok.nextBatch (h : s.Ok) : s.nextBatch.Ok := { h with normal := trivial }

lemma State.Ok.atStage (h : s.Ok) {b : Batch} {stage : BatchStage}
    (hb : BatchOk s.view s.activeDelivery b stage) : (s.atStage b stage).Ok :=
  h.setNormal hb

lemma epoch_of_not_stale {epoch : ℕ} (h : ¬s.stale epoch = true) : epoch = s.view.epoch := by
  simp only [State.stale, Bool.or_eq_true, decide_eq_true_eq, not_or, not_not] at h
  exact h.1

end Frame

/-! ## Claims -/

section Claims

variable {s s' : State} {c c' : ClaimTask} {a : ClaimAct}

lemma startClaim_ok (h : s.Ok) (hfence : s.fencePending = false ∨ s.granted = false) (full : Bool)
    (ids : List RecordId) :
    (startClaim s full ids).1.Ok ∧
      ClaimOk (startClaim s full ids).1.view (startClaim s full ids).2 := by
  unfold startClaim
  split
  · exact ⟨h.callClear, trivial⟩
  next hgranted =>
    split
    · exact ⟨h, trivial⟩
    · have hsettled : s.view.settled = s.view.epoch := by
        have hpending := hfence.resolve_right hgranted
        simp only [State.fencePending, decide_eq_false_iff_not, Nat.not_lt] at hpending
        exact Nat.le_antisymm h.settled hpending
      refine ⟨h, Nat.le_refl _, fun _ => ⟨hsettled, ?_⟩⟩
      exact (h.storage.fallback (.inl hsettled)).mono (claimed_events_subset _ _)

lemma claimOfflineEvents_ok (h : s.Ok) (full : Bool) (ids : List RecordId) :
    (claimOfflineEvents s full ids).1.Ok ∧
      ClaimOk (claimOfflineEvents s full ids).1.view (claimOfflineEvents s full ids).2 := by
  unfold claimOfflineEvents
  split
  · exact ⟨h, trivial⟩
  next hpending => exact startClaim_ok h (.inl (by simpa using hpending)) full ids

lemma validateClaims_ok (h : s.Ok) {epoch : ℕ} {usable : List Pending}
    (hle : epoch ≤ s.view.epoch)
    (hclean : epoch = s.view.epoch → Clean s.view (eventsOf usable))
    (hsound : epoch = s.view.epoch ∨ s.granted = false) (keep : List Bool) (commit : Bool) :
    (validateClaims s epoch usable keep commit).1.Ok ∧
      ClaimOk (validateClaims s epoch usable keep commit).1.view
        (validateClaims s epoch usable keep commit).2 := by
  -- whatever is kept is clean: without consent nothing is kept
  have hkept : Clean s.view
      (eventsOf (if s.granted then sift usable keep else ([], usable)).1) := by
    split
    next hgranted =>
      have hepoch := hsound.resolve_right (by simp [hgranted])
      exact (hclean hepoch).mono (eventsOf_subset (sift_subset usable keep).1)
    · exact clean_nil
  unfold validateClaims
  split
  next claimedPending disposed heq =>
    rw [heq] at hkept
    split
    · refine ⟨h.setQueue ?_, trivial⟩
      rw [eventsOf_append]
      exact hkept.append h.queue
    · exact ⟨h.setStorage (h.storage.delete _ _), hle, fun _ => hkept⟩

theorem claimStep_ok (h : s.Ok) (hc : ClaimOk s.view c) (hsound : ClaimSound s c a)
    (hst : claimStep s c a = some (s', c')) : s'.Ok ∧ ClaimOk s'.view c' := by
  unfold claimStep at hst
  split at hst
  · split at hst
    · obtain ⟨rfl, rfl⟩ := Prod.mk.inj (Option.some.inj hst)
      exact startClaim_ok h hsound _ _
    · exact absurd hst (by simp)
  · obtain ⟨rfl, rfl⟩ := Prod.mk.inj (Option.some.inj hst)
    refine ⟨h, hc.1, fun hepoch => ?_⟩
    obtain ⟨hsettled, hclean⟩ := hc.2 hepoch
    rw [eventsOf_append]
    exact hclean.append
      ((h.storage.records (.inl hsettled)).mono (claimed_events_subset _ _))
  · split_ifs at hst with hstale hnil hfits
    · obtain ⟨rfl, rfl⟩ := Prod.mk.inj (Option.some.inj hst)
      exact ⟨h.callClear, trivial⟩
    · obtain ⟨rfl, rfl⟩ := Prod.mk.inj (Option.some.inj hst)
      exact ⟨h, trivial⟩
    · obtain ⟨rfl, rfl⟩ := Prod.mk.inj (Option.some.inj hst)
      exact validateClaims_ok h hc.1 hc.2 (.inl (epoch_of_not_stale hstale)) _ _
    · obtain ⟨rfl, rfl⟩ := Prod.mk.inj (Option.some.inj hst)
      exact ⟨h, hc.1, fun hepoch => (hc.2 hepoch).mono (eventsOf_subset (List.take_subset _ _))⟩
  · obtain ⟨rfl, rfl⟩ := Prod.mk.inj (Option.some.inj hst)
    exact validateClaims_ok h hc.1 hc.2 hsound _ _
  · obtain ⟨rfl, rfl⟩ := Prod.mk.inj (Option.some.inj hst)
    refine ⟨h.setQueue ?_, trivial⟩
    rw [eventsOf_append]
    rcases hsound with hepoch | rfl
    · exact (hc.2 hepoch).append h.queue
    · exact clean_nil.append h.queue
  · obtain ⟨rfl, rfl⟩ := Prod.mk.inj (Option.some.inj hst)
    exact ⟨h.finishClear _, trivial⟩
  · obtain ⟨rfl, rfl⟩ := Prod.mk.inj (Option.some.inj hst)
    exact ⟨h, trivial⟩
  · obtain ⟨rfl, rfl⟩ := Prod.mk.inj (Option.some.inj hst)
    exact ⟨h, trivial⟩
  · obtain ⟨rfl, rfl⟩ := Prod.mk.inj (Option.some.inj hst)
    exact ⟨h, trivial⟩
  · exact absurd hst (by simp)

end Claims

/-! ## The normal drain -/

section Normal

variable {memory : Bool} {s s' : State} {b : Batch}

variable {stage : BatchStage}

lemma BatchOk.rest {v : View} {active : Option ActiveRef} {stage' : BatchStage}
    (h : BatchOk v active b stage) (hsends : stage'.sends = false)
    (hlive : b.epoch = v.epoch → Clean v (eventsOf stage'.live)) : BatchOk v active b stage' where
  epoch_le := h.epoch_le
  clean he := ⟨(h.clean he).1, hlive he⟩
  registered hs := absurd hs (by simp [hsends])
  aborted hr := absurd (sends_of_requesting hr) (by simp [hsends])
  takenOver := h.takenOver

lemma State.Ok.request (h : s.Ok) {batch : List Pending} {rest : List (List Pending)}
    {stage' : BatchStage} (hb : BatchOk s.view s.activeDelivery b stage)
    (hstage : stage.requesting = true) (hlive : stage.live = (batch :: rest).flatten)
    (hrunning : ¬b.aborted = true) (hb' : BatchOk s.view s.activeDelivery b stage') :
    ((s.send batch).atStage b stage').Ok := by
  have hepoch : b.epoch = s.view.epoch := by
    by_contra hne
    exact hrunning (hb.aborted hstage hne)
  have hsub : batch ⊆ stage.live := by
    rw [hlive]
    exact List.subset_append_left _ _
  refine State.Ok.atStage (h.send ((hb.clean hepoch).2.mono (eventsOf_subset hsub))) ?_
  rw [view_send]
  exact hb'

variable {delivered rejected retryable : List Pending}

lemma sendNext_ok (h : s.Ok) {work : List (List Pending)}
    (hb : BatchOk s.view s.activeDelivery b (.fetching work 0 delivered rejected)) :
    (sendNext s b work delivered rejected).Ok := by
  unfold sendNext
  split
  · exact h.atStage (hb.rest rfl fun _ => clean_nil)
  · split
    · exact h.atStage (hb.rest rfl fun he => (hb.clean he).2)
    next hrunning => exact h.request hb rfl rfl hrunning hb

lemma sendNext_setNormal (s : State) (t : NormalTask) (b : Batch) (work : List (List Pending))
    (delivered rejected : List Pending) :
    sendNext { s with normal := t } b work delivered rejected =
      sendNext s b work delivered rejected := by
  unfold sendNext
  cases work with
  | nil => rfl
  | cons batch rest => dsimp only; split <;> rfl

lemma BatchOk.parts {v : View} {active : Option ActiveRef} {work work' : List (List Pending)}
    {attempt : ℕ} {delivered' rejected' : List Pending}
    (h : BatchOk v active b (.fetching work attempt delivered rejected))
    (hsub : work'.flatten ⊆ work.flatten) :
    BatchOk v active b (.fetching work' 0 delivered' rejected') :=
  { h with
    clean := fun he => ⟨(h.clean he).1, (h.clean he).2.mono (eventsOf_subset hsub)⟩
    registered := fun _ => h.registered rfl
    aborted := fun _ => h.aborted rfl }

lemma dequeueNormal_ok (h : s.Ok) (keep : List Bool) (commit : Bool) :
    (dequeueNormal s keep commit).Ok := by
  obtain ⟨hprepared, hrest⟩ := dequeueBatch_subset s.queue keep
  unfold dequeueNormal
  split
  · exact { h with queue := clean_nil, normal := trivial }
  · generalize dequeueBatch s.queue keep = taken at hprepared hrest
    obtain ⟨prepared, disposed, rest⟩ := taken
    have hclean := h.queue.mono (eventsOf_subset hprepared)
    have htaken : State.Ok { s with
        queue := rest
        storage := s.storage.acknowledge (recordsOf disposed) commit } :=
      { h with
        queue := h.queue.mono (eventsOf_subset hrest)
        storage := h.storage.delete _ _ }
    dsimp only
    split
    · refine htaken.setNormal ?_
      split <;> trivial
    · have hactive : State.Ok { s with
          queue := rest
          storage := s.storage.acknowledge (recordsOf disposed) commit
          activeDelivery := some .normal
          normal := .idle } :=
        { htaken with normal := trivial }
      have hb : ∀ {stage : BatchStage}, Clean s.view (eventsOf stage.live) →
          BatchOk s.view (some .normal) ⟨s.consentEpoch, prepared, false, false⟩ stage :=
        fun hlive =>
          { epoch_le := Nat.le_refl _
            clean := fun _ => ⟨hclean, hlive⟩
            registered := fun _ => .inl rfl
            aborted := fun _ hne => absurd rfl hne
            takenOver := fun ht => absurd ht (by simp) }
      split
      · rw [← sendNext_setNormal _ .idle]
        exact sendNext_ok hactive (hb (by simpa [BatchStage.live] using hclean))
      · exact State.Ok.atStage hactive (hb hclean)

lemma loopNormal_ok (h : s.Ok) (full : Bool) (ids : List RecordId) (keep : List Bool)
    (commit : Bool) : (loopNormal memory s full ids keep commit).Ok := by
  unfold loopNormal
  split_ifs
  · exact h.setNormal trivial
  · obtain ⟨hs, hc⟩ := claimOfflineEvents_ok h full ids
    exact hs.setNormal hc
  · exact h.setNormal trivial
  · exact h.setNormal trivial
  · exact dequeueNormal_ok h keep commit

lemma clean_filter (h : s.Ok) (p : Pending → Bool) :
    Clean s.view (eventsOf (s.queue.filter p)) :=
  h.queue.mono (eventsOf_subset (List.filter_subset_self _))

lemma persistRetryable_ok (h : s.Ok)
    (hb : BatchOk s.view s.activeDelivery b (.releasing retryable)) (durable : Bool)
    (evicted : List RecordId) : (persistRetryable memory s b retryable durable evicted).Ok := by
  unfold persistRetryable
  split_ifs with howned hstale hmemory
  · exact h.leaveBatch
  · exact h.callClear.atStage (hb.rest rfl fun _ => clean_nil)
  · exact (h.setQueue (clean_filter h _)).leaveBatch
  · have hclean := (hb.clean (epoch_of_not_stale hstale)).2
    have hvolatile := hclean.mono
      (eventsOf_subset (List.filter_subset_self (p := fun p => p.durableRecordId.isNone) retryable))
    exact (h.setStorage (h.storage.store hvolatile durable evicted)).atStage
      (hb.rest rfl fun _ => hclean)

lemma settleDelivery_ok (h : s.Ok)
    (hb : BatchOk s.view s.activeDelivery b (.releasing retryable)) (durable : Bool)
    (evicted : List RecordId) : (settleDelivery memory s b retryable durable evicted).Ok := by
  unfold settleDelivery
  split_ifs
  · exact h.leaveBatch
  · exact h.callClear.atStage (hb.rest rfl fun _ => clean_nil)
  · exact h.nextBatch
  · exact persistRetryable_ok h hb durable evicted
  · exact h.atStage hb

lemma respond_ok (memory : Bool) (h : s.Ok) {batch : List Pending} {rest : List (List Pending)}
    {attempt : ℕ}
    (hb : BatchOk s.view s.activeDelivery b (.fetching (batch :: rest) attempt delivered rejected))
    {reply : Reply}
    (hst : batchStep memory s b (.fetching (batch :: rest) attempt delivered rejected)
      (.respond reply) = some s') : s'.Ok := by
  have hrest : rest.flatten ⊆ (batch :: rest).flatten := List.subset_append_right _ _
  obtain rfl := Option.some.inj hst
  cases reply with
  | accepted => exact sendNext_ok h (hb.parts hrest)
  | permanentRejection => exact sendNext_ok h (hb.parts hrest)
  | payloadRejected =>
    dsimp only
    split
    · exact sendNext_ok h (hb.parts hrest)
    · -- the two halves are the batch
      refine sendNext_ok h (hb.parts ?_)
      simp [← List.append_assoc]
  | retryable =>
    dsimp only
    split
    · exact h.atStage { hb with }
    · exact h.atStage (hb.rest rfl fun he => (hb.clean he).2)

lemma returned_ok (memory : Bool) (h : s.Ok)
    (hb : BatchOk s.view s.activeDelivery b (.returned delivered rejected retryable))
    {commit durable : Bool} {evicted : List RecordId}
    (hst : batchStep memory s b (.returned delivered rejected retryable)
      (.returned commit durable evicted) = some s') : s'.Ok := by
  obtain rfl := Option.some.inj hst
  split_ifs with howned hstale
  · exact h.leaveBatch
  · exact h.nextBatch
  · have hclean := (hb.clean (epoch_of_not_stale hstale)).2
    have hqueue : State.Ok { s with queue := retryable ++ s.queue } := by
      refine h.setQueue ?_
      rw [eventsOf_append]
      exact hclean.append h.queue
    have hb' : BatchOk s.view s.activeDelivery { b with ownedEvents := [] }
        (.releasing retryable) :=
      { hb with
        clean := fun _ => ⟨clean_nil, hclean⟩
        registered := fun hs => absurd hs (by simp [BatchStage.sends])
        aborted := fun hr => absurd hr (by simp [BatchStage.requesting]) }
    dsimp only
    split
    · exact settleDelivery_ok hqueue hb' durable evicted
    · exact (hqueue.setStorage (h.storage.delete _ _)).atStage (hb'.rest rfl fun _ => hclean)

theorem batchStep_ok (h : s.Ok) (hb : BatchOk s.view s.activeDelivery b stage) {a : NormalAct}
    (hst : batchStep memory s b stage a = some s') : s'.Ok := by
  unfold batchStep at hst
  split at hst
  · obtain rfl := Option.some.inj hst
    split_ifs with howned hstale
    · exact h.leaveBatch
    · exact h.nextBatch
    · have hepoch := epoch_of_not_stale hstale
      exact sendNext_ok h
        { hb with
          clean := fun he => ⟨(hb.clean he).1, by simpa [BatchStage.live] using (hb.clean he).2⟩
          registered := fun _ => hb.registered rfl
          aborted := fun _ hne => absurd hepoch hne }
  · exact respond_ok memory h hb hst
  · obtain rfl := Option.some.inj hst
    split_ifs with haborted
    · exact h.atStage (hb.rest rfl fun he => (hb.clean he).2)
    · exact h.request hb rfl rfl haborted { hb with }
  · exact returned_ok memory h hb hst
  · obtain rfl := Option.some.inj hst
    exact settleDelivery_ok h (hb.rest rfl fun he => (hb.clean he).2) _ _
  · obtain rfl := Option.some.inj hst
    exact persistRetryable_ok h hb _ _
  · obtain rfl := Option.some.inj hst
    split_ifs
    · exact h.leaveBatch
    · exact h.leaveBatch
    · exact h.callClear.atStage (hb.rest rfl fun _ => clean_nil)
    · exact (h.setQueue (clean_filter h _)).leaveBatch
  · obtain rfl := Option.some.inj hst
    split_ifs
    · exact (h.finishClear _).nextBatch
    · exact (h.finishClear _).leaveBatch
  · exact absurd hst (by simp)

lemma beginNormal_ok (h : s.Ok) : (beginNormal s).Ok := by
  unfold beginNormal
  split_ifs <;> exact h.setNormal trivial

theorem normalStep_ok (h : s.Ok) {a : NormalAct} (hsound : StepSound s (.normal a))
    (hst : normalStep memory s a = some s') : s'.Ok := by
  unfold normalStep at hst
  split at hst
  · obtain rfl := Option.some.inj hst
    split
    · split
      · exact beginNormal_ok h
      · exact h.setNormal trivial
    · exact beginNormal_ok h
  · split at hst
    · obtain rfl := Option.some.inj hst
      exact beginNormal_ok h
    · exact absurd hst (by simp)
  · split at hst
    · obtain rfl := Option.some.inj hst
      split <;> exact h.setNormal trivial
    · exact absurd hst (by simp)
  · obtain rfl := Option.some.inj hst
    exact loopNormal_ok h _ _ _ _
  next c a hnormal =>
    obtain ⟨⟨t, c'⟩, hclaim, rfl⟩ := Option.map_eq_some_iff.1 hst
    have hc : ClaimOk s.view c := by
      have := h.normal
      rwa [hnormal] at this
    rw [StepSound, hnormal] at hsound
    obtain ⟨ht, hc'⟩ := claimStep_ok h hc hsound hclaim
    exact ht.setNormal hc'
  · obtain rfl := Option.some.inj hst
    split <;> exact h.setNormal trivial
  · split at hst
    · obtain rfl := Option.some.inj hst
      split
      · exact h.setNormal trivial
      · exact dequeueNormal_ok h _ _
    · exact absurd hst (by simp)
  · obtain rfl := Option.some.inj hst
    split <;> exact h.setNormal trivial
  next b stage hnormal =>
    have hb : BatchOk s.view s.activeDelivery b stage := by
      have := h.normal
      rwa [hnormal] at this
    exact batchStep_ok h hb hst
  · exact absurd hst (by simp)

end Normal

/-! ## Lifecycle drains -/

section Lifecycle

variable {memory : Bool} {s s' : State} {id : ℕ}

lemma State.Ok.setLifecycle (h : s.Ok) {t : LifecycleTask} (ht : LifecycleOk s.view t) :
    (s.setLifecycle id t).Ok := by
  refine { h with lifecycles := fun l hl => ?_ }
  obtain ⟨l', hl', rfl⟩ := List.mem_map.1 hl
  split
  · exact ht
  · exact h.lifecycles l' hl'

lemma NormalOk.inactive {v : View} {active active' : Option ActiveRef} {t : NormalTask}
    (h : NormalOk v active t) (hactive : active ≠ some .normal) : NormalOk v active' t := by
  cases t with
  | working b stage =>
    exact { h with registered := fun hs => .inr ((h.registered hs).resolve_left hactive) }
  | claiming c => exact h
  | _ => trivial

lemma State.Ok.clearLifecycle (h : s.Ok) : (s.clearActive (.lifecycle id)).Ok := by
  refine h.setActive ?_
  split
  next hactive => exact h.normal.inactive (by simp [hactive])
  · exact h.normal

/-- The normal drain can send nothing more under another delivery. -/
def NormalDone (s : State) : Prop := NormalOk s.view none s.normal

lemma normalDone_of_aborted (h : s.Ok)
    (haborted : ∀ b stage, s.activeDelivery = some .normal → s.normal = .working b stage →
      b.aborted = true) : NormalDone s := by
  have hn := h.normal
  unfold NormalDone
  by_cases hactive : s.activeDelivery = some .normal
  · cases hnormal : s.normal with
    | working b stage =>
      rw [hnormal] at hn
      exact { hn with registered := fun _ => .inr (haborted b stage hactive hnormal) }
    | claiming c => rwa [hnormal] at hn
    | _ => trivial
  · exact hn.inactive hactive

lemma StorageOk.storeUncovered {v : View} {st : Storage} (h : StorageOk v st)
    {uncovered : List EventId} (hclean : Clean v uncovered) (skip durable : Bool)
    (evicted : List RecordId) :
    StorageOk v (if skip = true then st else st.store v.epoch uncovered durable evicted) := by
  split
  · exact h
  · exact h.store hclean durable evicted

variable {keep : List Bool}

lemma lifecycleStart_ok (h : s.Ok) {inherited : List EventId}
    (hdone : s.granted = false ∨ (dequeueBatch s.queue keep).1 = [] ∨ NormalDone s)
    (commit durable : Bool) (evicted : List RecordId) :
    (lifecycleStart memory s id inherited keep commit durable evicted).Ok := by
  obtain ⟨hprepared, hrest⟩ := dequeueBatch_subset s.queue keep
  unfold lifecycleStart
  split
  · exact (h.setQueue clean_nil).setLifecycle trivial
  next hgranted =>
    replace hdone := hdone.resolve_left hgranted
    generalize dequeueBatch s.queue keep = taken at hprepared hrest hdone
    obtain ⟨prepared, disposed, rest⟩ := taken
    have hclean := h.queue.mono (eventsOf_subset hprepared)
    have huncovered : Clean s.view (eventsOf ((prepared ++ rest).filter fun p =>
        p.durableRecordId.isNone && decide (p.event ∉ inherited))) := by
      refine Clean.mono ?_ (eventsOf_subset (List.filter_subset_self _))
      rw [eventsOf_append]
      exact hclean.append (h.queue.mono (eventsOf_subset hrest))
    have hstorage := h.storage.storeUncovered huncovered
      (memory || decide (eventsOf ((prepared ++ rest).filter fun p =>
        p.durableRecordId.isNone && decide (p.event ∉ inherited)) = [])) durable evicted
    have htaken := (h.setQueue (h.queue.mono (eventsOf_subset hrest))).setStorage
      (hstorage.delete (fun r => decide (r.id ∈ recordsOf disposed)) commit)
    dsimp only
    split
    · exact htaken.setLifecycle trivial
    next hne =>
      have hactive := htaken.setActive (a := some (.lifecycle id))
        ((hdone.resolve_left hne).inactive (by simp))
      refine (State.Ok.send hactive hclean).setLifecycle ?_
      rw [view_send]
      exact ⟨Nat.le_refl _, fun _ => hclean⟩

lemma normalDone_of_sound (h : s.Ok) {commit durable : Bool} {evicted : List RecordId}
    (hsound : StepSound s (.lifecycle id (.fence keep commit durable evicted))) :
    s.granted = false ∨ (dequeueBatch s.queue keep).1 = [] ∨ NormalDone s := by
  by_cases hnone : s.granted = false ∨ (dequeueBatch s.queue keep).1 = []
  · exact hnone.imp_right .inl
  · refine .inr (.inr (normalDone_of_aborted h fun b stage hactive hnormal => ?_))
    rw [StepSound, hactive, hnormal] at hsound
    exact hsound.resolve_right hnone

theorem lifecycleStep_ok (h : s.Ok) {t : LifecycleTask} (ht : LifecycleOk s.view t)
    {a : LifecycleAct} (hsound : StepSound s (.lifecycle id a))
    (hst : lifecycleStep memory s id t a = some s') : s'.Ok := by
  unfold lifecycleStep at hst
  split at hst
  · split at hst
    · obtain rfl := Option.some.inj hst
      exact lifecycleStart_ok h (normalDone_of_sound h hsound) _ _ _
    · exact absurd hst (by simp)
  · obtain rfl := Option.some.inj hst
    split_ifs with hstale hfinal
    · exact h.clearLifecycle.callClear.setLifecycle trivial
    · exact (h.setStorage (h.storage.delete _ _)).setLifecycle trivial
    · refine (h.setQueue ?_).setLifecycle trivial
      rw [eventsOf_append]
      exact (ht.2 (epoch_of_not_stale hstale)).append h.queue
  · obtain rfl := Option.some.inj hst
    split_ifs
    · exact h.callClear.setLifecycle trivial
    · refine State.Ok.setLifecycle (State.Ok.clearLifecycle ?_) trivial
      exact (h.setQueue (clean_filter h _)).setStorage (h.storage.delete _ _)
  · obtain rfl := Option.some.inj hst
    exact (h.finishClear _).clearLifecycle.setLifecycle trivial
  · exact absurd hst (by simp)

lemma takeOver_ok (h : s.Ok)
    (hsound : ∀ b stage, s.activeDelivery = some .normal → s.normal = .working b stage →
      b.takenOver = true ∨ b.ownedEvents = [] ∨ b.epoch = s.consentEpoch) :
    (takeOver s).1.Ok ∧ NormalDone (takeOver s).1 := by
  unfold takeOver
  split
  next b stage hactive hnormal =>
    have hn := h.normal
    rw [hnormal] at hn
    split
    next htaken =>
      refine ⟨h, normalDone_of_aborted h fun b' stage' _ hnormal' => ?_⟩
      obtain ⟨rfl, -⟩ := NormalTask.working.inj (hnormal.symm.trans hnormal')
      exact hn.takenOver htaken
    next htaken =>
      have howned : Clean s.view (eventsOf b.ownedEvents) := by
        rcases (hsound b stage hactive hnormal).resolve_left htaken with hempty | hepoch
        · rw [hempty]
          exact clean_nil
        · exact (hn.clean hepoch).1
      have hb : BatchOk s.view none { b with ownedEvents := [], aborted := true, takenOver := true }
          stage :=
        { hn with
          clean := fun he => ⟨clean_nil, (hn.clean he).2⟩
          registered := fun _ => .inr rfl
          aborted := fun _ _ => rfl
          takenOver := fun _ => rfl }
      refine ⟨{ h with queue := ?_, normal := hb }, hb⟩
      have hqueue := howned.append h.queue
      rwa [← eventsOf_append] at hqueue
  next hother =>
    exact ⟨h, normalDone_of_aborted h fun b stage hactive hnormal =>
      absurd hnormal (hother b stage hactive)⟩

theorem flushOnUnload_ok (h : s.Ok) {commit durable : Bool} {evicted : List RecordId}
    (hsound : StepSound s (.flushOnUnload keep commit durable evicted)) :
    (flushOnUnload memory s keep commit durable evicted).Ok := by
  unfold flushOnUnload
  split
  · exact h
  next hpromise =>
    obtain ⟨ht, hdone⟩ := takeOver_ok h fun b stage hactive hnormal => by
      rw [StepSound, hactive, hnormal] at hsound
      exact hsound.resolve_left (by simp [hpromise])
    generalize s.lifecycles.length = id
    generalize takeOver s = taken at ht hdone
    obtain ⟨t, inherited⟩ := taken
    have hfenced : State.Ok { t with
        unloadRequested := true
        unloadPromise := some id
        lifecycles := t.lifecycles ++ [(id, .waitFence t.consentEpoch inherited)] } := by
      refine { ht with lifecycles := fun l hl => ?_ }
      rcases List.mem_append.1 hl with hl | hl
      · exact ht.lifecycles l hl
      · obtain rfl := List.mem_singleton.1 hl
        trivial
    dsimp only
    split
    · exact hfenced
    · exact lifecycleStart_ok hfenced (.inr (.inr hdone)) _ _ _

end Lifecycle

/-! ## Revocations and their fences -/

section Fence

variable {s s' : State} {v v' : View}

/-- The view after a revocation, or after a step of a fence. -/
structure View.Later (v v' : View) : Prop where
  epoch_le : v.epoch ≤ v'.epoch
  revoked : v'.epoch = v.epoch → v'.revoked = v.revoked
  settled : v'.epoch = v.epoch → v.settled = v.epoch → v'.settled = v'.epoch

lemma View.Later.epoch_eq (h : v.Later v') {epoch : ℕ} (hle : epoch ≤ v.epoch)
    (he : epoch = v'.epoch) : v'.epoch = v.epoch :=
  Nat.le_antisymm (he ▸ hle) h.epoch_le

lemma View.Later.clean (h : v.Later v') {epoch : ℕ} {events : List EventId} (hle : epoch ≤ v.epoch)
    (hclean : epoch = v.epoch → Clean v events) (he : epoch = v'.epoch) : Clean v' events := by
  have heq := h.epoch_eq hle he
  intro x hx
  rw [h.revoked heq]
  exact hclean (he.trans heq) x hx

lemma ClaimOk.later {c : ClaimTask} (hc : ClaimOk v c) (h : v.Later v') : ClaimOk v' c := by
  cases c with
  | claiming epoch ps =>
    refine ⟨Nat.le_trans hc.1 h.epoch_le, fun he => ?_⟩
    have heq := h.epoch_eq hc.1 he
    exact ⟨h.settled heq (hc.2 (he.trans heq)).1, h.clean hc.1 (fun he => (hc.2 he).2) he⟩
  | received epoch ps => exact ⟨Nat.le_trans hc.1 h.epoch_le, h.clean hc.1 hc.2⟩
  | releasing epoch ps => exact ⟨Nat.le_trans hc.1 h.epoch_le, h.clean hc.1 hc.2⟩
  | acknowledging epoch ps => exact ⟨Nat.le_trans hc.1 h.epoch_le, h.clean hc.1 hc.2⟩
  | _ => trivial

lemma StartOk.later {t : StartTask} (ht : StartOk v t) (h : v.Later v') : StartOk v' t := by
  cases t with
  | claiming c => exact ClaimOk.later ht h
  | _ => trivial

lemma LifecycleOk.later {t : LifecycleTask} (ht : LifecycleOk v t) (h : v.Later v') :
    LifecycleOk v' t := by
  cases t with
  | sending epoch ps => exact ⟨Nat.le_trans ht.1 h.epoch_le, h.clean ht.1 ht.2⟩
  | _ => trivial

lemma BatchOk.later {active : Option ActiveRef} {b : Batch} {stage : BatchStage}
    (hb : BatchOk v active b stage) (h : v.Later v')
    (haborted : stage.requesting = true → v'.epoch ≠ v.epoch → b.aborted = true) :
    BatchOk v' active b stage where
  epoch_le := Nat.le_trans hb.epoch_le h.epoch_le
  clean he :=
    ⟨h.clean hb.epoch_le (fun he => (hb.clean he).1) he,
      h.clean hb.epoch_le (fun he => (hb.clean he).2) he⟩
  registered := hb.registered
  aborted hr hne := by
    by_cases heq : v'.epoch = v.epoch
    · exact hb.aborted hr (heq ▸ hne)
    · exact haborted hr heq
  takenOver := hb.takenOver

lemma NormalOk.later {active : Option ActiveRef} {t : NormalTask} (ht : NormalOk v active t)
    (h : v.Later v') (heq : v'.epoch = v.epoch) : NormalOk v' active t := by
  cases t with
  | claiming c => exact ClaimOk.later ht h
  | working b stage => exact BatchOk.later ht h fun _ hne => absurd heq hne
  | _ => trivial

lemma abortActive_eq (s : State) :
    s.abortActive = { s with normal := s.abortActive.normal } := by
  unfold State.abortActive
  split <;> rfl

lemma abortActive_later (h : s.Ok) (hlater : s.view.Later v') :
    NormalOk v' s.activeDelivery s.abortActive.normal := by
  have hn := h.normal
  unfold State.abortActive
  split
  next b stage _ hnormal =>
    rw [hnormal] at hn
    have hb : BatchOk s.view s.activeDelivery { b with aborted := true } stage :=
      { hn with
        registered := fun _ => .inr rfl
        aborted := fun _ _ => rfl
        takenOver := fun _ => rfl }
    exact hb.later hlater fun _ _ => rfl
  next hother =>
    cases hnormal : s.normal with
    | claiming c =>
      rw [hnormal] at hn
      exact ClaimOk.later hn hlater
    | working b stage =>
      rw [hnormal] at hn
      -- a batch that is being sent without being the active delivery was aborted
      refine BatchOk.later hn hlater fun hr _ => ?_
      have hregistered := hn.registered (sends_of_requesting hr)
      exact hregistered.resolve_left fun hactive => hother b stage hactive hnormal
    | _ => trivial

theorem revoke_ok (h : s.Ok) : (revokeAnalyticsConsent s).Ok := by
  have hlater : s.view.Later (revokeAnalyticsConsent s).view := by
    unfold revokeAnalyticsConsent
    rw [abortActive_eq]
    exact
      { epoch_le := Nat.le_succ _
        revoked := fun he => absurd he (Nat.succ_ne_self _)
        settled := fun he => absurd he (Nat.succ_ne_self _) }
  have hn := abortActive_later h hlater
  unfold revokeAnalyticsConsent at hlater hn ⊢
  rw [abortActive_eq] at hlater hn ⊢
  -- the fence of the new revocation has not begun
  have hunsettled : s.fencesSettled ≠ s.consentEpoch + 1 := by
    have := h.settled
    omega
  have hwaiting : s.fencesSettled + 1 = s.consentEpoch + 1 → s.fence = .waiting := by
    intro he
    by_contra hf
    have := h.fence hf
    omega
  exact
    { queue := clean_nil
      normal := hn
      start := h.start.later hlater
      lifecycles := fun l hl => (h.lifecycles l hl).later hlater
      storage :=
        { fallback := fun hv =>
            hv.elim (absurd · hunsettled) fun hf => absurd (hwaiting hf.1) hf.2
          records := fun hv =>
            hv.elim (absurd · hunsettled) fun hf =>
              absurd ((hwaiting hf.1).symm.trans hf.2) (by simp)
          failed := fun f hf =>
            ⟨Nat.le_trans (h.storage.failed f hf).1 hlater.epoch_le,
              hlater.clean (h.storage.failed f hf).1 (h.storage.failed f hf).2⟩ }
      settled := Nat.le_succ_of_le h.settled
      fence := fun hf => Nat.lt_succ_of_lt (h.fence hf)
      fenced := h.fenced.revoke _ }

lemma State.Ok.setFence (h : s.Ok) {stage : FenceStage} {settled : ℕ} {st : Storage}
    (hlater : s.fencesSettled = s.consentEpoch → settled = s.consentEpoch)
    (hst : StorageOk { s.view with settled := settled, fence := stage } st)
    (hle : settled ≤ s.consentEpoch) (hfence : stage ≠ .waiting → settled < s.consentEpoch) :
    State.Ok { s with storage := st, fence := stage, fencesSettled := settled } := by
  have hview : s.view.Later { s.view with settled := settled, fence := stage } :=
    { epoch_le := Nat.le_refl _
      revoked := fun _ => rfl
      settled := fun _ => hlater }
  exact
    { queue := h.queue
      normal := h.normal.later hview rfl
      start := h.start.later hview
      lifecycles := fun l hl => (h.lifecycles l hl).later hview
      storage := hst
      settled := hle
      fence := hfence
      fenced := h.fenced }

theorem fenceStep_ok (h : s.Ok) {a : Act} (hsound : StepSound s a)
    (hst : fenceStep s a = some s') : s'.Ok := by
  unfold fenceStep at hst
  split at hst
  · split at hst
    next hpending =>
      obtain rfl := Option.some.inj hst
      have hlt : s.fencesSettled < s.consentEpoch := by
        simpa [State.fencePending] using hpending.1
      exact h.setFence id (h.storage.fenceCalled hlt) h.settled fun _ => hlt
    · exact absurd hst (by simp)
  next commit =>
    split at hst
    next hcalled =>
      obtain rfl := Option.some.inj hst
      have hlt := h.fence (by simp [hcalled])
      exact h.setFence id (h.storage.fenceCleared hcalled hsound) h.settled fun _ => hlt
    · exact absurd hst (by simp)
  · split at hst
    next hcleared =>
      obtain rfl := Option.some.inj hst
      have hlt := h.fence (by simp [hcleared])
      exact h.setFence (absurd · (Nat.ne_of_lt hlt)) (h.storage.fenceSettled hcleared) hlt
        (absurd rfl)
    · exact absurd hst (by simp)
  · exact absurd hst (by simp)

end Fence

/-! ## Every run -/

section Run

variable {memory : Bool} {s s' : State}

lemma storeInFallback_ok (h : s.Ok) {evicted : List RecordId}
    (hsound : StepSound s (.storeFallback evicted)) :
    StorageOk s.view (s.storage.storeInFallback evicted) := by
  rw [StepSound] at hsound
  unfold Storage.storeInFallback
  split
  · exact h.storage
  next f rest hfailed =>
    rw [hfailed] at hsound
    have hf := h.storage.failed f (by simp [hfailed])
    have hclean : Clean s.view f.events := by
      rcases hsound with hepoch | hempty
      · exact hf.2 hepoch
      · rw [hempty]
        exact clean_nil
    exact
      { h.storage with
        fallback := fun hv => clean_added (h.storage.fallback hv) hclean evicted
        failed := fun g hg => h.storage.failed g (by simp [hfailed, hg]) }

lemma startStep_ok (h : s.Ok) {a : ClaimAct} (hsound : StepSound s (.startClaim a))
    (hst : step memory s (.startClaim a) = some s') : s'.Ok := by
  have hs := h.start
  rw [StepSound] at hsound
  simp only [step] at hst
  split at hst
  · obtain rfl := Option.some.inj hst
    exact { h with start := trivial }
  next c _ hstart =>
    rw [hstart] at hsound hs
    obtain ⟨⟨t, c'⟩, hclaim, rfl⟩ := Option.map_eq_some_iff.1 hst
    obtain ⟨ht, hc'⟩ := claimStep_ok h hs hsound hclaim
    exact { ht with start := hc' }
  · exact absurd hst (by simp)

theorem State.Ok.next (h : s.Ok) {a : Act} (hsound : StepSound s a)
    (hst : step memory s a = some s') : s'.Ok := by
  cases a with
  | enqueue event =>
    simp only [step] at hst
    split at hst
    next haccepted =>
      obtain rfl := Option.some.inj hst
      refine h.setQueue ?_
      rw [eventsOf_append]
      refine h.queue.append fun x hx => ?_
      obtain rfl : x = event := by simpa [eventsOf] using hx
      exact haccepted.2.2.2
    · exact absurd hst (by simp)
  | start full ids =>
    simp only [step] at hst
    split at hst
    · obtain rfl := Option.some.inj hst
      obtain ⟨hs, hc⟩ := claimOfflineEvents_ok h full ids
      exact { hs with start := hc }
    · exact absurd hst (by simp)
  | startClaim a => exact startStep_ok h hsound hst
  | shutdown =>
    obtain rfl := Option.some.inj hst
    exact { h with }
  | normal a => exact normalStep_ok h hsound hst
  | flushOnUnload keep commit durable evicted =>
    obtain rfl := Option.some.inj hst
    exact flushOnUnload_ok h hsound
  | lifecycle id a =>
    simp only [step] at hst
    split at hst
    next t hlookup =>
      obtain ⟨before, after, hmem, -⟩ := List.lookup_eq_some_iff.1 hlookup
      exact lifecycleStep_ok h (h.lifecycles (id, t) (by simp [hmem])) hsound hst
    · exact absurd hst (by simp)
  | resume =>
    obtain rfl := Option.some.inj hst
    unfold resumeLifecycleDelivery
    split
    · exact { h with }
    · exact h
  | revoke =>
    obtain rfl := Option.some.inj hst
    exact revoke_ok h
  | grant =>
    obtain rfl := Option.some.inj hst
    exact { h with }
  | fenceCall => exact fenceStep_ok h hsound hst
  | fenceClear commit => exact fenceStep_ok h hsound hst
  | fenceSettle => exact fenceStep_ok h hsound hst
  | storeFallback evicted =>
    obtain rfl := Option.some.inj hst
    exact h.setStorage (storeInFallback_ok h hsound)
  | expire ids =>
    obtain rfl := Option.some.inj hst
    exact h.setStorage (h.storage.delete _ _)
  | otherDocument event =>
    simp only [step] at hst
    split at hst
    next hnew =>
      obtain rfl := Option.some.inj hst
      refine h.setStorage (h.storage.store (fun x hx => ?_) _ _)
      obtain rfl := List.mem_singleton.1 hx
      exact hnew
    · exact absurd hst (by simp)

lemma initial_ok (records : List Record) (nextId : RecordId) : (initial records nextId).Ok := by
  have hclean : ∀ xs, Clean (initial records nextId).view xs := fun xs x _ => List.not_mem_nil
  exact
    { queue := hclean _
      normal := trivial
      start := trivial
      lifecycles := fun l hl => absurd hl List.not_mem_nil
      storage :=
        { fallback := fun _ => hclean _
          records := fun _ => hclean _
          failed := fun f hf => absurd hf List.not_mem_nil }
      settled := Nat.le_refl _
      fence := fun hf => absurd rfl hf
      fenced := fun before held after hlog => absurd hlog (by simp [initial]) }

/-- **The consent fence**: in every run of sound steps, an event that the queue held when consent
was revoked is in no request that starts afterwards. -/
theorem consent_fence {memory : Bool} {records : List Record} {nextId : RecordId} {s : State}
    (h : (machine memory records nextId).ReachUnder StepSound s) : Fenced s.log := by
  have hok : s.Ok := by
    refine h.induct (P := State.Ok) (initial_ok records nextId) fun s a s' _ hs hsound hst => ?_
    exact hs.next hsound hst
  exact hok.fenced

/-- Consent is revoked while a request is under way, and granted again after the fence. -/
def revokedRun : List Act :=
  [.enqueue 1, .normal .flush, .normal (.loop false [] [true] true), .revoke,
    .normal (.respond .retryable), .normal .wake, .normal (.returned true true []), .fenceCall,
    .fenceClear true, .fenceSettle, .grant, .enqueue 2, .normal (.loop false [] [true] true)]

/-- The fence of a run that discards a delivery and an offline record. -/
theorem consent_fence_revokedRun :
    ∃ s, (machine false [⟨0, 10⟩] 1).ReachUnder StepSound s ∧
      s.log = [.send [1], .revoke [1, 1, 10], .send [2]] ∧ Fenced s.log := by
  have hrun : ((machine false [⟨0, 10⟩] 1).run (initial [⟨0, 10⟩] 1) revokedRun).map State.log =
      some [.send [1], .revoke [1, 1, 10], .send [2]] := by
    decide +kernel
  obtain ⟨s, hs, hlog⟩ := Option.map_eq_some_iff.1 hrun
  have hsound : ∀ a ∈ revokedRun, ∀ s, StepSound s a := by
    simp [revokedRun, StepSound]
  have hreach := StepMachine.reachUnder_of_run revokedRun hsound .init hs
  exact ⟨s, hreach, hlog, consent_fence hreach⟩

/-- Consent is revoked and granted while a claim waits for the acknowledgement of an invalid
record. -/
def staleClaimRun : List Act :=
  [.normal .flush, .normal (.loop false [] [] true), .normal (.claim (.fetch [0, 1])),
    .normal (.claim (.examine 2 [true, false] true)), .revoke, .grant,
    .normal (.claim .acknowledged), .fenceCall, .fenceClear true, .fenceSettle, .normal .claimed,
    .normal (.loop false [] [true] true)]

/-- A claim that is acknowledged after a revocation brings a revoked event into the queue, and the
event is sent. -/
theorem stale_claim_crosses_fence :
    ∃ s, (machine false [⟨0, 10⟩, ⟨1, 11⟩] 2).Reach s ∧ ¬Fenced s.log := by
  have hrun : ((machine false [⟨0, 10⟩, ⟨1, 11⟩] 2).run (initial [⟨0, 10⟩, ⟨1, 11⟩] 2)
      staleClaimRun).map State.log = some [.revoke [10, 10], .send [10]] := by
    decide +kernel
  obtain ⟨s, hs, hlog⟩ := Option.map_eq_some_iff.1 hrun
  refine ⟨s, StepMachine.reach_of_run hs, fun hfenced => ?_⟩
  rw [hlog] at hfenced
  exact hfenced [] [10, 10] [.send [10]] rfl [10] (by simp) 10 (by simp) (by simp)

end Run

end Apdl.Sdk
