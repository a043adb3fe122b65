import Apdl.Ingest.Route
import Mathlib.Algebra.Order.Group.Multiset
import Mathlib.Tactic.Abel

set_option autoImplicit false

/-!
# Isolating rows that ClickHouse refuses

`_flush` of the ClickHouse writer inserts the buffer as one batch. When the native driver cannot
serialize a row, `_insert_or_isolate` inserts the halves, down to single entries, which
`_dead_letter_delivery` records before their deliveries may be acknowledged.

## Main results

* `insert_isolation` — both, together.

## Design

A store is a state machine that answers each call, so every pattern of errors is that of a store. A
function that raises returns `none` with the state it leaves. The journal records what the stores
did; no function reads it. The dictionary of deliveries to acknowledge is a list of pairs of a
stream and a message. Counters, retry delays and log lines are left out.
-/

namespace Apdl.Pipeline.Writer

open Text (ofString)
open Ingest (isProjectId streamKey)

variable {σ ρ : Type}

/-! ## State -/

/-- `BufferedEvent`: an entry of a stream; a settlement marker has no row. -/
structure BufferedEvent (ρ : Type) where
  streamKey : Text
  messageId : Text
  row : Option ρ
  boundaryToken : Option Text
  deriving DecidableEq

/-- The delivery that stays pending for an entry. -/
def BufferedEvent.delivery (e : BufferedEvent ρ) : Text × Text := (e.streamKey, e.messageId)

/-- An exception: the name of its class and of the classes it derives from. -/
structure PyError where
  name : Text
  bases : List Text
  deriving DecidableEq

/-- How an awaited call ends; a cancellation is no `Exception`. -/
inductive Reply
  | done
  | error (e : PyError)
  | cancelled
  deriving DecidableEq

/-- The fields of a record in the dead-letter stream, without its time. -/
structure DeadLetter where
  sourceStream : Text
  sourceMessageId : Text
  reasonCode : Text
  errorType : Text
  deriving DecidableEq

/-- The calls of the writer. -/
structure Stores (σ ρ : Type) where
  /-- `_execute_insert_async`. -/
  insert : List (BufferedEvent ρ) → σ → Reply × σ
  /-- `redis_client.xadd` to a dead-letter stream. -/
  xadd : Text → DeadLetter → σ → Reply × σ
  /-- The statements of `_degrade_pipeline_authority`: done when the row reads degraded. -/
  degrade : Text → Text → σ → Reply × σ
  /-- `_finalize_durable_stream`. -/
  finalizeStream : Text → List Text → σ → Reply × σ
  /-- There is an `authority_pool`. -/
  hasAuthority : Bool

/-- What the stores did, and what they refused. -/
inductive Effect (ρ : Type)
  | inserted (batch : List (BufferedEvent ρ))
  | failed (batch : List (BufferedEvent ρ)) (e : PyError)
  | recorded (streamKey messageId : Text)
  | degraded (streamKey : Text)

/-- The buffer, the deliveries that may be acknowledged, and the stores. -/
structure World (σ ρ : Type) where
  buffer : List (BufferedEvent ρ)
  durablePendingAck : List (Text × Text)
  journal : List (Effect ρ)
  host : σ

/-! ## Dead letters -/

/-- `_project_id_from_stream`; `none` when it raises. -/
def projectIdFromStream (key : Text) : Option Text :=
  if ofString "events:raw:" <+: key then
    let projectId := key.drop (List.length (ofString "events:raw:"))
    if isProjectId projectId then some projectId else none
  else none

/-- `_dlq_stream_for_project`; `none` when it raises. -/
def dlqStreamForProject (projectId : Text) : Option Text :=
  if isProjectId projectId then some (ofString "events:dlq:" ++ projectId) else none

def queueDurableAck (pending : List (Text × Text)) (events : List (BufferedEvent ρ)) :
    List (Text × Text) :=
  events.foldl (fun ids e => if e.delivery ∈ ids then ids else ids ++ [e.delivery]) pending

/-- The entry has been recorded and its stream degraded: its delivery may be acknowledged. -/
def World.acknowledge (w : World σ ρ) (key messageId : Text) : World σ ρ :=
  { w with durablePendingAck :=
      queueDurableAck w.durablePendingAck [(⟨key, messageId, none, none⟩ : BufferedEvent ρ)] }

/-- `_dead_letter_delivery`; `none` when it is cancelled. -/
def deadLetterDelivery (st : Stores σ ρ) (key messageId projectId reasonCode : Text) (e : PyError)
    (w : World σ ρ) : Option Bool × World σ ρ :=
  match dlqStreamForProject projectId with
  | none => (some false, w)
  | some dlq =>
    match st.xadd dlq ⟨key, messageId, reasonCode, e.name⟩ w.host with
    | (.cancelled, host) => (none, { w with host := host })
    | (.error _, host) => (some false, { w with host := host })
    | (.done, host) =>
      let w := { w with host := host, journal := w.journal ++ [Effect.recorded key messageId] }
      if st.hasAuthority = false then (some true, w.acknowledge key messageId)
      else
        match st.degrade key (ofString "dead_lettered_event") w.host with
        | (.cancelled, host) => (none, { w with host := host })
        | (.error _, host) => (some false, { w with host := host })
        | (.done, host) =>
          let w := { w with host := host, journal := w.journal ++ [Effect.degraded key] }
          (some true, w.acknowledge key messageId)

/-! ## Isolation -/

def isTerminalInsertError (e : PyError) : Bool :=
  (e.name :: e.bases).any fun name =>
    ["TypeMismatchError", "TypeError", "OverflowError", "UnicodeError"].any fun terminal =>
      name == ofString terminal

/-- `InsertOutcome`. `isolated` lists the single entries that were refused, with the result of
`_dead_letter_delivery`, which the source does not keep. -/
structure InsertOutcome (ρ : Type) where
  durable : List (BufferedEvent ρ)
  retry : List (BufferedEvent ρ)
  transientError : Option PyError
  isolated : List (BufferedEvent ρ × Bool)

/-- The handler of a terminal error of a single entry. -/
def isolateEvent (st : Stores σ ρ) (event : BufferedEvent ρ) (e : PyError) (w : World σ ρ) :
    Option (InsertOutcome ρ) × World σ ρ :=
  match projectIdFromStream event.streamKey with
  | none => (none, w)
  | some projectId =>
    let (result, w) := deadLetterDelivery st event.streamKey event.messageId projectId
      (ofString "clickhouse_row_rejected") e w
    (result.map fun ok => ⟨[], [], none, [(event, ok)]⟩, w)

/-- The outcome of a batch from those of its halves. -/
def InsertOutcome.join (left right : InsertOutcome ρ) : InsertOutcome ρ where
  durable := left.durable ++ right.durable
  retry := left.retry ++ right.retry
  transientError := left.transientError.or right.transientError
  isolated := left.isolated ++ right.isolated

def insertOrIsolate (st : Stores σ ρ) (batch : List (BufferedEvent ρ)) (w : World σ ρ) :
    Option (InsertOutcome ρ) × World σ ρ :=
  if hmarkers : batch.all fun event => event.row.isNone then (some ⟨batch, [], none, []⟩, w)
  else
    match st.insert batch w.host with
    | (.done, host) =>
      (some ⟨batch, [], none, []⟩,
        { w with host := host, journal := w.journal ++ [.inserted batch] })
    | (.cancelled, host) => (none, { w with host := host })
    | (.error e, host) =>
      let w := { w with host := host, journal := w.journal ++ [.failed batch e] }
      if isTerminalInsertError e = false then (some ⟨[], batch, some e, []⟩, w)
      else if hone : batch.length = 1 then isolateEvent st (batch.get ⟨0, by omega⟩) e w
      else
        have hlen : 2 ≤ batch.length := by
          rcases batch with _ | ⟨a, _ | ⟨b, rest⟩⟩
          · simp at hmarkers
          · simp at hone
          · simp
        let midpoint := batch.length / 2
        match insertOrIsolate st (batch.take midpoint) w with
        | (none, w) => (none, w)
        | (some left, w) =>
          match insertOrIsolate st (batch.drop midpoint) w with
          | (none, w) => (none, w)
          | (some right, w) => (some (left.join right), w)
termination_by batch.length
decreasing_by
  · simp only [List.length_take]
    omega
  · simp only [List.length_drop]
    omega

/-! ## Flushing -/

/-- The messages of a stream that wait for their acknowledgement. -/
def messageIds (pending : List (Text × Text)) (key : Text) : List Text :=
  (pending.filter fun d => d.1 == key).map Prod.snd

/-- The calls of `asyncio.gather` in `_ack_durable_messages`, and how they end. -/
def finalizeStreams (st : Stores σ ρ) (pending : List (Text × Text)) :
    List Text → σ → List (Text × Reply) × σ
  | [], host => ([], host)
  | key :: keys, host =>
    let (reply, host) := st.finalizeStream key (messageIds pending key) host
    let (replies, host) := finalizeStreams st pending keys host
    ((key, reply) :: replies, host)

/-- The loop over the results: the messages that were finalized no longer wait. -/
def settleStreams (snapshot : List (Text × Text)) :
    List (Text × Reply) → List (Text × Text) → Option Bool × List (Text × Text)
  | [], pending => (some true, pending)
  | (key, reply) :: replies, pending =>
    match reply with
    | .cancelled => (none, pending)
    | .error _ =>
      let (ok, pending) := settleStreams snapshot replies pending
      (ok.map fun _ => false, pending)
    | .done => settleStreams snapshot replies
        (pending.filter fun d => !(d.1 == key && (messageIds snapshot key).contains d.2))

/-- `_ack_durable_messages`; `none` when it is cancelled. -/
def ackDurableMessages (st : Stores σ ρ) (w : World σ ρ) : Option Bool × World σ ρ :=
  let (replies, host) := finalizeStreams st w.durablePendingAck
    (w.durablePendingAck.map Prod.fst).dedup w.host
  let (ok, pending) := settleStreams w.durablePendingAck replies w.durablePendingAck
  (ok.map fun ok => ok && pending.isEmpty, { w with host := host, durablePendingAck := pending })

/-- `_flush` with the entries that arrive in the buffer while it inserts; `none` when it raises. -/
def flush (st : Stores σ ρ) (arrivals : List (BufferedEvent ρ)) (w : World σ ρ) :
    Option Bool × World σ ρ :=
  let (acked, w) := if w.durablePendingAck ≠ [] then ackDurableMessages st w else (some true, w)
  match acked with
  | none => (none, w)
  | some ackSucceeded =>
    if w.buffer = [] then (some ackSucceeded, w)
    else
      let batch := w.buffer
      let (outcome, w) := insertOrIsolate st batch w
      let w := { w with buffer := w.buffer ++ arrivals }
      match outcome with
      | none => (none, w)
      | some outcome =>
        let tail := w.buffer.drop batch.length
        let w := { w with
          buffer := outcome.retry ++ tail
          durablePendingAck := queueDurableAck w.durablePendingAck outcome.durable }
        let (acked, w) :=
          if ackSucceeded ∧ w.durablePendingAck ≠ [] then ackDurableMessages st w
          else (some ackSucceeded, w)
        (acked.map fun ok => outcome.transientError.isNone && ok, w)

/-! ## Deliveries that may be acknowledged -/

lemma queueDurableAck_append (pending : List (Text × Text)) (a b : List (BufferedEvent ρ)) :
    queueDurableAck pending (a ++ b) = queueDurableAck (queueDurableAck pending a) b :=
  List.foldl_append

lemma mem_queueDurableAck {pending : List (Text × Text)} {events : List (BufferedEvent ρ)}
    {d : Text × Text} :
    d ∈ queueDurableAck pending events ↔ d ∈ pending ∨ ∃ e ∈ events, e.delivery = d := by
  induction events generalizing pending with
  | nil => simp [queueDurableAck]
  | cons e events ih =>
    have hstep : queueDurableAck pending (e :: events) = queueDurableAck
        (if e.delivery ∈ pending then pending else pending ++ [e.delivery]) events := rfl
    have hmem : d ∈ (if e.delivery ∈ pending then pending else pending ++ [e.delivery]) ↔
        d ∈ pending ∨ e.delivery = d := by
      split_ifs with h
      · constructor
        · exact .inl
        · rintro (hd | rfl)
          · exact hd
          · exact h
      · rw [List.mem_append, List.mem_singleton, eq_comm (a := d)]
    rw [hstep, ih, hmem, or_assoc]
    simp

/-- The record of the entry, and the degraded authority of its stream where there is one. -/
def DeadLettered (st : Stores σ ρ) (journal : List (Effect ρ)) (d : Text × Text) : Prop :=
  Effect.recorded d.1 d.2 ∈ journal ∧ (st.hasAuthority = true → Effect.degraded d.1 ∈ journal)

variable {st : Stores σ ρ} {batch : List (BufferedEvent ρ)} {w w' : World σ ρ}
  {added : List (Effect ρ)} {o left right : InsertOutcome ρ}

lemma DeadLettered.mono {journal journal' : List (Effect ρ)} {d : Text × Text}
    (h : DeadLettered st journal d) (hsub : journal ⊆ journal') : DeadLettered st journal' d :=
  ⟨hsub h.1, fun ha => hsub (h.2 ha)⟩

variable {e : PyError}

/-- **A dead letter** lets its delivery be acknowledged only when the record and the degradation are
persisted. -/
lemma deadLetterDelivery_spec {key messageId projectId reasonCode : Text} {r : Option Bool}
    (h : deadLetterDelivery st key messageId projectId reasonCode e w = (r, w')) :
    ∃ added, w'.journal = w.journal ++ added ∧ w'.buffer = w.buffer ∧
      (∀ b err, Effect.failed b err ∉ added) ∧
      ((r = some true ∧ DeadLettered st added (key, messageId) ∧ w'.durablePendingAck =
          queueDurableAck w.durablePendingAck
            [(⟨key, messageId, none, none⟩ : BufferedEvent ρ)]) ∨
        (r ≠ some true ∧ w'.durablePendingAck = w.durablePendingAck)) := by
  unfold deadLetterDelivery at h
  cases hdlq : dlqStreamForProject projectId with
  | none =>
    rw [hdlq] at h
    cases h
    exact ⟨[], by simp, rfl, by simp, .inr ⟨by simp, rfl⟩⟩
  | some dlq =>
    rw [hdlq] at h
    dsimp only at h
    rcases hadd : st.xadd dlq ⟨key, messageId, reasonCode, e.name⟩ w.host with ⟨_ | _ | _, host⟩
    · rw [hadd] at h
      dsimp only at h
      rw [ite_eq_iff] at h
      obtain ⟨hno, h⟩ | ⟨hauthority, h⟩ := h
      · cases h
        refine ⟨[.recorded key messageId], rfl, rfl, by simp, .inl ⟨rfl, ⟨by simp, ?_⟩, rfl⟩⟩
        intro ha
        rw [hno] at ha
        cases ha
      · rcases hdeg : st.degrade key (ofString "dead_lettered_event") host with ⟨_ | _ | _, host'⟩
        · rw [hdeg] at h
          cases h
          refine ⟨[.recorded key messageId, .degraded key], ?_, rfl, by simp,
            .inl ⟨rfl, ⟨by simp, fun _ => by simp⟩, rfl⟩⟩
          simp [World.acknowledge]
        · rw [hdeg] at h
          cases h
          exact ⟨[.recorded key messageId], rfl, rfl, by simp, .inr ⟨by simp, rfl⟩⟩
        · rw [hdeg] at h
          cases h
          exact ⟨[.recorded key messageId], rfl, rfl, by simp, .inr ⟨by simp, rfl⟩⟩
    · rw [hadd] at h
      cases h
      exact ⟨[], by simp, rfl, by simp, .inr ⟨by simp, rfl⟩⟩
    · rw [hadd] at h
      cases h
      exact ⟨[], by simp, rfl, by simp, .inr ⟨by simp, rfl⟩⟩

/-! ## What an isolation does -/

/-- What an isolation makes of a batch, by the journal of its calls. -/
structure Split (batch : List (BufferedEvent ρ)) (o : InsertOutcome ρ)
    (journal : List (Effect ρ)) : Prop where
  parts : (o.durable ++ o.retry ++ o.isolated.map Prod.fst).Perm batch
  durable_sublist : o.durable.Sublist batch
  retry_sublist : o.retry.Sublist batch
  isolated_sublist : (o.isolated.map Prod.fst).Sublist batch
  inserted : ∀ e ∈ o.durable, e.row = none ∨ ∃ b, .inserted b ∈ journal ∧ e ∈ b
  terminal : ∀ p ∈ o.isolated, ∃ e, isTerminalInsertError e = true ∧ .failed [p.1] e ∈ journal
  transient : ∀ b e, .failed b e ∈ journal → isTerminalInsertError e = false → b.Sublist o.retry

/-- The isolated entries whose dead letter was persisted. -/
def InsertOutcome.deadLettered (o : InsertOutcome ρ) : List (BufferedEvent ρ) :=
  (o.isolated.filter Prod.snd).map Prod.fst

/-- What an isolation does, also when it raises: it acknowledges dead letters only. -/
structure Isolates (st : Stores σ ρ) (batch : List (BufferedEvent ρ)) (w : World σ ρ)
    (r : Option (InsertOutcome ρ)) (w' : World σ ρ) (journal : List (Effect ρ))
    (acked : List (BufferedEvent ρ)) : Prop where
  journal_eq : w'.journal = w.journal ++ journal
  buffer_eq : w'.buffer = w.buffer
  pending_eq : w'.durablePendingAck = queueDurableAck w.durablePendingAck acked
  acked_mem : ∀ e ∈ acked, e ∈ batch ∧ DeadLettered st journal e.delivery
  split : ∀ o, r = some o → Split batch o journal ∧ acked = o.deadLettered

lemma Isolates.plain {r : Option (InsertOutcome ρ)} {journal : List (Effect ρ)}
    (hjournal : w'.journal = w.journal ++ journal) (hbuffer : w'.buffer = w.buffer)
    (hpending : w'.durablePendingAck = w.durablePendingAck)
    (hsplit : ∀ o, r = some o → Split batch o journal ∧ o.isolated = []) :
    Isolates st batch w r w' journal [] where
  journal_eq := hjournal
  buffer_eq := hbuffer
  pending_eq := hpending
  acked_mem _ he := absurd he List.not_mem_nil
  split o ho := ⟨(hsplit o ho).1, by simp [InsertOutcome.deadLettered, (hsplit o ho).2]⟩

lemma perm_parts {α : Type} (d d' r r' i i' : List α) :
    ((d ++ d') ++ (r ++ r') ++ (i ++ i')).Perm ((d ++ r ++ i) ++ (d' ++ r' ++ i')) := by
  rw [← Multiset.coe_eq_coe]
  simp only [← Multiset.coe_add]
  abel

lemma Split.join {a b : List (BufferedEvent ρ)} {ja jb : List (Effect ρ)}
    (hterminal : isTerminalInsertError e = true) (ha : Split a left ja) (hb : Split b right jb) :
    Split (a ++ b) (left.join right) (.failed (a ++ b) e :: (ja ++ jb)) where
  parts := by
    simp only [InsertOutcome.join, List.map_append]
    exact (perm_parts _ _ _ _ _ _).trans (ha.parts.append hb.parts)
  durable_sublist := ha.durable_sublist.append hb.durable_sublist
  retry_sublist := ha.retry_sublist.append hb.retry_sublist
  isolated_sublist := by
    simp only [InsertOutcome.join, List.map_append]
    exact ha.isolated_sublist.append hb.isolated_sublist
  inserted ev hev := by
    rcases List.mem_append.1 hev with hev | hev
    · refine (ha.inserted ev hev).imp id ?_
      rintro ⟨c, hc, hmem⟩
      exact ⟨c, by simp [hc], hmem⟩
    · refine (hb.inserted ev hev).imp id ?_
      rintro ⟨c, hc, hmem⟩
      exact ⟨c, by simp [hc], hmem⟩
  terminal p hp := by
    rcases List.mem_append.1 hp with hp | hp
    · obtain ⟨err, herr, hmem⟩ := ha.terminal p hp
      exact ⟨err, herr, by simp [hmem]⟩
    · obtain ⟨err, herr, hmem⟩ := hb.terminal p hp
      exact ⟨err, herr, by simp [hmem]⟩
  transient c err hc herr := by
    rcases List.mem_cons.1 hc with heq | hc
    · cases heq
      rw [hterminal] at herr
      cases herr
    · rcases List.mem_append.1 hc with hc | hc
      · exact (ha.transient c err hc herr).trans (List.sublist_append_left _ _)
      · exact (hb.transient c err hc herr).trans (List.sublist_append_right _ _)

lemma isolateEvent_spec {event : BufferedEvent ρ} {r : Option (InsertOutcome ρ)}
    {w₀ : World σ ρ} (h : isolateEvent st event e w₀ = (r, w'))
    (hterminal : isTerminalInsertError e = true)
    (hjournal : w₀.journal = w.journal ++ [.failed [event] e])
    (hbuffer : w₀.buffer = w.buffer) (hpending : w₀.durablePendingAck = w.durablePendingAck) :
    ∃ journal acked, Isolates st [event] w r w' journal acked := by
  unfold isolateEvent at h
  cases hproject : projectIdFromStream event.streamKey with
  | none =>
    rw [hproject] at h
    cases h
    exact ⟨_, [], .plain hjournal hbuffer hpending (by simp)⟩
  | some projectId =>
    rw [hproject] at h
    dsimp only at h
    rcases hdead : deadLetterDelivery st event.streamKey event.messageId projectId
      (ofString "clickhouse_row_rejected") e w₀ with ⟨result, w₁⟩
    rw [hdead] at h
    cases h
    obtain ⟨added, hadded, hbuf, hnofail, hacked⟩ := deadLetterDelivery_spec hdead
    have hj : w₁.journal = w.journal ++ (.failed [event] e :: added) := by
      rw [hadded, hjournal, List.append_assoc]
      rfl
    have hsplit : ∀ ok, Split [event] ⟨[], [], none, [(event, ok)]⟩ (.failed [event] e :: added) := by
      intro ok
      refine ⟨.refl _, List.nil_sublist _, List.nil_sublist _, .refl _, by simp, ?_, ?_⟩
      · intro p hp
        obtain rfl := List.mem_singleton.1 hp
        exact ⟨e, hterminal, List.mem_cons_self⟩
      · intro b err hb herr
        rcases List.mem_cons.1 hb with heq | hb
        · cases heq
          rw [hterminal] at herr
          cases herr
        · exact absurd hb (hnofail b err)
    rcases hacked with ⟨rfl, hdl, hpend⟩ | ⟨hno, hpend⟩
    · refine ⟨_, [event], hj, hbuf.trans hbuffer, ?_, ?_, ?_⟩
      · rw [hpend, hpending]
        rfl
      · intro ev hev
        obtain rfl := List.mem_singleton.1 hev
        exact ⟨List.mem_singleton_self _, hdl.mono fun x hx => List.mem_cons_of_mem _ hx⟩
      · intro o ho
        cases ho
        exact ⟨hsplit true, rfl⟩
    · refine ⟨_, [], hj, hbuf.trans hbuffer, ?_, by simp, ?_⟩
      · rw [hpend, hpending]
        rfl
      · intro o ho
        cases hr : result with
        | none =>
          rw [hr] at ho
          cases ho
        | some ok =>
          rw [hr] at ho hno
          cases ho
          have hfalse : ok = false := by simpa using hno
          subst hfalse
          exact ⟨hsplit false, rfl⟩

theorem insertOrIsolate_spec {r : Option (InsertOutcome ρ)}
    (h : insertOrIsolate st batch w = (r, w')) :
    ∃ journal acked, Isolates st batch w r w' journal acked := by
  induction hn : batch.length using Nat.strong_induction_on generalizing batch w r w' with
  | _ n ih =>
  subst hn
  rw [insertOrIsolate] at h
  rw [dite_eq_iff] at h
  obtain ⟨hmarkers, h⟩ | ⟨hmarkers, h⟩ := h
  · cases h
    refine ⟨[], [], .plain (by simp) rfl rfl ?_⟩
    intro o ho
    cases ho
    refine ⟨⟨by simp, .refl _, List.nil_sublist _, List.nil_sublist _, ?_, by simp, by simp⟩, rfl⟩
    intro e he
    exact .inl (Option.isNone_iff_eq_none.1 (List.all_eq_true.1 hmarkers e he))
  rcases hins : st.insert batch w.host with ⟨_ | e | _, host⟩
  · rw [hins] at h
    cases h
    refine ⟨[.inserted batch], [], .plain rfl rfl rfl ?_⟩
    intro o ho
    cases ho
    exact ⟨⟨by simp, .refl _, List.nil_sublist _, List.nil_sublist _,
      fun e he => .inr ⟨batch, by simp, he⟩, by simp, by simp⟩, rfl⟩
  · rw [hins] at h
    dsimp only at h
    rw [ite_eq_iff] at h
    obtain ⟨htransient, h⟩ | ⟨hterminal, h⟩ := h
    · cases h
      refine ⟨[.failed batch e], [], .plain rfl rfl rfl ?_⟩
      intro o ho
      cases ho
      refine ⟨⟨by simp, List.nil_sublist _, .refl _, List.nil_sublist _, by simp, by simp, ?_⟩, rfl⟩
      intro b err hb _
      cases List.mem_singleton.1 hb
      exact .refl _
    rw [Bool.not_eq_false] at hterminal
    rw [dite_eq_iff] at h
    obtain ⟨hone, h⟩ | ⟨hone, h⟩ := h
    · obtain ⟨event, rfl⟩ := List.length_eq_one_iff.1 hone
      exact isolateEvent_spec h hterminal rfl rfl rfl
    have hpos : batch.length ≠ 0 := by
      intro hzero
      rw [List.length_eq_zero_iff.1 hzero] at hmarkers
      exact hmarkers rfl
    have hsum : batch.take (batch.length / 2) ++ batch.drop (batch.length / 2) = batch :=
      List.take_append_drop _ _
    generalize hfailed : World.mk w.buffer w.durablePendingAck
      (w.journal ++ [.failed batch e]) host = w₀ at h
    rcases hleft : insertOrIsolate st (batch.take (batch.length / 2)) w₀ with ⟨left, w₁⟩
    obtain ⟨jl, al, hl⟩ := ih _ (by rw [List.length_take]; omega) hleft rfl
    have hjl : w₁.journal = w.journal ++ (.failed batch e :: jl) := by
      rw [hl.journal_eq, ← hfailed]
      simp
    have hbl : w₁.buffer = w.buffer := by rw [hl.buffer_eq, ← hfailed]
    have hpl : w₁.durablePendingAck = queueDurableAck w.durablePendingAck al := by
      rw [hl.pending_eq, ← hfailed]
    have hal : ∀ {j}, jl ⊆ j → ∀ ev ∈ al, ev ∈ batch ∧ DeadLettered st j ev.delivery := by
      intro j hj ev hev
      obtain ⟨hmem, hdl⟩ := hl.acked_mem ev hev
      exact ⟨List.mem_of_mem_take hmem, hdl.mono hj⟩
    rw [hleft] at h
    cases left with
    | none =>
      cases h
      exact ⟨_, al, hjl, hbl, hpl, hal (List.subset_cons_self _ _), by simp⟩
    | some left =>
      dsimp only at h
      rcases hright : insertOrIsolate st (batch.drop (batch.length / 2)) w₁ with ⟨right, w₂⟩
      obtain ⟨jr, ar, hr⟩ := ih _ (by rw [List.length_drop]; omega) hright rfl
      have hjr : w₂.journal = w.journal ++ (.failed batch e :: (jl ++ jr)) := by
        rw [hr.journal_eq, hjl]
        simp
      have hacked : ∀ ev ∈ al ++ ar,
          ev ∈ batch ∧ DeadLettered st (.failed batch e :: (jl ++ jr)) ev.delivery := by
        intro ev hev
        rcases List.mem_append.1 hev with hev | hev
        · exact hal (fun x hx => by simp [hx]) ev hev
        · obtain ⟨hmem, hdl⟩ := hr.acked_mem ev hev
          exact ⟨List.mem_of_mem_drop hmem, hdl.mono fun x hx => by simp [hx]⟩
      have hpr : w₂.durablePendingAck = queueDurableAck w.durablePendingAck (al ++ ar) := by
        rw [hr.pending_eq, hpl, queueDurableAck_append]
      rw [hright] at h
      cases right with
      | none =>
        cases h
        exact ⟨_, al ++ ar, hjr, hr.buffer_eq.trans hbl, hpr, hacked, by simp⟩
      | some right =>
        cases h
        refine ⟨_, al ++ ar, hjr, hr.buffer_eq.trans hbl, hpr, hacked, ?_⟩
        intro o ho
        cases ho
        obtain ⟨hsl, rfl⟩ := hl.split left rfl
        obtain ⟨hsr, rfl⟩ := hr.split right rfl
        have hjoin := Split.join hterminal hsl hsr
        rw [hsum] at hjoin
        exact ⟨hjoin, by simp [InsertOutcome.deadLettered, InsertOutcome.join]⟩
  · rw [hins] at h
    cases h
    exact ⟨[], [], .plain (by simp) rfl rfl (by simp)⟩

/-! ## What a flush does -/

lemma settleStreams_sublist (snapshot : List (Text × Text)) (replies : List (Text × Reply))
    (pending : List (Text × Text)) : (settleStreams snapshot replies pending).2.Sublist pending := by
  induction replies generalizing pending with
  | nil => exact .refl _
  | cons reply replies ih =>
    obtain ⟨key, reply⟩ := reply
    cases reply with
    | done => exact (ih _).trans List.filter_sublist
    | error e => exact ih pending
    | cancelled => exact .refl _

lemma ackDurableMessages_spec (st : Stores σ ρ) (w : World σ ρ) :
    (ackDurableMessages st w).2.buffer = w.buffer ∧
      (ackDurableMessages st w).2.journal = w.journal ∧
      (ackDurableMessages st w).2.durablePendingAck ⊆ w.durablePendingAck :=
  ⟨rfl, rfl, (settleStreams_sublist _ _ _).subset⟩

/-- Why the delivery of an entry may be acknowledged: there is no row to store, the row is stored, or
the entry is a dead letter. -/
def Settled (st : Stores σ ρ) (journal : List (Effect ρ)) (e : BufferedEvent ρ) : Prop :=
  e.row = none ∨ (∃ b, .inserted b ∈ journal ∧ e ∈ b) ∨ DeadLettered st journal e.delivery

structure Flushes (st : Stores σ ρ) (arrivals : List (BufferedEvent ρ)) (w : World σ ρ)
    (r : Option Bool) (w' : World σ ρ) (journal : List (Effect ρ)) : Prop where
  journal_eq : w'.journal = w.journal ++ journal
  eligible : ∀ d ∈ w'.durablePendingAck,
    d ∈ w.durablePendingAck ∨ ∃ e ∈ w.buffer, e.delivery = d ∧ Settled st journal e
  buffer : (∃ o, Split w.buffer o journal ∧ w'.buffer = o.retry ++ arrivals) ∨
    w'.buffer = w.buffer ∧ (w.buffer = [] ∨ r = none) ∨ w'.buffer = w.buffer ++ arrivals ∧ r = none

lemma Flushes.of_ack {arrivals : List (BufferedEvent ρ)} {journal : List (Effect ρ)}
    {r : Option Bool} {w₁ : World σ ρ} (h : Flushes st arrivals w r w' journal)
    (hbuffer : w₁.buffer = w'.buffer) (hjournal : w₁.journal = w'.journal)
    (hsub : w₁.durablePendingAck ⊆ w'.durablePendingAck)
    (hsplit : ∃ o, Split w.buffer o journal ∧ w'.buffer = o.retry ++ arrivals)
    (r' : Option Bool) : Flushes st arrivals w r' w₁ journal where
  journal_eq := hjournal.trans h.journal_eq
  eligible d hd := h.eligible d (hsub hd)
  buffer := by
    obtain ⟨o, ho, heq⟩ := hsplit
    exact .inl ⟨o, ho, hbuffer.trans heq⟩

theorem flush_spec (st : Stores σ ρ) (arrivals : List (BufferedEvent ρ)) (w : World σ ρ) :
    ∃ journal, Flushes st arrivals w (flush st arrivals w).1 (flush st arrivals w).2 journal := by
  unfold flush
  obtain ⟨acked, w₁, hack, hbuffer₁, hjournal₁, hsub₁⟩ : ∃ acked w₁,
      (if w.durablePendingAck ≠ [] then ackDurableMessages st w else (some true, w)) =
        (acked, w₁) ∧ w₁.buffer = w.buffer ∧ w₁.journal = w.journal ∧
        w₁.durablePendingAck ⊆ w.durablePendingAck := by
    obtain ⟨hb, hj, hs⟩ := ackDurableMessages_spec st w
    split_ifs
    · exact ⟨_, _, rfl, hb, hj, hs⟩
    · exact ⟨_, _, rfl, rfl, rfl, fun _ hd => hd⟩
  rw [hack]
  dsimp only
  have hearly : ∀ r : Option Bool, w₁.buffer = [] ∨ r = none →
      Flushes st arrivals w r w₁ [] := by
    intro r hr
    refine ⟨by rw [hjournal₁, List.append_nil], fun d hd => .inl (hsub₁ hd), .inr (.inl ⟨hbuffer₁, ?_⟩)⟩
    rwa [hbuffer₁] at hr
  cases acked with
  | none => exact ⟨[], hearly none (.inr rfl)⟩
  | some ackSucceeded =>
    dsimp only
    by_cases hempty : w₁.buffer = []
    · rw [if_pos hempty]
      exact ⟨[], hearly _ (.inl hempty)⟩
    rw [if_neg hempty]
    rcases hrun : insertOrIsolate st w₁.buffer w₁ with ⟨outcome, w₂⟩
    obtain ⟨journal, acked, hisolates⟩ := insertOrIsolate_spec hrun
    have hjournal₂ : w₂.journal = w.journal ++ journal := by
      rw [hisolates.journal_eq, hjournal₁]
    have hacked : ∀ e ∈ acked, e ∈ w.buffer ∧ Settled st journal e := by
      intro e he
      obtain ⟨hmem, hdl⟩ := hisolates.acked_mem e he
      exact ⟨hbuffer₁ ▸ hmem, .inr (.inr hdl)⟩
    have heligible₂ : ∀ d ∈ w₂.durablePendingAck,
        d ∈ w.durablePendingAck ∨ ∃ e ∈ w.buffer, e.delivery = d ∧ Settled st journal e := by
      intro d hd
      rw [hisolates.pending_eq, mem_queueDurableAck] at hd
      refine hd.imp (fun hd => hsub₁ hd) ?_
      rintro ⟨e, he, rfl⟩
      exact ⟨e, (hacked e he).1, rfl, (hacked e he).2⟩
    cases outcome with
    | none =>
      refine ⟨journal, hjournal₂, heligible₂, .inr (.inr ⟨?_, rfl⟩)⟩
      dsimp only
      rw [hisolates.buffer_eq, hbuffer₁]
    | some outcome =>
      dsimp only
      obtain ⟨hsplit, -⟩ := hisolates.split outcome rfl
      rw [hbuffer₁] at hsplit
      have htail : (w₂.buffer ++ arrivals).drop w₁.buffer.length = arrivals := by
        rw [hisolates.buffer_eq, List.drop_left]
      rw [htail]
      have hflush : Flushes st arrivals w (some true)
          ⟨outcome.retry ++ arrivals, queueDurableAck w₂.durablePendingAck outcome.durable,
            w₂.journal, w₂.host⟩ journal := by
        refine ⟨hjournal₂, fun d hd => ?_, .inl ⟨outcome, hsplit, rfl⟩⟩
        rcases mem_queueDurableAck.1 hd with hd | ⟨e, he, rfl⟩
        · exact heligible₂ d hd
        · refine .inr ⟨e, hsplit.durable_sublist.subset he, rfl, ?_⟩
          exact (hsplit.inserted e he).imp id .inl
      refine ⟨journal, ?_⟩
      split_ifs
      · obtain ⟨hb, hj, hs⟩ := ackDurableMessages_spec st _
        exact hflush.of_ack hb hj hs ⟨outcome, hsplit, rfl⟩ _
      · exact hflush.of_ack rfl rfl (fun _ hd => hd) ⟨outcome, hsplit, rfl⟩ _

/-- **Isolation conserves a batch**, whatever the stores answer: it is split, in order, into entries
that are durable, that are retried and that were refused alone; what fails for now is retried, and a
delivery may be acknowledged only for an entry that is settled. -/
theorem insert_isolation (st : Stores σ ρ) :
    (∀ batch (w : World σ ρ), ∃ journal acked, Isolates st batch w (insertOrIsolate st batch w).1
      (insertOrIsolate st batch w).2 journal acked) ∧
    ∀ arrivals (w : World σ ρ), ∃ journal,
      Flushes st arrivals w (flush st arrivals w).1 (flush st arrivals w).2 journal :=
  ⟨fun _ _ => insertOrIsolate_spec rfl, flush_spec st⟩

/-- Stores that cannot serialize any row and cannot record it. -/
def refusing : Stores Unit Unit where
  insert _ s := (.error ⟨ofString "TypeMismatchError", []⟩, s)
  xadd _ _ s := (.error ⟨ofString "ConnectionError", []⟩, s)
  degrade _ _ s := (.done, s)
  finalizeStream _ _ s := (.done, s)
  hasAuthority := true

/-- An entry whose dead letter is not persisted is neither durable nor retried nor a dead letter; it
has left the buffer, and its delivery may not be acknowledged. -/
theorem unrecorded_entry_leaves_buffer :
    let event : BufferedEvent Unit := ⟨ofString "events:raw:p", ofString "1-0", some (), none⟩
    (∃ o w', insertOrIsolate refusing [event] ⟨[event], [], [], ()⟩ = (some o, w') ∧
      o.durable = [] ∧ o.retry = [] ∧ w'.durablePendingAck = [] ∧
      ¬ DeadLettered refusing w'.journal event.delivery) ∧
    ∃ w', flush refusing [] ⟨[event], [], [], ()⟩ = (some true, w') ∧ w'.buffer = [] ∧
      w'.durablePendingAck = [] := by
  intro event
  have hproject : projectIdFromStream event.streamKey = some (ofString "p") := by decide +kernel
  have hdlq : dlqStreamForProject (ofString "p") = some (ofString "events:dlq:p") := by
    decide +kernel
  have hterminal : isTerminalInsertError ⟨ofString "TypeMismatchError", []⟩ = true := by
    decide +kernel
  have hrun : insertOrIsolate refusing [event] ⟨[event], [], [], ()⟩ =
      (some ⟨[], [], none, [(event, false)]⟩,
        ⟨[event], [], [.failed [event] ⟨ofString "TypeMismatchError", []⟩], ()⟩) := by
    rw [insertOrIsolate]
    simp [event, refusing, hterminal, isolateEvent, hproject, deadLetterDelivery, hdlq]
  refine ⟨⟨_, _, hrun, rfl, rfl, rfl, fun h => ?_⟩, ?_⟩
  · simpa using h.1
  · refine ⟨⟨[], [], [.failed [event] ⟨ofString "TypeMismatchError", []⟩], ()⟩, ?_, rfl, rfl⟩
    simp [flush, hrun, queueDurableAck]

end Apdl.Pipeline.Writer
