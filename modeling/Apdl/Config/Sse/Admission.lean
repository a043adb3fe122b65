import Apdl.Config.Sse.Model
import Apdl.Lib.Decimal
import Apdl.Lib.Tally

set_option autoImplicit false

/-!
# Admission of SSE connections

`SSEBroadcaster` keeps the connections of one process with a counter for each project, each
credential and each client address, and refuses a connection beyond a limit. This file models the
broadcaster as a whole: admission, removal, fan-out, expiry and shutdown.

## Main results

* `admission_accounting` — every state reached is accounted for, a refused client changes no
  counter, and a full consumer is closed, never passed over.

## Design

Every method body holds the lock, so one action is one method. A subscription is an object: it is
told from every other by the number it was created with, which is also in its connection id. A
caller may pass an object the broadcaster has never created, whose connection id can be any text.
The list of connected clients is kept apart from the broadcaster: a client is added when it is
admitted and leaves when its subscription is removed for the first time or the process stops. What
was published for a client's project while it was connected, and what its handler took from the
queue, are recorded too.
-/

namespace Apdl.Config.Sse

/-- `SSESettings`, less the intervals that only the request handler reads. -/
structure Settings where
  queueCapacity : ℕ
  maxConnections : ℕ
  maxConnectionsPerProject : ℕ
  maxConnectionsPerCredential : ℕ
  maxConnectionsPerIp : ℕ
  maxLifetimeSeconds : ℚ
  queueCapacity_pos : 0 < queueCapacity
  maxConnections_pos : 0 < maxConnections
  perProject_pos : 0 < maxConnectionsPerProject
  perCredential_pos : 0 < maxConnectionsPerCredential
  perIp_pos : 0 < maxConnectionsPerIp
  maxLifetime_pos : 0 < maxLifetimeSeconds
  perProject_le : maxConnectionsPerProject ≤ maxConnections
  perCredential_le : maxConnectionsPerCredential ≤ maxConnections
  perIp_le : maxConnectionsPerIp ≤ maxConnections

inductive QuotaScope
  | global
  | project
  | credential
  | ip
  deriving DecidableEq, Repr

/-- `ProjectEvent`, with the fields of its server-sent event. -/
structure ProjectEvent where
  eventType : Text
  data : Text
  projectVersion : ℕ
  deriving DecidableEq

/-- `SSESubscription`; `number` is the counter it was created with. -/
structure Subscription where
  number : ℕ
  projectId : Text
  credentialId : Text
  clientIp : Text
  queue : List ProjectEvent
  createdAt : ℚ
  closeReason : Option CloseReason
  deriving DecidableEq

/-- The connection id of the subscription created with a number. -/
def connectionId (number : ℕ) : Text := Text.ofString "sse_" ++ Decimal.text number

/-- `_request_close_locked`: the first reason stays. -/
def Subscription.requestClose (s : Subscription) (reason : CloseReason) : Subscription :=
  match s.closeReason with
  | none => { s with closeReason := some reason }
  | some _ => s

/-- `SSEBroadcaster`; `connections` is the dictionary in its order. -/
structure Broadcaster where
  connections : List Subscription
  projectCounts : Counter Text
  credentialCounts : Counter Text
  ipCounts : Counter Text
  rejectedCounts : Counter QuotaScope
  closedCounts : Counter CloseReason
  acceptedTotal : ℕ
  queueOverflowTotal : ℕ
  connCounter : ℕ

/-- A subscription as a caller of `remove_connection` holds it: one of this broadcaster, or another
object with a connection id of its own. -/
inductive Handle
  | own (number : ℕ)
  | other (id : Text)
  deriving DecidableEq

def Handle.connectionId : Handle → Text
  | .own number => Sse.connectionId number
  | .other id => id

namespace Broadcaster

/-- A new broadcaster. -/
def initial : Broadcaster :=
  ⟨[], Counter.empty, Counter.empty, Counter.empty, Counter.empty, Counter.empty, 0, 0, 0⟩

def get (b : Broadcaster) (id : Text) : Option Subscription :=
  b.connections.find? fun s => decide (connectionId s.number = id)

/-- The checks of `_assert_capacity_locked`: each scope with its count and limit. -/
def capacityChecks (settings : Settings) (b : Broadcaster) (projectId credentialId clientIp : Text) :
    List (QuotaScope × ℤ × ℕ) :=
  [(.global, b.connections.length, settings.maxConnections),
    (.project, b.projectCounts projectId, settings.maxConnectionsPerProject),
    (.credential, b.credentialCounts credentialId, settings.maxConnectionsPerCredential),
    (.ip, b.ipCounts clientIp, settings.maxConnectionsPerIp)]

/-- `_assert_capacity_locked`: the first scope that is full. -/
def fullScope (settings : Settings) (b : Broadcaster) (projectId credentialId clientIp : Text) :
    Option QuotaScope :=
  ((b.capacityChecks settings projectId credentialId clientIp).find? fun c =>
    decide ((c.2.2 : ℤ) ≤ c.2.1)).map Prod.fst

/-- `self._connections[connection_id] = subscription`. -/
def assign (b : Broadcaster) (s : Subscription) : List Subscription :=
  if b.connections.any fun c => decide (connectionId c.number = connectionId s.number) then
    b.connections.map fun c => if connectionId c.number = connectionId s.number then s else c
  else b.connections ++ [s]

/-- `add_connection`: the new subscription, or the scope that has no capacity left. -/
def addConnection (settings : Settings) (b : Broadcaster) (projectId credentialId clientIp : Text)
    (now : ℚ) : Broadcaster × Except QuotaScope Subscription :=
  match b.fullScope settings projectId credentialId clientIp with
  | some scope => ({ b with rejectedCounts := b.rejectedCounts.increment scope }, .error scope)
  | none =>
    let s : Subscription := ⟨b.connCounter, projectId, credentialId, clientIp, [], now, none⟩
    ({ b with
        connections := b.assign s
        projectCounts := b.projectCounts.increment projectId
        credentialCounts := b.credentialCounts.increment credentialId
        ipCounts := b.ipCounts.increment clientIp
        acceptedTotal := b.acceptedTotal + 1
        connCounter := b.connCounter + 1 },
      .ok s)

def removeLocked (b : Broadcaster) (s : Subscription) : Broadcaster :=
  { b with
    connections := b.connections.filter fun c =>
      decide (connectionId c.number ≠ connectionId s.number)
    projectCounts := b.projectCounts.decrement s.projectId
    credentialCounts := b.credentialCounts.decrement s.credentialId
    ipCounts := b.ipCounts.decrement s.clientIp
    closedCounts := b.closedCounts.increment (s.closeReason.getD .clientDisconnect) }

/-- `remove_connection`: only the object that is registered is removed. -/
def removeConnection (b : Broadcaster) (handle : Handle) (reason : CloseReason) : Broadcaster :=
  match b.get handle.connectionId with
  | none => b
  | some current =>
    match handle with
    | .own number =>
      if current.number = number then
        b.removeLocked { current with closeReason := some (current.closeReason.getD reason) }
      else b
    | .other _ => b

/-- The loop body of `broadcast`; whether the queue overflowed. -/
def offer (settings : Settings) (projectId : Text) (event : ProjectEvent) (s : Subscription) :
    Subscription × Bool :=
  if s.projectId ≠ projectId ∨ s.closeReason ≠ none then (s, false)
  else if s.queue.length < settings.queueCapacity then
    ({ s with queue := s.queue ++ [event] }, false)
  else (s.requestClose .slowConsumer, true)

/-- `broadcast`; a version below one is refused. -/
def broadcast (settings : Settings) (b : Broadcaster) (projectId : Text) (event : ProjectEvent) :
    Option Broadcaster :=
  if event.projectVersion < 1 then none
  else some { b with
    connections := b.connections.map fun s => (offer settings projectId event s).1
    queueOverflowTotal := b.queueOverflowTotal +
      b.connections.countP fun s => (offer settings projectId event s).2 }

def expireConnections (settings : Settings) (b : Broadcaster) (now : ℚ) : Broadcaster :=
  { b with connections := b.connections.map fun s =>
      if s.closeReason = none ∧ settings.maxLifetimeSeconds ≤ now - s.createdAt then
        s.requestClose .maxLifetime
      else s }

/-- The critical section of `stop`. -/
def stop (b : Broadcaster) : Broadcaster :=
  b.connections.foldl (fun b s => b.removeLocked (s.requestClose .serverShutdown)) b

/-- The first event of the queue of a subscription. -/
def nextEvent (b : Broadcaster) (number : ℕ) : List ProjectEvent :=
  ((b.get (connectionId number)).toList.flatMap Subscription.queue).take 1

/-- The request handler takes the next event from its queue. -/
def take (b : Broadcaster) (number : ℕ) : Broadcaster :=
  { b with connections := b.connections.map fun s =>
      if s.number = number then { s with queue := s.queue.tail } else s }

end Broadcaster

/-! ## Runs -/

structure Client where
  number : ℕ
  projectId : Text
  credentialId : Text
  clientIp : Text
  deriving DecidableEq

def Subscription.client (s : Subscription) : Client :=
  ⟨s.number, s.projectId, s.credentialId, s.clientIp⟩

/-- The broadcaster, the clients that are connected, and by the number of a client the events
published for it and those its handler took. -/
structure Hub where
  broadcaster : Broadcaster
  live : List Client
  offered : ℕ → List ProjectEvent
  received : ℕ → List ProjectEvent

/-- The calls of the broadcaster's methods. -/
inductive HubAct
  | add (projectId credentialId clientIp : Text) (now : ℚ)
  | remove (handle : Handle) (reason : CloseReason)
  | broadcast (projectId : Text) (event : ProjectEvent)
  | expire (now : ℚ)
  | stop
  | take (number : ℕ)

/-- One call. -/
def Hub.step (settings : Settings) (h : Hub) : HubAct → Option Hub
  | .add projectId credentialId clientIp now =>
    match h.broadcaster.addConnection settings projectId credentialId clientIp now with
    | (b, .ok s) => some { h with broadcaster := b, live := h.live ++ [s.client] }
    | (b, .error _) => some { h with broadcaster := b }
  | .remove handle reason =>
    some { h with
      broadcaster := h.broadcaster.removeConnection handle reason
      live := h.live.filter fun c => decide (handle ≠ .own c.number) }
  | .broadcast projectId event =>
    (h.broadcaster.broadcast settings projectId event).map fun b =>
      { h with
        broadcaster := b
        offered := fun n =>
          if h.live.any fun c => decide (c.number = n ∧ c.projectId = projectId) then
            h.offered n ++ [event]
          else h.offered n }
  | .expire now =>
    some { h with broadcaster := h.broadcaster.expireConnections settings now }
  | .stop => some { h with broadcaster := h.broadcaster.stop, live := [] }
  | .take number =>
    some { h with
      broadcaster := h.broadcaster.take number
      received := fun n =>
        if n = number then h.received n ++ h.broadcaster.nextEvent number else h.received n }

/-- Runs of a new broadcaster. -/
def hub (settings : Settings) : StepMachine Hub HubAct where
  init := ⟨.initial, [], fun _ => [], fun _ => []⟩
  step := Hub.step settings

lemma connectionId_inj {m n : ℕ} : connectionId m = connectionId n ↔ m = n := by
  refine ⟨fun h => ?_, fun h => h ▸ rfl⟩
  have htext := congrArg Decimal.value (List.append_cancel_left h)
  rwa [Decimal.value_text, Decimal.value_text] at htext

lemma Broadcaster.get_connectionId (b : Broadcaster) (n : ℕ) :
    b.get (connectionId n) = b.connections.find? fun s => decide (s.number = n) := by
  simp only [Broadcaster.get, connectionId_inj]

/-! ## The counters -/

/-- The broadcaster's dictionary and counters are those of the connected clients. -/
structure Tracks (b : Broadcaster) (live : List Client) : Prop where
  registered : b.connections.map Subscription.client = live
  nodup : (live.map Client.number).Nodup
  numbered : ∀ c ∈ live, c.number < b.connCounter
  project : b.projectCounts.Counts Client.projectId live
  credential : b.credentialCounts.Counts Client.credentialId live
  ip : b.ipCounts.Counts Client.clientIp live

/-- The numbers of connected clients are within the limits. -/
structure Within (settings : Settings) (live : List Client) : Prop where
  total : live.length ≤ settings.maxConnections
  project : ∀ p, (live.countP fun c => decide (c.projectId = p)) ≤
    settings.maxConnectionsPerProject
  credential : ∀ k, (live.countP fun c => decide (c.credentialId = k)) ≤
    settings.maxConnectionsPerCredential
  ip : ∀ a, (live.countP fun c => decide (c.clientIp = a)) ≤ settings.maxConnectionsPerIp

section Counters

variable {settings : Settings} {b : Broadcaster} {live : List Client}

lemma Within.sublist (h : Within settings live) {l : List Client} (hl : l.Sublist live) :
    Within settings l :=
  ⟨hl.length_le.trans h.total, fun p => hl.countP_le.trans (h.project p),
    fun k => hl.countP_le.trans (h.credential k), fun a => hl.countP_le.trans (h.ip a)⟩

variable {s : Subscription}

lemma Tracks.client_mem (h : Tracks b live) (hs : s ∈ b.connections) :
    s.client ∈ live := by
  rw [← h.registered]
  exact List.mem_map_of_mem hs

lemma Tracks.numbers (h : Tracks b live) :
    b.connections.map Subscription.number = live.map Client.number := by
  rw [← h.registered, List.map_map]
  rfl

lemma Tracks.inj (h : Tracks b live) {t : Subscription} (hs : s ∈ b.connections)
    (ht : t ∈ b.connections) (hnum : s.number = t.number) : s = t := by
  have hnodup := h.nodup
  rw [← h.numbers] at hnodup
  exact List.inj_on_of_nodup_map hnodup hs ht hnum

lemma Tracks.assign (h : Tracks b live) (hs : s.number = b.connCounter) :
    b.assign s = b.connections ++ [s] := by
  unfold Broadcaster.assign
  rw [if_neg]
  simp only [List.any_eq_true, decide_eq_true_eq, connectionId_inj, not_exists, not_and]
  intro c hc heq
  have hlt := h.numbered c.client (h.client_mem hc)
  have hnum : c.number < b.connCounter := hlt
  omega

lemma Tracks.add (h : Tracks b live) (projectId credentialId clientIp : Text) (now : ℚ)
    (hfull : b.fullScope settings projectId credentialId clientIp = none) :
    ∃ b' s, b.addConnection settings projectId credentialId clientIp now = (b', .ok s) ∧
      s = ⟨b.connCounter, projectId, credentialId, clientIp, [], now, none⟩ ∧
      b'.connections = b.connections ++ [s] ∧ b'.connCounter = b.connCounter + 1 ∧
      Tracks b' (live ++ [s.client]) := by
  refine ⟨_, _, by rw [Broadcaster.addConnection, hfull], rfl, ?_, rfl, ?_⟩
  · exact h.assign rfl
  · refine ⟨?_, ?_, ?_, ?_, ?_, ?_⟩
    · rw [h.assign rfl, List.map_append, h.registered]
      rfl
    · rw [List.map_append]
      refine h.nodup.append (List.nodup_singleton _) ?_
      intro n hn hn'
      obtain ⟨c, hc, rfl⟩ := List.mem_map.1 hn
      have hlt := h.numbered c hc
      have heq : c.number = b.connCounter := List.mem_singleton.1 hn'
      omega
    · intro c hc
      rcases List.mem_append.1 hc with hold | hnew
      · exact Nat.lt_succ_of_lt (h.numbered c hold)
      · rw [List.mem_singleton.1 hnew]
        exact Nat.lt_succ_self _
    · exact h.project.append ⟨b.connCounter, projectId, credentialId, clientIp⟩
    · exact h.credential.append ⟨b.connCounter, projectId, credentialId, clientIp⟩
    · exact h.ip.append ⟨b.connCounter, projectId, credentialId, clientIp⟩

lemma Tracks.within_add (h : Tracks b live) (hw : Within settings live)
    {projectId credentialId clientIp : Text}
    (hfull : b.fullScope settings projectId credentialId clientIp = none) (n : ℕ) :
    Within settings (live ++ [⟨n, projectId, credentialId, clientIp⟩]) := by
  have hlength : b.connections.length = live.length := by
    rw [← h.registered, List.length_map]
  simp only [Broadcaster.fullScope, Option.map_eq_none_iff, List.find?_eq_none,
    Broadcaster.capacityChecks, List.forall_mem_cons, decide_eq_true_eq, not_le, hlength,
    h.project projectId, h.credential credentialId, h.ip clientIp, Nat.cast_lt] at hfull
  obtain ⟨htotal, hproject, hcredential, hip, -⟩ := hfull
  -- one more client of a key is within the limit of the key, and other keys do not change
  have hmore : ∀ (key : Client → Text) (limit : ℕ) (c : Client),
      (∀ k, (live.countP fun c => decide (key c = k)) ≤ limit) →
      (live.countP fun c' => decide (key c' = key c)) < limit →
      ∀ k, ((live ++ [c]).countP fun c => decide (key c = k)) ≤ limit := by
    intro key limit c hall hlt k
    rw [List.countP_append, List.countP_singleton]
    by_cases hk : key c = k
    · subst hk
      simp only [decide_true, if_true]
      omega
    · simpa [hk] using hall k
  refine ⟨?_, hmore _ _ _ hw.project hproject, hmore _ _ _ hw.credential hcredential,
    hmore _ _ _ hw.ip hip⟩
  rw [List.length_append, List.length_singleton]
  omega

lemma Tracks.removeLocked (h : Tracks b live) (hs : s.client ∈ live) :
    Tracks (b.removeLocked s) (live.filter fun c => decide (c.number ≠ s.number)) := by
  refine ⟨?_, ?_, fun c hc => h.numbered c (List.mem_of_mem_filter hc), ?_, ?_, ?_⟩
  · simp only [Broadcaster.removeLocked, ne_eq, connectionId_inj]
    rw [← h.registered, List.filter_map]
    rfl
  · exact h.nodup.sublist (List.filter_sublist.map _)
  · exact h.project.remove h.nodup hs
  · exact h.credential.remove h.nodup hs
  · exact h.ip.remove h.nodup hs

lemma Tracks.update (h : Tracks b live) {f : Subscription → Subscription} {k : ℕ}
    (hf : ∀ s, (f s).client = s.client) :
    Tracks { b with connections := b.connections.map f, queueOverflowTotal := k } live := by
  refine ⟨?_, h.nodup, h.numbered, h.project, h.credential, h.ip⟩
  rw [List.map_map, ← h.registered]
  exact List.map_congr_left fun s _ => hf s

lemma Tracks.removeAll (h : Tracks b live) (l : List Subscription)
    (hl : ∀ s ∈ l, s.client ∈ live) (hnodup : (l.map Subscription.number).Nodup) :
    Tracks (l.foldl (fun b s => b.removeLocked (s.requestClose .serverShutdown)) b)
      (live.filter fun c => decide (c.number ∉ l.map Subscription.number)) := by
  induction l generalizing b live with
  | nil => simpa using h
  | cons s l ih =>
    obtain ⟨hs, hl⟩ := List.forall_mem_cons.1 hl
    obtain ⟨hnew, hnodup⟩ := List.nodup_cons.1 hnodup
    have hclient : (s.requestClose .serverShutdown).client = s.client := by
      unfold Subscription.requestClose
      cases s.closeReason <;> rfl
    have hnumber : (s.requestClose .serverShutdown).number = s.number :=
      congrArg Client.number hclient
    have hstep := h.removeLocked (hclient.symm ▸ hs)
    rw [hnumber] at hstep
    have hrest : ∀ t ∈ l, t.client ∈ live.filter fun c => decide (c.number ≠ s.number) := by
      intro t ht
      refine List.mem_filter.2 ⟨hl t ht, decide_eq_true fun heq => hnew ?_⟩
      exact heq ▸ List.mem_map_of_mem ht
    have hfold := ih hstep hrest hnodup
    rw [List.filter_filter] at hfold
    rw [List.foldl_cons]
    convert hfold using 2
    funext c
    rw [Bool.eq_iff_iff, Bool.and_eq_true, decide_eq_true_eq, decide_eq_true_eq,
      decide_eq_true_eq, List.map_cons, List.mem_cons, not_or]
    exact and_comm

lemma Tracks.stop (h : Tracks b live) : Tracks b.stop [] := by
  have hall := h.removeAll b.connections (fun s hs => h.client_mem hs)
    (h.numbers ▸ h.nodup)
  have hnone : (live.filter fun c => decide (c.number ∉ b.connections.map Subscription.number)) =
      [] := by
    refine List.filter_eq_nil_iff.2 fun c hc hout => ?_
    rw [h.numbers] at hout
    exact of_decide_eq_true hout (List.mem_map_of_mem hc)
  rwa [hnone] at hall

end Counters

/-! ## The invariant -/

/-- **Accounted**: the counters are the numbers of connected clients, these are within the limits,
and a connection that stays open has been given everything that was published for it. -/
structure Accounted (settings : Settings) (h : Hub) : Prop where
  tracks : Tracks h.broadcaster h.live
  within : Within settings h.live
  fresh : ∀ n, h.broadcaster.connCounter ≤ n → h.offered n = [] ∧ h.received n = []
  complete : ∀ s ∈ h.broadcaster.connections, s.closeReason = none →
    h.received s.number ++ s.queue = h.offered s.number

section Steps

variable {settings : Settings} {h : Hub}

lemma Tracks.get_eq_some {b : Broadcaster} {live : List Client} (ht : Tracks b live)
    {s : Subscription} (hs : s ∈ b.connections) : b.get (connectionId s.number) = some s := by
  rw [Broadcaster.get_connectionId]
  cases hfind : b.connections.find? fun t => decide (t.number = s.number) with
  | none =>
    have hno := List.find?_eq_none.1 hfind s hs
    simp at hno
  | some t =>
    have hnum : t.number = s.number := by simpa using List.find?_some hfind
    rw [ht.inj (List.mem_of_find?_eq_some hfind) hs hnum]

lemma Subscription.client_requestClose (s : Subscription) (reason : CloseReason) :
    (s.requestClose reason).client = s.client := by
  unfold Subscription.requestClose
  cases s.closeReason <;> rfl

lemma Subscription.closeReason_requestClose (s : Subscription) (reason : CloseReason) :
    (s.requestClose reason).closeReason = some (s.closeReason.getD reason) := by
  unfold Subscription.requestClose
  cases hs : s.closeReason with
  | none => rfl
  | some r => simp [hs]

variable {h' : Hub}

lemma Accounted.add (ha : Accounted settings h) (projectId credentialId clientIp : Text) (now : ℚ) (hs : h.step settings (.add projectId credentialId clientIp now) = some h') :
    Accounted settings h' := by
  simp only [Hub.step] at hs
  cases hfull : h.broadcaster.fullScope settings projectId credentialId clientIp with
  | some scope =>
    rw [Broadcaster.addConnection, hfull] at hs
    cases hs
    exact ⟨⟨ha.tracks.registered, ha.tracks.nodup, ha.tracks.numbered, ha.tracks.project,
      ha.tracks.credential, ha.tracks.ip⟩, ha.within, ha.fresh, ha.complete⟩
  | none =>
    obtain ⟨b, s, hadd, hsub, hconn, hcount, htracks⟩ :=
      ha.tracks.add projectId credentialId clientIp now hfull
    have hwithin := ha.tracks.within_add ha.within hfull h.broadcaster.connCounter
    rw [hadd] at hs
    cases hs
    refine ⟨htracks, ?_, fun n hn => ?_, fun t ht hopen => ?_⟩
    · rw [hsub]
      exact hwithin
    · have hn' : b.connCounter ≤ n := hn
      exact ha.fresh n (by omega)
    · rw [hconn] at ht
      rcases List.mem_append.1 ht with hold | hnew
      · exact ha.complete t hold hopen
      · -- nothing has been published for the new client
        obtain ⟨hoffered, hreceived⟩ := ha.fresh _ (le_refl _)
        rw [List.mem_singleton.1 hnew, hsub]
        simp [hoffered, hreceived]

lemma Accounted.remove (ha : Accounted settings h) (handle : Handle) (reason : CloseReason) (hs : h.step settings (.remove handle reason) = some h') :
    Accounted settings h' := by
  simp only [Hub.step, Option.some.injEq] at hs
  subst hs
  have hwithin := ha.within.sublist (List.filter_sublist
    (p := fun c : Client => decide (handle ≠ .own c.number)) (l := h.live))
  cases handle with
  | other id =>
    have hsame : h.broadcaster.removeConnection (.other id) reason = h.broadcaster := by
      unfold Broadcaster.removeConnection
      split <;> rfl
    have hlive : (h.live.filter fun c => decide (Handle.other id ≠ .own c.number)) = h.live :=
      List.filter_eq_self.2 fun c _ => by simp
    simp only [hsame, hlive]
    exact ha
  | own number =>
    have hlive : (h.live.filter fun c => decide (Handle.own number ≠ .own c.number)) =
        h.live.filter fun c => decide (c.number ≠ number) := by
      refine List.filter_congr fun c _ => ?_
      simp [eq_comm]
    simp only [hlive] at hwithin ⊢
    have hget := h.broadcaster.get_connectionId number
    unfold Broadcaster.removeConnection
    simp only [Handle.connectionId, hget]
    cases hfind : h.broadcaster.connections.find? fun s => decide (s.number = number) with
    | none =>
      -- the number is not registered, so no connected client has it
      have hnone : (h.live.filter fun c => decide (c.number ≠ number)) = h.live := by
        refine List.filter_eq_self.2 fun c hc => decide_eq_true fun heq => ?_
        rw [← ha.tracks.registered] at hc
        obtain ⟨s, hs, rfl⟩ := List.mem_map.1 hc
        exact List.find?_eq_none.1 hfind s hs (decide_eq_true heq)
      simp only [hnone]
      exact ha
    | some s =>
      have hmem := List.mem_of_find?_eq_some hfind
      have hnum : s.number = number := by simpa using List.find?_some hfind
      subst hnum
      simp only [if_true]
      have hclient : s.client ∈ h.live := ha.tracks.client_mem hmem
      refine ⟨ha.tracks.removeLocked hclient, hwithin, ha.fresh, ?_⟩
      intro t ht hopen
      exact ha.complete t (List.mem_of_mem_filter ht) hopen

lemma offer_spec (settings : Settings) (projectId : Text) (event : ProjectEvent)
    (s : Subscription) :
    (Broadcaster.offer settings projectId event s).1.client = s.client ∧
    ((s.projectId ≠ projectId ∨ s.closeReason ≠ none) ∧
        (Broadcaster.offer settings projectId event s).1 = s ∨
      s.projectId = projectId ∧ s.closeReason = none ∧
        s.queue.length < settings.queueCapacity ∧
        (Broadcaster.offer settings projectId event s).1 =
          { s with queue := s.queue ++ [event] } ∨
      s.projectId = projectId ∧ s.closeReason = none ∧
        settings.queueCapacity ≤ s.queue.length ∧
        (Broadcaster.offer settings projectId event s).1 =
          { s with closeReason := some .slowConsumer }) := by
  unfold Broadcaster.offer
  split_ifs with hskip hroom
  · exact ⟨rfl, .inl ⟨hskip, rfl⟩⟩
  · simp only [not_or, not_not] at hskip
    exact ⟨rfl, .inr (.inl ⟨hskip.1, hskip.2, hroom, rfl⟩)⟩
  · simp only [not_or, not_not] at hskip
    refine ⟨s.client_requestClose _, .inr (.inr ⟨hskip.1, hskip.2, not_lt.1 hroom, ?_⟩)⟩
    simp [Subscription.requestClose, hskip.2]

lemma Accounted.broadcast (ha : Accounted settings h) (projectId : Text) (event : ProjectEvent) (hs : h.step settings (.broadcast projectId event) = some h') :
    Accounted settings h' := by
  simp only [Hub.step, Broadcaster.broadcast] at hs
  split_ifs at hs with hversion
  · cases hs
  simp only [Option.map_some, Option.some.injEq] at hs
  subst hs
  refine ⟨ha.tracks.update fun s => (offer_spec settings projectId event s).1, ha.within,
    fun n hn => ?_, fun t ht hopen => ?_⟩
  · -- a client that has not been admitted yet is not connected
    have hnot : ¬ (h.live.any fun c => decide (c.number = n ∧ c.projectId = projectId)) = true := by
      simp only [List.any_eq_true, decide_eq_true_eq, not_exists, not_and]
      intro c hc heq
      have hlt := ha.tracks.numbered c hc
      have hn' : h.broadcaster.connCounter ≤ n := hn
      omega
    simp only [if_neg hnot]
    exact ha.fresh n hn
  · obtain ⟨s, hs, rfl⟩ := List.mem_map.1 ht
    obtain ⟨hclient, hcases⟩ := offer_spec settings projectId event s
    have hnumber : (Broadcaster.offer settings projectId event s).1.number = s.number :=
      congrArg Client.number hclient
    have hlive : (h.live.any fun c => decide (c.number = s.number ∧ c.projectId = projectId)) =
        decide (s.projectId = projectId) := by
      rw [Bool.eq_iff_iff, List.any_eq_true, decide_eq_true_eq]
      constructor
      · rintro ⟨c, hc, hcond⟩
        obtain ⟨hnum, hproject⟩ := of_decide_eq_true hcond
        rw [← ha.tracks.registered] at hc
        obtain ⟨u, hu, rfl⟩ := List.mem_map.1 hc
        rw [← ha.tracks.inj hu hs hnum]
        exact hproject
      · exact fun hproject => ⟨s.client, ha.tracks.client_mem hs,
          decide_eq_true ⟨rfl, hproject⟩⟩
    simp only [hnumber, hlive, decide_eq_true_eq]
    rcases hcases with ⟨hskip, heq⟩ | ⟨hproject, hopen', -, heq⟩ | ⟨-, -, -, heq⟩
    · rw [heq] at hopen ⊢
      rw [if_neg (hskip.resolve_right (not_not.2 hopen)), ha.complete s hs hopen]
    · rw [heq, if_pos hproject, ← List.append_assoc, ha.complete s hs hopen']
    · rw [heq] at hopen
      cases hopen

lemma Accounted.expire (ha : Accounted settings h) (now : ℚ) :
    Accounted settings
      { h with broadcaster := h.broadcaster.expireConnections settings now } := by
  have hclient : ∀ s : Subscription, (if s.closeReason = none ∧
      settings.maxLifetimeSeconds ≤ now - s.createdAt then s.requestClose .maxLifetime
      else s).client = s.client := by
    intro s
    split_ifs
    · exact s.client_requestClose _
    · rfl
  refine ⟨ha.tracks.update hclient, ha.within, ha.fresh, fun t ht hopen => ?_⟩
  obtain ⟨s, hs, rfl⟩ := List.mem_map.1 ht
  split_ifs at hopen ⊢ with hexpired
  · rw [Subscription.closeReason_requestClose] at hopen
    cases hopen
  · exact ha.complete s hs hopen

lemma Accounted.take (ha : Accounted settings h) (number : ℕ)
    (hs : h.step settings (.take number) = some h') : Accounted settings h' := by
  simp only [Hub.step, Option.some.injEq] at hs
  subst hs
  have hclient : ∀ s : Subscription, (if s.number = number then { s with queue := s.queue.tail }
      else s).client = s.client := by
    intro s
    split_ifs <;> rfl
  refine ⟨ha.tracks.update hclient, ha.within, fun n hn => ?_, fun t ht hopen => ?_⟩
  · obtain ⟨hoffered, hreceived⟩ := ha.fresh n hn
    refine ⟨hoffered, ?_⟩
    simp only
    split_ifs with heq
    · -- no subscription has that number yet
      subst heq
      have hnone : h.broadcaster.connections.find? (fun s => decide (s.number = n)) = none := by
        refine List.find?_eq_none.2 fun s hs heq => ?_
        have hlt := ha.tracks.numbered s.client (ha.tracks.client_mem hs)
        have hnum : s.client.number = n := of_decide_eq_true heq
        have hn' : h.broadcaster.connCounter ≤ n := hn
        omega
      rw [Broadcaster.nextEvent, Broadcaster.get_connectionId, hnone, hreceived]
      rfl
    · exact hreceived
  · obtain ⟨s, hs, rfl⟩ := List.mem_map.1 ht
    simp only
    split_ifs at hopen ⊢ with hnum
    · have hnext : h.broadcaster.nextEvent s.number = s.queue.take 1 := by
        rw [Broadcaster.nextEvent, ha.tracks.get_eq_some hs]
        simp
      subst hnum
      have htail : s.queue.take 1 ++ s.queue.tail = s.queue := by
        cases s.queue <;> rfl
      rw [hnext, List.append_assoc, htail]
      exact ha.complete s hs hopen
    · exact ha.complete s hs hopen

/-- **The step lemma.** -/
lemma Accounted.step (ha : Accounted settings h) {a : HubAct}
    (hs : h.step settings a = some h') : Accounted settings h' := by
  cases a with
  | add projectId credentialId clientIp now => exact ha.add projectId credentialId clientIp now hs
  | remove handle reason => exact ha.remove handle reason hs
  | broadcast projectId event => exact ha.broadcast projectId event hs
  | expire now =>
    simp only [Hub.step, Option.some.injEq] at hs
    exact hs ▸ ha.expire now
  | stop =>
    simp only [Hub.step, Option.some.injEq] at hs
    subst hs
    have hstop := ha.tracks.stop
    have hempty : h.broadcaster.stop.connections = [] := List.map_eq_nil_iff.1 hstop.registered
    have hcount : h.broadcaster.stop.connCounter = h.broadcaster.connCounter := by
      unfold Broadcaster.stop
      exact List.foldlRecOn h.broadcaster.connections
        (motive := fun b : Broadcaster => b.connCounter = h.broadcaster.connCounter) _ rfl
        fun b hb s _ => hb
    refine ⟨hstop, ha.within.sublist (List.nil_sublist _), fun n hn => ?_, fun t ht => ?_⟩
    · exact ha.fresh n (hcount ▸ hn)
    · rw [hempty] at ht
      cases ht
  | take number => exact ha.take number hs

lemma reach_accounted (hr : (hub settings).Reach h) : Accounted settings h := by
  refine StepMachine.Reach.induct (P := Accounted settings) ?_
    (fun s a s' _ hp hst => hp.step hst) hr
  refine ⟨⟨rfl, List.nodup_nil, nofun, Counter.counts_nil _, Counter.counts_nil _,
    Counter.counts_nil _⟩, ⟨Nat.zero_le _, fun _ => Nat.zero_le _, fun _ => Nat.zero_le _,
    fun _ => Nat.zero_le _⟩, fun _ _ => ⟨rfl, rfl⟩, nofun⟩

end Steps

/-- **Admission accounting.** After any sequence of calls the global, project, credential and
address counters are the numbers of connected clients of each kind; none is negative or exceeds its
limit; and every connection that is still open has, taken or queued, each event published for its
project since it was admitted. A refused client changes no counter. A connection whose queue is full
when an event is published is closed. -/
theorem admission_accounting (settings : Settings) :
    (∀ h, (hub settings).Reach h →
      (h.broadcaster.connections.length = h.live.length ∧
        h.broadcaster.connections.length ≤ settings.maxConnections) ∧
      (∀ p, h.broadcaster.projectCounts p = (h.live.countP fun c => decide (c.projectId = p) : ℕ) ∧
        0 ≤ h.broadcaster.projectCounts p ∧
        h.broadcaster.projectCounts p ≤ settings.maxConnectionsPerProject) ∧
      (∀ k, h.broadcaster.credentialCounts k =
          (h.live.countP fun c => decide (c.credentialId = k) : ℕ) ∧
        0 ≤ h.broadcaster.credentialCounts k ∧
        h.broadcaster.credentialCounts k ≤ settings.maxConnectionsPerCredential) ∧
      (∀ a, h.broadcaster.ipCounts a = (h.live.countP fun c => decide (c.clientIp = a) : ℕ) ∧
        0 ≤ h.broadcaster.ipCounts a ∧
        h.broadcaster.ipCounts a ≤ settings.maxConnectionsPerIp) ∧
      ∀ s ∈ h.broadcaster.connections, s.closeReason = none →
        h.received s.number ++ s.queue = h.offered s.number) ∧
    (∀ (b : Broadcaster) projectId credentialId clientIp now b' scope,
      b.addConnection settings projectId credentialId clientIp now = (b', .error scope) →
      b'.connections = b.connections ∧ b'.projectCounts = b.projectCounts ∧
        b'.credentialCounts = b.credentialCounts ∧ b'.ipCounts = b.ipCounts) ∧
    ∀ (b b' : Broadcaster) projectId event, b.broadcast settings projectId event = some b' →
      ∀ s ∈ b.connections, s.projectId = projectId → s.closeReason = none →
        settings.queueCapacity ≤ s.queue.length →
        { s with closeReason := some .slowConsumer } ∈ b'.connections := by
  refine ⟨fun h hr => ?_, fun b projectId credentialId clientIp now b' scope hadd => ?_,
    fun b b' projectId event hb s hs hproject hopen hfull => ?_⟩
  · obtain ⟨htracks, hwithin, -, hcomplete⟩ := reach_accounted hr
    have hlength : h.broadcaster.connections.length = h.live.length := by
      rw [← htracks.registered, List.length_map]
    exact ⟨⟨hlength, hlength ▸ hwithin.total⟩, htracks.project.bounds hwithin.project,
      htracks.credential.bounds hwithin.credential, htracks.ip.bounds hwithin.ip, hcomplete⟩
  · unfold Broadcaster.addConnection at hadd
    split at hadd
    · cases hadd
      exact ⟨rfl, rfl, rfl, rfl⟩
    · cases hadd
  · unfold Broadcaster.broadcast at hb
    split_ifs at hb
    cases hb
    refine List.mem_map.2 ⟨s, hs, ?_⟩
    obtain ⟨-, ⟨hskip, -⟩ | ⟨-, -, hroom, -⟩ | ⟨-, -, -, heq⟩⟩ :=
      offer_spec settings projectId event s
    · exact absurd hproject (hskip.resolve_right (not_not.2 hopen))
    · omega
    · exact heq

/-- One connection is allowed; the second client is refused. -/
theorem admission_accounting_refused :
    ∃ h, (hub ⟨1, 1, 1, 1, 1, 300, by decide, by decide, by decide, by decide, by decide,
        by decide, le_refl 1, le_refl 1, le_refl 1⟩).Reach h ∧
      h.broadcaster.rejectedCounts .global = 1 ∧ h.broadcaster.projectCounts [112] = 1 ∧
      h.broadcaster.connections.length ≤ 1 := by
  obtain ⟨h, hrun⟩ : ∃ h, (hub ⟨1, 1, 1, 1, 1, 300, by decide, by decide, by decide, by decide,
      by decide, by decide, le_refl 1, le_refl 1, le_refl 1⟩).run (hub ⟨1, 1, 1, 1, 1, 300,
      by decide, by decide, by decide, by decide, by decide, by decide, le_refl 1, le_refl 1,
      le_refl 1⟩).init [.add [112] [99] [49] 0, .add [113] [100] [50] 1] = some h := ⟨_, rfl⟩
  have hreach := StepMachine.reach_of_run hrun
  have hh := Option.some.inj hrun
  obtain ⟨⟨-, hle⟩, -⟩ := (admission_accounting _).1 h hreach
  exact ⟨h, hreach, hh ▸ rfl, hh ▸ rfl, hle⟩

end Apdl.Config.Sse
