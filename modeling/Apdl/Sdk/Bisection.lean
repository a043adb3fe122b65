import Apdl.Sdk.PyQueue.Model
import Mathlib.Data.List.Perm.Basic

set_option autoImplicit false

/-!
# Delivery by bisection

`_deliver_batch` of the Python queue and `deliverPreparedBatch` of the JavaScript queue send a batch
and, when the server rejects its payload, send its halves. Between requests the Python queue gives
up when it is stopping.

## Main results

* `bisecting_delivery` — both functions end, and deliver so.

## Design

A transport is a state machine, so every sequence of outcomes is that of a transport. The functions
recurse on halves, which for an empty batch are the batch again; their callers send no empty batch.
-/

namespace Apdl.Sdk.Bisection

open PyQueue (TransportOutcome PostResult attemptSend)

/-! ## Requests -/

section Requests

variable {E : Type}

structure Request (E : Type) where
  events : List E
  outcome : TransportOutcome
  deriving DecidableEq

/-- The events of the request are not sent again. -/
def Request.isRejection (q : Request E) : Bool :=
  q.outcome == .permanentRejection || q.outcome == .payloadRejected && q.events.length == 1

/-- The events that the requests deliver. -/
def acceptedEvents (log : List (Request E)) : List E :=
  (log.filter fun q => q.outcome == .accepted).flatMap Request.events

def rejectedEvents (log : List (Request E)) : List E :=
  (log.filter Request.isRejection).flatMap Request.events

def settledEvents (log : List (Request E)) : List E :=
  (log.filter fun q => q.outcome == .accepted || q.isRejection).flatMap Request.events

end Requests

/-! ## The two functions -/

namespace Python

variable {σ E : Type}

/-- What `_deliver_batch` asks: the transport, and whether the queue is stopping. -/
structure Env (σ E : Type) where
  postJson : List E → σ → PostResult × σ
  stopping : σ → Bool × σ

structure BatchDelivery (E : Type) where
  accepted : ℕ
  permanentlyRejected : ℕ
  retryableEvents : List E

/-- `_deliver_batch`, to a depth, with its requests; `none` beyond that depth. -/
def deliverBatch (env : Env σ E) :
    ℕ → List E → σ → Option (BatchDelivery E × List (Request E) × σ)
  | 0, _, _ => none
  | fuel + 1, batch, s =>
    let (result, s) := env.postJson batch s
    let outcome := attemptSend result
    let request : Request E := ⟨batch, outcome⟩
    if outcome = .accepted then some (⟨batch.length, 0, []⟩, [request], s)
    else if outcome = .retryable then some (⟨0, 0, batch⟩, [request], s)
    else if outcome = .permanentRejection ∨ batch.length = 1 then
      some (⟨0, batch.length, []⟩, [request], s)
    else
      let (stopping, s) := env.stopping s
      if stopping then some (⟨0, 0, batch⟩, [request], s)
      else
        let midpoint := batch.length / 2
        (deliverBatch env fuel (batch.take midpoint) s).bind fun (left, leftLog, s) =>
          if left.retryableEvents ≠ [] then
            some (⟨left.accepted, left.permanentlyRejected,
              left.retryableEvents ++ batch.drop midpoint⟩, request :: leftLog, s)
          else
            let (stopping, s) := env.stopping s
            if stopping then
              some (⟨left.accepted, left.permanentlyRejected, batch.drop midpoint⟩,
                request :: leftLog, s)
            else
              (deliverBatch env fuel (batch.drop midpoint) s).bind fun (right, rightLog, s) =>
                some (⟨left.accepted + right.accepted,
                  left.permanentlyRejected + right.permanentlyRejected, right.retryableEvents⟩,
                  request :: (leftLog ++ rightLog), s)

end Python

namespace JavaScript

variable {σ P I : Type}

/-- `PreparedBatch`: pending events and the payload made of them. -/
structure PreparedBatch (P I : Type) where
  events : List P
  payload : List I

structure BatchDelivery (P : Type) where
  delivered : List P
  permanentRejections : List P
  retryableEvents : List P

/-- What `Transport.send` answers; `none` when it throws. -/
abbrev Transport (σ I : Type) := List I → σ → Option TransportOutcome × σ

/-- `sendPreparedBatch`: an exception is retryable. -/
def sendPreparedBatch (transport : Transport σ I) (prepared : PreparedBatch P I) (s : σ) :
    TransportOutcome × σ :=
  let (outcome, s) := transport prepared.payload s
  (outcome.getD .retryable, s)

/-- `slicePreparedBatch` from the start. -/
def PreparedBatch.take (prepared : PreparedBatch P I) (stop : ℕ) : PreparedBatch P I :=
  ⟨prepared.events.take stop, prepared.payload.take stop⟩

/-- `slicePreparedBatch` to the end. -/
def PreparedBatch.drop (prepared : PreparedBatch P I) (start : ℕ) : PreparedBatch P I :=
  ⟨prepared.events.drop start, prepared.payload.drop start⟩

/-- `deliverPreparedBatch`, to a depth, with its requests; `none` beyond that depth. -/
def deliverPreparedBatch (transport : Transport σ I) :
    ℕ → PreparedBatch P I → σ →
      Option (BatchDelivery P × List (PreparedBatch P I × TransportOutcome) × σ)
  | 0, _, _ => none
  | fuel + 1, prepared, s =>
    let (outcome, s) := sendPreparedBatch transport prepared s
    let request := (prepared, outcome)
    if outcome = .accepted then some (⟨prepared.events, [], []⟩, [request], s)
    else if outcome = .retryable then some (⟨[], [], prepared.events⟩, [request], s)
    else if outcome = .permanentRejection ∨ prepared.events.length = 1 then
      some (⟨[], prepared.events, []⟩, [request], s)
    else
      let midpoint := prepared.events.length / 2
      let right := prepared.drop midpoint
      (deliverPreparedBatch transport fuel (prepared.take midpoint) s).bind
        fun (leftDelivery, leftLog, s) =>
          if leftDelivery.retryableEvents ≠ [] then
            some (⟨leftDelivery.delivered, leftDelivery.permanentRejections,
              leftDelivery.retryableEvents ++ right.events⟩, request :: leftLog, s)
          else
            (deliverPreparedBatch transport fuel right s).bind fun (rightDelivery, rightLog, s) =>
              some (⟨leftDelivery.delivered ++ rightDelivery.delivered,
                leftDelivery.permanentRejections ++ rightDelivery.permanentRejections,
                rightDelivery.retryableEvents⟩, request :: (leftLog ++ rightLog), s)

end JavaScript

/-! ## What a delivery can do -/

section Delivers

variable {E : Type} {answers : List E → TransportOutcome → Prop} {halts : Prop}
  {batch rest : List E} {log : List (Request E)}

/-- Given the answers that are possible, and whether the queue may halt: the requests that deliver a
batch, and the events that are left. -/
inductive Delivers (answers : List E → TransportOutcome → Prop) (halts : Prop) :
    List E → List (Request E) → List E → Prop
  | accepted {b : List E} (h : answers b .accepted) : Delivers answers halts b [⟨b, .accepted⟩] []
  | retryable {b : List E} (h : answers b .retryable) :
      Delivers answers halts b [⟨b, .retryable⟩] b
  | rejected {b : List E} (h : answers b .permanentRejection) :
      Delivers answers halts b [⟨b, .permanentRejection⟩] []
  | isolated {b : List E} (h : answers b .payloadRejected) (hone : b.length = 1) :
      Delivers answers halts b [⟨b, .payloadRejected⟩] []
  | halted {b : List E} (h : answers b .payloadRejected) (hne : b.length ≠ 1) (hhalt : halts) :
      Delivers answers halts b [⟨b, .payloadRejected⟩] b
  | left {l r rest : List E} {log : List (Request E)} (h : answers (l ++ r) .payloadRejected)
      (hne : (l ++ r).length ≠ 1) (hleft : Delivers answers halts l log rest) (hrest : rest ≠ []) :
      Delivers answers halts (l ++ r) (⟨l ++ r, .payloadRejected⟩ :: log) (rest ++ r)
  | between {l r : List E} {log : List (Request E)} (h : answers (l ++ r) .payloadRejected)
      (hne : (l ++ r).length ≠ 1) (hleft : Delivers answers halts l log []) (hhalt : halts) :
      Delivers answers halts (l ++ r) (⟨l ++ r, .payloadRejected⟩ :: log) r
  | both {l r rest : List E} {log log' : List (Request E)} (h : answers (l ++ r) .payloadRejected)
      (hne : (l ++ r).length ≠ 1) (hleft : Delivers answers halts l log [])
      (hright : Delivers answers halts r log' rest) :
      Delivers answers halts (l ++ r) (⟨l ++ r, .payloadRejected⟩ :: (log ++ log')) rest

@[simp] lemma settledEvents_append (log log' : List (Request E)) :
    settledEvents (log ++ log') = settledEvents log ++ settledEvents log' := by
  simp [settledEvents]

@[simp] lemma acceptedEvents_append (log log' : List (Request E)) :
    acceptedEvents (log ++ log') = acceptedEvents log ++ acceptedEvents log' := by
  simp [acceptedEvents]

@[simp] lemma rejectedEvents_append (log log' : List (Request E)) :
    rejectedEvents (log ++ log') = rejectedEvents log ++ rejectedEvents log' := by
  simp [rejectedEvents]

lemma events_split_cons {b : List E} (hne : b.length ≠ 1) (log : List (Request E)) :
    settledEvents (⟨b, .payloadRejected⟩ :: log) = settledEvents log ∧
      acceptedEvents (⟨b, .payloadRejected⟩ :: log) = acceptedEvents log ∧
      rejectedEvents (⟨b, .payloadRejected⟩ :: log) = rejectedEvents log := by
  have hno : Request.isRejection ⟨b, .payloadRejected⟩ = false := by simp [Request.isRejection, hne]
  simp [settledEvents, acceptedEvents, rejectedEvents, hno]

theorem Delivers.settled_append (h : Delivers answers halts batch log rest) :
    settledEvents log ++ rest = batch := by
  induction h with
  | accepted => simp [settledEvents]
  | retryable => simp [settledEvents, Request.isRejection]
  | rejected => simp [settledEvents, Request.isRejection]
  | isolated _ hone => simp [settledEvents, Request.isRejection, hone]
  | halted _ hne => rw [(events_split_cons hne []).1]; rfl
  | left _ hne _ _ ih => rw [(events_split_cons hne _).1, ← List.append_assoc, ih]
  | between _ hne _ _ ih =>
    rw [(events_split_cons hne _).1]
    rw [List.append_nil] at ih
    rw [ih]
  | both _ hne _ _ ihl ihr =>
    rw [(events_split_cons hne _).1, settledEvents_append, List.append_assoc, ihr]
    rw [List.append_nil] at ihl
    rw [ihl]

lemma settledEvents_parts (log : List (Request E)) :
    (acceptedEvents log ++ rejectedEvents log).Perm (settledEvents log) ∧
      (acceptedEvents log).Sublist (settledEvents log) ∧
      (rejectedEvents log).Sublist (settledEvents log) := by
  induction log with
  | nil => exact ⟨.refl _, .refl _, .refl _⟩
  | cons q log ih =>
    obtain ⟨hperm, hacc, hrej⟩ := ih
    by_cases haccepted : q.outcome = .accepted
    · have hno : q.isRejection = false := by simp [Request.isRejection, haccepted]
      have hs : settledEvents (q :: log) = q.events ++ settledEvents log := by
        simp [settledEvents, haccepted]
      have ha : acceptedEvents (q :: log) = q.events ++ acceptedEvents log := by
        simp [acceptedEvents, haccepted]
      have hr : rejectedEvents (q :: log) = rejectedEvents log := by
        simp [rejectedEvents, hno]
      rw [hs, ha, hr, List.append_assoc]
      exact ⟨hperm.append_left _, hacc.append_left _, hrej.trans (List.sublist_append_right _ _)⟩
    · have ha : acceptedEvents (q :: log) = acceptedEvents log := by
        simp [acceptedEvents, haccepted]
      cases hrejects : q.isRejection with
      | true =>
        have hs : settledEvents (q :: log) = q.events ++ settledEvents log := by
          simp [settledEvents, hrejects]
        have hr : rejectedEvents (q :: log) = q.events ++ rejectedEvents log := by
          simp [rejectedEvents, hrejects]
        rw [hs, ha, hr]
        refine ⟨?_, hacc.trans (List.sublist_append_right _ _), hrej.append_left _⟩
        exact (List.perm_append_comm_assoc _ _ _).trans (hperm.append_left _)
      | false =>
        have hs : settledEvents (q :: log) = settledEvents log := by
          simp [settledEvents, hrejects, haccepted]
        have hr : rejectedEvents (q :: log) = rejectedEvents log := by
          simp [rejectedEvents, hrejects]
        rw [hs, ha, hr]
        exact ⟨hperm, hacc, hrej⟩

/-- Accepted, rejected and retryable events are the parts of a batch: together they are the batch,
each part is in the order of the batch, and the retryable part is its end. -/
structure Delivered (batch accepted rejected retryable : List E) : Prop where
  parts : (accepted ++ rejected ++ retryable).Perm batch
  accepted_sublist : accepted.Sublist batch
  rejected_sublist : rejected.Sublist batch
  retryable_suffix : retryable <:+ batch

theorem Delivers.delivered (h : Delivers answers halts batch log rest) :
    Delivered batch (acceptedEvents log) (rejectedEvents log) rest := by
  obtain ⟨hperm, hacc, hrej⟩ := settledEvents_parts log
  have hbatch := h.settled_append
  rw [← hbatch]
  exact ⟨hperm.append_right _, hacc.trans (List.sublist_append_left _ _),
    hrej.trans (List.sublist_append_left _ _), List.suffix_append _ _⟩

/-- Requests are rejected for their payload exactly when they contain an invalid event, and accepted
otherwise. -/
def RejectsExactly (invalid : E → Bool) (answers : List E → TransportOutcome → Prop) : Prop :=
  ∀ b o, answers b o → o = if b.any invalid then .payloadRejected else .accepted

theorem Delivers.filter_eq {invalid : E → Bool} (hexact : RejectsExactly invalid answers)
    (hhalts : ¬ halts) (h : Delivers answers halts batch log rest) :
    rest = [] ∧ acceptedEvents log = batch.filter (fun x => !invalid x) ∧
      rejectedEvents log = batch.filter invalid := by
  induction h with
  | @accepted b h =>
    have hnone : b.any invalid = false := by
      by_contra hany
      have := hexact _ _ h
      simp [Bool.not_eq_false _ ▸ hany] at this
    have hall : ∀ x ∈ b, invalid x = false := by simpa using hnone
    have hkeep : b.filter (fun x => !invalid x) = b :=
      List.filter_eq_self.2 fun x hx => by rw [hall x hx]; rfl
    have hdrop : b.filter invalid = [] :=
      List.filter_eq_nil_iff.2 fun x hx => by rw [hall x hx]; exact Bool.false_ne_true
    refine ⟨rfl, ?_, ?_⟩
    · simp [acceptedEvents, hkeep]
    · simp [rejectedEvents, Request.isRejection, hdrop]
  | retryable h =>
    have := hexact _ _ h
    split at this <;> cases this
  | rejected h =>
    have := hexact _ _ h
    split at this <;> cases this
  | @isolated b h hone =>
    have hany : b.any invalid = true := by
      by_contra hnone
      have := hexact _ _ h
      simp [hnone] at this
    obtain ⟨x, rfl⟩ := List.length_eq_one_iff.1 hone
    have hx : invalid x = true := by simpa using hany
    exact ⟨rfl, by simp [acceptedEvents, hx], by simp [rejectedEvents, Request.isRejection, hx]⟩
  | halted _ _ hhalt => exact absurd hhalt hhalts
  | left _ _ _ hrest ih => exact absurd ih.1 hrest
  | between _ _ _ hhalt => exact absurd hhalt hhalts
  | both _ hne _ _ ihl ihr =>
    obtain ⟨-, hla, hlr⟩ := ihl
    obtain ⟨hrest, hra, hrr⟩ := ihr
    obtain ⟨-, ha, hr⟩ := events_split_cons hne (_ ++ _)
    rw [ha, hr, acceptedEvents_append, rejectedEvents_append, hla, hlr, hra, hrr,
      List.filter_append, List.filter_append]
    exact ⟨hrest, rfl, rfl⟩

end Delivers

/-! ## Both functions deliver so -/

lemma halves {α : Type} {batch : List α} (hne : batch ≠ []) (hmany : batch.length ≠ 1) :
    batch.take (batch.length / 2) ≠ [] ∧ batch.drop (batch.length / 2) ≠ [] ∧
      (batch.take (batch.length / 2)).length < batch.length ∧
      (batch.drop (batch.length / 2)).length < batch.length := by
  have hpos := List.length_pos_iff.2 hne
  refine ⟨fun h => ?_, fun h => ?_, ?_, ?_⟩
  · have := congrArg List.length h
    rw [List.length_take, List.length_nil] at this
    omega
  · have := congrArg List.length h
    rw [List.length_drop, List.length_nil] at this
    omega
  · rw [List.length_take]
    omega
  · rw [List.length_drop]
    omega

lemma eq_payloadRejected {o : TransportOutcome} (hacc : o ≠ .accepted) (hretry : o ≠ .retryable)
    (hpermanent : o ≠ .permanentRejection) : o = .payloadRejected := by
  cases o with
  | accepted => exact absurd rfl hacc
  | retryable => exact absurd rfl hretry
  | payloadRejected => rfl
  | permanentRejection => exact absurd rfl hpermanent

namespace Python

variable {σ E : Type} {env : Env σ E} {batch : List E} {fuel : ℕ} {s s' : σ}
  {d : BatchDelivery E} {log : List (Request E)}

/-- The outcomes that the transport can give for a request. -/
def Env.Answers (env : Env σ E) (b : List E) (o : TransportOutcome) : Prop :=
  ∃ s, attemptSend (env.postJson b s).1 = o

/-- The queue can be found stopping. -/
def Env.Halts (env : Env σ E) : Prop := ∃ s, (env.stopping s).1 = true

lemma deliverBatch_delivers (h : deliverBatch env fuel batch s = some (d, log, s')) :
    Delivers env.Answers env.Halts batch log d.retryableEvents ∧
      d.accepted = (acceptedEvents log).length ∧
      d.permanentlyRejected = (rejectedEvents log).length := by
  induction fuel generalizing batch s d log s' with
  | zero => cases h
  | succ fuel ih =>
    rw [deliverBatch] at h
    have hanswer : env.Answers batch (attemptSend (env.postJson batch s).1) := ⟨s, rfl⟩
    generalize env.postJson batch s = posted at h hanswer
    obtain ⟨result, s₁⟩ := posted
    dsimp only at h hanswer
    rw [ite_eq_iff] at h
    obtain ⟨ho, h⟩ | ⟨hacc, h⟩ := h
    · cases h
      rw [ho] at hanswer ⊢
      exact ⟨.accepted hanswer, by simp [acceptedEvents],
        by simp [rejectedEvents, Request.isRejection]⟩
    rw [ite_eq_iff] at h
    obtain ⟨ho, h⟩ | ⟨hretry, h⟩ := h
    · cases h
      rw [ho] at hanswer ⊢
      exact ⟨.retryable hanswer, by simp [acceptedEvents],
        by simp [rejectedEvents, Request.isRejection]⟩
    rw [ite_eq_iff] at h
    obtain ⟨hreject, h⟩ | ⟨hsplit, h⟩ := h
    · cases h
      by_cases ho : attemptSend result = .permanentRejection
      · rw [ho] at hanswer ⊢
        exact ⟨.rejected hanswer, by simp [acceptedEvents],
          by simp [rejectedEvents, Request.isRejection]⟩
      · have hone := hreject.resolve_left ho
        rw [eq_payloadRejected hacc hretry ho] at hanswer ⊢
        exact ⟨.isolated hanswer hone, by simp [acceptedEvents],
          by simp [rejectedEvents, Request.isRejection, hone]⟩
    rw [not_or] at hsplit
    obtain ⟨ho, hmany⟩ := hsplit
    rw [eq_payloadRejected hacc hretry ho] at hanswer h
    have hsum : batch.take (batch.length / 2) ++ batch.drop (batch.length / 2) = batch :=
      List.take_append_drop _ _
    rw [ite_eq_iff] at h
    obtain ⟨hstop, h⟩ | ⟨-, h⟩ := h
    · cases h
      exact ⟨.halted hanswer hmany ⟨s₁, hstop⟩,
        by simp [acceptedEvents], by simp [rejectedEvents, Request.isRejection, hmany]⟩
    obtain ⟨⟨left, leftLog, s₃⟩, hleft, h⟩ := Option.bind_eq_some_iff.1 h
    obtain ⟨hdleft, hla, hlr⟩ := ih hleft
    rw [← hsum] at hanswer hmany
    obtain ⟨-, hskipa, hskipr⟩ := events_split_cons hmany leftLog
    dsimp only at h
    rw [ite_eq_iff] at h
    obtain ⟨hrest, h⟩ | ⟨hrest, h⟩ := h
    · cases h
      rw [hsum] at hskipa hskipr
      rw [hskipa, hskipr]
      refine ⟨?_, hla, hlr⟩
      have := Delivers.left hanswer hmany hdleft hrest
      rwa [hsum] at this
    rw [not_ne_iff] at hrest
    rw [hrest] at hdleft
    rw [ite_eq_iff] at h
    obtain ⟨hstop, h⟩ | ⟨-, h⟩ := h
    · cases h
      rw [hsum] at hskipa hskipr
      rw [hskipa, hskipr]
      refine ⟨?_, hla, hlr⟩
      have := Delivers.between hanswer hmany hdleft ⟨s₃, hstop⟩
      rwa [hsum] at this
    obtain ⟨⟨right, rightLog, s₅⟩, hright, h⟩ := Option.bind_eq_some_iff.1 h
    obtain ⟨hdright, hra, hrr⟩ := ih hright
    obtain ⟨-, hskipa, hskipr⟩ := events_split_cons hmany (leftLog ++ rightLog)
    rw [hsum] at hskipa hskipr
    cases h
    rw [hskipa, hskipr, acceptedEvents_append, rejectedEvents_append, List.length_append,
      List.length_append, hla, hra, hlr, hrr]
    refine ⟨?_, rfl, rfl⟩
    have := Delivers.both hanswer hmany hdleft hdright
    rwa [hsum] at this

lemma deliverBatch_isSome (hne : batch ≠ []) (hfuel : batch.length ≤ fuel) :
    (deliverBatch env fuel batch s).isSome = true := by
  induction fuel generalizing batch s with
  | zero => exact absurd (List.length_eq_zero_iff.1 (by omega)) hne
  | succ fuel ih =>
    rw [deliverBatch]
    dsimp only
    split_ifs with _ _ hend
    · rfl
    · rfl
    · rfl
    · rfl
    · rw [not_or] at hend
      obtain ⟨hl, hr, hllen, hrlen⟩ := halves hne hend.2
      obtain ⟨⟨left, leftLog, s₃⟩, hleft⟩ := Option.isSome_iff_exists.1
        (ih (s := (env.stopping (env.postJson batch s).2).2) hl (by omega))
      rw [hleft, Option.bind_some]
      dsimp only
      split_ifs
      · rfl
      · rfl
      · obtain ⟨right, hright⟩ := Option.isSome_iff_exists.1
          (ih (s := (env.stopping s₃).2) hr (by omega))
        rw [hright]
        rfl

end Python

namespace JavaScript

variable {σ P I : Type} {transport : Transport σ I} {batch : List (P × I)} {fuel : ℕ} {s s' : σ}
  {d : BatchDelivery P} {log : List (PreparedBatch P I × TransportOutcome)}

def PreparedBatch.ofPairs (batch : List (P × I)) : PreparedBatch P I :=
  ⟨batch.map Prod.fst, batch.map Prod.snd⟩

lemma PreparedBatch.take_ofPairs (batch : List (P × I)) (n : ℕ) :
    (ofPairs batch).take n = ofPairs (batch.take n) := by
  simp [ofPairs, PreparedBatch.take]

lemma PreparedBatch.drop_ofPairs (batch : List (P × I)) (n : ℕ) :
    (ofPairs batch).drop n = ofPairs (batch.drop n) := by
  simp [ofPairs, PreparedBatch.drop]

/-- The outcomes that the transport can give for a request. -/
def Answers (transport : Transport σ I) (b : List (P × I)) (o : TransportOutcome) : Prop :=
  ∃ s, (sendPreparedBatch transport (PreparedBatch.ofPairs b) s).1 = o

/-- The delivery is what requests with these pairs settle. -/
structure Tells (d : BatchDelivery P) (log : List (Request (P × I))) (rest : List (P × I)) :
    Prop where
  delivered : d.delivered = (acceptedEvents log).map Prod.fst
  permanentRejections : d.permanentRejections = (rejectedEvents log).map Prod.fst
  retryableEvents : d.retryableEvents = rest.map Prod.fst

lemma deliverPreparedBatch_delivers
    (h : deliverPreparedBatch transport fuel (.ofPairs batch) s = some (d, log, s')) :
    ∃ requests rest, Delivers (Answers transport) False batch requests rest ∧
      log = requests.map (fun q => (.ofPairs q.events, q.outcome)) ∧ Tells d requests rest := by
  induction fuel generalizing batch s d log s' with
  | zero => cases h
  | succ fuel ih =>
    rw [deliverPreparedBatch] at h
    have hanswer : Answers transport batch
        (sendPreparedBatch transport (PreparedBatch.ofPairs batch) s).1 := ⟨s, rfl⟩
    generalize sendPreparedBatch transport (PreparedBatch.ofPairs batch) s = sent at h hanswer
    obtain ⟨outcome, s₁⟩ := sent
    have hlen : (PreparedBatch.ofPairs batch).events.length = batch.length := List.length_map _
    dsimp only at h hanswer
    rw [hlen, ite_eq_iff] at h
    obtain ⟨rfl, h⟩ | ⟨hacc, h⟩ := h
    · cases h
      refine ⟨_, _, .accepted hanswer, rfl, ?_, ?_, rfl⟩
      · simp [acceptedEvents, PreparedBatch.ofPairs]
      · simp [rejectedEvents, Request.isRejection]
    rw [ite_eq_iff] at h
    obtain ⟨rfl, h⟩ | ⟨hretry, h⟩ := h
    · cases h
      refine ⟨_, _, .retryable hanswer, rfl, ?_, ?_, rfl⟩
      · simp [acceptedEvents]
      · simp [rejectedEvents, Request.isRejection]
    rw [ite_eq_iff] at h
    obtain ⟨hreject, h⟩ | ⟨hsplit, h⟩ := h
    · cases h
      by_cases ho : outcome = .permanentRejection
      · subst ho
        refine ⟨_, _, .rejected hanswer, rfl, ?_, ?_, rfl⟩
        · simp [acceptedEvents]
        · simp [rejectedEvents, Request.isRejection, PreparedBatch.ofPairs]
      · have hone := hreject.resolve_left ho
        obtain rfl := eq_payloadRejected hacc hretry ho
        refine ⟨_, _, .isolated hanswer hone, rfl, ?_, ?_, rfl⟩
        · simp [acceptedEvents]
        · simp [rejectedEvents, Request.isRejection, PreparedBatch.ofPairs, hone]
    rw [not_or] at hsplit
    obtain ⟨ho, hmany⟩ := hsplit
    obtain rfl := eq_payloadRejected hacc hretry ho
    have hsum : batch.take (batch.length / 2) ++ batch.drop (batch.length / 2) = batch :=
      List.take_append_drop _ _
    rw [PreparedBatch.take_ofPairs, PreparedBatch.drop_ofPairs] at h
    obtain ⟨⟨left, leftLog, s₂⟩, hleft, h⟩ := Option.bind_eq_some_iff.1 h
    obtain ⟨lq, lrest, hdleft, rfl, hltells⟩ := ih hleft
    rw [← hsum] at hanswer hmany
    dsimp only at h
    rw [ite_eq_iff] at h
    obtain ⟨hrest, h⟩ | ⟨hrest, h⟩ := h
    · cases h
      have hlrest : lrest ≠ [] := by
        rintro rfl
        exact hrest hltells.retryableEvents
      have hnew := Delivers.left hanswer hmany hdleft hlrest
      obtain ⟨-, hskipa, hskipr⟩ := events_split_cons hmany lq
      rw [hsum] at hnew hskipa hskipr
      refine ⟨_, _, hnew, rfl, ?_, ?_, ?_⟩
      · rw [hskipa]
        exact hltells.delivered
      · rw [hskipr]
        exact hltells.permanentRejections
      · rw [List.map_append, ← hltells.retryableEvents]
        rfl
    rw [not_ne_iff, hltells.retryableEvents, List.map_eq_nil_iff] at hrest
    subst hrest
    obtain ⟨⟨right, rightLog, s₃⟩, hright, h⟩ := Option.bind_eq_some_iff.1 h
    obtain ⟨rq, rrest, hdright, rfl, hrtells⟩ := ih hright
    cases h
    have hnew := Delivers.both hanswer hmany hdleft hdright
    obtain ⟨-, hskipa, hskipr⟩ := events_split_cons hmany (lq ++ rq)
    rw [hsum] at hnew hskipa hskipr
    refine ⟨_, _, hnew, by simp, ?_, ?_, hrtells.retryableEvents⟩
    · rw [hskipa, acceptedEvents_append, List.map_append, ← hltells.delivered,
        ← hrtells.delivered]
    · rw [hskipr, rejectedEvents_append, List.map_append, ← hltells.permanentRejections,
        ← hrtells.permanentRejections]

lemma deliverPreparedBatch_isSome (hne : batch ≠ []) (hfuel : batch.length ≤ fuel) :
    (deliverPreparedBatch transport fuel (.ofPairs batch) s).isSome = true := by
  induction fuel generalizing batch s with
  | zero => exact absurd (List.length_eq_zero_iff.1 (by omega)) hne
  | succ fuel ih =>
    have hlen : (PreparedBatch.ofPairs batch).events.length = batch.length := List.length_map _
    rw [deliverPreparedBatch]
    dsimp only
    rw [hlen, PreparedBatch.take_ofPairs, PreparedBatch.drop_ofPairs]
    split_ifs with _ _ hend
    · rfl
    · rfl
    · rfl
    · rw [not_or] at hend
      obtain ⟨hl, hr, hllen, hrlen⟩ := halves hne hend.2
      obtain ⟨⟨left, leftLog, s₂⟩, hleft⟩ := Option.isSome_iff_exists.1
        (ih (s := (sendPreparedBatch transport (PreparedBatch.ofPairs batch) s).2) hl (by omega))
      rw [hleft, Option.bind_some]
      dsimp only
      split_ifs
      · rfl
      · obtain ⟨right, hright⟩ := Option.isSome_iff_exists.1 (ih (s := s₂) hr (by omega))
        rw [hright]
        rfl

end JavaScript

/-- **Bisecting delivery.** Both functions end, within a depth of the length of the batch, whatever
the transport answers; what they accept, reject and keep are the parts of the batch, and the kept
events are its end. When the server rejects a request exactly if it contains an invalid event, and
the queue is not stopping, the invalid events are rejected and all others accepted.

**Proof sketch.** A run of either function is a derivation of `Delivers`, by induction on the depth;
the parts are read off the derivation. -/
theorem bisecting_delivery {σ E P I : Type} :
    (∀ (env : Python.Env σ E) (batch : List E) (s : σ) (fuel : ℕ), batch ≠ [] →
      batch.length ≤ fuel → ∃ d log s', Python.deliverBatch env fuel batch s = some (d, log, s') ∧
        d.accepted = (acceptedEvents log).length ∧
        d.permanentlyRejected = (rejectedEvents log).length ∧
        Delivered batch (acceptedEvents log) (rejectedEvents log) d.retryableEvents ∧
        ∀ invalid, RejectsExactly invalid env.Answers → ¬ env.Halts →
          d.retryableEvents = [] ∧ acceptedEvents log = batch.filter (fun x => !invalid x) ∧
            rejectedEvents log = batch.filter invalid) ∧
    ∀ (transport : JavaScript.Transport σ I) (batch : List (P × I)) (s : σ) (fuel : ℕ),
      batch ≠ [] → batch.length ≤ fuel → ∃ d log s' accepted rejected retryable,
        JavaScript.deliverPreparedBatch transport fuel (.ofPairs batch) s = some (d, log, s') ∧
        d.delivered = accepted.map Prod.fst ∧ d.permanentRejections = rejected.map Prod.fst ∧
        d.retryableEvents = retryable.map Prod.fst ∧
        Delivered batch accepted rejected retryable ∧
        ∀ invalid, RejectsExactly invalid (JavaScript.Answers (P := P) transport) →
          retryable = [] ∧ accepted = batch.filter (fun x => !invalid x) ∧
            rejected = batch.filter invalid := by
  constructor
  · intro env batch s fuel hne hfuel
    have hsome : (Python.deliverBatch env fuel batch s).isSome = true :=
      Python.deliverBatch_isSome hne hfuel
    obtain ⟨⟨d, log, s'⟩, hrun⟩ := Option.isSome_iff_exists.1 hsome
    obtain ⟨hdelivers, hacc, hrej⟩ := Python.deliverBatch_delivers hrun
    exact ⟨d, log, s', hrun, hacc, hrej, hdelivers.delivered,
      fun invalid hexact hhalts => hdelivers.filter_eq hexact hhalts⟩
  · intro transport batch s fuel hne hfuel
    have hsome : (JavaScript.deliverPreparedBatch transport fuel (.ofPairs batch) s).isSome = true :=
      JavaScript.deliverPreparedBatch_isSome hne hfuel
    obtain ⟨⟨d, log, s'⟩, hrun⟩ := Option.isSome_iff_exists.1 hsome
    obtain ⟨requests, rest, hdelivers, -, htells⟩ := JavaScript.deliverPreparedBatch_delivers hrun
    exact ⟨d, log, s', _, _, rest, hrun, htells.delivered, htells.permanentRejections,
      htells.retryableEvents, hdelivers.delivered,
      fun invalid hexact => hdelivers.filter_eq hexact not_false⟩

/-- The answer of a server to which three is the one invalid event. -/
def refusesThree (b : List ℕ) : TransportOutcome :=
  if b.any (· == 3) then .payloadRejected else .accepted

/-- Of five events, both queues deliver all but the third. -/
theorem bisecting_delivery_five :
    (∃ d log s', Python.deliverBatch ⟨fun b s => (.outcome (refusesThree b), s), fun s => (false, s)⟩
        5 [1, 2, 3, 4, 5] () = some (d, log, s') ∧ acceptedEvents log = [1, 2, 4, 5] ∧
      rejectedEvents log = [3] ∧ d.accepted = 4) ∧
    ∃ d log s', JavaScript.deliverPreparedBatch (fun b s => (some (refusesThree b), s)) 5
        (.ofPairs [(1, 1), (2, 2), (3, 3), (4, 4), (5, 5)]) () = some (d, log, s') ∧
      d.delivered = [1, 2, 4, 5] ∧ d.permanentRejections = [3] := by
  obtain ⟨hpython, hjavascript⟩ := bisecting_delivery (σ := Unit) (E := ℕ) (P := ℕ) (I := ℕ)
  constructor
  · obtain ⟨d, log, s', hrun, hcount, -, -, hexact⟩ := hpython
      ⟨fun b s => (.outcome (refusesThree b), s), fun s => (false, s)⟩ [1, 2, 3, 4, 5] () 5
      (by simp) (Nat.le_refl 5)
    have hanswers : RejectsExactly (· == 3) (Python.Env.Answers
        ⟨fun b (s : Unit) => (.outcome (refusesThree b), s), fun s => (false, s)⟩) := by
      rintro b o ⟨_, rfl⟩
      rfl
    obtain ⟨-, hacc, hrej⟩ := hexact _ hanswers (by rintro ⟨_, hs⟩; cases hs)
    refine ⟨d, log, s', hrun, hacc, hrej, ?_⟩
    rw [hcount, hacc]
    rfl
  · obtain ⟨d, log, s', accepted, rejected, retryable, hrun, hdel, hrej, -, -, hexact⟩ :=
      hjavascript (fun b s => (some (refusesThree b), s))
        [(1, 1), (2, 2), (3, 3), (4, 4), (5, 5)] () 5 (by simp) (Nat.le_refl 5)
    have hanswers : RejectsExactly (fun q => q.2 == 3) (JavaScript.Answers (P := ℕ)
        fun b (s : Unit) => (some (refusesThree b), s)) := by
      rintro b o ⟨_, rfl⟩
      have hany : (b.map Prod.snd).any (· == 3) = b.any fun q => q.2 == 3 := List.any_map
      rw [← hany]
      rfl
    obtain ⟨-, hacc, hrejected⟩ := hexact _ hanswers
    refine ⟨d, log, s', hrun, ?_, ?_⟩
    · rw [hdel, hacc]
      rfl
    · rw [hrej, hrejected]
      rfl

end Apdl.Sdk.Bisection
