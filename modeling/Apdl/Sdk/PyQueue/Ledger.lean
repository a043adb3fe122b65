import Apdl.Sdk.PyQueue.Model
import Mathlib.Data.List.Perm.Basic
import Mathlib.Data.List.Nodup
import Mathlib.Data.List.Range

set_option autoImplicit false

/-!
# The ledger of the Python event queue

The events that the queue has taken in, and where each of them is: accepted, rejected, held by the
drain that is under way, or queued.

## Main results

* `Balanced.append`, `Balanced.take`, `Balanced.attempt`, `Balanced.accept`, `Balanced.reject`,
  `Balanced.requeue` — the moves that keep a ledger balanced.

## Design

The queue is a part that was attempted before and was put back, followed by a part that was never
attempted. The numbers of the latter are the next ones that no request has had.
-/

namespace Apdl.Sdk.PyQueue

variable {E : Type}

/-- The events taken in, in order. -/
def enqueued (log : List (Effect E)) : List (Item E) :=
  log.flatMap fun
    | .enqueue x => [x]
    | _ => []

def acceptedEvents (log : List (Effect E)) : List (Item E) :=
  log.flatMap fun
    | .accepted batch => batch
    | _ => []

def rejectedEvents (log : List (Effect E)) : List (Item E) :=
  log.flatMap fun
    | .rejected batch => batch
    | _ => []

/-- The numbers of the events in the order of their first requests. -/
def firstAttempts (log : List (Effect E)) : List ℕ :=
  log.foldl (fun seen e =>
    match e with
    | .attempt batch => seen ++ (batch.map Item.seq).filter fun seq => decide (seq ∉ seen)
    | _ => seen) []

section Log

variable (log : List (Effect E)) (e : Effect E)

@[simp] lemma enqueued_append (log' : List (Effect E)) :
    enqueued (log ++ log') = enqueued log ++ enqueued log' := List.flatMap_append

@[simp] lemma acceptedEvents_append (log' : List (Effect E)) :
    acceptedEvents (log ++ log') = acceptedEvents log ++ acceptedEvents log' :=
  List.flatMap_append

@[simp] lemma rejectedEvents_append (log' : List (Effect E)) :
    rejectedEvents (log ++ log') = rejectedEvents log ++ rejectedEvents log' :=
  List.flatMap_append

lemma firstAttempts_attempt (batch : List (Item E)) :
    firstAttempts (log ++ [.attempt batch]) =
      firstAttempts log ++
        (batch.map Item.seq).filter fun seq => decide (seq ∉ firstAttempts log) := by
  simp [firstAttempts, List.foldl_append]

end Log

/-- Where the events are: those `held` by the drain under way, and the queue. -/
structure Balanced (log : List (Effect E)) (held queue : List (Item E)) (next : ℕ) : Prop where
  numbered : (enqueued log).map Item.seq = List.range next
  conserved : (acceptedEvents log ++ rejectedEvents log ++ (held ++ queue)).Perm (enqueued log)
  /-- The first attempts are those of the first events, and the rest of the events is queued in
  order behind what was put back. -/
  first : ∃ n ≤ next, firstAttempts log = List.range n ∧ (∀ x ∈ held, x.seq < n) ∧
    ∃ old fresh, queue = old ++ fresh ∧ (∀ x ∈ old, x.seq < n) ∧
      fresh.map Item.seq = List.range' n (next - n)
  once : ∀ before batch after, log = before ++ .attempt batch :: after →
    ∀ x ∈ batch, x ∉ acceptedEvents before ∧ x ∉ rejectedEvents before

namespace Balanced

variable {log : List (Effect E)} {held held' queue : List (Item E)} {next : ℕ}

lemma empty : Balanced ([] : List (Effect E)) [] [] 0 where
  numbered := rfl
  conserved := List.Perm.refl _
  first := ⟨0, le_rfl, rfl, by simp, [], [], rfl, by simp, rfl⟩
  once := fun before batch after h => by simp at h

lemma nodup_enqueued (h : Balanced log held queue next) : (enqueued log).Nodup := by
  refine List.Nodup.of_map Item.seq ?_
  rw [h.numbered]
  exact List.nodup_range

lemma not_settled (h : Balanced log held queue next) {x : Item E} (hx : x ∈ held ++ queue) :
    x ∉ acceptedEvents log ∧ x ∉ rejectedEvents log := by
  have hnd := h.conserved.nodup_iff.2 h.nodup_enqueued
  have hdisj := List.disjoint_of_nodup_append hnd
  exact ⟨fun ha => hdisj (List.mem_append_left _ ha) hx,
    fun hr => hdisj (List.mem_append_right _ hr) hx⟩

lemma once_snoc (h : Balanced log held queue next) {e : Effect E}
    (he : ∀ batch, e = .attempt batch →
      ∀ x ∈ batch, x ∉ acceptedEvents log ∧ x ∉ rejectedEvents log) :
    ∀ before batch after, log ++ [e] = before ++ .attempt batch :: after →
      ∀ x ∈ batch, x ∉ acceptedEvents before ∧ x ∉ rejectedEvents before := by
  intro before batch after heq
  rcases List.eq_nil_or_concat after with rfl | ⟨after', e', rfl⟩
  · obtain ⟨rfl, hlast⟩ := List.append_inj' heq rfl
    exact he batch (List.cons.inj hlast).1
  · rw [List.concat_eq_append, ← List.cons_append, ← List.append_assoc] at heq
    obtain ⟨hlog, -⟩ := List.append_inj' heq rfl
    exact h.once before batch after' hlog

lemma append (h : Balanced log held queue next) (payload : E) :
    Balanced (log ++ [.enqueue ⟨next, payload⟩]) held (queue ++ [⟨next, payload⟩]) (next + 1) where
  numbered := by
    rw [enqueued_append, List.map_append, h.numbered, List.range_succ]
    rfl
  conserved := by
    simp only [enqueued_append, acceptedEvents_append, rejectedEvents_append]
    have hp := h.conserved.append_right [(⟨next, payload⟩ : Item E)]
    simpa [acceptedEvents, rejectedEvents, enqueued, List.append_assoc] using hp
  first := by
    obtain ⟨n, hn, hfirst, hheld, old, fresh, rfl, hold, hfresh⟩ := h.first
    refine ⟨n, Nat.le_succ_of_le hn, ?_, hheld, old, fresh ++ [⟨next, payload⟩], by simp, hold, ?_⟩
    · rw [← hfirst]
      simp [firstAttempts, List.foldl_append]
    · have hlen : next + 1 - n = next - n + 1 := by omega
      have hlast : n + (next - n) = next := by omega
      rw [List.map_append, hfresh, hlen, List.range'_concat]
      simp [hlast]
  once := h.once_snoc fun batch heq => by cases heq

/-- A batch is taken from the front of the queue and sent.

**Proof sketch.** The batch ends inside what was put back, and then no event in it is new, or it
goes on into the events that were never attempted, and then the new ones are the next numbers. -/
lemma take {batch rest : List (Item E)} (h : Balanced log [] (batch ++ rest) next) :
    Balanced (log ++ [.attempt batch]) batch rest next where
  numbered := by
    rw [enqueued_append, ← h.numbered]
    simp [enqueued]
  conserved := by
    have hp := h.conserved
    simpa [acceptedEvents, rejectedEvents, enqueued] using hp
  first := by
    obtain ⟨n, hn, hfirst, -, old, fresh, hqueue, hold, hfresh⟩ := h.first
    rw [firstAttempts_attempt, hfirst]
    rcases List.append_eq_append_iff.1 hqueue with ⟨old', rfl, rfl⟩ | ⟨new, rfl, rfl⟩
    · -- nothing in the batch is new
      have hseen : (batch.map Item.seq).filter (fun seq => decide (seq ∉ List.range n)) = [] := by
        rw [List.filter_eq_nil_iff]
        intro seq hseq
        obtain ⟨x, hx, rfl⟩ := List.mem_map.1 hseq
        simpa using hold x (List.mem_append_left _ hx)
      rw [hseen, List.append_nil]
      exact ⟨n, hn, rfl, fun x hx => hold x (List.mem_append_left _ hx), old', fresh, rfl,
        fun x hx => hold x (List.mem_append_right _ hx), hfresh⟩
    · -- the batch ends with the events `new`
      rw [List.map_append] at hfresh
      have hlen : new.length + rest.length = next - n := by
        have hl := congrArg List.length hfresh
        simpa using hl
      have hsplit : List.range' n (next - n) =
          List.range' n new.length ++ List.range' (n + new.length) rest.length := by
        rw [← hlen, List.range'_append_1]
      rw [hsplit] at hfresh
      obtain ⟨hnew, hrest⟩ := List.append_inj hfresh (by simp)
      have hfilter : ((old ++ new).map Item.seq).filter (fun seq => decide (seq ∉ List.range n)) =
          List.range' n new.length := by
        rw [List.map_append, List.filter_append, hnew]
        have hseen : (old.map Item.seq).filter (fun seq => decide (seq ∉ List.range n)) = [] := by
          rw [List.filter_eq_nil_iff]
          intro seq hseq
          obtain ⟨x, hx, rfl⟩ := List.mem_map.1 hseq
          simpa using hold x hx
        rw [hseen, List.nil_append, List.filter_eq_self]
        intro seq hseq
        obtain ⟨hle, -⟩ := List.mem_range'_1.1 hseq
        simpa using hle
      rw [hfilter]
      refine ⟨n + new.length, by omega, ?_, ?_, [], rest, rfl, by simp, ?_⟩
      · rw [List.range_eq_range', List.range_eq_range']
        have hjoin := List.range'_append_1 (s := 0) (m := n) (n := new.length)
        rwa [Nat.zero_add] at hjoin
      · intro x hx
        rcases List.mem_append.1 hx with hx | hx
        · exact Nat.lt_of_lt_of_le (hold x hx) (Nat.le_add_right _ _)
        · have hseq : x.seq ∈ List.range' n new.length := hnew ▸ List.mem_map_of_mem hx
          exact (List.mem_range'_1.1 hseq).2
      · rw [hrest]
        congr 1
        omega
  once := h.once_snoc fun batch' heq x hx => by
    cases heq
    exact h.not_settled (List.mem_append_right _ (List.mem_append_left _ hx))

lemma attempt {batch : List (Item E)} (h : Balanced log held queue next)
    (hbatch : ∀ x ∈ batch, x ∈ held) : Balanced (log ++ [.attempt batch]) held queue next where
  numbered := by
    rw [enqueued_append, ← h.numbered]
    simp [enqueued]
  conserved := by
    simpa [acceptedEvents, rejectedEvents, enqueued] using h.conserved
  first := by
    obtain ⟨n, hn, hfirst, hheld, hqueue⟩ := h.first
    refine ⟨n, hn, ?_, hheld, hqueue⟩
    rw [firstAttempts_attempt, hfirst]
    have hseen : (batch.map Item.seq).filter (fun seq => decide (seq ∉ List.range n)) = [] := by
      rw [List.filter_eq_nil_iff]
      intro seq hseq
      obtain ⟨x, hx, rfl⟩ := List.mem_map.1 hseq
      simpa using hheld x (hbatch x hx)
    rw [hseen, List.append_nil]
  once := h.once_snoc fun batch' heq x hx => by
    cases heq
    exact h.not_settled (List.mem_append_left _ (hbatch x hx))

lemma settle {e : Effect E} (h : Balanced log held queue next) (hnew : enqueued [e] = [])
    (hattempt : ∀ batch, e ≠ .attempt batch)
    (hp : (acceptedEvents [e] ++ rejectedEvents [e] ++ held').Perm held) :
    Balanced (log ++ [e]) held' queue next where
  numbered := by rw [enqueued_append, hnew, List.append_nil, h.numbered]
  conserved := by
    rw [enqueued_append, acceptedEvents_append, rejectedEvents_append, hnew, List.append_nil]
    refine List.Perm.trans ?_ h.conserved
    have hheld := (hp.append_right queue).append_left (acceptedEvents log ++ rejectedEvents log)
    refine List.Perm.trans ?_ hheld
    simp only [List.append_assoc]
    exact List.Perm.append_left _ (List.perm_append_comm_assoc _ _ _)
  first := by
    obtain ⟨n, hn, hfirst, hheld, hqueue⟩ := h.first
    refine ⟨n, hn, ?_, fun x hx => hheld x (hp.subset (List.mem_append_right _ hx)), hqueue⟩
    rw [← hfirst]
    cases e with
    | attempt batch => exact absurd rfl (hattempt batch)
    | _ => simp [firstAttempts, List.foldl_append]
  once := h.once_snoc fun batch heq => absurd heq (hattempt batch)

lemma accept {batch rest : List (Item E)} (h : Balanced log (batch ++ rest) queue next) :
    Balanced (log ++ [.accepted batch]) rest queue next :=
  h.settle rfl (fun _ heq => by cases heq) (by simp [acceptedEvents, rejectedEvents])

lemma reject {batch rest : List (Item E)} (h : Balanced log (batch ++ rest) queue next) :
    Balanced (log ++ [.rejected batch]) rest queue next :=
  h.settle rfl (fun _ heq => by cases heq) (by simp [acceptedEvents, rejectedEvents])

lemma stop (h : Balanced log held queue next) : Balanced (log ++ [.stop]) held queue next :=
  h.settle rfl (fun _ heq => by cases heq) (by simp [acceptedEvents, rejectedEvents])

lemma requeue (h : Balanced log held queue next) : Balanced log [] (held ++ queue) next where
  numbered := h.numbered
  conserved := by simpa using h.conserved
  first := by
    obtain ⟨n, hn, hfirst, hheld, old, fresh, rfl, hold, hfresh⟩ := h.first
    refine ⟨n, hn, hfirst, by simp, held ++ old, fresh, by simp, ?_, hfresh⟩
    intro x hx
    rcases List.mem_append.1 hx with hx | hx
    · exact hheld x hx
    · exact hold x hx
  once := h.once

end Balanced

end Apdl.Sdk.PyQueue
