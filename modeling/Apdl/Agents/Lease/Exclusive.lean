import Apdl.Agents.Lease.Model
import Mathlib.Tactic.Common

set_option autoImplicit false

/-!
# Leases are exclusive

A supervisor counts its lease from the moment it sent the claim or the renewal that the database
granted, less a margin; the database counts it from the moment it ran the statement, and lets nobody
else take the row before a grace period has passed. So at any time at most one supervisor works on a
run that it regards as leased, and only the last one that acquired the run writes to it.

## Main results

* `run_lease_exclusive` — exclusive work, and no write after another supervisor acquired the run.
-/

namespace Apdl.Agents.Lease

/-! ## The statements -/

section Statements

variable {row row' : RunRow} {owner now : ℕ}

lemma acquire_cases (h : row.acquire owner now = some row') :
    row.isActive = true ∧ (row.leaseOwner = none ∨ row.isAbandoned now = true) ∧
      row' = { row with
        leaseOwner := some owner, leaseExpiresAt := some (now + runLease), updatedAt := now } := by
  unfold RunRow.acquire at h
  split_ifs at h with hif
  simp only [Bool.and_eq_true, Bool.or_eq_true, Option.isNone_iff_eq_none] at hif
  exact ⟨hif.1.2, hif.2, (Option.some.inj h).symm⟩

lemma owned_cases (h : row.isOwnedBy owner now = true) :
    row.leaseOwner = some owner ∧ ∃ e, row.leaseExpiresAt = some e ∧ now < e := by
  unfold RunRow.isOwnedBy at h
  rw [Bool.and_eq_true, Bool.and_eq_true, decide_eq_true_iff] at h
  obtain ⟨⟨-, howner⟩, hexp⟩ := h
  refine ⟨howner, ?_⟩
  cases he : row.leaseExpiresAt with
  | none => simp [he] at hexp
  | some e => exact ⟨e, rfl, by simpa [he] using hexp⟩

lemma renew_cases (h : row.renew owner now = some row') :
    row.isActive = true ∧ row.leaseOwner = some owner ∧
      row' = { row with leaseExpiresAt := some (now + runLease), updatedAt := now } := by
  unfold RunRow.renew at h
  split_ifs at h with hif
  rw [Bool.and_eq_true] at hif
  exact ⟨hif.2, (owned_cases hif.1).1, (Option.some.inj h).symm⟩

lemma update_cases {status : RunStatus} {phase : String}
    (h : row.update status phase owner now = some row') :
    row.leaseOwner = some owner ∧ row' = { row with
      status := status, phase := phase, updatedAt := now
      leaseOwner := if status = .running then row.leaseOwner else none
      leaseExpiresAt := if status = .running then row.leaseExpiresAt else none } := by
  unfold RunRow.update at h
  by_cases hif : row.isOwnedBy owner now = true
  · rw [if_pos hif] at h
    exact ⟨(owned_cases hif).1, (Option.some.inj h).symm⟩
  · rw [if_neg hif] at h
    cases h

lemma persist_cases {agent : String} (h : row.persist agent owner now = some row') :
    row.leaseOwner = some owner ∧ ∃ results, row' = { row with results := results } := by
  unfold RunRow.persist at h
  by_cases hif : row.isOwnedBy owner now = true
  · rw [if_pos hif] at h
    exact ⟨(owned_cases hif).1, _, (Option.some.inj h).symm⟩
  · rw [if_neg hif] at h
    cases h

end Statements

/-! ## Grants -/

def RunRow.IsCancelled (row : RunRow) : Prop :=
  (row.status = .cancelling ∨ row.status = .cancelled) ∧ row.leaseOwner = none

lemma RunRow.IsCancelled.not_active {row : RunRow} (h : row.IsCancelled) : row.isActive = false := by
  unfold RunRow.isActive RunStatus.isActive
  rcases h.1 with h | h <;> simp [h]

/-- A grant that `a` asked for at `t`: until the lease and the grace period from then on have passed,
and unless `a` itself gave the run up, nobody has acquired the run after `a`, and `a` owns it or it is
cancelled. -/
def Backed (clock : ℕ) (row : RunRow) (acquirers released : List ℕ) (a t : ℕ) : Prop :=
  t ≤ clock ∧ a ∈ acquirers ∧
    (clock < t + runLease + runRecoveryGrace → a ∉ released → acquirers.head? = some a ∧
      ((row.leaseOwner = some a ∧ ∃ e, row.leaseExpiresAt = some e ∧ t + runLease ≤ e) ∨
        row.IsCancelled))

section Backed

variable {clock a t : ℕ} {row row' : RunRow} {acquirers released : List ℕ}

lemma Backed.not_abandoned (h : Backed clock row acquirers released a t) (hrel : a ∉ released)
    (hnow : clock < t + runLease + runRecoveryGrace) (hactive : row.isActive = true) :
    row.leaseOwner ≠ none ∧ row.isAbandoned clock = false ∧ row.leaseExpiresAt ≠ none := by
  obtain ⟨-, -, hheld⟩ := h
  rcases (hheld hnow hrel).2 with ⟨howner, e, he, hle⟩ | hcancelled
  · refine ⟨by simp [howner], ?_, by simp [he]⟩
    unfold RunRow.isAbandoned
    rw [he]
    simp only [decide_eq_false_iff_not]
    omega
  · rw [hcancelled.not_active] at hactive
    cases hactive

lemma Backed.tick (h : Backed clock row acquirers released a t) (duration : ℕ) :
    Backed (clock + duration) row acquirers released a t :=
  ⟨by have := h.1; omega, h.2.1, fun hnow => h.2.2 (by omega)⟩

variable {b : ℕ}

lemma Backed.acquire (h : Backed clock row acquirers released a t)
    (hacq : row.acquire b clock = some row') : Backed clock row' (b :: acquirers) released a t := by
  refine ⟨h.1, List.mem_cons_of_mem _ h.2.1, fun hnow hrel => ?_⟩
  obtain ⟨hactive, hfree, -⟩ := acquire_cases hacq
  obtain ⟨howner, habandoned, -⟩ := h.not_abandoned hrel hnow hactive
  rcases hfree with hnone | hab
  · exact absurd hnone howner
  · rw [habandoned] at hab
    cases hab

lemma Backed.of_acquire (hle : t ≤ clock) (hacq : row.acquire a clock = some row') :
    Backed clock row' (a :: acquirers) released a t := by
  obtain ⟨-, -, rfl⟩ := acquire_cases hacq
  exact ⟨hle, List.mem_cons_self .., fun _ _ => ⟨rfl, .inl ⟨rfl, _, rfl, by omega⟩⟩⟩

lemma Backed.renew (h : Backed clock row acquirers released a t)
    (hren : row.renew b clock = some row') : Backed clock row' acquirers released a t := by
  obtain ⟨hactive, howner, rfl⟩ := renew_cases hren
  refine ⟨h.1, h.2.1, fun hnow hrel => ?_⟩
  obtain ⟨hhead, ⟨hown, -⟩ | hcancelled⟩ := h.2.2 hnow hrel
  · exact ⟨hhead, .inl ⟨hown, _, rfl, by have := h.1; omega⟩⟩
  · rw [hcancelled.not_active] at hactive
    cases hactive

lemma Backed.of_renew (hle : t ≤ clock) (hhead : acquirers.head? = some a)
    (hren : row.renew a clock = some row') : Backed clock row' acquirers released a t := by
  obtain ⟨-, howner, rfl⟩ := renew_cases hren
  exact ⟨hle, List.mem_of_mem_head? hhead, fun _ _ => ⟨hhead, .inl ⟨howner, _, rfl, by omega⟩⟩⟩

lemma Backed.update {status : RunStatus} {phase : String}
    (h : Backed clock row acquirers released a t)
    (hupd : row.update status phase b clock = some row') :
    Backed clock row' acquirers (if status = .running then released else b :: released) a t := by
  obtain ⟨howner, rfl⟩ := update_cases hupd
  refine ⟨h.1, h.2.1, fun hnow hrel => ?_⟩
  by_cases hstatus : status = .running
  · rw [if_pos hstatus] at hrel
    obtain ⟨hhead, ⟨hown, e, he, hle⟩ | hcancelled⟩ := h.2.2 hnow hrel
    · exact ⟨hhead, .inl ⟨by simp [hstatus, hown], e, by simp [hstatus, he], hle⟩⟩
    · rw [hcancelled.2] at howner
      cases howner
  · rw [if_neg hstatus, List.mem_cons, not_or] at hrel
    obtain ⟨-, ⟨hown, -⟩ | hcancelled⟩ := h.2.2 hnow hrel.2
    · rw [hown, Option.some.injEq] at howner
      exact absurd howner hrel.1
    · rw [hcancelled.2] at howner
      cases howner

lemma Backed.congr (h : Backed clock row acquirers released a t)
    (howner : row.leaseOwner ≠ none → row'.leaseOwner = row.leaseOwner)
    (hexp : row.leaseOwner ≠ none → row'.leaseExpiresAt = row.leaseExpiresAt)
    (hcancelled : row.IsCancelled → row'.IsCancelled) :
    Backed clock row' acquirers released a t := by
  refine ⟨h.1, h.2.1, fun hnow hrel => ?_⟩
  obtain ⟨hhead, ⟨hown, e, he, hle⟩ | hc⟩ := h.2.2 hnow hrel
  · have hsome : row.leaseOwner ≠ none := by simp [hown]
    exact ⟨hhead, .inl ⟨(howner hsome).trans hown, e, (hexp hsome).trans he, hle⟩⟩
  · exact ⟨hhead, .inr (hcancelled hc)⟩

lemma Backed.cancel (h : Backed clock row acquirers released a t) (hcancelled : row'.IsCancelled) :
    Backed clock row' acquirers released a t :=
  ⟨h.1, h.2.1, fun hnow hrel => ⟨(h.2.2 hnow hrel).1, .inr hcancelled⟩⟩

lemma Backed.requeue (h : Backed clock row acquirers released a t)
    (hreq : row.requeue clock = some row') : Backed clock row' acquirers released a t := by
  refine ⟨h.1, h.2.1, fun hnow hrel => ?_⟩
  unfold RunRow.requeue at hreq
  dsimp only at hreq
  split_ifs at hreq with hif
  simp only [Bool.and_eq_true, Bool.or_eq_true, Option.isNone_iff_eq_none] at hif
  obtain ⟨-, habandoned, hexp⟩ := h.not_abandoned hrel hnow hif.1.1.1
  rcases hif.2 with hab | ⟨hnone, -⟩
  · rw [habandoned] at hab
    cases hab
  · exact absurd hnone hexp

end Backed

/-! ## The invariant -/

/-- The activities that begin with evidence of the lease, before the supervisor gives it up. -/
def Activity.holds : Activity → Bool
  | .running | .ran | .persisting _ _ | .persisted | .hooking | .settled => true
  | .updating .running _ _ (some true) => true
  | _ => false

def State.Backed (s : State) (a t : ℕ) : Prop :=
  Lease.Backed s.clock s.row s.acquirers s.released a t

structure Supervisor.Inv (s : State) (a : ℕ) (v : Supervisor) : Prop where
  unused : v.stage = .unused → v.claim = none
  started : v.claimStartedAt ≤ s.clock
  claim : v.claim = some true → s.Backed a v.claimStartedAt
  acquired : a ∈ s.acquirers → v.claim = some true
  confirmed : v.stage = .owned → ∃ t, v.confirmedUntil = t + confirmedFor ∧ s.Backed a t
  /-- Who works has not given the run up. -/
  holds : v.stage = .owned → v.activity.holds = true → a ∉ s.released

/-- The invariant: an owned row is active and belongs to the last supervisor that acquired it, who
has not given it up; grants are backed. -/
structure Inv (s : State) : Prop where
  owner : ∀ a, s.row.leaseOwner = some a → s.row.isActive = true ∧ s.acquirers.head? = some a ∧
    a ∉ s.released
  released : ∀ a ∈ s.released, a ∈ s.acquirers
  renewals : ∀ r ∈ s.renewals, r.startedAt ≤ s.clock ∧
    (r.result = some true → s.Backed r.owner r.startedAt)
  supervisors : ∀ a, (s.supervisors a).Inv s a

lemma inv_initial : Inv State.initial where
  owner := by simp [State.initial]
  released := by simp [State.initial]
  renewals := by simp [State.initial]
  supervisors a :=
    { unused := fun _ => rfl
      started := Nat.le_refl _
      claim := fun h => by cases h
      acquired := by simp [State.initial]
      confirmed := fun h => by cases h
      holds := fun h => by cases h }

variable {s s' : State}

variable {v : Supervisor}

lemma Supervisor.Inv.mono {a : ℕ} (h : v.Inv s a) (hclock : s.clock ≤ s'.clock)
    (hbacked : ∀ t, s.Backed a t → s'.Backed a t)
    (hacquirers : a ∈ s'.acquirers → a ∈ s.acquirers)
    (hreleased : a ∈ s'.released → a ∈ s.released) : v.Inv s' a where
  unused := h.unused
  started := Nat.le_trans h.started hclock
  claim hc := hbacked _ (h.claim hc)
  acquired ha := h.acquired (hacquirers ha)
  confirmed ho := by
    obtain ⟨t, ht, hb⟩ := h.confirmed ho
    exact ⟨t, ht, hbacked t hb⟩
  holds ho hh hrel := h.holds ho hh (hreleased hrel)

lemma Inv.set (h : Inv s) {a : ℕ} (hv : v.Inv s a) : Inv (s.set a v) where
  owner := h.owner
  released := h.released
  renewals := h.renewals
  supervisors b := by
    change Supervisor.Inv (s.set a v) b (Function.update s.supervisors a v b)
    rcases eq_or_ne b a with rfl | hne
    · rw [Function.update_self]
      exact ⟨hv.unused, hv.started, hv.claim, hv.acquired, hv.confirmed, hv.holds⟩
    · rw [Function.update_of_ne hne]
      have hb := h.supervisors b
      exact ⟨hb.unused, hb.started, hb.claim, hb.acquired, hb.confirmed, hb.holds⟩

lemma Inv.row (h : Inv s) {row : RunRow}
    (howner : ∀ a, row.leaseOwner = some a → s.row.leaseOwner = some a ∧ row.isActive = true)
    (hbacked : ∀ a t, s.Backed a t → Lease.Backed s.clock row s.acquirers s.released a t) :
    Inv { s with row := row } where
  owner a ha := ⟨(howner a ha).2, (h.owner a (howner a ha).1).2⟩
  released := h.released
  renewals r hr := ⟨(h.renewals r hr).1, fun hres => hbacked _ _ ((h.renewals r hr).2 hres)⟩
  supervisors a := (h.supervisors a).mono (Nat.le_refl _) (hbacked a) id id

lemma Inv.tick (h : Inv s) (duration : ℕ) : Inv { s with clock := s.clock + duration } where
  owner := h.owner
  released := h.released
  renewals r hr := ⟨Nat.le_trans (h.renewals r hr).1 (Nat.le_add_right ..),
    fun hres => ((h.renewals r hr).2 hres).tick duration⟩
  supervisors a := (h.supervisors a).mono (Nat.le_add_right ..) (fun _ hb => hb.tick duration) id id

/-! ## The steps -/

lemma Inv.stepLease_acquire (h : Inv s) {a : ℕ} (hstep : s.stepLease (.acquire a) = some s') :
    Inv s' := by
  simp only [State.stepLease] at hstep
  split_ifs at hstep with hguard
  have hv := h.supervisors a
  have hnew : a ∉ s.acquirers := by
    intro hmem
    rw [hv.acquired hmem] at hguard
    cases hguard.2
  split at hstep
  · rename_i row hacq
    rw [← Option.some.inj hstep]
    obtain ⟨hactive, -, hrow⟩ := acquire_cases hacq
    have hactive' : row.isActive = true := by
      rw [hrow]
      exact hactive
    refine ⟨?_, ?_, ?_, ?_⟩
    · intro b hb
      rw [hrow] at hb
      obtain rfl := Option.some.inj hb
      exact ⟨hactive', rfl, fun hrel => hnew (h.released _ hrel)⟩
    · exact fun b hb => List.mem_cons_of_mem _ (h.released b hb)
    · exact fun r hr => ⟨(h.renewals r hr).1,
        fun hres => ((h.renewals r hr).2 hres).acquire hacq⟩
    · intro b
      change Supervisor.Inv _ b (Function.update s.supervisors a _ b)
      rcases eq_or_ne b a with rfl | hne
      · rw [Function.update_self]
        refine ⟨fun hu => absurd hu hguard.1, hv.started, ?_, fun _ => rfl, ?_, ?_⟩
        · exact fun _ => Backed.of_acquire hv.started hacq
        · intro ho
          obtain ⟨t, ht, hb⟩ := hv.confirmed ho
          exact ⟨t, ht, hb.acquire hacq⟩
        · exact hv.holds
      · rw [Function.update_of_ne hne]
        refine (h.supervisors b).mono (Nat.le_refl _) (fun _ hb => hb.acquire hacq) ?_ id
        intro hmem
        exact (List.mem_cons.1 hmem).resolve_left hne
  · rw [← Option.some.inj hstep]
    refine h.set ⟨fun hu => absurd hu hguard.1, hv.started, (fun hc => by cases hc), ?_,
      hv.confirmed, hv.holds⟩
    exact fun hmem => absurd hmem hnew

lemma Inv.stepLease_renewRow (h : Inv s) {i : ℕ} (hstep : s.stepLease (.renewRow i) = some s') :
    Inv s' := by
  simp only [State.stepLease] at hstep
  split at hstep
  · rename_i r hr
    have hrmem : r ∈ s.renewals := List.mem_of_getElem? hr
    split_ifs at hstep with hguard
    split at hstep
    · rename_i row hren
      rw [← Option.some.inj hstep]
      obtain ⟨hactive, howner, hrow⟩ := renew_cases hren
      have hrowOwner : row.leaseOwner = s.row.leaseOwner := by rw [hrow]
      have hrowActive : row.isActive = true := by
        rw [hrow]
        exact hactive
      have hbase : Inv { s with row := row } := by
        refine h.row (fun a ha => ⟨hrowOwner ▸ ha, hrowActive⟩) fun a t hb => hb.renew hren
      refine ⟨hbase.owner, hbase.released, fun q hq => ?_, fun a => ?_⟩
      · rcases List.mem_or_eq_of_mem_set hq with hmem | rfl
        · exact hbase.renewals q hmem
        · exact ⟨(h.renewals r hrmem).1, fun _ =>
            Backed.of_renew (h.renewals r hrmem).1 (h.owner _ howner).2.1 hren⟩
      · have ha := hbase.supervisors a
        exact ⟨ha.unused, ha.started, ha.claim, ha.acquired, ha.confirmed, ha.holds⟩
    · rw [← Option.some.inj hstep]
      refine ⟨h.owner, h.released, fun q hq => ?_, fun a => ?_⟩
      · rcases List.mem_or_eq_of_mem_set hq with hmem | rfl
        · exact h.renewals q hmem
        · exact ⟨(h.renewals r hrmem).1, fun hres => by cases hres⟩
      · have ha := h.supervisors a
        exact ⟨ha.unused, ha.started, ha.claim, ha.acquired, ha.confirmed, ha.holds⟩
  · cases hstep

lemma Inv.stepCommit (h : Inv s) {a : ℕ} (hstep : s.stepCommit a = some s') : Inv s' := by
  simp only [State.stepCommit] at hstep
  split_ifs at hstep with howned
  have hv := h.supervisors a
  split at hstep
  · rename_i status phase guarded hactivity
    split at hstep
    · rename_i row hupd
      rw [← Option.some.inj hstep]
      obtain ⟨howner, hrow⟩ := update_cases hupd
      obtain ⟨-, hhead, hnotrel⟩ := h.owner a howner
      have hmem : a ∈ s.acquirers := List.mem_of_mem_head? hhead
      refine ⟨?_, ?_, ?_, ?_⟩
      · intro b hb
        rw [hrow] at hb ⊢
        dsimp only at hb ⊢
        split_ifs at hb ⊢ with hstatus
        refine ⟨?_, (h.owner b hb).2⟩
        simp [RunRow.isActive, RunStatus.isActive, hstatus]
      · intro b hb
        dsimp only at hb
        split_ifs at hb with hstatus
        · exact h.released b hb
        · rcases List.mem_cons.1 hb with rfl | hb
          · exact hmem
          · exact h.released b hb
      · exact fun r hr => ⟨(h.renewals r hr).1, fun hres => ((h.renewals r hr).2 hres).update hupd⟩
      · intro b
        change Supervisor.Inv _ b (Function.update s.supervisors a _ b)
        rcases eq_or_ne b a with rfl | hne
        · rw [Function.update_self]
          refine ⟨hv.unused, hv.started, fun hc => (hv.claim hc).update hupd, hv.acquired, ?_, ?_⟩
          · intro ho
            obtain ⟨t, ht, hb⟩ := hv.confirmed ho
            exact ⟨t, ht, hb.update hupd⟩
          · intro _ hholds
            have hstatus : status = .running := by
              cases status <;> first | rfl | cases hholds
            dsimp only
            rw [if_pos hstatus]
            exact hnotrel
        · rw [Function.update_of_ne hne]
          refine (h.supervisors b).mono (Nat.le_refl _) (fun _ hb => hb.update hupd) id ?_
          intro hmem'
          dsimp only at hmem'
          split_ifs at hmem' with hstatus
          · exact hmem'
          · exact (List.mem_cons.1 hmem').resolve_left hne
    · rw [← Option.some.inj hstep]
      refine h.set ⟨hv.unused, hv.started, hv.claim, hv.acquired, hv.confirmed, fun _ hholds => ?_⟩
      cases status <;> cases hholds
  · rename_i agent hactivity
    have hholds : a ∉ s.released := hv.holds howned (by rw [hactivity]; rfl)
    split at hstep
    · rename_i row hper
      rw [← Option.some.inj hstep]
      obtain ⟨-, results, rfl⟩ := persist_cases hper
      have hbase : Inv { s with row := { s.row with results := results } } :=
        h.row (fun b hb => ⟨hb, (h.owner b hb).1⟩)
          fun b t hb => hb.congr (fun _ => rfl) (fun _ => rfl) id
      have hv' := hbase.supervisors a
      exact hbase.set ⟨hv'.unused, hv'.started, hv'.claim, hv'.acquired, hv'.confirmed,
        fun _ _ => hholds⟩
    · rw [← Option.some.inj hstep]
      exact h.set ⟨hv.unused, hv.started, hv.claim, hv.acquired, hv.confirmed, fun _ _ => hholds⟩
  · cases hstep

lemma Supervisor.Inv.with_activity {a : ℕ} {v' : Supervisor} (h : v.Inv s a)
    (hstage : v'.stage ≠ .unused) (hclaim : v'.claim = v.claim)
    (hstarted : v'.claimStartedAt = v.claimStartedAt)
    (hconfirmed : v'.stage = .owned → ∃ t, v'.confirmedUntil = t + confirmedFor ∧ s.Backed a t)
    (hholds : v'.stage = .owned → v'.activity.holds = true → a ∉ s.released) : v'.Inv s a where
  unused hu := absurd hu hstage
  started := hstarted ▸ h.started
  claim hc := by
    rw [hstarted]
    exact h.claim (hclaim ▸ hc)
  acquired hmem := hclaim.trans (h.acquired hmem)
  confirmed := hconfirmed
  holds := hholds

variable {act : Act}

lemma Inv.heartbeat (h : Inv s) {a : ℕ}
    (hact : act = .claimed a ∨ act = .deadline a ∨ act = .renewed a ∨ act = .renewFails a ∨
      act = .renewTimeout a)
    (hstep : s.heartbeat (s.supervisors a) act = some v) : v.Inv s a := by
  have hv := h.supervisors a
  rcases hact with rfl | rfl | rfl | rfl | rfl <;> simp only [State.heartbeat] at hstep
  · -- the reply to the claim: the deadline counts from the claim
    split_ifs at hstep with hclaiming
    split at hstep
    · rename_i hclaim
      rw [← Option.some.inj hstep]
      exact hv.with_activity (by simp) rfl rfl (fun _ => ⟨_, rfl, hv.claim hclaim⟩)
        fun _ hholds => by cases hholds
    · rw [← Option.some.inj hstep]
      exact hv.with_activity (by simp) rfl rfl (fun ho => by cases ho) fun ho => by cases ho
    · cases hstep
  · split_ifs at hstep with hguard
    rw [← Option.some.inj hstep]
    exact hv.with_activity (by simp [hguard.1]) rfl rfl hv.confirmed hv.holds
  · split at hstep
    · rename_i r hr
      split_ifs at hstep with hguard
      obtain ⟨i, -, hi⟩ := Option.bind_eq_some_iff.1 hr
      split at hstep
      · rename_i hres
        rw [← Option.some.inj hstep]
        have hback := (h.renewals r (List.mem_of_getElem? hi)).2 hres
        rw [hguard.2.2] at hback
        exact hv.with_activity (by simp [hguard.1]) rfl rfl (fun _ => ⟨_, rfl, hback⟩) hv.holds
      · rw [← Option.some.inj hstep]
        exact hv.with_activity (by simp [hguard.1]) rfl rfl hv.confirmed hv.holds
      · cases hstep
    · cases hstep
  · split_ifs at hstep with hguard hlate
    · rw [← Option.some.inj hstep]
      exact hv.with_activity (by simp [hguard.1]) rfl rfl hv.confirmed hv.holds
    · rw [← Option.some.inj hstep]
      exact hv.with_activity (by simp [hguard.1]) rfl rfl hv.confirmed hv.holds
  · split_ifs at hstep with hguard
    rw [← Option.some.inj hstep]
    exact hv.with_activity (by simp [hguard.1]) rfl rfl hv.confirmed hv.holds

lemma holds_of_supervise {v' : Supervisor} (hstep : State.supervise v act = some v') :
    (v.stage = .owned ∨ v'.stage ≠ .owned) ∧ v'.stage ≠ .unused ∧ v'.claim = v.claim ∧
      v'.claimStartedAt = v.claimStartedAt ∧ v'.confirmedUntil = v.confirmedUntil ∧
      (v'.stage = .owned → v'.activity.holds = true → v.activity.holds = true) := by
  cases act with
  | update a status phase =>
    simp only [State.supervise] at hstep
    split_ifs at hstep with hguard
    rw [← Option.some.inj hstep]
    refine ⟨.inl hguard.1, by simp [hguard.1], rfl, rfl, rfl, fun _ hholds => ?_⟩
    cases status <;> cases hholds
  | persist a agent =>
    simp only [State.supervise] at hstep
    split_ifs at hstep with hguard
    rw [← Option.some.inj hstep]
    refine ⟨.inl hguard.1, by simp [hguard.1], rfl, rfl, rfl, fun _ _ => ?_⟩
    rw [hguard.2.1]
    rfl
  | answer a =>
    simp only [State.supervise] at hstep
    split_ifs at hstep with howned
    split at hstep
    · rename_i status phase guarded hactivity
      split_ifs at hstep with hstatus
      · rw [← Option.some.inj hstep]
        refine ⟨.inl howned, by simp [howned], rfl, rfl, rfl, fun _ _ => ?_⟩
        rw [hactivity, hstatus]
        rfl
      · rw [← Option.some.inj hstep]
        exact ⟨.inl howned, by simp, rfl, rfl, rfl, fun ho => by cases ho⟩
    · rename_i agent hactivity
      rw [← Option.some.inj hstep]
      refine ⟨.inl howned, by simp [howned], rfl, rfl, rfl, fun _ _ => ?_⟩
      rw [hactivity]
      rfl
    · rw [← Option.some.inj hstep]
      exact ⟨.inl howned, by simp, rfl, rfl, rfl, fun ho => by cases ho⟩
    · rw [← Option.some.inj hstep]
      exact ⟨.inl howned, by simp, rfl, rfl, rfl, fun ho => by cases ho⟩
    · cases hstep
  | writeFails a =>
    have hafter : ∀ next, v.activity.afterFailure = some next → next.holds = false := by
      intro next hnext
      unfold Activity.afterFailure at hnext
      split at hnext <;> first | (rw [← Option.some.inj hnext]; rfl) | cases hnext
    have hend : (∀ next, v.activity.afterFailure = some next → { v with activity := next } = v') →
        (v.activity.afterFailure = none → { v with stage := .ended } = v') → v.stage = .owned →
        (v.stage = .owned ∨ v'.stage ≠ .owned) ∧ v'.stage ≠ .unused ∧ v'.claim = v.claim ∧
          v'.claimStartedAt = v.claimStartedAt ∧ v'.confirmedUntil = v.confirmedUntil ∧
          (v'.stage = .owned → v'.activity.holds = true → v.activity.holds = true) := by
      intro hsome hnone howned
      cases hnext : v.activity.afterFailure with
      | some next =>
        rw [← hsome next hnext]
        refine ⟨.inl howned, by simp [howned], rfl, rfl, rfl, fun _ hholds => ?_⟩
        rw [hafter next hnext] at hholds
        cases hholds
      | none =>
        rw [← hnone hnext]
        exact ⟨.inl howned, by simp, rfl, rfl, rfl, fun ho => by cases ho⟩
    simp only [State.supervise] at hstep
    split_ifs at hstep with howned
    split at hstep
    case h_3 => cases hstep
    all_goals
      refine hend (fun next hnext => ?_) (fun hnone => ?_) howned
      · rw [hnext] at hstep
        exact Option.some.inj hstep
      · rw [hnone] at hstep
        exact Option.some.inj hstep
  | advance a next =>
    simp only [State.supervise] at hstep
    split_ifs at hstep with hguard
    rw [← Option.some.inj hstep]
    refine ⟨.inl hguard.1, by simp [hguard.1], rfl, rfl, rfl, fun _ hholds => ?_⟩
    have hmay := hguard.2
    unfold Supervisor.mayAdvance at hmay
    split at hmay <;> first | (simp only [*]; rfl) | cases hmay
  | stop a =>
    simp only [State.supervise] at hstep
    split_ifs at hstep with hguard
    rw [← Option.some.inj hstep]
    exact ⟨.inr (by simp), by simp, rfl, rfl, rfl, fun ho => by cases ho⟩
  | _ => simp [State.supervise] at hstep

lemma Inv.supervise (h : Inv s) {a : ℕ}
    (hstep : State.supervise (s.supervisors a) act = some v) : v.Inv s a := by
  have hv := h.supervisors a
  obtain ⟨howned, hstage, hclaim, hstarted, hconfirmed, hholds⟩ := holds_of_supervise hstep
  refine hv.with_activity hstage hclaim hstarted (fun ho => ?_) fun ho hh => ?_
  · rw [hconfirmed]
    exact hv.confirmed (howned.resolve_right (not_not.2 ho))
  · exact hv.holds (howned.resolve_right (not_not.2 ho)) (hholds ho hh)

lemma Inv.stepRow (h : Inv s) {row : RunRow} (hstep : s.stepRow act = some row) :
    Inv { s with row := row } := by
  -- no other part gives the run an owner
  have hnone : ∀ row : RunRow, row.leaseOwner = none → ∀ a, row.leaseOwner = some a →
      s.row.leaseOwner = some a ∧ row.isActive = true := by
    intro row hrow a ha
    rw [hrow] at ha
    cases ha
  -- an approval finds a run that nobody owns
  have happroval : ∀ {expected next : RunStatus} {phase : String} {row : RunRow},
      s.row.approval expected next phase s.clock = some row →
      (∀ phase, expected.isActive phase = false) →
      ((expected = .cancelling ∨ expected = .cancelled) → next = .cancelled) →
      Inv { s with row := row } := by
    intro expected next phase row hrow hinactive hcancelled
    unfold RunRow.approval at hrow
    split_ifs at hrow with hstatus
    have howner : s.row.leaseOwner = none := by
      refine Option.eq_none_iff_forall_ne_some.2 fun a ha => ?_
      have hactive := (h.owner a ha).1
      rw [RunRow.isActive, hstatus, hinactive] at hactive
      cases hactive
    rw [← Option.some.inj hrow]
    refine h.row (hnone _ rfl) fun a t hb => hb.congr ?_ ?_ ?_
    · exact fun hne => absurd howner hne
    · exact fun hne => absurd howner hne
    · rintro ⟨hst, -⟩
      exact ⟨.inr (hcancelled (hstatus ▸ hst)), rfl⟩
  cases act with
  | cancel pending phase =>
    simp only [State.stepRow, RunRow.cancel] at hstep
    split_ifs at hstep with hlane
    all_goals
      rw [← Option.some.inj hstep]
      exact h.row (hnone _ rfl) fun a t hb => hb.cancel ⟨by simp, rfl⟩
  | requeue =>
    have hreq : s.row.requeue s.clock = some row := hstep
    have hrow : row.leaseOwner = none := by
      unfold RunRow.requeue at hreq
      dsimp only at hreq
      split_ifs at hreq
      rw [← Option.some.inj hreq]
    exact h.row (hnone _ hrow) fun a t hb => hb.requeue hreq
  | quarantine =>
    simp only [State.stepRow, RunRow.quarantine] at hstep
    split_ifs at hstep with hguard
    simp only [Bool.and_eq_true, Option.isNone_iff_eq_none] at hguard
    rw [← Option.some.inj hstep]
    refine h.row (hnone _ rfl) fun a t hb => hb.congr ?_ ?_ ?_
    · exact fun hne => absurd hguard.1.2 hne
    · exact fun hne => absurd hguard.1.2 hne
    · intro hc
      rw [hc.not_active] at hguard
      cases hguard.2
  | enqueue => exact happroval hstep (fun _ => by simp [RunStatus.isActive]) (by simp)
  | resume approved => exact happroval hstep (fun _ => by simp [RunStatus.isActive]) (by simp)
  | intervene => exact happroval hstep (fun _ => by simp [RunStatus.isActive]) (by simp)
  | reconcile => exact happroval hstep (fun _ => by simp [RunStatus.isActive]) (by simp)
  | _ => simp [State.stepRow] at hstep

/-- **Every step keeps the invariant.** -/
lemma Inv.step (h : Inv s) (hstep : s.step act = some s') : Inv s' := by
  cases act with
  | tick duration => exact Option.some.inj hstep ▸ h.tick duration
  | dispatch a =>
    simp only [State.step] at hstep
    split_ifs at hstep with hunused
    rw [← Option.some.inj hstep]
    have hv := h.supervisors a
    refine h.set ⟨fun _ => rfl, Nat.le_refl _, (fun hc => by cases hc), fun hmem => ?_,
      (fun ho => by cases ho), (fun ho => by cases ho)⟩
    have hclaim := hv.acquired hmem
    rw [hv.unused hunused] at hclaim
    cases hclaim
  | acquire a => exact h.stepLease_acquire hstep
  | renewRow i => exact h.stepLease_renewRow hstep
  | commit a => exact h.stepCommit hstep
  | renew a =>
    simp only [State.step] at hstep
    split_ifs at hstep with hguard
    rw [← Option.some.inj hstep]
    have hv := h.supervisors a
    have hv' : Supervisor.Inv s a { s.supervisors a with renewal := some s.renewals.length } :=
      hv.with_activity (by simp [hguard.1]) rfl rfl hv.confirmed hv.holds
    have hset := h.set hv'
    refine ⟨hset.owner, hset.released, fun r hr => ?_, fun b => ?_⟩
    · rcases List.mem_append.1 hr with hr | hr
      · exact hset.renewals r hr
      · rw [List.mem_singleton.1 hr]
        exact ⟨Nat.le_refl _, fun hres => by cases hres⟩
    · have hb := hset.supervisors b
      exact ⟨hb.unused, hb.started, hb.claim, hb.acquired, hb.confirmed, hb.holds⟩
  | claimed a | deadline a | renewed a | renewFails a | renewTimeout a =>
    obtain ⟨v, hv, rfl⟩ := Option.map_eq_some_iff.1 hstep
    exact h.set (h.heartbeat (by simp) hv)
  | update a _ _ | persist a _ | answer a | writeFails a | advance a _ | stop a =>
    obtain ⟨v, hv, rfl⟩ := Option.map_eq_some_iff.1 hstep
    exact h.set (h.supervise hv)
  | cancel _ _ | requeue | quarantine | enqueue | resume _ | intervene | reconcile =>
    obtain ⟨row, hrow, rfl⟩ := Option.map_eq_some_iff.1 hstep
    exact h.stepRow hrow

theorem inv_reach (h : machine.Reach s) : Inv s :=
  StepMachine.Reach.induct inv_initial (fun _ _ _ _ hi hst => hi.step hst) h

/-! ## Exclusive work and writes -/

lemma Inv.head_of_working (h : Inv s) {a : ℕ} (hwork : (s.supervisors a).isWorking = true)
    (hleased : s.regardsLeased a = true) : s.acquirers.head? = some a := by
  simp only [Supervisor.isWorking, Bool.and_eq_true, decide_eq_true_iff] at hwork
  simp only [State.regardsLeased, Bool.and_eq_true, decide_eq_true_iff] at hleased
  have hv := h.supervisors a
  obtain ⟨t, ht, hback⟩ := hv.confirmed hwork.1
  have hnotrel : a ∉ s.released := by
    refine hv.holds hwork.1 ?_
    rcases hwork.2 with hact | hact <;> rw [hact] <;> rfl
  have hnow : s.clock < t + runLease + runRecoveryGrace := by
    have hle := confirmedFor_le
    omega
  exact (hback.2.2 hnow hnotrel).1

lemma Inv.head_of_commit (h : Inv s) {a : ℕ} (hstep : s.stepCommit a = some s')
    (hcommitted : (s'.supervisors a).activity.committed = some true) :
    s.acquirers.head? = some a := by
  simp only [State.stepCommit] at hstep
  split_ifs at hstep with howned
  split at hstep
  · split at hstep
    · rename_i row hupd
      exact (h.owner a (update_cases hupd).1).2.1
    · rw [← Option.some.inj hstep] at hcommitted
      simp [State.set, Activity.committed] at hcommitted
  · split at hstep
    · rename_i row hper
      exact (h.owner a (persist_cases hper).1).2.1
    · rw [← Option.some.inj hstep] at hcommitted
      simp [State.set, Activity.committed] at hcommitted
  · cases hstep

/-- **Leases are exclusive.** In every state that supervisors reach by any interleaving of claims,
renewals, writes, recovery and cancellation, two supervisors that have work running on the run and
regard it as leased are the same; and the database runs a write of a supervisor with success only if
no other supervisor has acquired the run after it. -/
theorem run_lease_exclusive {s : State} (h : machine.Reach s) :
    (∀ a b, (s.supervisors a).isWorking = true → s.regardsLeased a = true →
      (s.supervisors b).isWorking = true → s.regardsLeased b = true → a = b) ∧
    ∀ a s', machine.step s (.commit a) = some s' →
      (s'.supervisors a).activity.committed = some true → s.acquirers.head? = some a := by
  have hinv := inv_reach h
  refine ⟨fun a b hwork hleased hwork' hleased' => ?_, fun a s' hstep hcommitted => ?_⟩
  · have ha := hinv.head_of_working hwork hleased
    rw [hinv.head_of_working hwork' hleased'] at ha
    exact (Option.some.inj ha).symm
  · exact hinv.head_of_commit hstep hcommitted

/-- A supervisor hangs in its agent until its lease is recovered, and another one takes over. -/
def takeover : List Act :=
  [.dispatch 0, .acquire 0, .claimed 0, .update 0 .running "insights", .commit 0, .answer 0,
    .tick (335 * second), .requeue, .dispatch 1, .acquire 1, .claimed 1,
    .update 1 .running "insights", .commit 1, .answer 1]

/-- After the takeover both supervisors work, and the second one alone regards the run as leased. -/
theorem run_lease_exclusive_takeover : ∃ s, machine.Reach s ∧
    (s.supervisors 0).isWorking = true ∧ (s.supervisors 1).isWorking = true ∧
    s.regardsLeased 1 = true ∧
    ∀ a, (s.supervisors a).isWorking = true → s.regardsLeased a = true → a = 1 := by
  have hrun : (machine.run machine.init takeover).map (fun s =>
      (s.supervisors 0).isWorking && (s.supervisors 1).isWorking && s.regardsLeased 1) =
      some true := by decide +kernel
  obtain ⟨s, hs, htrue⟩ := Option.map_eq_some_iff.1 hrun
  simp only [Bool.and_eq_true] at htrue
  have hreach : machine.Reach s := StepMachine.reach_of_run hs
  exact ⟨s, hreach, htrue.1.1, htrue.1.2, htrue.2, fun a hwork hleased =>
    (run_lease_exclusive hreach).1 a 1 hwork hleased htrue.1.2 htrue.2⟩

end Apdl.Agents.Lease
