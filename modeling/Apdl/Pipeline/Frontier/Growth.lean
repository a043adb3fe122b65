import Apdl.Pipeline.Frontier.Sound

set_option autoImplicit false

/-!
# How the stores grow

Every step of the pipeline appends to the stream and keeps what is in ClickHouse and the published
markers.

## Main results

* `step_extends` — one step extends the stores.
* `coverage_permanent` — what a healthy frontier covers stays kept.
-/

namespace Apdl.Pipeline

/-! ## Growth -/

/-- The stream only grows at its end, and what ClickHouse and the boundary rows say stays. -/
structure World.Extends (w w' : World) : Prop where
  log : ∃ new, w'.redis.log = w.redis.log ++ new ∧ ∀ e ∈ new, w.redis.lastId < e.id
  inserted : ∀ id ∈ w.inserted, id ∈ w'.inserted
  published : ∀ t id, w.pg.published t id → w'.pg.published t id

namespace World

variable {w w' : World}

lemma Extends.refl (w : World) : w.Extends w :=
  ⟨⟨[], by simp, by simp⟩, fun _ h => h, fun _ _ h => h⟩

lemma extends_setRedis {r : Redis} (h : r.log = w.redis.log) : w.Extends (w.setRedis r) :=
  ⟨⟨[], by simp [setRedis, h], by simp⟩, fun _ h => h, fun _ _ h => h⟩

lemma extends_setPg {p : Postgres}
    (h : ∀ b ∈ w.pg.boundaries, b.state ≠ .pending → b ∈ p.boundaries) : w.Extends (w.setPg p) :=
  ⟨⟨[], by simp, by simp⟩, fun _ h => h, fun _ _ hb => h _ hb (by simp)⟩

lemma extends_append {e : Entry} (he : w.redis.canAppend e.id = true)
    (dedup : List (Token × StreamId)) :
    w.Extends (w.setRedis { w.redis.append e with dedup := dedup }) := by
  simp only [Redis.canAppend, Bool.and_eq_true, decide_eq_true_eq] at he
  exact ⟨⟨[e], rfl, by simpa using he.1⟩, fun _ h => h, fun _ _ h => h⟩

lemma extends_insertRows (w : World) (batch : List Buffered) : w.Extends (w.insertRows batch) :=
  ⟨⟨[], by simp [insertRows], by simp⟩, fun _ h => List.mem_append_left _ h, fun _ _ h => h⟩

lemma degrade_boundaries (p : Postgres) : p.degrade.boundaries = p.boundaries := by
  unfold Postgres.degrade
  rfl

lemma extends_degrade (w : World) : w.Extends (w.setPg w.pg.degrade) :=
  extends_setPg fun _ hb _ => by rwa [degrade_boundaries]

/-- Every entry up to the ID is in ClickHouse or is a published marker, and no new one comes before
the ID. -/
def Complete (w : World) (id : StreamId) : Prop :=
  id ≤ w.redis.lastId ∧ ∀ e ∈ w.redis.log, e.id ≤ id → w.Kept e

lemma Extends.kept (h : w.Extends w') {e : Entry} (he : w.Kept e) : w'.Kept e :=
  he.imp (h.inserted _) (Exists.imp fun t ht => ht.imp_right (h.published t e.id))

lemma Extends.complete (h : w.Extends w') {id : StreamId} (hid : w.Complete id) :
    w'.Complete id := by
  obtain ⟨new, hlog, hnew⟩ := h.log
  refine ⟨hid.1.trans ?_, fun e he hle => ?_⟩
  · rw [Redis.lastId, Redis.lastId, hlog, List.map_append, List.foldl_append]
    exact List.base_le_foldl_max _ _
  · rw [hlog] at he
    rcases List.mem_append.1 he with he | he
    · exact h.kept (hid.2 e he hle)
    · exact absurd (hnew e he) (not_lt.2 (hle.trans hid.1))

end World

lemma complete_of_healthy {s : State} (h : machine.Reach s) {r : Watermark}
    (hr : s.world.pg.watermark = some r) (hhealthy : r.status = .healthy) {id : StreamId}
    (hid : id ≤ r.contiguous) : s.world.Complete id := by
  obtain ⟨hw, -⟩ := reach_ok h
  obtain ⟨hhead, hcov⟩ := hw.frontier r hr
  refine ⟨hid.trans (hhead.trans hw.head_le), fun e he hle => ?_⟩
  rcases hcov e he (hle.trans hid) with ⟨r', hr', hdegraded⟩ | hkept
  · obtain rfl : r = r' := Option.some.inj (hr.symm.trans hr')
    exact absurd (hhealthy.symm.trans hdegraded) (by simp)
  · exact hkept

/-! ## Steps -/

variable {s s' : State} {m : Memory} {a : Act}

lemma degradeThen_extends (s : State) (reply : Reply) (m m' : Memory) :
    s.world.Extends (s.degradeThen reply m m').world := by
  cases reply with
  | failed => exact .refl _
  | _ => exact World.extends_degrade _

lemma consumer_extends (h : consumerStep s m a = some s') : s.world.Extends s'.world := by
  simp only [consumerStep, Redis.readGroup, Redis.autoClaim] at h
  repeat' split at h
  all_goals cases h
  all_goals first
    | exact .refl _
    | exact World.extends_setRedis rfl
    | exact degradeThen_extends ..

lemma flush_extends (h : flushStep s m a = some s') : s.world.Extends s'.world := by
  simp only [flushStep, finalizeStep, insertStep] at h
  repeat' split at h
  all_goals cases h
  all_goals first
    | exact .refl _
    | exact World.extends_setRedis rfl
    | exact degradeThen_extends ..
    | exact World.extends_setPg fun _ hb _ => hb
    | exact World.extends_insertRows ..

lemma monitor_extends (h : monitorStep s m a = some s') : s.world.Extends s'.world := by
  simp only [monitorStep] at h
  repeat' split at h
  all_goals cases h
  all_goals first
    | exact .refl _
    | exact World.extends_setRedis rfl

lemma setMarker_extends (w : World) (token : Token) (state : MarkerState) :
    w.Extends (w.setPg (w.pg.setMarker token state)) := by
  refine World.extends_setPg fun b hb hstate => List.mem_map.2 ⟨b, hb, ?_⟩
  rw [if_neg fun h => hstate h.2]

lemma marker_extends (h : markerStep s m a = some s') : s.world.Extends s'.world := by
  simp only [markerStep] at h
  repeat' split at h
  all_goals cases h
  all_goals first
    | exact .refl _
    | exact setMarker_extends ..
    | exact World.extends_append ‹_› _

lemma initializeAuthority_boundaries (p : Postgres) (o : Observed) (maxDeleted : StreamId) :
    (initializeAuthority p o maxDeleted).boundaries = p.boundaries := by
  unfold initializeAuthority
  repeat' split
  all_goals rfl

lemma start_extends (h : startStep s a = some s') : s.world.Extends s'.world := by
  simp only [startStep] at h
  repeat' split at h
  all_goals cases h
  all_goals first
    | exact .refl _
    | exact World.extends_setRedis rfl
    | exact World.extends_setPg fun _ hb _ => by rwa [initializeAuthority_boundaries]

lemma step_extends (h : step s a = some s') : s.world.Extends s'.world := by
  unfold step at h
  split at h
  · split at h
    · cases h
      exact World.extends_append ‹_› _
    · cases h
  · split at h
    · cases h
    · cases h
      exact World.extends_setPg fun _ hb _ => List.mem_append_left _ hb
  · cases h
    exact .refl _
  · exact start_extends h
  · exact start_extends h
  · exact start_extends h
  all_goals
    split at h
    · first
        | exact consumer_extends h
        | exact flush_extends h
        | exact monitor_extends h
        | exact marker_extends h
    · cases h

/-- **Coverage is permanent**: what a healthy frontier covers stays kept in every later state, also
after the authority has degraded, the writer has crashed or the stream was trimmed. -/
theorem coverage_permanent (h : machine.Reach s) {r : Watermark}
    (hr : s.world.pg.watermark = some r) (hhealthy : r.status = .healthy)
    (hpath : machine.Path s s') : ∀ e ∈ s'.world.redis.log, e.id ≤ r.contiguous →
      s'.world.Kept e := by
  have hcomplete : s'.world.Complete r.contiguous := by
    induction hpath with
    | refl => exact complete_of_healthy h hr hhealthy le_rfl
    | tail _ hst ih =>
      obtain ⟨a, ha⟩ := hst
      exact (step_extends ha).complete ih
  exact hcomplete.2

theorem coverage_permanent_finalizedRun : ∃ s s' r,
    machine.run machine.init finalizedRun = some s ∧ step s .crash = some s' ∧
      s.world.pg.watermark = some r ∧
      ∀ e ∈ s'.world.redis.log, e.id ≤ r.contiguous → s'.world.Kept e := by
  have h : (machine.run machine.init finalizedRun).map (fun s => s.world.pg.watermark) =
      some (some ⟨toLex (2, 0), 2, .healthy⟩) := by
    decide +kernel
  obtain ⟨s, hs, hr⟩ := Option.map_eq_some_iff.1 h
  exact ⟨s, _, _, hs, rfl, hr, coverage_permanent (StepMachine.reach_of_run hs) hr rfl
    (.single ⟨.crash, rfl⟩)⟩

end Apdl.Pipeline
