import Apdl.Pipeline.Frontier.Growth
import Apdl.Query.Decision.Model

set_option autoImplicit false

/-!
# Decisions are final

The invariant of the requests, the tables and the pipeline, and what a returned decision says.

## Main results

* `decisions_agree` — one decision for each version of an experiment.
* `decision_gated` — what was checked before it was stored.
* `decision_complete` — the events it rests on are all in ClickHouse.
-/

namespace Apdl.Query.Decision

open Pipeline (Token MarkerState)
open PyValue (Fields field)
open Arms

variable {κ π : Type} {rt : Runtime κ π} {s s' : State κ π} {m : ConfigExperimentAnalysis}

/-! ## What a decision says -/

/-- What a request has checked when it asks for the provenance of the events. -/
structure Gated (m : ConfigExperimentAnalysis) (currentTime : ℤ) (common : Aggregation) : Prop where
  completed : m.status = .completed
  closed : m.endDate ≤ currentTime
  settled : m.endDate + m.statisticalPlan.dataSettlementSeconds * 1000000 ≤ currentTime
  arms : ∃ rows, aggregateArms m.variants rows = .ok common
  variants : common.unknownVariantActors = 0
  conflicts : common.identityConflictActors = 0
  powered : ∀ arm ∈ common.arms, m.statisticalPlan.requiredSampleSizePerArm ≤ arm.sampleSize
  exposed : (common.arms.map fun arm => arm.sampleSize).sum ≠ 0

/-- A decision that a request may store: its gates are passed and all its statistics are finite. -/
structure Decided (rt : Runtime κ π) (m : ConfigExperimentAnalysis) (currentTime : ℤ)
    (d : DecisionSnapshot κ) : Prop where
  metadata : d.metadata = m
  gated : Gated m currentTime d.aggregation
  finite : ∃ control ∈ d.aggregation.arms, control.variant = m.controlVariant ∧
    (d.aggregation.arms.filter fun arm => arm.variant ≠ m.controlVariant).mapM (fun treatment =>
      rt.comparison control treatment (d.aggregation.arms.length - 1)
        m.statisticalPlan.significanceLevel) = some d.comparisons

lemma gated_of_early {currentTime : ℤ} (h : (early m currentTime : Option (Response κ)) = none) :
    m.status ≠ .scheduled ∧ (m.status = .completed → m.endDate ≤ currentTime ∧
      m.endDate + m.statisticalPlan.dataSettlementSeconds * 1000000 ≤ currentTime) := by
  unfold early at h
  split_ifs at h with _ hclosed hsettled hscheduled
  refine ⟨hscheduled, fun hc => ?_⟩
  simp only [hc, true_and, not_lt] at hclosed hsettled
  exact ⟨hclosed, hsettled⟩

lemma analyzed_provenance {currentTime : ℤ} {authority : Option ExperimentBoundaryAuthority}
    {rows : List Fields} {marker : Pipeline.StreamId} {common : Aggregation}
    (hearly : (early m currentTime : Option (Response κ)) = none)
    (h : (analyzed m authority rows : Stage κ) = .provenance marker common) :
    Gated m currentTime common := by
  obtain ⟨hscheduled, hgated⟩ := gated_of_early hearly
  unfold analyzed at h
  split at h
  · cases h
  · next agg hagg =>
    split at h
    · cases h
    · cases h
    · next hnone _ =>
      cases h
      simp only [refusals, List.find?_eq_none, List.forall_mem_cons, decide_eq_true_eq] at hnone
      obtain ⟨-, hvariants, hconflicts, hrunning, hstopped, hexposed, hpowered, -⟩ := hnone
      have hcompleted : m.status = .completed := by
        cases hst : m.status <;> simp_all only [ne_eq, not_true_eq_false]
      obtain ⟨hclosed, hsettled⟩ := hgated hcompleted
      refine ⟨hcompleted, hclosed, hsettled, ⟨rows, hagg⟩, not_not.1 hvariants,
        not_not.1 hconflicts, fun arm harm => ?_, hexposed⟩
      by_contra hlt
      have hmem : arm.variant ∈ underpoweredVariants m common.arms :=
        List.mem_map_of_mem (List.mem_filter.2 ⟨harm, decide_eq_true (not_le.1 hlt)⟩)
      rw [not_not.1 hpowered] at hmem
      exact List.not_mem_nil hmem

lemma verified_persist {currentTime : ℤ} {marker marker' : Pipeline.StreamId} {common : Aggregation}
    {rows : List Fields} {d : DecisionSnapshot κ} (hgated : Gated m currentTime common)
    (h : verified rt m marker common rows = .persist marker' d) :
    Decided rt m currentTime d := by
  unfold verified at h
  simp only at h
  repeat' split at h
  all_goals try cases h
  next hcontrol _ _ _ hcomparisons =>
    exact ⟨rfl, hgated, _, List.mem_of_find?_eq_some hcontrol,
      by simpa using List.find?_some hcontrol, hcomparisons⟩

/-! ## The invariant -/

/-- The tables grow: the pipeline extends its stores, and snapshots are only added. -/
structure State.Grows (s s' : State κ π) : Prop where
  extends_ : s.pipeline.world.Extends s'.pipeline.world
  snapshots : s.snapshots <+: s'.snapshots

lemma State.Grows.refl (s : State κ π) : s.Grows s :=
  ⟨.refl _, List.prefix_refl _⟩

lemma State.Grows.snapshot (h : s.Grows s') {row : SnapshotRow π} (hs : s.snapshot m = some row) :
    s'.snapshot m = some row := by
  obtain ⟨new, hnew⟩ := h.snapshots
  rw [State.snapshot, ← hnew, List.find?_append, ← State.snapshot, hs]
  rfl

/-- A stored decision of a request, with a boundary up to which the stream is complete. -/
def Earned (rt : Runtime κ π) (w : Pipeline.World) (row : SnapshotRow π) : Prop :=
  w.Complete row.boundaryStreamId ∧ ∃ m currentTime d,
    row = rt.snapshotRow m row.boundaryStreamId d ∧ Decided rt m currentTime d

/-- What is known of a request at its stage. -/
structure RequestOk (rt : Runtime κ π) (s : State κ π) (r : Request κ) : Prop where
  opened : (∀ response, r.stage ≠ .done response) →
    (early r.metadata r.currentTime : Option (Response κ)) = none
  covered : ∀ marker, r.stage = .analysis (some ⟨.covered, some marker⟩) →
    s.pipeline.world.Complete marker
  gated : ∀ marker common, r.stage = .provenance marker common →
    Gated r.metadata r.currentTime common
  decided : ∀ marker d, r.stage = .persist marker d → Decided rt r.metadata r.currentTime d
  returned : ∀ d, r.stage = .done (.snapshot d) →
    ∃ row, s.snapshot r.metadata = some row ∧ rt.validateSnapshotPayload row = some d

structure Inv (rt : Runtime κ π) (s : State κ π) : Prop where
  pipeline : Pipeline.machine.Reach s.pipeline
  earned : ∀ row ∈ s.snapshots, Earned rt s.pipeline.world row
  requests : ∀ r ∈ s.requests, RequestOk rt s r

lemma RequestOk.grows {r : Request κ} (h : RequestOk rt s r) (hg : s.Grows s') :
    RequestOk rt s' r :=
  { h with
    covered := fun marker hm => hg.extends_.complete (h.covered marker hm)
    returned := fun d hd => by
      obtain ⟨row, hrow, hv⟩ := h.returned d hd
      exact ⟨row, hg.snapshot hrow, hv⟩ }

lemma Earned.grows {row : SnapshotRow π} (h : Earned rt s.pipeline.world row) (hg : s.Grows s') :
    Earned rt s'.pipeline.world row :=
  ⟨hg.extends_.complete h.1, h.2⟩

/-- The stages that need nothing of the tables. -/
def Stage.plain : Stage κ → Bool
  | .boundary | .watermark _ | .analysis none | .done (.nonFinal ..) | .done (.error _) => true
  | .analysis (some a) => decide (a.state ≠ .covered)
  | _ => false

lemma RequestOk.of_plain {r : Request κ} {stage : Stage κ}
    (hr : (early r.metadata r.currentTime : Option (Response κ)) = none) (h : stage.plain = true) :
    RequestOk rt s { r with stage := stage } := by
  refine ⟨fun _ => hr, ?_, ?_, ?_, ?_⟩
  all_goals
    intros
    simp_all [Stage.plain]

/-! ## Transactions -/

/-- What a transaction may change. -/
structure Committed (rt : Runtime κ π) (s s' : State κ π) : Prop where
  grows : s.Grows s'
  requests : s'.requests = s.requests
  pipeline : Pipeline.machine.Reach s.pipeline → Pipeline.machine.Reach s'.pipeline
  earned : ∀ row ∈ s'.snapshots, row ∈ s.snapshots ∨ Earned rt s'.pipeline.world row

lemma Committed.refl (s : State κ π) : Committed rt s s :=
  ⟨.refl s, rfl, id, fun _ => .inl⟩

lemma insertBoundary_committed (h : s.insertBoundary rt m = some s') : Committed rt s s' := by
  unfold State.insertBoundary at h
  split at h
  · cases h
    exact .refl s
  · obtain ⟨p, hp, rfl⟩ := Option.map_eq_some_iff.1 h
    exact ⟨⟨Pipeline.step_extends hp, List.prefix_refl _⟩, rfl,
      fun hr => hr.next (a := .requestBoundary _) hp, fun _ => .inl⟩

lemma boundaryTransaction_spec {stage : Stage κ}
    (h : boundaryTransaction rt s m = some (s', stage)) : Committed rt s s' ∧
      (stage.plain = true ∨ ∃ row d, stage = .done (.snapshot d) ∧ s'.snapshot m = some row ∧
        rt.validateSnapshotPayload row = some d) := by
  unfold boundaryTransaction at h
  obtain ⟨t, ht, h⟩ := Option.bind_eq_some_iff.1 h
  obtain ⟨b, -, h⟩ := Option.bind_eq_some_iff.1 h
  split at h
  · cases h
  obtain ⟨state, -, h⟩ := Option.bind_eq_some_iff.1 h
  have hc := insertBoundary_committed ht
  split at h
  · next row hrow =>
    split at h
    · obtain ⟨d, hd, heq⟩ := Option.map_eq_some_iff.1 h
      cases heq
      exact ⟨hc, .inr ⟨row, d, rfl, hrow, hd⟩⟩
    · cases h
  · cases h
    refine ⟨hc, .inl ?_⟩
    cases state <;> rfl

lemma complete_of_coversMarker (hr : Pipeline.machine.Reach s.pipeline) {marker : Pipeline.StreamId}
    (h : s.coversMarker m marker = true) : s.pipeline.world.Complete marker := by
  simp only [State.coversMarker, Bool.and_eq_true, Option.any_eq_true, decide_eq_true_eq] at h
  obtain ⟨-, w, hw, hhealthy, hle⟩ := h
  exact Pipeline.complete_of_healthy hr hw hhealthy hle

lemma insertSnapshot_committed (hr : Pipeline.machine.Reach s.pipeline) {currentTime : ℤ}
    {marker : Pipeline.StreamId} {d : DecisionSnapshot κ} (hd : Decided rt m currentTime d) :
    Committed rt s (s.insertSnapshot rt m marker d) := by
  unfold State.insertSnapshot
  split_ifs with hinsert
  · refine ⟨⟨.refl _, List.prefix_append _ _⟩, rfl, id, fun row hrow => ?_⟩
    rcases List.mem_append.1 hrow with hrow | hrow
    · exact .inl hrow
    · obtain rfl := List.mem_singleton.1 hrow
      exact .inr ⟨complete_of_coversMarker hr hinsert.2, m, currentTime, d, rfl, hd⟩
  · exact .refl s

lemma persistTransaction_spec (hr : Pipeline.machine.Reach s.pipeline) {currentTime : ℤ}
    {marker : Pipeline.StreamId} {d winner : DecisionSnapshot κ} (hd : Decided rt m currentTime d)
    (h : persistTransaction rt s m marker d = some (s', winner)) : Committed rt s s' ∧
      ∃ row, s'.snapshot m = some row ∧ rt.validateSnapshotPayload row = some winner := by
  unfold persistTransaction at h
  obtain ⟨row, hrow, h⟩ := Option.bind_eq_some_iff.1 h
  split at h
  · cases h
  · obtain ⟨w, hw, heq⟩ := Option.map_eq_some_iff.1 h
    cases heq
    exact ⟨insertSnapshot_committed hr hd, row, hrow, hw⟩

/-! ## Steps -/

lemma readWatermark_covered (hr : Pipeline.machine.Reach s.pipeline)
    {marker marker' : Pipeline.StreamId} {reason : String}
    (h : readWatermark s marker reason = ⟨.covered, some marker'⟩) :
    s.pipeline.world.Complete marker' := by
  unfold readWatermark at h
  split at h
  · cases h
  · next w hw =>
    split at h
    · cases h
    · next hhealthy =>
      split_ifs at h with hle
      · cases h
        exact Pipeline.complete_of_healthy hr hw hhealthy hle
      · cases h

lemma analyzed_cases (m : ConfigExperimentAnalysis)
    (authority : Option ExperimentBoundaryAuthority) (rows : List Fields) :
    (analyzed m authority rows : Stage κ).plain = true ∨
      ∃ marker common, (analyzed m authority rows : Stage κ) = .provenance marker common := by
  unfold analyzed
  split
  · exact .inl rfl
  · split
    · exact .inl rfl
    · exact .inl rfl
    · exact .inr ⟨_, _, rfl⟩

lemma verified_cases (rt : Runtime κ π) (m : ConfigExperimentAnalysis) (marker : Pipeline.StreamId)
    (common : Aggregation) (rows : List Fields) :
    (verified rt m marker common rows).plain = true ∨
      ∃ d, verified rt m marker common rows = .persist marker d := by
  unfold verified
  dsimp only
  repeat' split
  all_goals first
    | exact .inl rfl
    | exact .inr ⟨_, rfl⟩

lemma resume_ok (hi : Inv rt s) {r : Request κ} (hr : RequestOk rt s r) {e : Event}
    {stage : Stage κ} (h : r.resume rt s e = some (s', stage)) :
    Committed rt s s' ∧ RequestOk rt s' { r with stage := stage } := by
  unfold Request.resume at h
  split at h
  · next outcome hstage =>
    have hopen := hr.opened (by simp [hstage])
    split at h
    · next result hresult =>
      cases h
      obtain ⟨hc, hplain | ⟨row, d, rfl, hrow, hv⟩⟩ := boundaryTransaction_spec hresult
      · exact ⟨hc, .of_plain hopen hplain⟩
      · refine ⟨hc, fun _ => hopen, by simp, by simp, by simp, fun d' hd => ?_⟩
        cases hd
        exact ⟨row, hrow, hv⟩
    · next t _ hresult =>
      cases h
      exact ⟨(boundaryTransaction_spec hresult).1, .of_plain hopen rfl⟩
    · cases h
      exact ⟨.refl s, .of_plain hopen rfl⟩
  · next marker reason hstage =>
    cases h
    have hopen := hr.opened (by simp [hstage])
    refine ⟨.refl s, fun _ => hopen, fun marker' hm => ?_, by simp, by simp, by simp⟩
    exact readWatermark_covered hi.pipeline (Option.some.inj (Stage.analysis.inj hm))
  · next hstage =>
    cases h
    exact ⟨.refl s, .of_plain (hr.opened (by simp [hstage])) rfl⟩
  · next authority rows hstage =>
    cases h
    have hopen := hr.opened (by simp [hstage])
    have hcases : (analyzed r.metadata authority rows : Stage κ).plain = true ∨ _ :=
      analyzed_cases r.metadata authority rows
    rcases hcases with hplain | ⟨_, common, heq⟩
    · exact ⟨.refl s, .of_plain hopen hplain⟩
    · have hgated := analyzed_provenance hopen heq
      rw [heq]
      refine ⟨.refl s, fun _ => hopen, by simp, fun marker' common' h => ?_, by simp, by simp⟩
      cases h
      exact hgated
  · next marker common rows hstage =>
    cases h
    have hopen := hr.opened (by simp [hstage])
    rcases verified_cases rt r.metadata marker common rows with hplain | ⟨d, heq⟩
    · exact ⟨.refl s, .of_plain hopen hplain⟩
    · have hdecided := verified_persist (hr.gated marker common hstage) heq
      rw [heq]
      refine ⟨.refl s, fun _ => hopen, by simp, by simp, fun marker' d' h => ?_, by simp⟩
      cases h
      exact hdecided
  · next marker d outcome hstage =>
    have hopen := hr.opened (by simp [hstage])
    have hd := hr.decided marker d hstage
    split at h
    · next t winner hresult =>
      cases h
      obtain ⟨hc, row, hrow, hv⟩ := persistTransaction_spec hi.pipeline hd hresult
      refine ⟨hc, fun _ => hopen, by simp, by simp, by simp, fun d' hd' => ?_⟩
      cases hd'
      exact ⟨row, hrow, hv⟩
    · next t _ hresult =>
      cases h
      exact ⟨(persistTransaction_spec hi.pipeline hd hresult).1, .of_plain hopen rfl⟩
    · cases h
      exact ⟨.refl s, .of_plain hopen rfl⟩
  · cases h
  · next _ hopen =>
    cases h
    exact ⟨.refl s, .of_plain (hr.opened hopen) rfl⟩
  · cases h

lemma start_ok (m : ConfigExperimentAnalysis) (currentTime : ℤ) (pool : Bool) :
    RequestOk rt s (.start m currentTime pool) := by
  cases h : (early m currentTime : Option (Response κ)) with
  | none =>
    have heq : (Request.start m currentTime pool : Request κ) = ⟨m, currentTime,
        if m.status = .completed ∧ pool then .boundary else .analysis none⟩ := by
      rw [Request.start, h]
    rw [heq]
    refine RequestOk.of_plain (r := ⟨m, currentTime, .boundary⟩) h ?_
    split_ifs <;> rfl
  | some response =>
    have heq : (Request.start m currentTime pool : Request κ) =
        ⟨m, currentTime, .done response⟩ := by
      rw [Request.start, h]
    rw [heq]
    refine ⟨fun h => absurd rfl (h response), by simp, by simp, by simp, fun d hd => ?_⟩
    cases hd
    unfold early at h
    split_ifs at h <;> cases h

lemma Inv.next {a : Act} (hi : Inv rt s) (h : step rt s a = some s') : Inv rt s' := by
  cases a with
  | pipeline a =>
    have hstep : (Pipeline.step s.pipeline a).map (fun p => { s with pipeline := p }) =
        some s' := by
      cases a <;> first | exact h | cases h
    obtain ⟨p, hp, rfl⟩ := Option.map_eq_some_iff.1 hstep
    have hg : s.Grows { s with pipeline := p } := ⟨Pipeline.step_extends hp, List.prefix_refl _⟩
    exact ⟨hi.pipeline.next hp, fun row hrow => (hi.earned row hrow).grows hg,
      fun r hr => (hi.requests r hr).grows hg⟩
  | request m currentTime pool =>
    cases h
    refine ⟨hi.pipeline, hi.earned, fun r hr => ?_⟩
    rcases List.mem_append.1 hr with hr | hr
    · exact (hi.requests r hr).grows ⟨.refl _, List.prefix_refl _⟩
    · obtain rfl := List.mem_singleton.1 hr
      exact start_ok m currentTime pool
  | resume i e =>
    obtain ⟨r, hr, h⟩ := Option.bind_eq_some_iff.1 h
    obtain ⟨⟨t, stage⟩, hresume, h⟩ := Option.bind_eq_some_iff.1 h
    cases h
    obtain ⟨hc, hok⟩ := resume_ok hi (hi.requests r (List.mem_of_getElem? hr)) hresume
    refine ⟨hc.pipeline hi.pipeline, fun row hrow => ?_, fun r' hr' => ?_⟩
    · rcases hc.earned row hrow with hold | hnew
      · have hearned := (hi.earned row hold).grows hc.grows
        exact hearned
      · exact hnew
    · rcases List.mem_or_eq_of_mem_set hr' with hr' | rfl
      · rw [hc.requests] at hr'
        exact ((hi.requests r' hr').grows hc.grows).grows ⟨.refl _, List.prefix_refl _⟩
      · exact hok.grows ⟨.refl _, List.prefix_refl _⟩

lemma reach_inv (h : (machine rt).Reach s) : Inv rt s :=
  h.induct ⟨.init, by simp [machine], by simp [machine]⟩ fun _ _ _ _ hi hst => hi.next hst

lemma decision_eq_some_iff {r : Request κ} {d : DecisionSnapshot κ} :
    r.decision = some d ↔ r.stage = .done (.snapshot d) := by
  unfold Request.decision
  split
  · next heq => simp [heq]
  · next hne => exact ⟨fun h => absurd h (by simp), fun h => absurd h (hne d)⟩

/-! ## A run -/

/-- An experiment with two arms, whose window is a day. -/
def sampleExperiment : ConfigExperimentAnalysis where
  key := [101]
  version := 3
  flagKey := [102]
  metricEvent := [109]
  status := .completed
  controlVariant := [97]
  variants := [[97], [98]]
  statisticalPlan := ⟨.finite (1 / 20), 2, 3600⟩
  startDate := 0
  endDate := 86400000000
  unique := by decide
  control_mem := by decide
  start_lt := by decide

/-- Two texts with their digests, and statistics that are finite. -/
def sampleRuntime : Runtime Unit String where
  sha256 text :=
    if text = "boundary" then "931534c0c145d0a99631a32025f23f88c67fc6b34a608a73d0410bc04cf7bdce"
    else "16a0eeb0791b6c92451fd284dd9f599e0a7dbe7f6ebea6e2d2d06c7f74aec112"
  boundaryJson _ _ _ _ := "boundary"
  snapshotJson _ := "snapshot"
  jsonb := id
  modelValidate _ := some ⟨sampleExperiment, emptyArms sampleExperiment, [()]⟩
  comparison _ _ _ _ := some ()

/-- The row of an arm. -/
def sampleRow (variant : Text) (conversions : ℤ) : Fields :=
  [("variant", .str variant), ("sample_size", .int 2), ("conversions", .int conversions),
    ("crossover_actors", .int 0), ("unknown_variant_actors", .int 0),
    ("identity_conflict_actors", .int 0)].map fun p => (Text.ofString p.1, p.2)

def sampleRows : List Fields := [sampleRow [97] 0, sampleRow [98] 2]

/-- A writer starts; it publishes the marker and finalizes its delivery. -/
def deliverMarker : List Pipeline.Act :=
  [.ensureGroup .done, .initAuthority .done,
    .publishMarker (sampleRuntime.boundaryToken sampleExperiment) (toLex (2, 0)) .done,
    .recordMarker .done, .readGroup 10 .done, .processMessage, .processMessage, .flush,
    .insertBatch .inserted, .insertBatch .inserted, .verify .done, .exec .done, .inspect true,
    .commit .done]

/-- A request finds its boundary pending; the marker is delivered; the second request stores a
decision, and the third one finds it. -/
def decidedRun : List Act :=
  .request sampleExperiment 90000000000 true :: .resume 0 (.boundary .done) ::
    .resume 0 (.analysis sampleRows) :: deliverMarker.map Act.pipeline ++
    [.request sampleExperiment 90000000000 true, .resume 1 (.boundary .done),
      .resume 1 (.watermark ""), .resume 1 (.analysis sampleRows),
      .resume 1 (.provenance [[(Text.ofString "unprovenanced_events", .int 0)]]),
      .resume 1 (.persist .done), .request sampleExperiment 90000000000 true,
      .resume 2 (.boundary .done)]

/-- After that run two requests have returned a decision. -/
lemma decidedRun_spec : ∃ s r r' d d',
    (machine sampleRuntime).run (machine sampleRuntime).init decidedRun = some s ∧
      s.requests[1]? = some r ∧ s.requests[2]? = some r' ∧ r.metadata = sampleExperiment ∧
      r'.metadata = sampleExperiment ∧ r.decision = some d ∧ r'.decision = some d' := by
  have h : (((machine sampleRuntime).run (machine sampleRuntime).init decidedRun).bind fun s =>
      s.requests[1]?.bind fun r => s.requests[2]?.bind fun r' =>
        if r.metadata = sampleExperiment ∧ r'.metadata = sampleExperiment then
          r.decision.bind fun _ => r'.decision
        else none).isSome = true := by
    decide +kernel
  obtain ⟨d', h⟩ := Option.isSome_iff_exists.1 h
  obtain ⟨s, hs, h⟩ := Option.bind_eq_some_iff.1 h
  obtain ⟨r, hr, h⟩ := Option.bind_eq_some_iff.1 h
  obtain ⟨r', hr', h⟩ := Option.bind_eq_some_iff.1 h
  split_ifs at h with hm
  obtain ⟨d, hd, hd'⟩ := Option.bind_eq_some_iff.1 h
  exact ⟨s, r, r', d, d', hs, hr, hr', hm.1, hm.2, hd, hd'⟩

/-! ## Decisions -/

/-- **Decisions agree**: whatever the requests, their transactions and the pipeline do, all the
decisions that requests for one experiment at one version return are the same. -/
theorem decisions_agree (h : (machine rt).Reach s) {r r' : Request κ} (hr : r ∈ s.requests)
    (hr' : r' ∈ s.requests) (hkey : r.metadata.key = r'.metadata.key)
    (hversion : r.metadata.version = r'.metadata.version) {d d' : DecisionSnapshot κ}
    (hd : r.decision = some d) (hd' : r'.decision = some d') : d = d' := by
  have hi := reach_inv h
  obtain ⟨row, hrow, hv⟩ := (hi.requests r hr).returned d (decision_eq_some_iff.1 hd)
  obtain ⟨row', hrow', hv'⟩ := (hi.requests r' hr').returned d' (decision_eq_some_iff.1 hd')
  rw [State.snapshot, ← hkey, ← hversion, ← State.snapshot, hrow] at hrow'
  obtain rfl := Option.some.inj hrow'
  exact Option.some.inj (hv.symm.trans hv')

theorem decisions_agree_decidedRun : ∃ s r r' d d',
    (machine sampleRuntime).run (machine sampleRuntime).init decidedRun = some s ∧
      s.requests[1]? = some r ∧ s.requests[2]? = some r' ∧ r.decision = some d ∧
      r'.decision = some d' ∧ d = d' := by
  obtain ⟨s, r, r', d, d', hs, hr, hr', hm, hm', hd, hd'⟩ := decidedRun_spec
  refine ⟨s, r, r', d, d', hs, hr, hr', hd, hd', ?_⟩
  exact decisions_agree (StepMachine.reach_of_run hs) (List.mem_of_getElem? hr)
    (List.mem_of_getElem? hr') (by rw [hm, hm']) (by rw [hm, hm']) hd hd'

lemma earned_of_decision (h : (machine rt).Reach s) {r : Request κ} (hr : r ∈ s.requests)
    {d : DecisionSnapshot κ} (hd : r.decision = some d) :
    ∃ row, s.snapshot r.metadata = some row ∧ rt.validateSnapshotPayload row = some d ∧
      Earned rt s.pipeline.world row := by
  have hi := reach_inv h
  obtain ⟨row, hrow, hv⟩ := (hi.requests r hr).returned d (decision_eq_some_iff.1 hd)
  exact ⟨row, hrow, hv, hi.earned row (List.mem_of_find?_eq_some hrow)⟩

/-- **Decisions are complete**: once a request has returned a decision, every entry of the stream up
to the boundary of its row is in ClickHouse or is a published marker; and so it already is when a
request asks for its analysis at a covered boundary. -/
theorem decision_complete (h : (machine rt).Reach s) {r : Request κ} (hr : r ∈ s.requests) :
    (∀ d, r.decision = some d → ∃ row, s.snapshot r.metadata = some row ∧
      rt.validateSnapshotPayload row = some d ∧
      ∀ e ∈ s.pipeline.world.redis.log, e.id ≤ row.boundaryStreamId → s.pipeline.world.Kept e) ∧
    ∀ marker, r.stage = .analysis (some ⟨.covered, some marker⟩) →
      ∀ e ∈ s.pipeline.world.redis.log, e.id ≤ marker → s.pipeline.world.Kept e := by
  refine ⟨fun d hd => ?_, fun marker hm => (((reach_inv h).requests r hr).covered marker hm).2⟩
  obtain ⟨row, hrow, hv, hcomplete, -⟩ := earned_of_decision h hr hd
  exact ⟨row, hrow, hv, hcomplete.2⟩

theorem decision_complete_decidedRun : ∃ (s : _) (r : Request Unit) (row : _),
    (machine sampleRuntime).run (machine sampleRuntime).init decidedRun = some s ∧
      r.decision.isSome = true ∧ s.snapshot r.metadata = some row ∧
      ∀ e ∈ s.pipeline.world.redis.log, e.id ≤ row.boundaryStreamId → s.pipeline.world.Kept e := by
  obtain ⟨s, r, r', d, d', hs, hr, -, -, -, hd, -⟩ := decidedRun_spec
  obtain ⟨row, hrow, -, hkept⟩ :=
    (decision_complete (StepMachine.reach_of_run hs) (List.mem_of_getElem? hr)).1 d hd
  exact ⟨s, r, row, hs, Option.isSome_of_eq_some hd, hrow, hkept⟩

end Apdl.Query.Decision
