import Apdl.Pipeline.Marker.Once

set_option autoImplicit false

/-!
# Quarantined boundaries and the stream

The entry of a quarantined boundary can be finalized only when the row has observed its ID. A row is
quarantined without an observed ID when its last attempt fails at Redis without a reply, although an
earlier script, or that one, may have appended the entry. As long as this does not happen, and no
script appends an entry for a row that is already quarantined, the entry of every quarantined
boundary is the one that its row has observed.

## Main results

* `quarantined_observed` — the entry of a quarantined row is the observed one, and no finalization is
  refused because of it.
-/

namespace Apdl.Pipeline.Marker

/-- A step after which a quarantined row has not observed the entry with its token: a failure without
an ID quarantines the row of a token that is in the stream, or the script appends the entry of a row
that is quarantined. -/
def losesSight (s : State) : Act → Bool
  | .recordFailure k reply =>
    match s.inflight[k]? with
    | some ⟨m, .fail f⟩ =>
      decide (reply ≠ .failed) && (s.rows.get m.token).any m.isCurrent && m.quarantines f &&
        decide (m.observedWith f = none) && (s.redis.dedup.lookup m.token).isSome
    | _ => false
  | .evaluate k _ reply =>
    match s.inflight[k]? with
    | some ⟨m, .evaluate⟩ =>
      decide (reply ≠ .failed) && decide (s.redis.dedup.lookup m.token = none) &&
        decide (m.observedStreamId = none) && decide (xlen s.redis < eventStreamMaxEntries) &&
        (s.rows.get m.token).any fun b => decide (b.state = .quarantined)
    | _ => false
  | _ => false

/-- The row as `_verify_boundary_deliveries` reads it. -/
def Row.authority (b : Row) : Boundary :=
  ⟨b.token,
    match b.state, b.markerStreamId with
    | .published, some id => .published id
    | .quarantined, _ => .quarantined b.observedStreamId
    | _, _ => .pending⟩

/-- The rows as `_verify_boundary_deliveries` reads them. -/
def authority (rows : Rows) : Postgres := ⟨none, rows.rows.map Row.authority⟩

/-- Every quarantined row has observed the entry with its token. -/
def Sighted (s : State) : Prop :=
  ∀ token b, s.rows.get token = some b → b.state = .quarantined →
    ∀ id, s.redis.dedup.lookup token = some id → b.observedStreamId = some id

section Steps

variable {s s' : State}

lemma Ok.uniqueObserved (h : Ok s) {new : Row} (hnew : ∀ id, new.observedStreamId = some id →
    s.redis.dedup.lookup new.token = some id) : uniqueObserved s.rows new = true := by
  refine List.all_eq_true.2 fun b hb => ?_
  have hrow := h.rows b.token b (Table.mem_rows_iff.1 hb)
  simp only [Bool.or_eq_true, decide_eq_true_eq]
  by_contra hcontra
  rw [not_or, not_or, not_not] at hcontra
  obtain ⟨⟨htoken, hsome⟩, hsame⟩ := hcontra
  obtain ⟨id, hid⟩ := Option.ne_none_iff_exists'.1 hsome
  -- two tokens with the same entry
  have hfirst := (h.dedup b.token id).1 (hrow.observed id hid)
  have hsecond := (h.dedup new.token id).1 (hnew id (hsame ▸ hid))
  have heq := List.eq_of_key_eq h.sorted hfirst hsecond rfl
  simp only [Entry.mk.injEq, Content.marker.injEq, true_and] at heq
  exact htoken heq

lemma Sighted.redis (h : Sighted s) (hrows : s'.rows = s.rows)
    (hdedup : ∀ token b, s.rows.get token = some b → b.state = .quarantined →
      s'.redis.dedup.lookup token = s.redis.dedup.lookup token) : Sighted s' := by
  intro token b hb hq id hid
  rw [hrows] at hb
  rw [hdedup token b hb hq] at hid
  exact h token b hb hq id hid

lemma Sighted.changes (h : Sighted s) {rows : Rows} {token : Token} {P : Row → Row → Prop}
    (hchange : Changes s.rows rows token P) (hredis : s'.redis = s.redis) (hrows : s'.rows = rows)
    (hnew : ∀ old new, s.rows.get token = some old → P old new → new.state = .quarantined →
      ∀ id, s.redis.dedup.lookup token = some id → new.observedStreamId = some id) : Sighted s' := by
  intro t b hb hq id hid
  rw [hrows] at hb
  rw [hredis] at hid
  obtain hsame | ⟨rfl, old, new, hold, -, hP, hget⟩ := hchange.get t
  · exact h t b (hsame ▸ hb) hq id hid
  · obtain rfl : new = b := Option.some.inj (hget.symm.trans hb)
    exact hnew old new hold hP hq id hid

lemma evaluate_sighted (hs : Sighted s) {k : ℕ} {m : PendingMarker} {fresh : StreamId}
    {reply : Reply} (hk : s.inflight[k]? = some ⟨m, .evaluate⟩)
    (hsafe : losesSight s (.evaluate k fresh reply) = false)
    (hst : evaluateStep s k ⟨m, .evaluate⟩ fresh reply = some s') : Sighted s' := by
  unfold evaluateStep at hst
  split_ifs at hst
  have hlua : reply ≠ .failed → ∀ token b, s.rows.get token = some b → b.state = .quarantined →
      (boundaryMarkerLua s.redis m.token m.observedStreamId fresh).2.dedup.lookup token =
        s.redis.dedup.lookup token := by
    intro hreply token b hb hq
    obtain ⟨hsame, -⟩ | ⟨hnone, hobserved, hroom, heq⟩ :=
      lua_cases s.redis m.token m.observedStreamId fresh
    · rw [hsame]
    · have hne : token ≠ m.token := by
        rintro rfl
        simp [losesSight, hk, hreply, hnone, hobserved, hroom, hb, hq] at hsafe
      rw [heq]
      show ((m.token, fresh) :: s.redis.dedup).lookup token = _
      rw [List.lookup_cons, beq_false_of_ne hne]
  cases reply with
  | done =>
    obtain rfl := Option.some.inj hst
    exact hs.redis rfl (hlua (by simp))
  | lost =>
    obtain rfl := Option.some.inj hst
    exact hs.redis rfl (hlua (by simp))
  | failed =>
    obtain rfl := Option.some.inj hst
    exact hs.redis rfl fun _ _ _ _ => rfl

lemma recordFailure_sighted (h : Ok s) (hs : Sighted s) {k : ℕ} {m : PendingMarker} {f : Failure}
    {reply : Reply} (hk : s.inflight[k]? = some ⟨m, .fail f⟩) (hreply : reply ≠ .failed)
    (hsafe : losesSight s (.recordFailure k reply) = false) :
    Sighted { s with rows := m.recordFailure s.rows f, inflight := s.inflight.eraseIdx k } := by
  refine hs.changes (recordFailure_cases m s.rows f) rfl rfl fun old new hold hnew hq id hid => ?_
  obtain ⟨hcurrent, hnew⟩ := hnew
  have hrow := h.rows m.token old hold
  have htoken : old.token = m.token := Table.get_key hold
  -- no other row has observed the ID that is recorded
  have hfailed : new = old.failed (m.quarantines f) (m.observedWith f) := by
    refine hnew.resolve_right fun hdiscard => ?_
    have hunique : uniqueObserved s.rows (old.failed (m.quarantines f) (m.observedWith f)) = true := by
      refine h.uniqueObserved fun i hi => ?_
      show s.redis.dedup.lookup old.token = some i
      rw [htoken]
      exact (hrow.failed (m.quarantines f) fun _ hid => h.observedWith hk hid).observed i hi
    rw [hdiscard.2] at hunique
    exact absurd hunique (by simp)
  rw [hfailed] at hq ⊢
  cases hobserved : old.observedStreamId with
  | some i =>
    have hsame := hid.symm.trans (hrow.observed i hobserved)
    simp [Row.failed, hobserved, hsame]
  | none =>
    cases hwith : m.observedWith f with
    | some i =>
      have hsame := hid.symm.trans (h.observedWith hk hwith)
      simp [Row.failed, hobserved, hsame]
    | none =>
      -- the row would be quarantined without its entry
      have hattempts : old.attempts = m.publishAttempts := by
        simp only [PendingMarker.isCurrent, Bool.and_eq_true, decide_eq_true_eq] at hcurrent
        exact hcurrent.1.2
      have hquarantines : m.quarantines f = true := by
        simp only [Row.failed] at hq
        split_ifs at hq with hstate
        obtain hstate | hstate := hstate
        · exact hstate
        · simp [PendingMarker.quarantines, ← hattempts, hstate]
      simp [losesSight, hk, hreply, hold, hcurrent, hquarantines, hwith, hid] at hsafe

theorem Sighted.next (h : Ok s) (hs : Sighted s) {a : Act} (hsafe : losesSight s a = false)
    (hst : step s a = some s') : Sighted s' := by
  cases a with
  | request token =>
    obtain ⟨rows, hrows, rfl⟩ := Option.map_eq_some_iff.1 hst
    intro t b hb hq id hid
    have hb' : rows.get t = some b := hb
    rw [Table.get_insert hrows] at hb'
    split_ifs at hb'
    · obtain rfl := Option.some.inj hb'
      simp [Row.fresh] at hq
    · exact hs t b hb' hq id hid
  | append e =>
    simp only [step] at hst
    split at hst
    · simp at hst
    · split_ifs at hst
      obtain rfl := Option.some.inj hst
      exact hs
  | remove id =>
    simp only [step] at hst
    split_ifs at hst
    obtain rfl := Option.some.inj hst
    exact hs
  | claim token =>
    simp only [step] at hst
    split at hst
    · simp at hst
    · split_ifs at hst
      obtain ⟨m, -, rfl⟩ := Option.map_eq_some_iff.1 hst
      exact hs
  | evaluate k fresh reply =>
    simp only [step] at hst
    split at hst
    next hk => exact evaluate_sighted hs hk hsafe hst
    · simp at hst
  | store k reply =>
    simp only [step] at hst
    split at hst
    next m id _ =>
      obtain rfl := Option.some.inj hst
      have hchange := (storeMarker_cases m s.rows id).1
      have hstored : ∀ inflight, Sighted ⟨s.redis, (m.storeMarker s.rows id).1, inflight⟩ := by
        intro inflight
        refine hs.changes hchange rfl rfl fun old new _ hnew hq => ?_
        rw [hnew.2] at hq
        simp [Row.markedAt] at hq
      unfold storeStep
      dsimp only
      cases reply with
      | done =>
        dsimp only
        split <;> exact hstored _
      | lost => exact hstored _
      | failed => exact hs
    · simp at hst
  | recordFailure k reply =>
    simp only [step] at hst
    split at hst
    next hk =>
      obtain rfl := Option.some.inj hst
      split_ifs with hreply
      · exact hs
      · exact recordFailure_sighted h hs hk hreply hsafe
    · simp at hst
  | drop k =>
    obtain rfl := Option.some.inj hst
    exact hs

end Steps

/-! ## The main result -/

theorem reach_sighted {s : State} (h : machine.ReachUnder (fun s a => losesSight s a = false) s) :
    Ok s ∧ Sighted s := by
  refine h.induct (P := fun s => Ok s ∧ Sighted s) ?_ fun s a s' _ ih hsafe hst =>
    ⟨ih.1.next hst, ih.2.next ih.1 hsafe hst⟩
  refine ⟨reach_ok .init, fun token b hb => ?_⟩
  simp [machine, initial, Table.empty, Table.get] at hb

lemma quarantinedAt_of_observed {rows : Rows} {token : Token} {b : Row} {id : StreamId}
    (hb : rows.get token = some b) (hq : b.state = .quarantined)
    (hid : b.observedStreamId = some id) : (authority rows).quarantinedAt id = true := by
  refine List.any_eq_true.2 ⟨b.authority, List.mem_map_of_mem (Table.mem_of_get hb), ?_⟩
  simp [Row.authority, hq, hid]

/-- **Quarantined boundaries do not block a stream**: in every run that does not lose sight of an
entry, the entry with the token of a quarantined row is the one that the row has observed, and a
finalization that is refused is refused without this entry too. -/
theorem quarantined_observed {s : State}
    (h : machine.ReachUnder (fun s a => losesSight s a = false) s) {token : Token} {b : Row}
    (hb : s.rows.get token = some b) (hq : b.state = .quarantined) {e : Entry}
    (he : e ∈ s.redis.log) (hcontent : e.content = .marker token) :
    b.observedStreamId = some e.id ∧
      ∀ expected, verifyBoundaries (authority s.rows) expected = none →
        verifyBoundaries (authority s.rows) (expected.filter fun d => decide (d ≠ (e.id, token))) =
          none := by
  obtain ⟨hok, hs⟩ := reach_sighted h
  have hknown : s.redis.dedup.lookup token = some e.id := (hok.dedup token e.id).2 (hcontent ▸ he)
  have hid := hs token b hb hq e.id hknown
  refine ⟨hid, fun expected hrefused => ?_⟩
  have hpass := quarantinedAt_of_observed hb hq hid
  unfold verifyBoundaries at hrefused ⊢
  split_ifs at hrefused with hall
  refine if_neg fun hrest => hall (List.all_eq_true.2 fun d hd => ?_)
  by_cases heq : d = (e.id, token)
  · subst heq
    simp [hpass]
  · exact List.all_eq_true.1 hrest d (List.mem_filter.2 ⟨hd, by simpa using heq⟩)

/-- An attempt on `b` that fails at Redis without a reply, and is recorded. -/
def failedAttempt : List Act :=
  [.claim "b", .evaluate 0 (toLex (6, 0)) .failed, .recordFailure 0 .done]

/-- PostgreSQL fails after the script has returned the ID, and four more attempts fail at Redis. -/
def observedRun : List Act :=
  [.request "b", .claim "b", .evaluate 0 (toLex (5, 0)) .done, .store 0 .failed,
    .recordFailure 0 .done] ++ failedAttempt ++ failedAttempt ++ failedAttempt ++ failedAttempt

/-- After that run the row is quarantined with the ID of its entry, which can be finalized. -/
theorem quarantined_observed_observedRun :
    ∃ s b, machine.runUnder (fun s a => losesSight s a = false) machine.init observedRun = some s ∧
      s.redis.log = [⟨toLex (5, 0), .marker "b"⟩] ∧ s.rows.get "b" = some b ∧
      b.state = .quarantined ∧ b.observedStreamId = some (toLex (5, 0)) ∧
      ∀ expected, verifyBoundaries (authority s.rows) expected = none →
        verifyBoundaries (authority s.rows)
          (expected.filter fun d => decide (d ≠ (toLex (5, 0), "b"))) = none := by
  have hrun : (machine.runUnder (fun s a => losesSight s a = false) machine.init observedRun).map
      (fun s => (s.redis.log, s.rows.get "b")) =
      some ([⟨toLex (5, 0), .marker "b"⟩],
        some ⟨"b", .quarantined, 5, none, some (toLex (5, 0))⟩) := by
    decide +kernel
  obtain ⟨s, hs, hstores⟩ := Option.map_eq_some_iff.1 hrun
  obtain ⟨hlog, hrow⟩ := Prod.mk.inj hstores
  have hentry : (⟨toLex (5, 0), .marker "b"⟩ : Entry) ∈ s.redis.log := by
    rw [hlog]
    exact List.mem_singleton_self _
  obtain ⟨hid, hverify⟩ := quarantined_observed (StepMachine.reachUnder_of_runUnder .init hs) hrow
    rfl hentry rfl
  exact ⟨s, _, hs, hlog, hrow, rfl, hid, hverify⟩

/-- The reply of the first script is lost, and four more attempts fail at Redis. -/
def lostReplyRun : List Act :=
  [.request "b", .claim "b", .evaluate 0 (toLex (5, 0)) .lost, .recordFailure 0 .done] ++
    failedAttempt ++ failedAttempt ++ failedAttempt ++ failedAttempt

/-- After that run the row is quarantined, its entry is in the stream, and the row has observed no
ID: the verification of every batch with this entry is refused. -/
theorem lost_reply_blocks_stream :
    ∃ s b, machine.Reach s ∧ s.rows.get "b" = some b ∧ b.state = .quarantined ∧
      (⟨toLex (5, 0), .marker "b"⟩ : Entry) ∈ s.redis.log ∧
      s.redis.present (toLex (5, 0)) = true ∧ b.observedStreamId ≠ some (toLex (5, 0)) ∧
      verifyBoundaries (authority s.rows) [(toLex (5, 0), "b")] = none := by
  have hrun : (machine.run machine.init lostReplyRun).map
      (fun s => (s.redis.log, s.redis.present (toLex (5, 0)), s.rows.get "b",
        verifyBoundaries (authority s.rows) [(toLex (5, 0), "b")])) =
      some ([⟨toLex (5, 0), .marker "b"⟩], true, some ⟨"b", .quarantined, 5, none, none⟩,
        none) := by
    decide +kernel
  obtain ⟨s, hs, hstores⟩ := Option.map_eq_some_iff.1 hrun
  simp only [Prod.mk.injEq] at hstores
  obtain ⟨hlog, hpresent, hrow, hverify⟩ := hstores
  refine ⟨s, _, StepMachine.reach_of_run hs, hrow, rfl, ?_, hpresent, by simp, hverify⟩
  rw [hlog]
  exact List.mem_singleton_self _

end Apdl.Pipeline.Marker
