import Apdl.Pipeline.Marker.Model
import Apdl.Lib.Extremum

set_option autoImplicit false

/-!
# A boundary marker is published once

However the attempts on a boundary row interleave, whichever replies are lost and whenever a writer
restarts, at most one entry of the stream carries the token of the row; a published row records the
ID of this entry; and an observed ID is never replaced.

## Main results

* `marker_published_once` — the three parts together.

## Design

The deduplication key is written together with the entry and never changes, so it is the reference
for all IDs that the attempts learn: the invariant compares them to it.
-/

namespace Apdl.Pipeline.Marker

/-! ## The invariant -/

/-- The attempt carries this stream ID. -/
def Attempt.Knows (att : Attempt) (id : StreamId) : Prop :=
  att.marker.observedStreamId = some id ∨
    match att.phase with
    | .evaluate => False
    | .store i => i = id
    | .fail f => f.observedStreamId = some id

/-- What a row may record, when `known` is the ID of its deduplication key. -/
structure RowOk (known : Option StreamId) (b : Row) : Prop where
  observed : ∀ id, b.observedStreamId = some id → known = some id
  marker : ∀ id, b.markerStreamId = some id → b.observedStreamId = some id
  published : b.state = .published → ∃ id, b.markerStreamId = some id

/-- The invariant of the stores and the attempts. -/
structure Ok (s : State) : Prop where
  sorted : s.redis.log.Pairwise fun e e' => e.id < e'.id
  dedup : ∀ token id, s.redis.dedup.lookup token = some id ↔ ⟨id, .marker token⟩ ∈ s.redis.log
  rows : ∀ token b, s.rows.get token = some b → RowOk (s.redis.dedup.lookup token) b
  attempts : ∀ att ∈ s.inflight, ∀ id, att.Knows id →
    s.redis.dedup.lookup att.marker.token = some id

lemma RowOk.mono {known known' : Option StreamId} {b : Row} (h : RowOk known b)
    (hknown : ∀ id, known = some id → known' = some id) : RowOk known' b :=
  { h with observed := fun id hid => hknown id (h.observed id hid) }

lemma RowOk.fresh (known : Option StreamId) (token : Token) : RowOk known (.fresh token) where
  observed _ h := by simp [Row.fresh] at h
  marker _ h := by simp [Row.fresh] at h
  published h := by simp [Row.fresh] at h

lemma lua_cases (r : Redis) (token : Token) (observed : Option StreamId) (fresh : StreamId) :
    ((boundaryMarkerLua r token observed fresh).2 = r ∧
      ∀ id, (boundaryMarkerLua r token observed fresh).1 = .markerId id ∨
        (boundaryMarkerLua r token observed fresh).1 = .dedupInvalid (some id) →
        r.dedup.lookup token = some id) ∨
    (r.dedup.lookup token = none ∧ observed = none ∧ xlen r < eventStreamMaxEntries ∧
      boundaryMarkerLua r token observed fresh = (.markerId fresh,
        { r.append ⟨fresh, .marker token⟩ with dedup := (token, fresh) :: r.dedup })) := by
  unfold boundaryMarkerLua
  cases hlookup : r.dedup.lookup token with
  | some existing =>
    refine .inl ?_
    dsimp only
    split_ifs <;> refine ⟨rfl, fun id hid => ?_⟩ <;> simpa using hid
  | none =>
    dsimp only
    split_ifs with hobserved hfull
    · exact .inl ⟨rfl, fun id hid => by simp at hid⟩
    · exact .inl ⟨rfl, fun id hid => by simp at hid⟩
    · exact .inr ⟨rfl, not_not.1 hobserved, not_le.1 hfull, rfl⟩

lemma readReply_knows {m : PendingMarker} {answer : LuaReply} {id : StreamId}
    (h : Attempt.Knows ⟨m, m.readReply answer⟩ id) :
    m.observedStreamId = some id ∨ answer = .markerId id ∨ answer = .dedupInvalid (some id) := by
  obtain h | h := h
  · exact .inl h
  · cases answer with
    | markerId i =>
      simp only [PendingMarker.readReply] at h
      split_ifs at h
      · simp at h
      · simp at h
      · exact .inr (.inl (congrArg _ h))
    | dedupInvalid existing =>
      simp only [PendingMarker.readReply] at h
      split_ifs at h with hold
      · exact .inl h
      · obtain ⟨hexisting, -⟩ := Option.filter_eq_some_iff.1 h
        exact .inr (.inr (congrArg _ hexisting))
    | capacityReached => simp [PendingMarker.readReply] at h

/-! ## The updates -/

section Updates

variable {rows : Rows} {m : PendingMarker}

variable {token : Token} {rows' : Rows}

lemma updateRow_cases {guard : Row → Bool} {set : Row → Row} {updated : Option Row}
    (h : updateRow rows token guard set = .ok (updated, rows')) :
    (updated = none ∧ rows' = rows) ∨
    ∃ old, rows.get token = some old ∧ guard old = true ∧ enforceImmutability old (set old) = true ∧
      updated = some (set old) ∧ rows' = rows.replace (set old) := by
  unfold updateRow at h
  split at h
  · obtain ⟨rfl, rfl⟩ := Prod.mk.inj (Except.ok.inj h)
    exact .inl ⟨rfl, rfl⟩
  next old hold =>
    split_ifs at h with hguard himmutable hunique
    · obtain ⟨rfl, rfl⟩ := Prod.mk.inj (Except.ok.inj h)
      exact .inr ⟨old, hold, hguard, himmutable, rfl, rfl⟩
    · obtain ⟨rfl, rfl⟩ := Prod.mk.inj (Except.ok.inj h)
      exact .inl ⟨rfl, rfl⟩

lemma enforceImmutability_keeps {old new : Row} (h : enforceImmutability old new = true) :
    new.token = old.token ∧
      ∀ id, old.observedStreamId = some id → new.observedStreamId = some id := by
  simp only [enforceImmutability, Bool.and_eq_true, Bool.or_eq_true, decide_eq_true_eq] at h
  obtain ⟨⟨⟨htoken, hobserved⟩, -⟩, -⟩ := h
  refine ⟨htoken, fun id hid => ?_⟩
  obtain hnone | hsame := hobserved
  · simp [hnone] at hid
  · rw [hsame, hid]

/-- How a step may change the rows: none, or one row whose identity stays. -/
def Changes (rows rows' : Rows) (token : Token) (P : Row → Row → Prop) : Prop :=
  rows' = rows ∨ ∃ old new, rows.get token = some old ∧ enforceImmutability old new = true ∧
    P old new ∧ rows' = rows.replace new

variable {P : Row → Row → Prop}

lemma Changes.get (h : Changes rows rows' token P) (t : Token) :
    rows'.get t = rows.get t ∨
      t = token ∧ ∃ old new, rows.get token = some old ∧ enforceImmutability old new = true ∧
        P old new ∧ rows'.get token = some new := by
  obtain rfl | ⟨old, new, hold, himmutable, hP, rfl⟩ := h
  · exact .inl rfl
  · have htoken : new.token = token :=
      (enforceImmutability_keeps himmutable).1.trans (Table.get_key hold)
    have hget := Table.get_replace_of_get (r := new) (htoken ▸ hold)
    by_cases ht : t = token
    · refine .inr ⟨ht, old, new, hold, himmutable, hP, ?_⟩
      rw [hget, if_pos htoken.symm]
    · refine .inl ?_
      rw [hget, if_neg (by rwa [htoken])]

lemma Changes.observed (h : Changes rows rows' token P) {t : Token} {b : Row} {id : StreamId}
    (hb : rows.get t = some b) (hid : b.observedStreamId = some id) :
    ∃ b', rows'.get t = some b' ∧ b'.observedStreamId = some id := by
  obtain hsame | ⟨rfl, old, new, hold, himmutable, -, hnew⟩ := h.get t
  · exact ⟨b, hsame.trans hb, hid⟩
  · obtain rfl : b = old := Option.some.inj (hb.symm.trans hold)
    exact ⟨new, hnew, (enforceImmutability_keeps himmutable).2 id hid⟩

lemma storeMarker_cases (m : PendingMarker) (rows : Rows) (id : StreamId) :
    Changes rows (m.storeMarker rows id).1 m.token
        (fun old new => m.isCurrent old = true ∧ new = old.markedAt id) ∧
      ∀ f, (m.storeMarker rows id).2 = some f → f.observedStreamId = some id := by
  unfold PendingMarker.storeMarker
  split
  · exact ⟨.inl rfl, fun f hf => by obtain rfl := Option.some.inj hf; rfl⟩
  next updated rows' hupdate =>
    dsimp only
    have hchange : Changes rows rows' m.token
        (fun old new => m.isCurrent old = true ∧ new = old.markedAt id) := by
      obtain ⟨-, rfl⟩ | ⟨old, hold, hguard, himmutable, -, rfl⟩ := updateRow_cases hupdate
      · exact .inl rfl
      · exact .inr ⟨old, _, hold, himmutable, ⟨hguard, rfl⟩, rfl⟩
    generalize (if updated = none then rows.get m.token else updated) = stored
    split_ifs
    · exact ⟨hchange, fun f hf => absurd hf (by simp)⟩
    · exact ⟨hchange, fun f hf => by obtain rfl := Option.some.inj hf; rfl⟩

lemma updateFailure_cases {quarantined : Bool} {observed : Option StreamId} {updated : Option Row} (h : m.updateFailure rows quarantined observed = .ok (updated, rows')) :
    Changes rows rows' m.token
      (fun old new => m.isCurrent old = true ∧ new = old.failed quarantined observed) := by
  obtain ⟨-, rfl⟩ | ⟨old, hold, hguard, himmutable, -, rfl⟩ := updateRow_cases h
  · exact .inl rfl
  · rw [Bool.and_eq_true] at hguard
    exact .inr ⟨old, _, hold, himmutable, ⟨hguard.1, rfl⟩, rfl⟩

lemma updateFailure_unique {quarantined : Bool} {observed : Option StreamId}
    (h : m.updateFailure rows quarantined observed = .error .uniqueViolation) :
    ∃ old, rows.get m.token = some old ∧
      uniqueObserved rows (old.failed quarantined observed) = false := by
  unfold PendingMarker.updateFailure updateRow at h
  split at h
  · simp at h
  next old hold =>
    split_ifs at h with hguard himmutable hunique
    · exact ⟨old, hold, by simpa using hunique⟩
    · simp at h

lemma Changes.imp {Q : Row → Row → Prop} (h : Changes rows rows' token P)
    (hPQ : ∀ old new, rows.get token = some old → P old new → Q old new) :
    Changes rows rows' token Q := by
  obtain hsame | ⟨old, new, hold, himmutable, hP, hrows⟩ := h
  · exact .inl hsame
  · exact .inr ⟨old, new, hold, himmutable, hPQ old new hold hP, hrows⟩

lemma recordFailure_cases (m : PendingMarker) (rows : Rows) (f : Failure) :
    Changes rows (m.recordFailure rows f) m.token (fun old new => m.isCurrent old = true ∧
      (new = old.failed (m.quarantines f) (m.observedWith f) ∨
        new = old.failed (m.quarantines f) none ∧
          uniqueObserved rows (old.failed (m.quarantines f) (m.observedWith f)) = false)) := by
  unfold PendingMarker.recordFailure
  split
  · exact .inl rfl
  · split
    next hupdate => exact (updateFailure_cases hupdate).imp fun _ _ _ h => ⟨h.1, .inl h.2⟩
    next hunique =>
      obtain ⟨old, hold, hnot⟩ := updateFailure_unique hunique
      split
      · split
        next hupdate =>
          refine (updateFailure_cases hupdate).imp fun old' new hold' h => ⟨h.1, .inr ⟨h.2, ?_⟩⟩
          obtain rfl : old = old' := Option.some.inj (hold.symm.trans hold')
          exact hnot
        · exact .inl rfl
      · exact .inl rfl
    · exact .inl rfl

end Updates

/-! ## The steps -/

section Steps

variable {s s' : State}

lemma Ok.setInflight (h : Ok s) {inflight : List Attempt}
    (hatt : ∀ att ∈ inflight, ∀ id, att.Knows id →
      s.redis.dedup.lookup att.marker.token = some id) :
    Ok { s with inflight := inflight } :=
  { h with attempts := hatt }

lemma Ok.eraseIdx (h : Ok s) (k : ℕ) : Ok { s with inflight := s.inflight.eraseIdx k } :=
  h.setInflight fun att hatt => h.attempts att (List.eraseIdx_subset hatt)

lemma Ok.setPhase (h : Ok s) (k : ℕ) (att : Attempt) {phase : Phase}
    (hphase : ∀ id, Attempt.Knows ⟨att.marker, phase⟩ id →
      s.redis.dedup.lookup att.marker.token = some id) :
    Ok { s with inflight := s.setPhase k att phase } := by
  refine h.setInflight fun x hx => ?_
  obtain hx | rfl := List.mem_or_eq_of_mem_set hx
  · exact h.attempts x hx
  · exact hphase

lemma Ok.setRows (h : Ok s) {rows : Rows}
    (hrows : ∀ token b, rows.get token = some b → RowOk (s.redis.dedup.lookup token) b) :
    Ok { s with rows := rows } :=
  { h with rows := hrows }

variable {token : Token}

lemma Ok.changes (h : Ok s) {rows : Rows} {P : Row → Row → Prop}
    (hchange : Changes s.rows rows token P)
    (hnew : ∀ old new, RowOk (s.redis.dedup.lookup token) old → P old new →
      RowOk (s.redis.dedup.lookup token) new) : Ok { s with rows := rows } := by
  refine h.setRows fun t b hb => ?_
  obtain hsame | ⟨rfl, old, new, hold, -, hP, hget⟩ := hchange.get t
  · exact h.rows t b (hsame ▸ hb)
  · obtain rfl : new = b := Option.some.inj (hget.symm.trans hb)
    exact hnew old new (h.rows t old hold) hP

variable {b : Row} {id fresh : StreamId}

lemma RowOk.markedAt {known : Option StreamId} (hid : known = some id) :
    RowOk known (b.markedAt id) where
  observed i hi := by
    obtain rfl := Option.some.inj hi
    exact hid
  marker i hi := hi
  published _ := ⟨id, rfl⟩

lemma RowOk.failed {known : Option StreamId} (h : RowOk known b) (quarantined : Bool)
    {observed : Option StreamId} (hobserved : ∀ id, observed = some id → known = some id) :
    RowOk known (b.failed quarantined observed) where
  observed i hi := by
    simp only [Row.failed] at hi
    split_ifs at hi
    · exact h.observed i hi
    · exact hobserved i hi
  marker i hi := by
    have hold := h.marker i hi
    simp [Row.failed, hold]
  published hstate := by
    simp only [Row.failed] at hstate
    split_ifs at hstate

lemma sorted_append {r : Redis} (h : r.log.Pairwise fun e e' => e.id < e'.id) {e : Entry}
    (he : r.canAppend e.id = true) : (r.log ++ [e]).Pairwise fun e e' => e.id < e'.id := by
  simp only [Redis.canAppend, Bool.and_eq_true, decide_eq_true_eq] at he
  refine List.pairwise_append.2 ⟨h, List.pairwise_singleton _ _, fun x hx y hy => ?_⟩
  obtain rfl := List.mem_singleton.1 hy
  have hle : x.id ≤ r.lastId := List.le_foldl_max (List.mem_map_of_mem hx) _
  exact hle.trans_lt he.1

lemma Ok.append (h : Ok s) {e : Entry} (he : s.redis.canAppend e.id = true)
    (hcontent : ∀ token, e.content ≠ .marker token) : Ok { s with redis := s.redis.append e } := by
  refine ⟨sorted_append h.sorted he, fun token id => ?_, h.rows, h.attempts⟩
  show s.redis.dedup.lookup token = some id ↔ _ ∈ s.redis.log ++ [e]
  rw [h.dedup, List.mem_append, List.mem_singleton]
  refine (or_iff_left fun heq => hcontent token ?_).symm
  rw [← heq]

lemma Ok.appendMarker (h : Ok s)
    (hnone : s.redis.dedup.lookup token = none) (hfresh : s.redis.canAppend fresh = true) :
    Ok { s with redis := { s.redis.append ⟨fresh, .marker token⟩ with
      dedup := (token, fresh) :: s.redis.dedup } } := by
  have hknown : ∀ t id, s.redis.dedup.lookup t = some id →
      ((token, fresh) :: s.redis.dedup).lookup t = some id := by
    intro t id hid
    have hne : t ≠ token := by
      rintro rfl
      simp [hnone] at hid
    rw [List.lookup_cons, beq_false_of_ne hne]
    exact hid
  refine ⟨sorted_append (e := ⟨fresh, .marker token⟩) h.sorted hfresh, fun t id => ?_,
    fun t b hb => (h.rows t b hb).mono (hknown t),
    fun att hatt id hid => hknown _ id (h.attempts att hatt id hid)⟩
  show ((token, fresh) :: s.redis.dedup).lookup t = some id ↔
    (⟨id, .marker t⟩ : Entry) ∈ s.redis.log ++ [⟨fresh, .marker token⟩]
  rw [List.lookup_cons, List.mem_append, List.mem_singleton, ← h.dedup]
  by_cases ht : t = token
  · subst ht
    simp [hnone, eq_comm]
  · rw [beq_false_of_ne ht]
    simp [ht]

lemma lua_ok (h : Ok s) {m : PendingMarker}
    (hobserved : ∀ id, m.observedStreamId = some id → s.redis.dedup.lookup m.token = some id)
    (hfresh : s.redis.canAppend fresh = true) {answer : LuaReply} {r : Redis}
    (hlua : boundaryMarkerLua s.redis m.token m.observedStreamId fresh = (answer, r)) :
    Ok { s with redis := r } ∧
      ∀ id, m.observedStreamId = some id ∨ answer = .markerId id ∨
        answer = .dedupInvalid (some id) → r.dedup.lookup m.token = some id := by
  have hcases := lua_cases s.redis m.token m.observedStreamId fresh
  rw [hlua] at hcases
  obtain ⟨rfl, hknown⟩ | ⟨hnone, hnew, -, heq⟩ := hcases
  · exact ⟨h, fun id hid => hid.elim (hobserved id) (hknown id)⟩
  · obtain ⟨rfl, rfl⟩ := Prod.mk.inj heq
    refine ⟨h.appendMarker hnone hfresh, fun id hid => ?_⟩
    obtain hid | hid | hid := hid
    · simp [hnew] at hid
    · obtain rfl := LuaReply.markerId.inj hid
      simp
    · simp at hid

variable {k : ℕ}

lemma evaluate_ok (h : Ok s) {m : PendingMarker} {reply : Reply}
    (hk : s.inflight[k]? = some ⟨m, .evaluate⟩)
    (hst : evaluateStep s k ⟨m, .evaluate⟩ fresh reply = some s') : Ok s' := by
  have hobserved : ∀ id, m.observedStreamId = some id → s.redis.dedup.lookup m.token = some id :=
    fun id hid => h.attempts _ (List.mem_of_getElem? hk) id (.inl hid)
  unfold evaluateStep at hst
  split_ifs at hst with hfresh
  obtain ⟨hok, hknown⟩ := lua_ok h hobserved hfresh.1 rfl
  -- an attempt whose reply is lost knows no more than before
  have hfailure : ∀ id, Attempt.Knows ⟨m, PendingMarker.redisFailure⟩ id →
      m.observedStreamId = some id :=
    fun id hid => hid.resolve_right (by simp [PendingMarker.redisFailure])
  cases reply with
  | done =>
    obtain rfl := Option.some.inj hst
    exact hok.setPhase k ⟨m, .evaluate⟩ fun id hid => hknown id (readReply_knows hid)
  | lost =>
    obtain rfl := Option.some.inj hst
    exact hok.setPhase k ⟨m, .evaluate⟩ fun id hid => hknown id (.inl (hfailure id hid))
  | failed =>
    obtain rfl := Option.some.inj hst
    exact h.setPhase k ⟨m, .evaluate⟩ fun id hid => hobserved id (hfailure id hid)

lemma store_ok (h : Ok s) {m : PendingMarker} (reply : Reply)
    (hk : s.inflight[k]? = some ⟨m, .store id⟩) : Ok (storeStep s k ⟨m, .store id⟩ id reply) := by
  have hknown := h.attempts _ (List.mem_of_getElem? hk)
  have hid : s.redis.dedup.lookup m.token = some id := hknown id (.inr rfl)
  obtain ⟨hchange, hfailure⟩ := storeMarker_cases m s.rows id
  have hrows : Ok { s with rows := (m.storeMarker s.rows id).1 } := by
    refine h.changes hchange fun old new _ hnew => ?_
    rw [hnew.2]
    exact .markedAt hid
  have hphase : ∀ f : Failure, f.observedStreamId = some id → ∀ i, Attempt.Knows ⟨m, .fail f⟩ i →
      s.redis.dedup.lookup m.token = some i := by
    intro f hf i hi
    obtain hi | hi := hi
    · exact hknown i (.inl hi)
    · rw [hid]
      exact hf.symm.trans hi
  unfold storeStep
  dsimp only
  cases reply with
  | done =>
    dsimp only
    split
    · exact hrows.eraseIdx k
    next f hf => exact hrows.setPhase k ⟨m, .store id⟩ (hphase f (hfailure f hf))
  | lost => exact hrows.setPhase k ⟨m, .store id⟩ (hphase _ rfl)
  | failed => exact h.setPhase k ⟨m, .store id⟩ (hphase _ rfl)

lemma Ok.observedWith (h : Ok s) {m : PendingMarker} {f : Failure}
    (hk : s.inflight[k]? = some ⟨m, .fail f⟩) (hid : m.observedWith f = some id) :
    s.redis.dedup.lookup m.token = some id := by
  have hknown := h.attempts _ (List.mem_of_getElem? hk)
  unfold PendingMarker.observedWith at hid
  split_ifs at hid
  · exact hknown id (.inr hid)
  · exact hknown id (.inl hid)

lemma recordFailure_ok (h : Ok s) {m : PendingMarker} {f : Failure}
    (hk : s.inflight[k]? = some ⟨m, .fail f⟩) :
    Ok { s with rows := m.recordFailure s.rows f } := by
  refine h.changes (recordFailure_cases m s.rows f) fun old new hold hnew => ?_
  obtain ⟨-, rfl | ⟨rfl, -⟩⟩ := hnew
  · exact hold.failed _ fun id hid => h.observedWith hk hid
  · exact hold.failed _ fun id hid => absurd hid (by simp)

theorem Ok.next (h : Ok s) {a : Act} (hst : step s a = some s') : Ok s' := by
  cases a with
  | request token =>
    obtain ⟨rows, hrows, rfl⟩ := Option.map_eq_some_iff.1 hst
    refine h.setRows fun t b hb => ?_
    rw [Table.get_insert hrows] at hb
    split_ifs at hb
    · obtain rfl := Option.some.inj hb
      exact .fresh _ _
    · exact h.rows t b hb
  | append e =>
    simp only [step] at hst
    split at hst
    · simp at hst
    next hcontent =>
      split_ifs at hst with hcan
      obtain rfl := Option.some.inj hst
      exact h.append hcan hcontent
  | remove id =>
    simp only [step] at hst
    split_ifs at hst
    obtain rfl := Option.some.inj hst
    exact { h with }
  | claim token =>
    simp only [step] at hst
    split at hst
    · simp at hst
    next b hb =>
      split_ifs at hst with hpending
      obtain ⟨m, hm, rfl⟩ := Option.map_eq_some_iff.1 hst
      refine h.setInflight fun att hatt id hid => ?_
      obtain hatt | hatt := List.mem_append.1 hatt
      · exact h.attempts att hatt id hid
      · -- the attempt knows what the row has observed
        obtain rfl := List.mem_singleton.1 hatt
        unfold pendingBoundaryMarker at hm
        split_ifs at hm
        obtain rfl := Option.some.inj hm
        have hobserved : b.observedStreamId = some id := hid.resolve_right fun h => h
        show s.redis.dedup.lookup b.token = some id
        rw [Table.get_key hb]
        exact (h.rows token b hb).observed id hobserved
  | evaluate k fresh reply =>
    simp only [step] at hst
    split at hst
    next hk => exact evaluate_ok h hk hst
    · simp at hst
  | store k reply =>
    simp only [step] at hst
    split at hst
    next hk =>
      obtain rfl := Option.some.inj hst
      exact store_ok h reply hk
    · simp at hst
  | recordFailure k reply =>
    simp only [step] at hst
    split at hst
    next hk =>
      obtain rfl := Option.some.inj hst
      split_ifs
      · exact h.eraseIdx k
      · exact (recordFailure_ok h hk).eraseIdx k
    · simp at hst
  | drop k =>
    obtain rfl := Option.some.inj hst
    exact h.eraseIdx k

theorem observed_kept {a : Act} (hst : step s a = some s')
    (hb : s.rows.get token = some b) (hid : b.observedStreamId = some id) :
    ∃ b', s'.rows.get token = some b' ∧ b'.observedStreamId = some id := by
  cases a with
  | request t =>
    obtain ⟨rows, hrows, rfl⟩ := Option.map_eq_some_iff.1 hst
    refine ⟨b, ?_, hid⟩
    have hnew := Table.get_of_insert hrows
    rw [Table.get_insert hrows]
    split_ifs with ht
    · rw [← ht, hb] at hnew
      simp at hnew
    · exact hb
  | append e =>
    simp only [step] at hst
    split at hst
    · simp at hst
    · split_ifs at hst
      obtain rfl := Option.some.inj hst
      exact ⟨b, hb, hid⟩
  | remove i =>
    simp only [step] at hst
    split_ifs at hst
    obtain rfl := Option.some.inj hst
    exact ⟨b, hb, hid⟩
  | claim t =>
    simp only [step] at hst
    split at hst
    · simp at hst
    · split_ifs at hst
      obtain ⟨m, -, rfl⟩ := Option.map_eq_some_iff.1 hst
      exact ⟨b, hb, hid⟩
  | evaluate k fresh reply =>
    simp only [step] at hst
    split at hst
    · unfold evaluateStep at hst
      split_ifs at hst
      cases reply <;> obtain rfl := Option.some.inj hst <;> exact ⟨b, hb, hid⟩
    · simp at hst
  | store k reply =>
    simp only [step] at hst
    split at hst
    next m i _ =>
      obtain rfl := Option.some.inj hst
      have hkept := (storeMarker_cases m s.rows i).1.observed hb hid
      unfold storeStep
      dsimp only
      cases reply with
      | done =>
        dsimp only
        split <;> exact hkept
      | lost => exact hkept
      | failed => exact ⟨b, hb, hid⟩
    · simp at hst
  | recordFailure k reply =>
    simp only [step] at hst
    split at hst
    next m f _ =>
      obtain rfl := Option.some.inj hst
      dsimp only
      split_ifs
      · exact ⟨b, hb, hid⟩
      · exact (recordFailure_cases m s.rows f).observed hb hid
    · simp at hst
  | drop k =>
    obtain rfl := Option.some.inj hst
    exact ⟨b, hb, hid⟩

end Steps

/-! ## The main result -/

theorem reach_ok {s : State} (h : machine.Reach s) : Ok s := by
  refine h.induct ?_ fun s a s' _ hok hst => hok.next hst
  refine ⟨List.Pairwise.nil, fun token id => ?_, fun token b hb => ?_, fun att hatt => ?_⟩
  · simp [machine, initial]
  · simp [machine, initial, Table.empty, Table.get] at hb
  · simp [machine, initial] at hatt

theorem observed_kept_path {s s' : State} (h : machine.Path s s') {token : Token} {b : Row}
    {id : StreamId} (hb : s.rows.get token = some b) (hid : b.observedStreamId = some id) :
    ∃ b', s'.rows.get token = some b' ∧ b'.observedStreamId = some id := by
  induction h with
  | refl => exact ⟨b, hb, hid⟩
  | tail _ hst ih =>
    obtain ⟨a, ha⟩ := hst
    obtain ⟨b', hb', hid'⟩ := ih
    exact observed_kept ha hb' hid'

/-- **Exactly-once publication**: in every reachable state at most one stream entry carries a token;
a published row records the ID of the entry with its token; and the ID that a row has observed is
the same in all later states. -/
theorem marker_published_once {s : State} (h : machine.Reach s) (token : Token) :
    (∀ e ∈ s.redis.log, ∀ e' ∈ s.redis.log, e.content = .marker token →
      e'.content = .marker token → e = e') ∧
    (∀ b, s.rows.get token = some b → b.state = .published →
      ∃ e ∈ s.redis.log, e.content = .marker token ∧ b.markerStreamId = some e.id) ∧
    ∀ b id, s.rows.get token = some b → b.observedStreamId = some id →
      ∀ s', machine.Path s s' →
        ∃ b', s'.rows.get token = some b' ∧ b'.observedStreamId = some id := by
  have hok := reach_ok h
  refine ⟨fun e he e' he' hc hc' => ?_, fun b hb hpublished => ?_, fun b id hb hid s' hpath => ?_⟩
  · have hfirst := (hok.dedup token e.id).2 (hc ▸ he)
    have hsecond := (hok.dedup token e'.id).2 (hc' ▸ he')
    exact List.eq_of_key_eq hok.sorted he he' (Option.some.inj (hfirst.symm.trans hsecond))
  · have hrow := hok.rows token b hb
    obtain ⟨id, hid⟩ := hrow.published hpublished
    have hknown := hrow.observed id (hrow.marker id hid)
    exact ⟨⟨id, .marker token⟩, (hok.dedup token id).1 hknown, rfl, hid⟩
  · exact observed_kept_path hpath hb hid

/-- The reply of the script is lost; the retry finds the entry, PostgreSQL fails once, and the third
attempt publishes the row. -/
def healedRun : List Act :=
  [.request "b", .claim "b", .evaluate 0 (toLex (5, 0)) .lost, .recordFailure 0 .done, .claim "b",
    .evaluate 0 (toLex (6, 0)) .done, .store 0 .failed, .recordFailure 0 .done, .claim "b",
    .evaluate 0 (toLex (7, 0)) .done, .store 0 .done]

/-- After that run one entry carries the token, the row is published with its ID, and every later
state keeps it. -/
theorem marker_published_once_healedRun :
    ∃ s b, machine.run machine.init healedRun = some s ∧
      s.redis.log = [⟨toLex (5, 0), .marker "b"⟩] ∧ s.rows.get "b" = some b ∧
      b = ⟨"b", .published, 2, some (toLex (5, 0)), some (toLex (5, 0))⟩ ∧
      (∃ e ∈ s.redis.log, e.content = .marker "b" ∧ b.markerStreamId = some e.id) ∧
      ∀ s', machine.Path s s' →
        ∃ b', s'.rows.get "b" = some b' ∧ b'.observedStreamId = some (toLex (5, 0)) := by
  have hrun : (machine.run machine.init healedRun).map
      (fun s => (s.redis.log, s.rows.get "b")) =
      some ([⟨toLex (5, 0), .marker "b"⟩],
        some ⟨"b", .published, 2, some (toLex (5, 0)), some (toLex (5, 0))⟩) := by
    decide +kernel
  obtain ⟨s, hs, hstores⟩ := Option.map_eq_some_iff.1 hrun
  obtain ⟨hlog, hrow⟩ := Prod.mk.inj hstores
  obtain ⟨-, hpublished, hkept⟩ := marker_published_once (StepMachine.reach_of_run hs) "b"
  exact ⟨s, _, hs, hlog, hrow, rfl, hpublished _ hrow rfl, hkept _ _ hrow rfl⟩

end Apdl.Pipeline.Marker
