import Apdl.Lib.Extremum
import Apdl.Pipeline.Frontier.Model

set_option autoImplicit false

/-!
# What the stores keep

The invariant of the three stores, and the changes that every step of the pipeline makes to them.

## Main results

* `World.setPg_ok`, `World.setRedis_ok`, `World.append_ok`, `World.insertRows_ok` — the four kinds
  of change keep the invariant.

## Design

The frontier is sound because a delivered entry that is not pending is done (`Ok.delivered`): when
the group has no pending entry, all entries up to its head are done.
-/

namespace Apdl.Pipeline

namespace World

/-- The authority row is degraded. -/
def Degraded (w : World) : Prop := ∃ r, w.pg.watermark = some r ∧ r.status = .degraded

/-- The entry is in ClickHouse or is a published boundary marker of the project. -/
def Kept (w : World) (e : Entry) : Prop :=
  e.id ∈ w.inserted ∨ ∃ t, e.content = .marker t ∧ w.pg.published t e.id

/-- The entry is kept unless the authority is degraded. -/
def Done (w : World) (e : Entry) : Prop := w.Degraded ∨ w.Kept e

/-- The entries up to an ID are done. -/
def Covered (w : World) (c : StreamId) : Prop := ∀ e ∈ w.redis.log, e.id ≤ c → w.Done e

/-- The entry with the ID is done. -/
def Settled (w : World) (id : StreamId) : Prop := ∀ e ∈ w.redis.log, e.id = id → w.Done e

end World

/-- The last delivered ID of the group. -/
def Redis.head (r : Redis) : StreamId :=
  match r.group with
  | none => .zero
  | some g => g.lastDelivered

/-- The pending entries of the group. -/
def Redis.pending (r : Redis) : List StreamId :=
  match r.group with
  | none => []
  | some g => g.pending

lemma le_of_lt_nextStreamId {id h : StreamId} (hseq : (ofLex id).2 < sequenceLimit)
    (hlt : id < nextStreamId h) : id ≤ h := by
  rw [Prod.Lex.le_iff]
  simp only [nextStreamId] at hlt
  split at hlt <;> rw [Prod.Lex.lt_iff] at hlt <;> simp only [ofLex_toLex] at hlt <;> omega

lemma StreamId.zero_le (id : StreamId) : StreamId.zero ≤ id := by
  rw [Prod.Lex.le_iff]
  simp only [StreamId.zero, ofLex_toLex]
  omega

/-! ## The invariant -/

namespace World

/-- The invariant of the stores. -/
structure Ok (w : World) : Prop where
  sorted : w.redis.log.Pairwise fun e e' => e.id < e'.id
  positive : ∀ e ∈ w.redis.log, StreamId.zero < e.id
  sequence : ∀ e ∈ w.redis.log, (ofLex e.id).2 < sequenceLimit
  head_le : w.redis.head ≤ w.redis.lastId
  pending_le : ∀ id ∈ w.redis.pending, id ≤ w.redis.head
  pending_kept : ∀ id ∈ w.redis.pending, id ∉ w.redis.deleted
  deleted_le : ∀ id ∈ w.redis.deleted, id ≤ w.redis.head
  delivered : ∀ e ∈ w.redis.log, e.id ≤ w.redis.head → e.id ∈ w.redis.pending ∨ w.Done e
  frontier : ∀ r, w.pg.watermark = some r → r.contiguous ≤ w.redis.head ∧ w.Covered r.contiguous

/-- The stores grow: new entries come after the head, and what is done stays done. -/
structure Grows (w w' : World) : Prop where
  log : ∃ new, w'.redis.log = w.redis.log ++ new ∧ ∀ e ∈ new, w.redis.head < e.id
  degraded : w.Degraded → w'.Degraded
  kept : ∀ e, w.Kept e → w'.Kept e
  head : w.redis.head ≤ w'.redis.head
  pending : ∀ id ∈ w'.redis.pending, id ∈ w.redis.pending ∨ w.redis.head < id

variable {w w' : World} {e : Entry}

lemma Grows.done (h : w.Grows w') (he : w.Done e) : w'.Done e :=
  he.imp h.degraded (h.kept e)

lemma Grows.mem_log (h : w.Grows w') (he : e ∈ w.redis.log) :
    e ∈ w'.redis.log := by
  obtain ⟨new, hlog, -⟩ := h.log
  rw [hlog]
  exact List.mem_append_left new he

lemma Grows.mem_log_of_le (h : w.Grows w') (he : e ∈ w'.redis.log)
    (hle : e.id ≤ w.redis.head) : e ∈ w.redis.log := by
  obtain ⟨new, hlog, hnew⟩ := h.log
  rw [hlog] at he
  rcases List.mem_append.1 he with he | he
  · exact he
  · exact absurd (hnew e he) (not_lt.2 hle)

lemma Grows.covered (h : w.Grows w') {c : StreamId} (hc : c ≤ w.redis.head)
    (hcov : w.Covered c) : w'.Covered c :=
  fun e he hle => h.done (hcov e (h.mem_log_of_le he (hle.trans hc)) hle)

lemma Grows.settled (h : w.Grows w') {id : StreamId} (hid : id ≤ w.redis.head)
    (hset : w.Settled id) : w'.Settled id :=
  fun e he heq => h.done (hset e (h.mem_log_of_le he (heq.trans_le hid)) heq)

lemma Degraded.settled (h : w.Degraded) (id : StreamId) : w.Settled id :=
  fun _ _ _ => .inl h

lemma Grows.refl (w : World) : w.Grows w where
  log := ⟨[], (List.append_nil _).symm, fun _ he => absurd he List.not_mem_nil⟩
  degraded := id
  kept _ := id
  head := le_rfl
  pending _ := .inl

/-! ## Changes of PostgreSQL -/

@[simp] lemma setPg_redis (w : World) (p : Postgres) : (w.setPg p).redis = w.redis := rfl

@[simp] lemma setPg_inserted (w : World) (p : Postgres) : (w.setPg p).inserted = w.inserted := rfl

@[simp] lemma setPg_pg (w : World) (p : Postgres) : (w.setPg p).pg = p := rfl

lemma setPg_ok (hw : w.Ok) {p : Postgres} (hpub : ∀ t id, w.pg.published t id → p.published t id)
    (hdeg : w.Degraded → (w.setPg p).Degraded)
    (hfront : ∀ r, p.watermark = some r → r.contiguous ≤ w.redis.head ∧ w.Covered r.contiguous) :
    w.Grows (w.setPg p) ∧ (w.setPg p).Ok := by
  have hkept : ∀ e, w.Kept e → (w.setPg p).Kept e := fun e he =>
    he.imp id fun ⟨t, ht, h⟩ => ⟨t, ht, hpub t e.id h⟩
  have hgrows : w.Grows (w.setPg p) :=
    { Grows.refl w with degraded := hdeg, kept := hkept }
  refine ⟨hgrows, { hw with delivered := ?_, frontier := ?_ }⟩
  · intro e he hle
    exact (hw.delivered e he hle).imp id hgrows.done
  · intro r hr
    obtain ⟨hle, hcov⟩ := hfront r hr
    exact ⟨hle, hgrows.covered hle hcov⟩

lemma degrade_degraded (w : World) : (w.setPg w.pg.degrade).Degraded := by
  cases h : w.pg.watermark with
  | none => exact ⟨⟨.zero, 0, .degraded⟩, by simp [Postgres.degrade, h], rfl⟩
  | some r => exact ⟨{ r with status := .degraded }, by simp [Postgres.degrade, h], rfl⟩

lemma Ok.covered_zero (hw : w.Ok) : w.Covered .zero :=
  fun e he hle => absurd (hw.positive e he) (not_lt.2 hle)

lemma degrade_ok (hw : w.Ok) :
    w.Grows (w.setPg w.pg.degrade) ∧ (w.setPg w.pg.degrade).Ok := by
  refine setPg_ok hw (fun _ _ h => h) (fun _ => w.degrade_degraded) ?_
  intro r hr
  cases h : w.pg.watermark with
  | none =>
    obtain rfl : r = _ := by simpa [Postgres.degrade, h] using hr.symm
    exact ⟨StreamId.zero_le _, hw.covered_zero⟩
  | some r₀ =>
    obtain rfl : r = _ := by simpa [Postgres.degrade, h] using hr.symm
    exact hw.frontier r₀ h


lemma advance_contiguous (r : Watermark) (finalized : List StreamId) (candidate : StreamId)
    (entriesRead : ℕ) :
    (r.advance finalized candidate entriesRead).contiguous = r.contiguous ∨
      (r.advance finalized candidate entriesRead).contiguous = candidate := by
  unfold Watermark.advance
  split_ifs
  · exact .inl rfl
  · dsimp only
    split_ifs
    · exact .inl rfl
    · exact .inr rfl
    · exact .inl rfl

lemma advance_degraded {r : Watermark} (h : r.status = .degraded) (finalized : List StreamId)
    (candidate : StreamId) (entriesRead : ℕ) : r.advance finalized candidate entriesRead = r := by
  rw [Watermark.advance, if_pos h]

lemma advance_ok (hw : w.Ok) {r : Watermark} (hr : w.pg.watermark = some r)
    {candidate : StreamId} (hle : candidate ≤ w.redis.head) (hcov : w.Covered candidate)
    (finalized : List StreamId) (entriesRead : ℕ) :
    let p := { w.pg with watermark := some (r.advance finalized candidate entriesRead) }
    w.Grows (w.setPg p) ∧ (w.setPg p).Ok := by
  intro p
  refine setPg_ok hw (fun _ _ h => h) ?_ ?_
  · rintro ⟨r', hr', hstatus⟩
    obtain rfl : r = r' := Option.some.inj (hr.symm.trans hr')
    exact ⟨r, congrArg some (advance_degraded hstatus finalized candidate entriesRead), hstatus⟩
  · intro r' hr'
    obtain rfl : r.advance finalized candidate entriesRead = r' := Option.some.inj hr'
    rcases advance_contiguous r finalized candidate entriesRead with h | h
    · rw [h]
      exact hw.frontier r hr
    · rw [h]
      exact ⟨hle, hcov⟩

lemma initializeAuthority_ok (hw : w.Ok) (o : Observed) (maxDeleted : StreamId) :
    w.Grows (w.setPg (initializeAuthority w.pg o maxDeleted)) ∧
      (w.setPg (initializeAuthority w.pg o maxDeleted)).Ok := by
  cases h : w.pg.watermark with
  | none =>
    refine setPg_ok hw (fun _ _ hp => ?_) ?_ ?_
    · simpa [initializeAuthority, h, Postgres.published] using hp
    · rintro ⟨r, hr, -⟩
      exact absurd (h.symm.trans hr) (by simp)
    · intro r hr
      obtain rfl : r = _ := by simpa [initializeAuthority, h] using hr.symm
      exact ⟨StreamId.zero_le _, hw.covered_zero⟩
  | some r =>
    have hsame : w.Grows (w.setPg w.pg) ∧ (w.setPg w.pg).Ok := ⟨Grows.refl w, hw⟩
    simp only [initializeAuthority, h]
    split_ifs
    · exact degrade_ok hw
    · exact degrade_ok hw
    · exact hsame

lemma requestBoundary_ok (hw : w.Ok) (b : Boundary) :
    let p := { w.pg with boundaries := w.pg.boundaries ++ [b] }
    w.Grows (w.setPg p) ∧ (w.setPg p).Ok :=
  setPg_ok hw (fun _ _ h => List.mem_append_left [b] h) (fun h => h) hw.frontier

lemma setMarker_ok (hw : w.Ok) (token : Token) (state : MarkerState) :
    w.Grows (w.setPg (w.pg.setMarker token state)) ∧ (w.setPg (w.pg.setMarker token state)).Ok := by
  refine setPg_ok hw (fun t id h => ?_) (fun h => h) hw.frontier
  -- a published row is not pending, so it is not rewritten
  refine List.mem_map.2 ⟨⟨t, .published id⟩, h, ?_⟩
  simp

lemma insertRows_ok (hw : w.Ok) (batch : List Buffered) :
    w.Grows (w.insertRows batch) ∧ (w.insertRows batch).Ok := by
  have hgrows : w.Grows (w.insertRows batch) :=
    { Grows.refl w with
      degraded := fun h => h
      kept := fun e he => he.imp (fun h => List.mem_append_left _ h) fun h => h }
  refine ⟨hgrows, { hw with delivered := ?_, frontier := ?_ }⟩
  · intro e he hle
    exact (hw.delivered e he hle).imp id hgrows.done
  · intro r hr
    obtain ⟨hle, hcov⟩ := hw.frontier r hr
    exact ⟨hle, hgrows.covered hle hcov⟩

lemma insertRows_settled (w : World) {batch : List Buffered} {b : Buffered} (hb : b ∈ batch)
    (hrow : b.row = true) : (w.insertRows batch).Settled b.id := by
  intro e _ heq
  refine .inr (.inl (List.mem_append_right _ (List.mem_map.2 ⟨b, ?_, heq.symm⟩)))
  exact List.mem_filter.2 ⟨hb, hrow⟩

/-! ## Changes of Redis -/


lemma append_ok (hw : w.Ok) (he : w.redis.canAppend e.id = true) (dedup : List (Token × StreamId)) :
    let r := { w.redis.append e with dedup := dedup }
    w.Grows (w.setRedis r) ∧ (w.setRedis r).Ok := by
  intro r
  simp only [Redis.canAppend, Bool.and_eq_true, decide_eq_true_eq] at he
  obtain ⟨hlast, hseq⟩ := he
  have hlog : ∀ x ∈ w.redis.log, x.id < e.id := fun x hx =>
    (List.le_foldl_max (List.mem_map_of_mem hx) _).trans_lt hlast
  have hhead : w.redis.head < e.id := hw.head_le.trans_lt hlast
  have hgrows : w.Grows (w.setRedis r) :=
    { Grows.refl w with log := ⟨[e], rfl, fun x hx => List.mem_singleton.1 hx ▸ hhead⟩ }
  -- facts of the old entries and of the new one, which lies ahead of the head
  have hall : ∀ {P : Entry → Prop}, (∀ x ∈ w.redis.log, P x) → P e →
      ∀ x ∈ (w.setRedis r).redis.log, P x := by
    intro P hold hnew x hx
    rcases List.mem_append.1 hx with hx | hx
    · exact hold x hx
    · exact List.mem_singleton.1 hx ▸ hnew
  refine ⟨hgrows, ?_, ?_, ?_, ?_, hw.pending_le, hw.pending_kept, hw.deleted_le, ?_, ?_⟩
  · refine List.pairwise_append.2 ⟨hw.sorted, List.pairwise_singleton _ _, ?_⟩
    intro x hx y hy
    exact List.mem_singleton.1 hy ▸ hlog x hx
  · exact hall hw.positive ((StreamId.zero_le _).trans_lt hhead)
  · exact hall hw.sequence hseq
  · refine hw.head_le.trans (hlast.le.trans ?_)
    exact List.le_foldl_max (List.mem_map_of_mem (List.mem_append_right _ List.mem_cons_self)) _
  · exact hall (fun x hx hle => (hw.delivered x hx hle).imp id hgrows.done)
      fun hle => absurd hhead (not_lt.2 hle)
  · intro r' hr'
    obtain ⟨hle, hcov⟩ := hw.frontier r' hr'
    exact ⟨hle, hgrows.covered hle hcov⟩

lemma setRedis_ok (hw : w.Ok) {r : Redis} (hlog : r.log = w.redis.log)
    (hmono : w.redis.head ≤ r.head) (hlast : r.head ≤ w.redis.lastId)
    (hnew : ∀ id ∈ r.pending, id ∈ w.redis.pending ∨ w.redis.head < id)
    (hpending : ∀ id ∈ r.pending, id ≤ r.head ∧ id ∉ r.deleted)
    (hdeleted : ∀ id ∈ r.deleted, id ≤ r.head)
    (hdelivered : ∀ e ∈ w.redis.log, e.id ≤ r.head → e.id ∈ r.pending ∨ w.Done e) :
    w.Grows (w.setRedis r) ∧ (w.setRedis r).Ok := by
  have hgrows : w.Grows (w.setRedis r) :=
    { log := ⟨[], by simpa [setRedis] using hlog, fun _ he => absurd he List.not_mem_nil⟩
      degraded := id
      kept := fun _ => id
      head := hmono
      pending := hnew }
  have hall : ∀ {P : Entry → Prop}, (∀ x ∈ w.redis.log, P x) →
      ∀ x ∈ (w.setRedis r).redis.log, P x := fun {P} h x hx => h x (hlog ▸ hx)
  refine ⟨hgrows, ?_, hall hw.positive, hall hw.sequence, ?_, fun id h => (hpending id h).1,
    fun id h => (hpending id h).2, hdeleted, ?_, ?_⟩
  · change r.log.Pairwise _
    rw [hlog]
    exact hw.sorted
  · change r.head ≤ r.lastId
    rwa [Redis.lastId, hlog]
  · exact hall fun e he hle => (hdelivered e he hle).imp id hgrows.done
  · intro r' hr'
    obtain ⟨hle, hcov⟩ := hw.frontier r' hr'
    exact ⟨hle.trans hmono, hgrows.covered hle hcov⟩

lemma createGroup_ok (hw : w.Ok) (hg : w.redis.group = none) :
    let r := { w.redis with group := some ⟨.zero, 0, []⟩ }
    w.Grows (w.setRedis r) ∧ (w.setRedis r).Ok := by
  intro r
  have hhead : w.redis.head = .zero := by simp [Redis.head, hg]
  have hnone : ∀ {P : StreamId → Prop}, ∀ id ∈ r.pending, P id :=
    fun id h => absurd h List.not_mem_nil
  refine setRedis_ok hw rfl hhead.le (StreamId.zero_le _) hnone hnone ?_ ?_
  · intro id hid
    exact (hw.deleted_le id hid).trans hhead.le
  · intro e he hle
    exact absurd (hw.positive e he) (not_lt.2 hle)

variable {g : Group}

lemma readGroup_entries {count : ℕ} (he : e ∈ (w.redis.readGroup g count).1) :
    e ∈ w.redis.log ∧ e.id ≤ (w.redis.readGroup g count).2.head :=
  ⟨(List.mem_filter.1 (List.mem_of_mem_take he)).1,
    List.le_foldl_max (List.mem_map_of_mem he) g.lastDelivered⟩

/-- An entry up to the new head was delivered before, or is among the entries of the read.

**Proof sketch.** An entry between the old and the new head is undelivered, for deleted entries lie
behind the old head. The new head is the ID of a delivered entry, and the delivered entries are a
prefix of the undelivered ones, so the entry is delivered too. -/
lemma readGroup_covers (hw : w.Ok) (hg : w.redis.group = some g) {count : ℕ} (he : e ∈ w.redis.log)
    (hle : e.id ≤ (w.redis.readGroup g count).2.head) :
    e.id ≤ w.redis.head ∨ e ∈ (w.redis.readGroup g count).1 := by
  have hhead : w.redis.head = g.lastDelivered := by simp [Redis.head, hg]
  refine or_iff_not_imp_left.2 fun hold => ?_
  rw [not_le, hhead] at hold
  rcases List.foldl_max_mem ((w.redis.readGroup g count).1.map Entry.id) g.lastDelivered with h | h
  · exact absurd hold (not_lt.2 (hle.trans h.le))
  · obtain ⟨x, hx, hxid⟩ := List.mem_map.1 h
    have hund : e ∈ w.redis.undelivered g := by
      refine List.mem_filter.2 ⟨he, ?_⟩
      simp only [Bool.and_eq_true, decide_eq_true_eq]
      exact ⟨hold, fun hd => absurd hold (not_lt.2 (hhead ▸ hw.deleted_le e.id hd))⟩
    exact List.mem_take_of_le (hw.sorted.filter _) hund hx (hxid ▸ hle)

lemma readGroup_ok (hw : w.Ok) (hg : w.redis.group = some g) (count : ℕ) :
    w.Grows (w.setRedis (w.redis.readGroup g count).2) ∧
      (w.setRedis (w.redis.readGroup g count).2).Ok := by
  set entries := (w.redis.undelivered g).take count with hentries
  have hhead : w.redis.head = g.lastDelivered := by simp [Redis.head, hg]
  have hpend : w.redis.pending = g.pending := by simp [Redis.pending, hg]
  have hhead' : (w.redis.readGroup g count).2.head =
      (entries.map Entry.id).foldl max g.lastDelivered := rfl
  have hpend' : (w.redis.readGroup g count).2.pending = g.pending ++ entries.map Entry.id := rfl
  have hmono : w.redis.head ≤ (w.redis.readGroup g count).2.head := by
    rw [hhead, hhead']
    exact List.base_le_foldl_max _ _
  have hdel : ∀ id ∈ w.redis.deleted, id ≤ g.lastDelivered := fun id h => hhead ▸ hw.deleted_le id h
  -- a delivered entry is in the log, ahead of the old head
  have hmem : ∀ e ∈ entries, e ∈ w.redis.log ∧ g.lastDelivered < e.id := by
    intro e he
    have h := List.mem_filter.1 (List.mem_of_mem_take he)
    simp only [Bool.and_eq_true, decide_eq_true_eq] at h
    exact ⟨h.1, h.2.1⟩
  refine setRedis_ok hw rfl hmono ?_ ?_ ?_ (fun id h => (hw.deleted_le id h).trans hmono) ?_
  · rw [hhead']
    rcases List.foldl_max_mem (entries.map Entry.id) g.lastDelivered with h | h
    · rw [h, ← hhead]
      exact hw.head_le
    · obtain ⟨e, he, heq⟩ := List.mem_map.1 h
      rw [← heq]
      exact List.le_foldl_max (List.mem_map_of_mem (hmem e he).1) _
  · intro id hid
    rw [hpend'] at hid
    rcases List.mem_append.1 hid with hid | hid
    · exact .inl (hpend ▸ hid)
    · obtain ⟨e, he, rfl⟩ := List.mem_map.1 hid
      exact .inr (hhead ▸ (hmem e he).2)
  · intro id hid
    rw [hpend'] at hid
    rcases List.mem_append.1 hid with hid | hid
    · exact ⟨(hw.pending_le id (hpend ▸ hid)).trans hmono, hw.pending_kept id (hpend ▸ hid)⟩
    · refine ⟨List.le_foldl_max hid _, fun hdeleted => ?_⟩
      obtain ⟨e, he, rfl⟩ := List.mem_map.1 hid
      exact absurd (hmem e he).2 (not_lt.2 (hdel e.id hdeleted))
  · intro e he hle
    rw [hpend']
    rcases readGroup_covers hw hg he hle with hold | hnew
    · exact (hw.delivered e he hold).imp (fun h => List.mem_append_left _ (hpend ▸ h)) id
    · exact .inl (List.mem_append_right _ (List.mem_map_of_mem hnew))

lemma autoClaim_redis (hw : w.Ok) (hg : w.redis.group = some g)
    (ids : List StreamId) : (w.redis.autoClaim g ids).2.2 = w.redis := by
  have hpend : w.redis.pending = g.pending := by simp [Redis.pending, hg]
  have hkeep : (g.pending.filter fun id => !(decide (id ∈ ids.filter fun i => decide
      (i ∈ g.pending)) && decide (id ∈ w.redis.deleted))) = g.pending := by
    refine List.filter_eq_self.2 fun id hid => ?_
    simp [hw.pending_kept id (hpend ▸ hid)]
  simp only [Redis.autoClaim, hkeep]
  rw [show some { g with pending := g.pending } = w.redis.group from hg.symm]

lemma autoClaim_ok (hw : w.Ok) (hg : w.redis.group = some g) (ids : List StreamId) :
    w.Grows (w.setRedis (w.redis.autoClaim g ids).2.2) ∧
      (w.setRedis (w.redis.autoClaim g ids).2.2).Ok := by
  rw [autoClaim_redis hw hg]
  exact ⟨Grows.refl w, hw⟩

variable {ids : List StreamId}

lemma autoClaim_entries (hw : w.Ok) (hg : w.redis.group = some g) (he : e ∈ (w.redis.autoClaim g ids).1) :
    e ∈ w.redis.log ∧ e.id ≤ w.redis.head := by
  have hpend : w.redis.pending = g.pending := by simp [Redis.pending, hg]
  obtain ⟨hlog, hclaimed⟩ := List.mem_filter.1 he
  simp only [Bool.and_eq_true, decide_eq_true_eq] at hclaimed
  have hin : e.id ∈ g.pending := by simpa using (List.mem_filter.1 hclaimed.1).2
  exact ⟨hlog, hw.pending_le e.id (hpend ▸ hin)⟩

lemma finalize_head (r : Redis) (ids : List StreamId) : (r.finalize ids).head = r.head := by
  cases h : r.group <;> simp [Redis.finalize, Redis.head, h]

lemma finalize_pending (r : Redis) (ids : List StreamId) :
    (r.finalize ids).pending = r.pending.filter fun id => decide (id ∉ ids) := by
  cases h : r.group <;> simp [Redis.finalize, Redis.pending, h]

lemma finalize_ok (hw : w.Ok) (hids : ∀ id ∈ ids, id ≤ w.redis.head ∧ w.Settled id) :
    w.Grows (w.setRedis (w.redis.finalize ids)) ∧ (w.setRedis (w.redis.finalize ids)).Ok := by
  have hhead := finalize_head w.redis ids
  have hpend : ∀ id, id ∈ (w.redis.finalize ids).pending ↔ id ∈ w.redis.pending ∧ id ∉ ids := by
    intro id
    rw [finalize_pending, List.mem_filter, decide_eq_true_eq]
  refine setRedis_ok hw rfl hhead.ge (hhead.trans_le hw.head_le) ?_ ?_ ?_ ?_
  · intro id hid
    exact .inl ((hpend id).1 hid).1
  · intro id hid
    obtain ⟨hold, hnot⟩ := (hpend id).1 hid
    refine ⟨(hw.pending_le id hold).trans hhead.ge, fun hdel => ?_⟩
    rcases List.mem_append.1 hdel with hdel | hdel
    · exact hw.pending_kept id hold hdel
    · exact hnot (List.mem_filter.1 hdel).1
  · intro id hid
    rw [hhead]
    rcases List.mem_append.1 hid with hid | hid
    · exact hw.deleted_le id hid
    · exact (hids id (List.mem_filter.1 hid).1).1
  · intro e he hle
    rcases hw.delivered e he (hle.trans hhead.le) with h | h
    · by_cases hin : e.id ∈ ids
      · exact .inr ((hids e.id hin).2 e he rfl)
      · exact .inl ((hpend e.id).2 ⟨h, hin⟩)
    · exact .inr h

/-- The bound before which acknowledged history may be trimmed. -/
def TrimBound (w : World) (minId : StreamId) : Prop :=
  ∀ id : StreamId, (ofLex id).2 < sequenceLimit → id < minId →
    id ≤ w.redis.head ∧ id ∉ w.redis.pending

lemma Grows.trimBound (h : w.Grows w') {minId : StreamId} (hb : w.TrimBound minId) :
    w'.TrimBound minId := by
  intro id hseq hlt
  obtain ⟨hle, hnot⟩ := hb id hseq hlt
  refine ⟨hle.trans h.head, fun hin => ?_⟩
  rcases h.pending id hin with hold | hnew
  · exact hnot hold
  · exact absurd hnew (not_lt.2 hle)

lemma trimBound_next (hg : w.redis.group = some g) (hp : g.pending = []) :
    w.TrimBound (nextStreamId g.lastDelivered) := by
  intro id hseq hlt
  have hle := le_of_lt_nextStreamId hseq hlt
  simp [Redis.head, Redis.pending, hg, hp, hle]

lemma trimBound_min (hw : w.Ok) (hg : w.redis.group = some g)
    {id : StreamId} (hp : g.pending = id :: ids) :
    w.TrimBound (ids.foldl min id) := by
  have hpend : w.redis.pending = id :: ids := by simp [Redis.pending, hg, hp]
  intro x _ hlt
  refine ⟨hlt.le.trans (hw.pending_le _ (hpend ▸ List.foldl_min_mem ids id)), fun hx => ?_⟩
  rw [hpend] at hx
  rcases List.mem_cons.1 hx with rfl | hx
  · exact absurd hlt (not_lt.2 (List.foldl_min_le_base ids x))
  · exact absurd hlt (not_lt.2 (List.foldl_min_le hx id))

lemma trimBound_start (hw : w.Ok) (hg : w.redis.group = some g)
    {bound : StreamId} (hbound : g.trimBound = some bound) : w.TrimBound bound := by
  simp only [Group.trimBound] at hbound
  split at hbound
  · exact absurd hbound (by simp)
  · split at hbound <;> obtain rfl := Option.some.inj hbound
    next hp => exact trimBound_next hg hp
    next hp => exact trimBound_min hw hg hp

lemma trim_ok (hw : w.Ok) {minId : StreamId} (hb : w.TrimBound minId) :
    w.Grows (w.setRedis (w.redis.trim minId)) ∧ (w.setRedis (w.redis.trim minId)).Ok := by
  have htrimmed : ∀ id ∈ (w.redis.trim minId).deleted,
      id ∈ w.redis.deleted ∨ id ≤ w.redis.head ∧ id ∉ w.redis.pending := by
    intro id hid
    rcases List.mem_append.1 hid with hid | hid
    · exact .inl hid
    · obtain ⟨hmem, hlt⟩ := List.mem_filter.1 hid
      obtain ⟨e, he, rfl⟩ := List.mem_map.1 hmem
      simp only [Bool.and_eq_true, decide_eq_true_eq] at hlt
      exact .inr (hb e.id (hw.sequence e he) hlt.1)
  refine setRedis_ok hw rfl le_rfl hw.head_le (fun _ => .inl) ?_ ?_ hw.delivered
  · intro id hid
    refine ⟨hw.pending_le id hid, fun hdel => ?_⟩
    rcases htrimmed id hdel with h | h
    · exact hw.pending_kept id hid h
    · exact h.2 hid
  · intro id hid
    rcases htrimmed id hid with h | h
    · exact hw.deleted_le id h
    · exact h.1

lemma Ok.covered_head (hw : w.Ok) (hg : w.redis.group = some g)
    (hp : g.pending = []) : g.lastDelivered ≤ w.redis.head ∧ w.Covered g.lastDelivered := by
  have hhead : w.redis.head = g.lastDelivered := by simp [Redis.head, hg]
  have hpend : w.redis.pending = [] := by simp [Redis.pending, hg, hp]
  refine ⟨hhead.ge, fun e he hle => ?_⟩
  rcases hw.delivered e he (hle.trans hhead.ge) with h | h
  · rw [hpend] at h
    exact absurd h List.not_mem_nil
  · exact h

lemma initial_ok : initial.world.Ok where
  sorted := List.Pairwise.nil
  positive _ he := absurd he List.not_mem_nil
  sequence _ he := absurd he List.not_mem_nil
  head_le := le_rfl
  pending_le _ h := absurd h List.not_mem_nil
  pending_kept _ h := absurd h List.not_mem_nil
  deleted_le _ h := absurd h List.not_mem_nil
  delivered _ he := absurd he List.not_mem_nil
  frontier _ h := absurd h (by simp [initial])

end World

end Apdl.Pipeline
