import Apdl.Sdk.Offline.Model

set_option autoImplicit false

/-!
# What a step does to an offline record

What the methods of any number of tabs may do to the records of the shared database and of the
queues in memory.

## Main results

* `ok_of_reach` — the invariant holds in every state that is reached.

## Design

Each method is specified once, by the `Op.Outcome` it has for a record; the same method on the
database and in memory has the same outcomes.
-/

namespace Apdl.Sdk.Offline

/-- Where records are stored. -/
inductive Place
  | database
  | memory (tab : Tab)
  deriving DecidableEq

/-- What a step does to the records of one place. -/
inductive Op (E : Type)
  /-- Records were added, which leaves `rows`; then the bounds are enforced, unless deferred. -/
  | store (rows : List (ℤ × Value E)) (bounds : Option (ℤ × Clock))
  | claim (now : ℤ) (clock : Clock)
  | acknowledge (ids : List ℤ) (now : ℤ) (clock : Clock)
  /-- The records in memory are not classified. -/
  | acknowledgeStored (messageIds : List String) (reading : Option (ℤ × Clock))
  | release (ids : List ℤ) (now : ℤ) (clock : Clock)
  | clear (now : ℤ) (clock : Clock)

section

variable {E : Type}

namespace State

/-- The record with an id at a place. -/
def record (s : State E) : Place → ℤ → Option (Value E)
  | .database, id => s.database.rows.lookup id
  | .memory tab, id => (s.memory tab).rows.lookup id

/-- The operation of a transaction. -/
def performedBy (s : State E) (now : ℤ) (clock : Clock) : Call E → Op E
  | .store candidates _ deferBounds =>
    .store (s.database.addAll Shelf.database_stride candidates).rows
      (if deferBounds then none else some (now, clock))
  | .claim _ calledAt _ => .claim calledAt clock
  | .acknowledge ids calledAt _ => .acknowledge ids calledAt clock
  | .acknowledgeStored messageIds _ => .acknowledgeStored messageIds (some (now, clock))
  | .release ids calledAt _ => .release ids calledAt clock
  | .clear calledAt => .clear calledAt clock

/-- The tab, the place and the operation of a step, if it touches records at all. -/
def performed (s : State E) : Act E → Option (Tab × Place × Op E)
  | .store .. => none
  | .claim tab _ now clock => some (tab, .memory tab, .claim now clock)
  | .acknowledge tab recordIds now clock =>
    (normalizeRecordIds recordIds).map fun ids => (tab, .memory tab, .acknowledge ids now clock)
  | .acknowledgeStored tab messageIds => some (tab, .memory tab, .acknowledgeStored messageIds none)
  | .release tab recordIds now clock =>
    (normalizeRecordIds recordIds).map fun ids => (tab, .memory tab, .release ids now clock)
  | .clear tab now clock => some (tab, .memory tab, .clear now clock)
  | .commit i now clock =>
    (s.calls[i]?).map fun c => (c.1, .database, s.performedBy now clock c.2)
  | .fail i now clock =>
    match s.calls[i]? with
    | some (tab, .store candidates _ _) =>
      some (tab, .memory tab,
        .store ((s.memory tab).addAll Shelf.memory_stride candidates).rows (some (now, clock)))
    | _ => none

/-- The record with an id at a place is leased by `owner` until `expiresAt`. -/
def Leased (s : State E) (place : Place) (id : ℤ) (owner : String) (expiresAt : ℤ) : Prop :=
  ∃ r, s.record place id = some (some r) ∧ r.claimOwner = some owner ∧
    r.claimExpiresAt = some expiresAt

/-- The record with an id at a place is held by `owner` under a lease that is unexpired at a
reading. -/
def Holds (s : State E) (place : Place) (id : ℤ) (owner : String) (reading : ℤ) : Prop :=
  ∃ expiresAt, reading < expiresAt ∧ s.Leased place id owner expiresAt

/-- The id was given to a record of the place. -/
def Used (s : State E) : Place → ℤ → Prop
  | .database, id => id < s.database.next
  | .memory tab, id => (s.memory tab).next < id

end State

/-- The record belongs to a scope. -/
def StoredOfflineEvent.InScope (r : StoredOfflineEvent E) (scope : Scope) : Prop :=
  r.deploymentOrigin = scope.deploymentOrigin ∧ r.projectId = scope.projectId

variable (p : Platform E)

/-- The record is stale where the operation classifies it. -/
def Op.FindsStale (tab : Tab) (id : ℤ) (v : Value E) : Op E → Prop
  | .store _ (some (now, clock)) | .claim now clock | .clear now clock =>
    classifyRecord p tab.scope (clock 0 id) now id v = .stale
  | _ => False

/-- The operation evicts the record: it is not under an active lease, and the newer records that are
retained leave no room for it. -/
def Op.Evicts (tab : Tab) (id : ℤ) (v : Value E) : Op E → Prop
  | .store rows (some (now, clock)) =>
    ∃ r, v = some r ∧ classifyRecord p tab.scope (clock 0 id) now id v = .current ∧
      hasActiveLease now r = false ∧
      (Cursor.accAt (boundsVisit p tab now clock) id Retained.none rows.reverse).exceeds r = true
  | _ => False

/-- The operation acknowledges the record: by its id under an unexpired lease, or by its message
id. -/
def Op.Acknowledges (tab : Tab) (id : ℤ) (v : Value E) : Op E → Prop
  | .acknowledge ids now clock =>
    ∃ r, v = some r ∧ id ∈ ids ∧ classifyRecord p tab.scope (clock 1 id) now id v = .current ∧
      holdsLease tab.owner now r = true
  | .acknowledgeStored messageIds reading =>
    ∃ r, v = some r ∧ p.messageId r.data ∈ messageIds ∧
      ∀ now clock, reading = some (now, clock) →
        classifyRecord p tab.scope (clock 1 id) now id v = .current
  | _ => False

/-- The operation clears the record with its scope. -/
def Op.Clears (tab : Tab) (id : ℤ) (v : Value E) : Op E → Prop
  | .clear now clock => classifyRecord p tab.scope (clock 0 id) now id v = .current
  | _ => False

/-- The reasons for which an operation deletes a record. -/
def Op.Removes (tab : Tab) (id : ℤ) (v : Value E) (op : Op E) : Prop :=
  op.FindsStale p tab id v ∨ op.Evicts p tab id v ∨ op.Acknowledges p tab id v ∨
    op.Clears p tab id v

/-- The operation changes the lease of the record. -/
def Op.Relets (tab : Tab) (id : ℤ) (v v' : Value E) : Op E → Prop
  | .claim now clock =>
    ∃ r, v = some r ∧ classifyRecord p tab.scope (clock 0 id) now id v = .current ∧
      isClaimAvailable r now = true ∧ v' = some (r.lease tab.owner (now + leaseDurationMs))
  | .release ids now clock =>
    ∃ r, v = some r ∧ id ∈ ids ∧ classifyRecord p tab.scope (clock 1 id) now id v = .current ∧
      r.claimOwner = some tab.owner ∧ v' = some r.unlease
  | _ => False

/-- Everything an operation can do to a record. -/
def Op.Outcome (tab : Tab) (id : ℤ) (v : Value E) (op : Op E) (after : Option (Value E)) : Prop :=
  after = some v ∨ (after = none ∧ op.Removes p tab id v) ∨
    ∃ v', after = some v' ∧ op.Relets p tab id v v'

/-! ## The outcomes of the methods -/

variable {scope : Scope} {reading : ℤ}

lemma classify_current {now id : ℤ} {v : Value E}
    (h : classifyRecord p scope reading now id v = .current) :
    ∃ r, v = some r ∧ r.InScope scope ∧ isStoredOfflineEvent p reading id r = true := by
  cases v with
  | none => cases h
  | some r =>
    simp only [classifyRecord] at h
    split_ifs at h with hvalid hage hscope
    exact ⟨r, rfl, hscope, by simpa using hvalid⟩

lemma id_pos_of_stored {id : ℤ} {r : StoredOfflineEvent E}
    (h : isStoredOfflineEvent p reading id r = true) : 0 < id := by
  simp only [isStoredOfflineEvent, Bool.and_eq_true, decide_eq_true_eq] at h
  exact h.1.1.1.1.1.1.1

variable {p} {tab : Tab} {id now : ℤ} {clock : Clock} {v : Value E} {ids : List ℤ}

lemma claimVisit_outcome (limit already : ℕ) (claims : List (ℤ × E)) :
    (Op.claim now clock).Outcome p tab id v
      ((claimVisit p tab limit already now clock claims id v).2.value v) := by
  unfold claimVisit
  split
  · rename_i r hcur
    split_ifs with havail hid
    · exact .inr (.inr ⟨_, rfl, r, rfl, hcur, havail.2, rfl⟩)
    · -- a current record has a positive id
      obtain ⟨r', hr', -, hstored⟩ := classify_current p hcur
      exact absurd (id_pos_of_stored p hstored) hid
    · exact .inl rfl
  · exact .inl rfl
  · exact .inl rfl
  · rename_i hstale
    exact .inr (.inl ⟨rfl, .inl hstale⟩)

lemma acknowledges_iff : acknowledges p tab now clock id v = true ↔
    ∃ r, v = some r ∧ classifyRecord p tab.scope (clock 1 id) now id v = .current ∧
      holdsLease tab.owner now r = true := by
  cases v <;> simp [acknowledges]

lemma releases_iff : releases p tab now clock id v = true ↔
    ∃ r, v = some r ∧ classifyRecord p tab.scope (clock 1 id) now id v = .current ∧
      r.claimOwner = some tab.owner := by
  cases v <;> simp [releases]

lemma acknowledgeFate_outcome (hid : id ∈ ids) :
    (Op.acknowledge ids now clock).Outcome p tab id v
      ((acknowledgeFate p tab now clock id v).value v) := by
  unfold acknowledgeFate
  split
  · exact .inl rfl
  · split_ifs with h
    · obtain ⟨r, hr, hcur, hlease⟩ := acknowledges_iff.1 h.2
      exact .inr (.inl ⟨rfl, .inr (.inr (.inl ⟨r, hr, hid, hcur, hlease⟩))⟩)
    · exact .inl rfl

lemma acknowledgeFallbackVisit_outcome (gone : ℕ) :
    (Op.acknowledge ids now clock).Outcome p tab id v
      ((acknowledgeFallbackVisit p tab ids now clock gone id v).2.value v) := by
  unfold acknowledgeFallbackVisit
  split_ifs with h
  · obtain ⟨r, hr, hcur, hlease⟩ := acknowledges_iff.1 h.2
    exact .inr (.inl ⟨rfl, .inr (.inr (.inl ⟨r, hr, h.1, hcur, hlease⟩))⟩)
  · exact .inl rfl

lemma releaseFate_outcome (hid : id ∈ ids) :
    (Op.release ids now clock).Outcome p tab id v ((releaseFate p tab now clock id v).value v) := by
  unfold releaseFate
  split
  · exact .inl rfl
  · rename_i r
    split_ifs with h
    · obtain ⟨r', hr, hcur, howner⟩ := releases_iff.1 h.2
      cases hr
      exact .inr (.inr ⟨_, rfl, r, rfl, hid, hcur, howner, rfl⟩)
    · exact .inl rfl

lemma releaseFallbackVisit_outcome (released : ℕ) :
    (Op.release ids now clock).Outcome p tab id v
      ((releaseFallbackVisit p tab ids now clock released id v).2.value v) := by
  unfold releaseFallbackVisit
  split
  · exact .inl rfl
  · rename_i r
    split_ifs with h
    · obtain ⟨r', hr, hcur, howner⟩ := releases_iff.1 h.2
      cases hr
      exact .inr (.inr ⟨_, rfl, r, rfl, h.1, hcur, howner, rfl⟩)
    · exact .inl rfl

lemma acknowledgeStoredVisit_outcome (messageIds : List String) (gone : ℕ) :
    (Op.acknowledgeStored messageIds (some (now, clock))).Outcome p tab id v
      ((acknowledgeStoredVisit p tab messageIds now clock gone id v).2.value v) := by
  unfold acknowledgeStoredVisit
  split
  · exact .inl rfl
  · rename_i r
    split_ifs with h
    · refine .inr (.inl ⟨rfl, .inr (.inr (.inl ⟨r, rfl, h.2.2, ?_⟩))⟩)
      intro now' clock' heq
      cases heq
      exact h.2.1
    · exact .inl rfl

lemma acknowledgeStoredFallbackVisit_outcome (messageIds : List String) (gone : ℕ) :
    (Op.acknowledgeStored messageIds none).Outcome p tab id v
      ((acknowledgeStoredFallbackVisit p messageIds gone id v).2.value v) := by
  unfold acknowledgeStoredFallbackVisit
  split
  · exact .inl rfl
  · rename_i r
    split_ifs with h
    · refine .inr (.inl ⟨rfl, .inr (.inr (.inl ⟨r, rfl, h, ?_⟩))⟩)
      intro now' clock' heq
      cases heq
    · exact .inl rfl

lemma clearVisit_outcome (u : Unit) :
    (Op.clear now clock).Outcome p tab id v ((clearVisit p tab now clock u id v).2.value v) := by
  unfold clearVisit
  split_ifs with h
  · exact .inl rfl
  · refine .inr (.inl ⟨rfl, ?_⟩)
    cases hc : classifyRecord p tab.scope (clock 0 id) now id v with
    | current => exact .inr (.inr (.inr hc))
    | mismatched => exact absurd hc h
    | stale => exact .inl hc

lemma boundsVisit_outcome (rows : List (ℤ × Value E)) :
    (Op.store rows (some (now, clock))).Outcome p tab id v
      ((boundsVisit p tab now clock
        (Cursor.accAt (boundsVisit p tab now clock) id Retained.none rows.reverse) id v).2.value v)
      := by
  generalize hacc : Cursor.accAt (boundsVisit p tab now clock) id Retained.none rows.reverse = acc
  unfold boundsVisit
  split
  · rename_i hstale
    exact .inr (.inl ⟨rfl, .inl hstale⟩)
  · rename_i r hcur
    split
    · rename_i h
      exact .inr (.inl ⟨rfl, .inr (.inl ⟨r, rfl, hcur, h.2, hacc ▸ h.1⟩)⟩)
    · exact .inl rfl
  · exact .inl rfl
  · exact .inl rfl

/-! ## Shelves -/

section Shelves

variable {stride : ℤ} {σ : Type}

lemma Shelf.nodup (s : Shelf E stride) : (s.rows.map Prod.fst).Nodup :=
  s.sorted.imp fun {a b} hlt heq => by rw [heq] at hlt; exact lt_irrefl _ hlt

/-- No id comes back: the ids that were given stay given, and a record that is gone stays gone. -/
def Shelf.Later (s s' : Shelf E stride) : Prop :=
  ∀ id, stride * id < stride * s.next →
    stride * id < stride * s'.next ∧ (s.rows.lookup id = none → s'.rows.lookup id = none)

/-- What an operation does to the records of a shelf. -/
structure ShelfStep (p : Platform E) (tab : Tab) (op : Op E) (s s' : Shelf E stride) : Prop where
  outcome : ∀ id v, s.rows.lookup id = some v → op.Outcome p tab id v (s'.rows.lookup id)
  later : s.Later s'
  fresh : ∀ id v, s.rows.lookup id = none → s'.rows.lookup id = some v →
    ∃ rows bounds, op = .store rows bounds ∧ (id, v) ∈ rows

lemma Shelf.used_of_lookup {s : Shelf E stride} (h : s.rows.lookup id = some v) :
    stride * id < stride * s.next :=
  s.beyond id (List.mem_map_of_mem (Cursor.mem_of_lookup h))

lemma Shelf.lookup_withRows_none {s : Shelf E stride} {rows : List (ℤ × Value E)}
    (hkeys : (rows.map Prod.fst).Sublist (s.rows.map Prod.fst)) (h : s.rows.lookup id = none) :
    rows.lookup id = none := by
  refine Cursor.lookup_eq_none fun hmem => ?_
  obtain ⟨row, hrow, rfl⟩ := List.mem_map.1 (hkeys.subset hmem)
  rw [Cursor.lookup_of_mem s.nodup hrow] at h
  cases h

lemma ShelfStep.of_withRows {s : Shelf E stride} {op : Op E} {rows : List (ℤ × Value E)}
    (hkeys : (rows.map Prod.fst).Sublist (s.rows.map Prod.fst))
    (h : ∀ id v, s.rows.lookup id = some v → op.Outcome p tab id v (rows.lookup id)) :
    ShelfStep p tab op s (s.withRows rows hkeys) where
  outcome := h
  later := fun id hid => ⟨hid, Shelf.lookup_withRows_none hkeys⟩
  fresh := by
    intro id v hnone hsome
    have hgone := Shelf.lookup_withRows_none hkeys hnone
    rw [show (s.withRows rows hkeys).rows = rows from rfl, hgone] at hsome
    cases hsome

lemma ShelfStep.of_walk {op : Op E} {visit : σ → ℤ → Value E → σ × Fate (Value E)}
    (hvisit : ∀ acc id v, op.Outcome p tab id v ((visit acc id v).2.value v))
    (s : Shelf E stride) (acc : σ) : ShelfStep p tab op s (s.walk visit acc).2 := by
  refine .of_withRows (Cursor.walk_keys acc s.rows) fun id v h => ?_
  rw [Cursor.lookup_walk s.nodup, h, Option.bind_some]
  exact hvisit _ id v

lemma ShelfStep.of_touch {op : Op E} {fate : ℤ → Value E → Fate (Value E)} (hids : ids.Nodup)
    (hvisit : ∀ id ∈ ids, ∀ v, op.Outcome p tab id v ((fate id v).value v)) (s : Shelf E stride) :
    ShelfStep p tab op s (s.touch fate ids).2 := by
  refine .of_withRows (Cursor.touch_keys ids s.rows) fun id v h => ?_
  rw [Cursor.lookup_touch hids, h, Option.bind_some]
  split_ifs with hmem
  · exact hvisit id hmem v
  · exact .inl rfl

lemma Shelf.lookup_add (hstride : 0 < stride * stride) (s : Shelf E stride)
    (r : StoredOfflineEvent E) (id : ℤ) :
    (s.add hstride r).rows.lookup id = if id = s.next then some (some r) else s.rows.lookup id := by
  have hnext : s.rows.lookup s.next = none :=
    Cursor.lookup_eq_none fun hmem => lt_irrefl _ (s.beyond s.next hmem)
  simp only [Shelf.add, List.lookup_append, Cursor.lookup_row, List.lookup_nil]
  by_cases hid : id = s.next
  · rw [hid, hnext]
    simp
  · simp [hid]

lemma Shelf.lookup_addAll (hstride : 0 < stride * stride) (records : List (StoredOfflineEvent E))
    (s : Shelf E stride) (hid : stride * id < stride * s.next) :
    (s.addAll hstride records).rows.lookup id = s.rows.lookup id ∧
      stride * id < stride * (s.addAll hstride records).next := by
  induction records generalizing s with
  | nil => exact ⟨rfl, hid⟩
  | cons r records ih =>
    have hne : id ≠ s.next := fun heq => lt_irrefl _ (heq ▸ hid)
    have hid' : stride * id < stride * (s.add hstride r).next := by
      simp only [Shelf.add, mul_add]
      omega
    obtain ⟨hlookup, hused⟩ := ih (s.add hstride r) hid'
    refine ⟨hlookup.trans ?_, hused⟩
    rw [Shelf.lookup_add, if_neg hne]

lemma Shelf.mem_addAll (hstride : 0 < stride * stride) (records : List (StoredOfflineEvent E))
    (s : Shelf E stride) {row : ℤ × Value E} (h : row ∈ (s.addAll hstride records).rows) :
    row ∈ s.rows ∨ ∃ r ∈ records, row.2 = some r := by
  induction records generalizing s with
  | nil => exact .inl h
  | cons r records ih =>
    rcases ih (s.add hstride r) h with hmem | ⟨r', hr', heq⟩
    · rcases List.mem_append.1 hmem with hold | hnew
      · exact .inl hold
      · rw [List.mem_singleton] at hnew
        exact .inr ⟨r, List.mem_cons_self, by rw [hnew]⟩
    · exact .inr ⟨r', List.mem_cons_of_mem r hr', heq⟩

lemma ShelfStep.of_addAll (hstride : 0 < stride * stride) (records : List (StoredOfflineEvent E))
    (s : Shelf E stride) :
    ShelfStep p tab (.store (s.addAll hstride records).rows none) s (s.addAll hstride records) where
  outcome := fun _ _ h =>
    .inl ((Shelf.lookup_addAll hstride records s (Shelf.used_of_lookup h)).1.trans h)
  later := fun _ hid =>
    ⟨(Shelf.lookup_addAll hstride records s hid).2, fun hnone =>
      (Shelf.lookup_addAll hstride records s hid).1.trans hnone⟩
  fresh := fun _ _ _ hsome => ⟨_, _, rfl, Cursor.mem_of_lookup hsome⟩

lemma ShelfStep.of_bounds (hstride : 0 < stride * stride) (records : List (StoredOfflineEvent E))
    (s : Shelf E stride) :
    ShelfStep p tab (.store (s.addAll hstride records).rows (some (now, clock))) s
      (enforceBounds p tab now clock (s.addAll hstride records)).2 := by
  -- what the bounds do to the shelf with the new records
  have hbounds : ShelfStep p tab (.store (s.addAll hstride records).rows (some (now, clock)))
      (s.addAll hstride records) (enforceBounds p tab now clock (s.addAll hstride records)).2 := by
    refine .of_withRows (Cursor.walk_reverse_keys _ _) fun id v h => ?_
    rw [Cursor.lookup_walk_reverse (Shelf.nodup _), h, Option.bind_some]
    exact boundsVisit_outcome _
  have hadd : s.Later (s.addAll hstride records) :=
    (ShelfStep.of_addAll hstride records s : ShelfStep p tab _ s _).later
  refine ⟨fun id v h => hbounds.outcome id v ?_, fun id hid => ?_, fun id v _ hsome => ?_⟩
  · exact (Shelf.lookup_addAll hstride records s (Shelf.used_of_lookup h)).1.trans h
  · have hlater := hbounds.later id (hadd id hid).1
    exact ⟨hlater.1, fun hnone => hlater.2 ((hadd id hid).2 hnone)⟩
  · refine ⟨_, _, rfl, ?_⟩
    cases hold : (s.addAll hstride records).rows.lookup id with
    | none =>
      obtain ⟨rows, bounds, heq, hmem⟩ := hbounds.fresh id v hold hsome
      cases heq
      exact hmem
    | some w =>
      -- the bounds keep a record as it is or delete it
      rcases hbounds.outcome id w hold with hkeep | ⟨hgone, -⟩ | ⟨w', -, hrelet⟩
      · rw [hsome, Option.some.injEq] at hkeep
        exact hkeep ▸ Cursor.mem_of_lookup hold
      · rw [hsome] at hgone
        cases hgone
      · exact hrelet.elim

end Shelves

/-! ## The steps of the tabs -/

/-- A call has arguments that its method has checked. -/
def CallOk (tab : Tab) : Call E → Prop
  | .store candidates _ _ => ∀ r ∈ candidates, r.InScope tab.scope
  | .acknowledge ids _ _ | .release ids _ _ => ids.Nodup
  | _ => True

/-- The calls under way are well formed, and a queue in memory holds records of its own scope. -/
structure State.Ok (s : State E) : Prop where
  calls : ∀ tab call, (tab, call) ∈ s.calls → CallOk tab call
  memory : ∀ tab id r, (s.memory tab).rows.lookup id = some (some r) → r.InScope tab.scope

/-- What a step does to the places of records. -/
inductive Moves (p : Platform E) (s : State E) (a : Act E) (s' : State E) : Prop
  | none (hdb : s'.database = s.database) (hmem : s'.memory = s.memory)
  | memory (tab : Tab) (op : Op E) (hop : s.performed a = some (tab, .memory tab, op))
    (hstep : ShelfStep p tab op (s.memory tab) (s'.memory tab))
    (hmem : ∀ tab', tab' ≠ tab → s'.memory tab' = s.memory tab') (hdb : s'.database = s.database)
  | database (tab : Tab) (op : Op E) (hop : s.performed a = some (tab, .database, op))
    (hstep : ShelfStep p tab op s.database s'.database) (hmem : s'.memory = s.memory)

lemma nodup_of_normalize {recordIds : List ℤ} (h : normalizeRecordIds recordIds = some ids) :
    ids.Nodup := by
  unfold normalizeRecordIds at h
  split_ifs at h
  cases h
  exact List.nodup_reverse.2 (List.nodup_dedup _)

lemma createRecord_inScope {storedAt : ℤ} {event : E}
    {r : StoredOfflineEvent E} (h : createRecord p scope reading storedAt event = some r) :
    r.InScope scope := by
  obtain ⟨canonical, -, h⟩ := Option.bind_eq_some_iff.1 h
  obtain ⟨bytes, -, rfl⟩ := Option.map_eq_some_iff.1 h
  exact ⟨rfl, rfl⟩

lemma commit_moves {s t s' : State E} {a : Act E} {call : Call E} (hcall : CallOk tab call)
    (hdb : t.database = s.database) (hmem : t.memory = s.memory)
    (hop : s.performed a = some (tab, .database, s.performedBy now clock call))
    (h : t.commit p tab now clock call = some s') : Moves p s a s' := by
  cases call with
  | store candidates rejected deferBounds =>
    simp only [State.commit] at h
    split_ifs at h
    cases h
    refine .database tab _ hop ?_ hmem
    rw [show t.database = s.database from hdb]
    cases deferBounds with
    | false => exact .of_bounds _ candidates s.database
    | true => exact .of_addAll _ candidates s.database
  | claim limit calledAt memoryClaims =>
    cases h
    refine .database tab _ hop ?_ hmem
    rw [hdb]
    exact .of_walk (fun claims id v => claimVisit_outcome limit memoryClaims.length claims) _ _
  | acknowledge ids calledAt n =>
    cases h
    refine .database tab _ hop ?_ hmem
    rw [hdb]
    exact .of_touch hcall (fun id hid v => acknowledgeFate_outcome hid) _
  | acknowledgeStored messageIds n =>
    cases h
    refine .database tab _ hop ?_ hmem
    rw [hdb]
    exact .of_walk (fun gone id v => acknowledgeStoredVisit_outcome messageIds gone) _ _
  | release ids calledAt n =>
    cases h
    refine .database tab _ hop ?_ hmem
    rw [hdb]
    exact .of_touch hcall (fun id hid v => releaseFate_outcome hid) _
  | clear calledAt =>
    cases h
    refine .database tab _ hop ?_ hmem
    rw [hdb]
    exact .of_walk (fun u id v => clearVisit_outcome u) _ _

lemma memory_moves {s t s' : State E} {a : Act E} {op : Op E} {m : Memory E}
    (hop : s.performed a = some (tab, .memory tab, op)) (ht : t = s.setMemory tab m)
    (hstep : ShelfStep p tab op (s.memory tab) m) (hdb : s'.database = t.database)
    (hmem : s'.memory = t.memory) : Moves p s a s' := by
  subst ht
  refine .memory tab op hop ?_ (fun tab' hne => ?_) hdb
  · rw [hmem]
    simpa [State.setMemory] using hstep
  · rw [hmem]
    simp [State.setMemory, hne]

lemma mem_calls {s : State E} {i : ℕ} {c : Tab × Call E} (h : s.calls[i]? = some c) :
    c ∈ s.calls :=
  List.mem_of_getElem? h

theorem step_moves {s s' : State E} {a : Act E} (hok : s.Ok) (h : s.step p a = some s') :
    Moves p s a s' := by
  cases a with
  | store tab events deferBounds clock =>
    simp only [State.step, Option.some.injEq] at h
    subst h
    split_ifs <;> exact .none rfl rfl
  | claim tab limit now clock =>
    simp only [State.step] at h
    split_ifs at h with hlimit hfull
    all_goals
      cases h
      refine memory_moves rfl rfl (.of_walk (fun claims id v => ?_) _ _) rfl rfl
      exact claimVisit_outcome limit.toNat 0 claims
  | acknowledge tab recordIds now clock =>
    obtain ⟨ids, hids, rfl⟩ := Option.map_eq_some_iff.1 h
    split_ifs with hempty
    · exact .none rfl rfl
    · have hop : s.performed (.acknowledge tab recordIds now clock) =
          some (tab, .memory tab, .acknowledge ids now clock) := by simp [State.performed, hids]
      exact memory_moves hop rfl
        (.of_walk (fun gone id v => acknowledgeFallbackVisit_outcome gone) _ _) rfl rfl
  | acknowledgeStored tab messageIds =>
    obtain ⟨ids, hids, rfl⟩ := Option.map_eq_some_iff.1 h
    have heq : ids = messageIds := by
      unfold normalizeMessageIds at hids
      split_ifs at hids
      exact (Option.some.inj hids).symm
    subst heq
    split_ifs with hempty
    · exact .none rfl rfl
    · exact memory_moves rfl rfl
        (.of_walk (fun gone id v => acknowledgeStoredFallbackVisit_outcome ids gone) _ _) rfl rfl
  | release tab recordIds now clock =>
    obtain ⟨ids, hids, rfl⟩ := Option.map_eq_some_iff.1 h
    split_ifs with hempty
    · exact .none rfl rfl
    · have hop : s.performed (.release tab recordIds now clock) =
          some (tab, .memory tab, .release ids now clock) := by simp [State.performed, hids]
      exact memory_moves hop rfl
        (.of_walk (fun released id v => releaseFallbackVisit_outcome released) _ _) rfl rfl
  | clear tab now clock =>
    cases h
    exact memory_moves rfl rfl (.of_walk (fun u id v => clearVisit_outcome u) _ _) rfl rfl
  | commit i now clock =>
    simp only [State.step] at h
    split at h
    · rename_i tab call hcall
      refine commit_moves (s := s) (t := s.take i) (hok.calls tab call (mem_calls hcall)) rfl rfl ?_ h
      simp [State.performed, hcall]
    · cases h
  | fail i now clock =>
    simp only [State.step] at h
    split at h
    · rename_i tab call hcall
      cases h
      cases call with
      | store candidates rejected deferBounds =>
        refine memory_moves ?_ rfl (.of_bounds (by decide) candidates (s.memory tab)) rfl rfl
        simp [State.performed, hcall]
      | _ => exact .none rfl rfl
    · cases h

theorem step_outcome {s s' : State E} {a : Act E} {place : Place} (hok : s.Ok)
    (h : s.step p a = some s') (hrec : s.record place id = some v) :
    s'.record place id = some v ∨
      ∃ tab op, s.performed a = some (tab, place, op) ∧
        op.Outcome p tab id v (s'.record place id) := by
  cases step_moves hok h with
  | none hdb hmem =>
    left
    cases place with
    | database => simpa [State.record, hdb] using hrec
    | memory tab => simpa [State.record, hmem] using hrec
  | memory tab op hop hstep hmem hdb =>
    cases place with
    | database =>
      left
      simpa [State.record, hdb] using hrec
    | memory tab' =>
      by_cases htab : tab' = tab
      · subst htab
        exact .inr ⟨tab', op, hop, hstep.outcome id v hrec⟩
      · left
        simpa [State.record, hmem tab' htab] using hrec
  | database tab op hop hstep hmem =>
    cases place with
    | database => exact .inr ⟨tab, op, hop, hstep.outcome id v hrec⟩
    | memory tab' =>
      left
      simpa [State.record, hmem] using hrec

theorem step_later {s s' : State E} {a : Act E} {place : Place} (hok : s.Ok)
    (h : s.step p a = some s') (hused : s.Used place id) :
    s'.Used place id ∧ (s.record place id = none → s'.record place id = none) := by
  have hshelf : ∀ {s s' : State E}, s.database.Later s'.database →
      (∀ tab, (s.memory tab).Later (s'.memory tab)) → s.Used place id →
      s'.Used place id ∧ (s.record place id = none → s'.record place id = none) := by
    intro s s' hdb hmem hused
    cases place with
    | database =>
      obtain ⟨hlt, hgone⟩ := hdb id (by simpa [State.Used] using hused)
      exact ⟨by simpa [State.Used] using hlt, hgone⟩
    | memory tab =>
      obtain ⟨hlt, hgone⟩ := hmem tab id (by simpa [State.Used] using hused)
      exact ⟨by simpa [State.Used] using hlt, hgone⟩
  have hrefl : ∀ {stride : ℤ} {x x' : Shelf E stride}, x' = x → x.Later x' := by
    rintro stride x x' rfl id hid
    exact ⟨hid, fun hnone => hnone⟩
  cases step_moves hok h with
  | none hdb hmem => exact hshelf (hrefl hdb) (fun tab => hrefl (by rw [hmem])) hused
  | memory tab op hop hstep hmem hdb =>
    refine hshelf (hrefl hdb) (fun tab' => ?_) hused
    by_cases htab : tab' = tab
    · exact htab ▸ hstep.later
    · exact hrefl (hmem tab' htab)
  | database tab op hop hstep hmem =>
    exact hshelf hstep.later (fun tab => hrefl (by rw [hmem])) hused

/-! ## The invariant -/

lemma performed_store {s : State E} {a : Act E} {rows : List (ℤ × Value E)}
    {bounds : Option (ℤ × Clock)}
    (h : s.performed a = some (tab, .memory tab, .store rows bounds)) :
    ∃ candidates rejected deferBounds, (tab, .store candidates rejected deferBounds) ∈ s.calls ∧
      rows = ((s.memory tab).addAll (by decide) candidates).rows := by
  cases a with
  | fail i now clock =>
    simp only [State.performed] at h
    split at h
    · rename_i tab' candidates rejected deferBounds hcall
      cases h
      exact ⟨candidates, rejected, deferBounds, mem_calls hcall, rfl⟩
    · cases h
  | commit i now clock =>
    obtain ⟨c, -, hc⟩ := Option.map_eq_some_iff.1 h
    cases hc
  | acknowledge tab' recordIds now clock =>
    obtain ⟨ids, -, hc⟩ := Option.map_eq_some_iff.1 h
    cases hc
  | release tab' recordIds now clock =>
    obtain ⟨ids, -, hc⟩ := Option.map_eq_some_iff.1 h
    cases hc
  | _ => cases h

lemma Op.Relets.unlease_eq {op : Op E} {v' : Value E} (h : op.Relets p tab id v v') :
    v'.map StoredOfflineEvent.unlease = v.map StoredOfflineEvent.unlease := by
  cases op with
  | claim now clock =>
    obtain ⟨r, rfl, -, -, rfl⟩ := h
    rfl
  | release ids now clock =>
    obtain ⟨r, rfl, -, -, -, rfl⟩ := h
    rfl
  | _ => exact h.elim

lemma inScope_of_unlease_eq {r r' : StoredOfflineEvent E}
    (h : (some r').map StoredOfflineEvent.unlease = (some r).map StoredOfflineEvent.unlease)
    (hr : r.InScope scope) : r'.InScope scope := by
  have heq : r'.unlease = r.unlease := Option.some.inj h
  have horigin := congrArg StoredOfflineEvent.deploymentOrigin heq
  have hproject := congrArg StoredOfflineEvent.projectId heq
  exact ⟨horigin.trans hr.1, hproject.trans hr.2⟩

lemma memory_inScope {s : State E} {m : Memory E} {op : Op E} {a : Act E} (hok : s.Ok)
    (hop : s.performed a = some (tab, .memory tab, op))
    (hstep : ShelfStep p tab op (s.memory tab) m) {id : ℤ} {r : StoredOfflineEvent E}
    (hrec : m.rows.lookup id = some (some r)) : r.InScope tab.scope := by
  cases hold : (s.memory tab).rows.lookup id with
  | none =>
    obtain ⟨rows, bounds, rfl, hmem⟩ := hstep.fresh id _ hold hrec
    obtain ⟨candidates, rejected, deferBounds, hcall, rfl⟩ := performed_store hop
    rcases Shelf.mem_addAll _ candidates _ hmem with hin | ⟨r', hr', heq⟩
    · exact hok.memory tab id r (Cursor.lookup_of_mem (Shelf.nodup _) hin)
    · cases heq
      exact hok.calls tab _ hcall r hr'
  | some w =>
    rcases hstep.outcome id w hold with hkeep | ⟨hgone, -⟩ | ⟨v', hv', hrelet⟩
    · rw [hkeep, Option.some.injEq] at hrec
      exact hok.memory tab id r (hrec ▸ hold)
    · rw [hgone] at hrec
      cases hrec
    · rw [hv', Option.some.injEq] at hrec
      subst hrec
      have hsame := hrelet.unlease_eq
      cases w with
      | none => cases hsame
      | some r₀ => exact inScope_of_unlease_eq hsame (hok.memory tab id r₀ hold)

lemma step_calls {s s' : State E} {a : Act E} (hok : s.Ok) (h : s.step p a = some s') :
    ∀ tab call, (tab, call) ∈ s'.calls → CallOk tab call := by
  have hawait : ∀ (tab : Tab) (call : Call E), CallOk tab call →
      ∀ tab' call', (tab', call') ∈ s.calls ++ [(tab, call)] → CallOk tab' call' := by
    intro tab call hcall tab' call' hmem
    rcases List.mem_append.1 hmem with hold | hnew
    · exact hok.calls tab' call' hold
    · rw [List.mem_singleton] at hnew
      cases hnew
      exact hcall
  have htake : ∀ (i : ℕ) tab call, (tab, call) ∈ s.calls.eraseIdx i → CallOk tab call :=
    fun i tab call hmem => hok.calls tab call (List.eraseIdx_subset hmem)
  cases a with
  | store tab events deferBounds clock =>
    simp only [State.step, Option.some.injEq] at h
    subst h
    split_ifs
    · exact hok.calls
    · refine hawait tab _ fun r hr => ?_
      obtain ⟨e, -, he⟩ := List.mem_filterMap.1 hr
      exact createRecord_inScope he
  | claim tab limit now clock =>
    simp only [State.step] at h
    split_ifs at h with hlimit hfull
    · cases h
      exact hok.calls
    · cases h
      exact hawait tab _ trivial
  | acknowledge tab recordIds now clock =>
    obtain ⟨ids, hids, rfl⟩ := Option.map_eq_some_iff.1 h
    split_ifs
    · exact hok.calls
    · exact hawait tab _ (nodup_of_normalize hids)
  | acknowledgeStored tab messageIds =>
    obtain ⟨ids, hids, rfl⟩ := Option.map_eq_some_iff.1 h
    split_ifs
    · exact hok.calls
    · exact hawait tab _ trivial
  | release tab recordIds now clock =>
    obtain ⟨ids, hids, rfl⟩ := Option.map_eq_some_iff.1 h
    split_ifs
    · exact hok.calls
    · exact hawait tab _ (nodup_of_normalize hids)
  | clear tab now clock =>
    cases h
    exact hawait tab _ trivial
  | commit i now clock =>
    simp only [State.step] at h
    split at h
    · rename_i tab call hcall
      cases call with
      | store candidates rejected deferBounds =>
        simp only [State.commit] at h
        split_ifs at h
        cases h
        exact htake i
      | _ =>
        cases h
        exact htake i
    · cases h
  | fail i now clock =>
    simp only [State.step] at h
    split at h
    · rename_i tab call hcall
      cases h
      cases call <;> exact htake i
    · cases h

lemma step_ok {s s' : State E} {a : Act E} (hok : s.Ok) (h : s.step p a = some s') : s'.Ok := by
  refine ⟨step_calls hok h, fun tab id r hrec => ?_⟩
  cases step_moves hok h with
  | none hdb hmem => exact hok.memory tab id r (hmem ▸ hrec)
  | memory tab' op hop hstep hmem hdb =>
    by_cases htab : tab = tab'
    · subst htab
      exact memory_inScope hok hop hstep hrec
    · rw [hmem tab htab] at hrec
      exact hok.memory tab id r hrec
  | database tab' op hop hstep hmem => exact hok.memory tab id r (hmem ▸ hrec)

theorem ok_of_reach {db : Database E} {s : State E} (h : (machine p db).Reach s) : s.Ok := by
  refine StepMachine.Reach.induct (P := State.Ok) ⟨?_, ?_⟩
    (fun s a s' _ hok hst => step_ok (p := p) hok hst) h
  · intro tab call hmem
    cases hmem
  · intro tab id r hrec
    cases hrec

end

end Apdl.Sdk.Offline
