import Apdl.Codegen.Changeset.Creation
import Mathlib.Data.List.Perm.Basic
import Mathlib.Data.List.Pairwise

set_option autoImplicit false

/-!
# The creation of changesets is idempotent

The unique indexes keep rows apart, and a transaction in flight keeps what it inserted apart from what the
others insert. So a key has one row, and a call that succeeds with it either inserted that row or read it
and compared what it was given with what the row has.

## Main results

* `creation_idempotent` — every state that is reached is idempotent, and every step from it is lawful.
-/

namespace Apdl.Codegen.Creation

/-! ## Statements -/

/-- The row has the key and the digest of the call, the parent that it retries and the source that it
reverts. -/
structure Call.Fits (c : Call) (row : RequestColumns) : Prop where
  project : row.projectId = c.request.projectId
  key : row.idempotencyKey = c.request.idempotencyKey
  digest : row.idempotencyRequestSha256 = c.request.idempotencyRequestSha256
  parent : ∀ p, c.parent = some p → row.retryOfChangesetId = some p
  source : ∀ s, c.source = some s →
    row.controlMetadata.revert.map AuthorizedRevertControl.sourceChangesetId = some s

def createdRow (o : Call × Result) : Option RequestColumns :=
  match o.2 with
  | .ok (row, true) => some row.request
  | _ => none

def Call.hasKey (projectId key : Text) (c : Call) : Bool :=
  c.request.projectId == projectId && c.request.idempotencyKey == key

def succeeded (o : Call × Result) : Bool := o.2.toOption.isSome

/-- The call has the key, and returned that it created the row. -/
def createdFor (projectId key : Text) (o : Call × Result) : Bool :=
  o.1.hasKey projectId key && (createdRow o).isSome

/-- The changeset exists, belongs to the project and is merged. -/
def Db.Merged (d : Db) (changesetId projectId : Text) : Prop :=
  ∃ row ∈ d.rows, row.request.changesetId = changesetId ∧ row.mergedIn projectId = true

/-- What the rows and the answers satisfy. -/
structure Idempotent (d : Db) : Prop where
  one_per_key : d.rows.Pairwise fun a b =>
    ¬(a.request.projectId = b.request.projectId ∧ a.request.idempotencyKey = b.request.idempotencyKey)
  one_child : d.rows.Pairwise fun a b =>
    ∀ p, a.request.retryOfChangesetId = some p → b.request.retryOfChangesetId ≠ some p
  created_once : ∀ projectId key,
    (∃ o ∈ d.outcomes, succeeded o = true ∧ o.1.hasKey projectId key = true) →
      d.outcomes.countP (createdFor projectId key) = 1
  /-- A call that succeeds returns the stored row of its key. -/
  same_row : ∀ o ∈ d.outcomes, ∀ row created, o.2 = .ok (row, created) →
    ∃ stored ∈ d.rows, stored.request = row.request ∧
      stored.request.projectId = o.1.request.projectId ∧
      stored.request.idempotencyKey = o.1.request.idempotencyKey
  differs_fails : ∀ o ∈ d.outcomes, ∀ stored ∈ d.rows,
    stored.request.projectId = o.1.request.projectId →
      stored.request.idempotencyKey = o.1.request.idempotencyKey →
        ¬o.1.Fits stored.request → ∃ failure, o.2 = .error failure
  rows_created : d.rows.map Row.request = d.outcomes.filterMap createdRow

/-- The rows that are inserted and not committed. -/
def Db.pending (d : Db) : List RequestColumns := d.calls.filterMap InFlight.pending

/-- What a step does to the rows. -/
structure Lawful (d : Db) (a : Action) (d' : Db) : Prop where
  /-- Only a call that ends by creating a row writes; other writers leave what the creation fixed. -/
  writes : d'.rows = d.rows ∨
    (∃ call row, d'.rows = d.rows ++ [row] ∧ d'.outcomes = d.outcomes ++ [(call, .ok (row, true))]) ∨
    ∃ changesetId current, a = .update changesetId current ∧
      d'.rows.map Row.request = d.rows.map Row.request
  inserts_merged : ∀ row ∈ d'.pending, row ∉ d.pending → ∀ control,
    row.controlMetadata.revert = some control → d.Merged control.sourceChangesetId row.projectId
  commits_merged : ∀ i llm c row source, a = .next i llm → d.calls[i]? = some c →
    c.phase = .inserted row → c.call.source = some source →
      d.Merged source row.request.projectId

/-! ## The invariant -/

/-- What the creations fixed in the committed rows. -/
def Db.stored (d : Db) : List RequestColumns := d.rows.map Row.request

/-- The controls are those of a revert of the source. -/
def Call.Controls (c : Call) (controls : ChangesetControlMetadata) : Prop :=
  ∀ s, c.source = some s → controls.revert.map AuthorizedRevertControl.sourceChangesetId = some s

def InFlight.SourceMerged (d : Db) (c : InFlight) : Prop :=
  ∀ s, c.call.source = some s → s ∈ c.shared ∧ d.Merged s c.call.request.projectId

/-- What a call in flight has read and written, by its phase. -/
def InFlight.Sound (d : Db) (c : InFlight) : Prop :=
  match c.phase with
  | .admitted controls => c.call.Controls controls ∧ c.SourceMerged d
  | .inserted row => c.call.Fits row.request ∧ c.SourceMerged d
  | .lineageReread (some row) =>
    row.request ∈ d.stored ∧ row.request.projectId = c.call.request.projectId ∧
      row.request.retryOfChangesetId = c.call.parent ∧ c.call.source = none
  | .settled (.ok (row, created)) => created = false ∧ c.call.Fits row.request ∧ row.request ∈ d.stored
  | _ => True

/-- The invariant. -/
structure Inv (d : Db) : Prop where
  apart : (d.stored ++ d.pending).Pairwise fun a b => a.conflicts b = false
  created : d.stored = d.outcomes.filterMap createdRow
  answered : ∀ o ∈ d.outcomes, ∀ row created, o.2 = .ok (row, created) →
    o.1.Fits row.request ∧ row.request ∈ d.stored
  sound : ∀ c ∈ d.calls, c.Sound d

variable {sha256 : Canonical → Text} {lockOf : Text → ℕ} {d d' : Db}

lemma conflicts_comm (a b : RequestColumns) : a.conflicts b = b.conflicts a := by
  have hparent : a.sameParent b = b.sameParent a := by
    unfold RequestColumns.sameParent
    by_cases h : a.retryOfChangesetId = b.retryOfChangesetId
    · rw [h]
    · rw [beq_false_of_ne h, beq_false_of_ne (Ne.symm h), Bool.and_false, Bool.and_false]
  have hkey : a.sameKey b = b.sameKey a := by
    unfold RequestColumns.sameKey
    rw [Bool.beq_comm, Bool.beq_comm (a := a.idempotencyKey)]
  unfold RequestColumns.conflicts
  rw [hparent, hkey, Bool.beq_comm]

lemma conflicts_eq_false {a b : RequestColumns} (h : a.conflicts b = false) :
    a.changesetId ≠ b.changesetId ∧
      ¬(a.projectId = b.projectId ∧ a.idempotencyKey = b.idempotencyKey) ∧
      ∀ p, a.retryOfChangesetId = some p → b.retryOfChangesetId ≠ some p := by
  simp only [RequestColumns.conflicts, RequestColumns.sameKey, RequestColumns.sameParent,
    Bool.or_eq_false_iff, beq_eq_false_iff_ne, Bool.and_eq_false_iff, ne_eq] at h
  obtain ⟨⟨hid, hkey⟩, hparent⟩ := h
  refine ⟨hid, fun hk => ?_, fun p ha hb => ?_⟩
  · exact hkey.elim (fun hne => hne hk.1) fun hne => hne hk.2
  · simp [ha, hb] at hparent

lemma apart_perm {l l' : List RequestColumns} (h : l.Perm l') :
    (l.Pairwise fun a b => a.conflicts b = false) ↔ l'.Pairwise fun a b => a.conflicts b = false :=
  h.pairwise_iff fun {a b} hab => (conflicts_comm b a).trans hab

/-! ## One statement -/

variable {row row' : Row}

lemma byKey_spec {projectId key : Text} (h : d.byKey projectId key = some row) :
    row.request ∈ d.stored ∧ row.request.projectId = projectId ∧ row.request.idempotencyKey = key := by
  have hkey := List.find?_some h
  simp only [Bool.and_eq_true, beq_iff_eq] at hkey
  exact ⟨List.mem_map_of_mem (List.mem_of_find?_eq_some h), hkey⟩

variable {parent llm : Text}

lemma byParent_spec {projectId : Text} (h : d.byParent projectId parent = some row) :
    row.request ∈ d.stored ∧ row.request.projectId = projectId ∧
      row.request.retryOfChangesetId = some parent := by
  have hparent := List.find?_some h
  simp only [Bool.and_eq_true, beq_iff_eq] at hparent
  exact ⟨List.mem_map_of_mem (List.mem_of_find?_eq_some h), hparent⟩

lemma byId_spec {changesetId : Text} (h : d.byId changesetId = some row) :
    row ∈ d.rows ∧ row.request.changesetId = changesetId :=
  ⟨List.mem_of_find?_eq_some h, by simpa using List.find?_some h⟩

variable {created : Bool}

lemma existing_ok {r : Request} (h : r.existing row = .ok (row', created)) :
    row' = row ∧ created = false ∧ row.request.idempotencyRequestSha256 = r.idempotencyRequestSha256 := by
  unfold Request.existing at h
  split_ifs at h with hdigest
  cases h
  exact ⟨rfl, rfl, not_not.1 hdigest⟩

/-- **A call accepts the row with its key only if the row fits it.** -/
lemma keyRow_ok {c : Call} (hproject : row.request.projectId = c.request.projectId)
    (hkey : row.request.idempotencyKey = c.request.idempotencyKey)
    (h : c.keyRow row = .ok (row', created)) :
    row' = row ∧ created = false ∧ c.Fits row.request := by
  cases c with
  | create r =>
    obtain ⟨rfl, rfl, hdigest⟩ := existing_ok h
    exact ⟨rfl, rfl, hproject, hkey, hdigest, (fun _ hp => nomatch hp), (fun _ hs => nomatch hs)⟩
  | revert r source =>
    simp only [Call.keyRow] at h
    split_ifs at h with hsource
    obtain ⟨rfl, rfl, hdigest⟩ := existing_ok h
    refine ⟨rfl, rfl, hproject, hkey, hdigest, (fun _ hp => nomatch hp), fun s hs => ?_⟩
    obtain rfl : source = s := Option.some.inj hs
    exact not_not.1 hsource
  | retry r parent controls =>
    simp only [Call.keyRow] at h
    split_ifs at h with hparent
    obtain ⟨rfl, rfl, hdigest⟩ := existing_ok h
    refine ⟨rfl, rfl, hproject, hkey, hdigest, fun p hp => ?_, (fun _ hs => nomatch hs)⟩
    obtain rfl : parent.1 = p := Option.some.inj hp
    -- an absent parent reads as the empty id, which no call has
    cases hrow : row'.request.retryOfChangesetId with
    | none => exact absurd (by rw [hrow]; exact fun h => parent.2 h.symm) hparent
    | some q =>
      rw [hrow] at hparent
      exact congrArg some (not_not.1 hparent)

lemma lineageRow_ok {c : Call} (hproject : row.request.projectId = c.request.projectId)
    (hparent : row.request.retryOfChangesetId = c.parent) (hsource : c.source = none)
    (h : c.request.lineageRow row = .ok (row', created)) :
    row' = row ∧ created = false ∧ c.Fits row.request := by
  unfold Request.lineageRow at h
  split_ifs at h with hkey
  obtain ⟨rfl, rfl, hdigest⟩ := existing_ok h
  refine ⟨rfl, rfl, hproject, not_not.1 hkey, hdigest, fun p hp => hparent.trans hp, fun s hs => ?_⟩
  exact nomatch hsource.symm.trans hs

variable {c c' : InFlight} {result : Result}

lemma sound_settled (hmem : row.request ∈ d.stored)
    (hok : ∀ row' created, result = .ok (row', created) →
      row' = row ∧ created = false ∧ c.call.Fits row.request) :
    ({ c with phase := .settled result } : InFlight).Sound d := by
  cases result with
  | error failure => trivial
  | ok value =>
    obtain ⟨row', created⟩ := value
    obtain ⟨rfl, rfl, hfits⟩ := hok row' created rfl
    exact ⟨rfl, hfits, hmem⟩

lemma merged_of_authorizes {row : RequestColumns} {control : AuthorizedRevertControl}
    (h : d.authorizes row = true) (hcontrol : row.controlMetadata.revert = some control) :
    d.Merged control.sourceChangesetId row.projectId := by
  unfold Db.authorizes at h
  rw [hcontrol] at h
  cases hsource : d.byId control.sourceChangesetId with
  | none => simp [hsource] at h
  | some source =>
    simp only [hsource, Bool.and_eq_true] at h
    obtain ⟨hmem, hid⟩ := byId_spec hsource
    exact ⟨source, hmem, hid, h.1⟩

lemma row_fits {c : Call} {controls : ChangesetControlMetadata} (llmSnapshot : Text)
    (h : c.Controls controls) : c.Fits (c.row controls llmSnapshot).request :=
  ⟨rfl, rfl, rfl, fun _ hp => hp, h⟩

/-- What a statement leaves: the call, what is known of it, and an inserted row that nothing conflicts
with and that the trigger admitted. -/
structure Advanced (d : Db) (i : ℕ) (c c' : InFlight) : Prop where
  call : c'.call = c.call
  sound : c'.Sound d
  inserted : ∀ row, c'.phase = .inserted row →
    (∀ x ∈ d.stored, row.request.conflicts x = false) ∧
      (∀ x ∈ (d.calls.eraseIdx i).filterMap InFlight.pending, row.request.conflicts x = false) ∧
      d.authorizes row.request = true

variable {i : ℕ}

lemma Advanced.settled (h : ({ c with phase := .settled result } : InFlight).Sound d) :
    Advanced d i c { c with phase := .settled result } :=
  ⟨rfl, h, fun _ hrow => nomatch hrow⟩

lemma lock_advanced {l : ℕ} {phase : Phase}
    (hphase : phase = .keyLocked ∨ phase = .lineageLocked) (h : d.lock i c l phase = some c') :
    Advanced d i c c' := by
  unfold Db.lock at h
  split_ifs at h
  cases h
  rcases hphase with rfl | rfl
  · exact ⟨rfl, trivial, fun _ hrow => nomatch hrow⟩
  · exact ⟨rfl, trivial, fun _ hrow => nomatch hrow⟩

lemma keyRow_advanced
    (h : d.byKey c.call.request.projectId c.call.request.idempotencyKey = some row) :
    Advanced d i c { c with phase := .settled (c.call.keyRow row) } := by
  obtain ⟨hmem, hproject, hkey⟩ := byKey_spec h
  exact .settled (sound_settled hmem fun row' created hok => keyRow_ok hproject hkey hok)

lemma readKey_advanced (i : ℕ) (c : InFlight) : Advanced d i c (d.readKey c) := by
  unfold Db.readKey
  cases hrow : d.byKey c.call.request.projectId c.call.request.idempotencyKey with
  | some row => exact keyRow_advanced hrow
  | none =>
    obtain ⟨call, phase, locks, shared⟩ := c
    cases call with
    | create r =>
      refine ⟨rfl, ⟨fun s hs => ?_, fun s hs => ?_⟩, fun _ hrow => nomatch hrow⟩
      · exact nomatch hs
      · exact nomatch hs
    | revert r source => exact ⟨rfl, trivial, fun _ hrow => nomatch hrow⟩
    | retry r parent controls => exact ⟨rfl, trivial, fun _ hrow => nomatch hrow⟩

lemma readSource_advanced (i : ℕ) {source : Text} (hcall : c.call.source = some source) :
    Advanced d i c (d.readSource sha256 c source) := by
  unfold Db.readSource
  cases hsource : d.byId source with
  | none => exact .settled trivial
  | some row =>
    dsimp only
    split_ifs with hmerged hdigest
    · exact .settled trivial
    · obtain ⟨hmem, hid⟩ := byId_spec hsource
      refine ⟨rfl, ⟨fun s hs => ?_, fun s hs => ?_⟩, fun _ hrow => nomatch hrow⟩
      · exact hcall.symm.trans hs
      · obtain rfl : source = s := Option.some.inj (hcall.symm.trans hs)
        exact ⟨List.mem_cons_self, row, hmem, hid, hmerged⟩
    · exact .settled trivial

lemma readLineage_advanced (i : ℕ) (controls : ChangesetControlMetadata)
    (hcall : c.call.parent = some parent) (hsource : c.call.source = none) :
    Advanced d i c (d.readLineage c parent controls) := by
  unfold Db.readLineage
  cases hrow : d.byParent c.call.request.projectId parent with
  | some row =>
    obtain ⟨hmem, hproject, hparent⟩ := byParent_spec hrow
    exact .settled (sound_settled hmem fun row' created hok =>
      lineageRow_ok hproject (hparent.trans hcall.symm) hsource hok)
  | none =>
    refine ⟨rfl, ⟨fun s hs => ?_, fun s hs => ?_⟩, fun _ hrow => nomatch hrow⟩
    · exact nomatch hsource.symm.trans hs
    · exact nomatch hsource.symm.trans hs

/-- **An insert leaves a row that no other one conflicts with.** -/
lemma insert_advanced {controls : ChangesetControlMetadata}
    (hcontrols : c.call.Controls controls) (hmerged : c.SourceMerged d)
    (h : d.insert i c controls llm = some c') : Advanced d i c c' := by
  unfold Db.insert at h
  dsimp only at h
  split_ifs at h with htrigger hpassed hwaits hrefused
  · cases h
    exact .settled trivial
  · cases h
    exact ⟨rfl, trivial, fun _ hrow => nomatch hrow⟩
  · cases h
    exact .settled trivial
  · cases h
    refine ⟨rfl, ⟨row_fits llm hcontrols, hmerged⟩, fun row hrow => ?_⟩
    obtain rfl : c.call.row controls llm = row := Phase.inserted.inj hrow
    refine ⟨fun x hx => ?_, fun x hx => ?_, ?_⟩
    · obtain ⟨other, hother, rfl⟩ := List.mem_map.1 hx
      by_contra hconflict
      exact hrefused (.inl (List.any_eq_true.2 ⟨other, hother, Bool.eq_true_of_not_eq_false hconflict⟩))
    · by_contra hconflict
      exact hwaits (List.any_eq_true.2 ⟨x, hx, Bool.eq_true_of_not_eq_false hconflict⟩)
    · exact Bool.eq_true_of_not_eq_false fun hfalse => htrigger (.inl hfalse)

lemma rereadKey_advanced {lineage : Option Row}
    (h : ({ c with phase := .lineageReread lineage } : InFlight).Sound d) :
    Advanced d i c (d.rereadKey c lineage) := by
  unfold Db.rereadKey
  cases lineage with
  | some row =>
    obtain ⟨hmem, hproject, hparent, hsource⟩ := h
    exact .settled (sound_settled hmem fun row' created hok =>
      lineageRow_ok hproject hparent hsource hok)
  | none =>
    cases hrow : d.byKey c.call.request.projectId c.call.request.idempotencyKey with
    | some row => exact keyRow_advanced hrow
    | none => exact ⟨rfl, trivial, fun _ hrow => nomatch hrow⟩

lemma lineageReread_advanced (i : ℕ) (hcall : c.call.parent = some parent)
    (hsource : c.call.source = none) :
    Advanced d i c
      { c with phase := .lineageReread (d.byParent c.call.request.projectId parent) } := by
  refine ⟨rfl, ?_, fun _ hrow => nomatch hrow⟩
  unfold InFlight.Sound
  dsimp only
  cases hrow : d.byParent c.call.request.projectId parent with
  | none => trivial
  | some row =>
    obtain ⟨hmem, hproject, hparent⟩ := byParent_spec hrow
    exact ⟨hmem, hproject, hparent.trans hcall.symm, hsource⟩

/-- **Every statement of a call advances it.** -/
lemma advance_advanced (hc : c.Sound d)
    (h : d.advance sha256 lockOf i c llm = some c') : Advanced d i c c' := by
  obtain ⟨call, phase, locks, shared⟩ := c
  cases phase with
  | opened => exact lock_advanced (.inl rfl) h
  | keyLocked =>
    cases call with
    | retry r parent controls => exact lock_advanced (.inr rfl) h
    | create r | revert r source =>
      cases h
      exact readKey_advanced i _
  | lineageLocked =>
    cases h
    exact readKey_advanced i _
  | keyRead =>
    cases call with
    | create r => exact nomatch h
    | revert r source =>
      cases h
      exact readSource_advanced i rfl
    | retry r parent controls =>
      cases h
      exact readLineage_advanced i controls rfl rfl
  | admitted controls => exact insert_advanced hc.1 hc.2 h
  | inserted row => exact nomatch h
  | conflicted =>
    cases call with
    | retry r parent controls =>
      cases h
      exact lineageReread_advanced i rfl rfl
    | create r | revert r source =>
      simp only [Db.advance] at h
      split at h
      · next row hrow =>
        cases h
        exact keyRow_advanced hrow
      · cases h
        exact .settled trivial
  | lineageReread row =>
    cases h
    exact rereadKey_advanced hc
  | neither =>
    cases call with
    | create r | revert r source => exact nomatch h
    | retry r parent controls =>
      cases h
      unfold Db.readForeign
      split_ifs
      · exact .settled trivial
      · exact .settled trivial
  | settled result => exact nomatch h

/-! ## One step -/

lemma InFlight.Sound.mono (h : c.Sound d) (hstored : ∀ x ∈ d.stored, x ∈ d'.stored)
    (hshared : ∀ row ∈ d.rows, row.request.changesetId ∈ c.shared → row ∈ d'.rows) : c.Sound d' := by
  have hmerged (hs : c.SourceMerged d) : c.SourceMerged d' := by
    intro s hcall
    obtain ⟨hlocked, row, hmem, hid, hrow⟩ := hs s hcall
    exact ⟨hlocked, row, hshared row hmem (by rwa [hid]), hid, hrow⟩
  obtain ⟨call, phase, locks, shared⟩ := c
  cases phase with
  | admitted controls => exact ⟨h.1, hmerged h.2⟩
  | inserted row => exact ⟨h.1, hmerged h.2⟩
  | lineageReread lineage =>
    cases lineage with
    | none => trivial
    | some row => exact ⟨hstored _ h.1, h.2⟩
  | settled result =>
    cases result with
    | error failure => trivial
    | ok value => exact ⟨h.1, h.2.1, hstored _ h.2.2⟩
  | opened | keyLocked | lineageLocked | keyRead | conflicted | neither => trivial

lemma pending_perm (h : d.calls[i]? = some c) :
    d.pending.Perm (c.pending.toList ++ (d.calls.eraseIdx i).filterMap InFlight.pending) := by
  obtain ⟨hlt, hget⟩ := List.getElem?_eq_some_iff.1 h
  have hperm : d.pending.Perm ((c :: d.calls.eraseIdx i).filterMap InFlight.pending) := by
    rw [← hget]
    exact ((List.getElem_cons_eraseIdx_perm hlt).filterMap _).symm
  cases hc : c.pending with
  | none => rwa [List.filterMap_cons_none hc] at hperm
  | some row => rwa [List.filterMap_cons_some hc] at hperm

lemma pending_eq_none (h : ∀ row, c.phase ≠ .inserted row) : c.pending = none := by
  obtain ⟨call, phase, locks, shared⟩ := c
  cases phase with
  | inserted row => exact absurd rfl (h row)
  | opened | keyLocked | lineageLocked | keyRead | admitted | conflicted | lineageReread | neither
  | settled => rfl

lemma pending_eq_some {row : RequestColumns} (h : c.pending = some row) :
    ∃ inserted, c.phase = .inserted inserted ∧ inserted.request = row := by
  unfold InFlight.pending at h
  split at h
  · next inserted hphase => exact ⟨inserted, hphase, Option.some.inj h⟩
  · exact nomatch h

lemma next_cases (h : d.next sha256 lockOf i llm = some d') :
    ∃ c, d.calls[i]? = some c ∧
      ((∃ result, c.phase = .settled result ∧ d' = d.finish i c result) ∨
        (∃ row, c.phase = .inserted row ∧ d' = d.commit i c row) ∨
        ((∀ row, c.phase ≠ .inserted row) ∧ ∃ c', d.advance sha256 lockOf i c llm = some c' ∧
          d' = { d with calls := d.calls.set i c' })) := by
  obtain ⟨c, hc, h⟩ := Option.bind_eq_some_iff.1 h
  refine ⟨c, hc, ?_⟩
  split at h
  · next result hphase =>
    cases h
    exact .inl ⟨result, hphase, rfl⟩
  · next row hphase =>
    cases h
    exact .inr (.inl ⟨row, hphase, rfl⟩)
  · next hsettled hinserted =>
    obtain ⟨c', hadvance, rfl⟩ := Option.map_eq_some_iff.1 h
    exact .inr (.inr ⟨hinserted, c', hadvance, rfl⟩)

lemma Inv.finish (hinv : Inv d) (hresult : ∀ row created, result = .ok (row, created) →
      created = false ∧ c.call.Fits row.request ∧ row.request ∈ d.stored) :
    Inv (d.finish i c result) where
  apart := hinv.apart.sublist
    ((List.Sublist.refl _).append ((List.eraseIdx_sublist _ _).filterMap _))
  created := by
    have hnone : createdRow (c.call, result) = none := by
      cases result with
      | error failure => rfl
      | ok value =>
        obtain ⟨row, created⟩ := value
        obtain ⟨rfl, -⟩ := hresult row created rfl
        rfl
    have hnew : (d.finish i c result).outcomes.filterMap createdRow =
        d.outcomes.filterMap createdRow := by
      simp [Db.finish, List.filterMap_append, hnone]
    exact hinv.created.trans hnew.symm
  answered := by
    intro o ho row created hok
    rcases List.mem_append.1 ho with hold | hnew
    · exact hinv.answered o hold row created hok
    · obtain rfl := List.mem_singleton.1 hnew
      exact (hresult row created hok).2
  sound := fun other hother =>
    (hinv.sound other ((List.eraseIdx_sublist _ _).mem hother)).mono (fun _ hx => hx) fun _ hrow _ => hrow

lemma Inv.commit (hinv : Inv d) (hc : d.calls[i]? = some c)
    (hphase : c.phase = .inserted row) : Inv (d.commit i c row) := by
  have hstored : (d.commit i c row).stored = d.stored ++ [row.request] := by
    simp [Db.stored, Db.commit]
  have hmono : ∀ x ∈ d.stored, x ∈ (d.commit i c row).stored := fun x hx => by
    rw [hstored]
    exact List.mem_append_left _ hx
  have hfits : c.call.Fits row.request := by
    have hsound := hinv.sound c (List.mem_of_getElem? hc)
    rw [InFlight.Sound, hphase] at hsound
    exact hsound.1
  refine ⟨?_, ?_, fun o ho row' created hok => ?_, fun other hother => ?_⟩
  · have hpending : c.pending = some row.request := by rw [InFlight.pending, hphase]
    have hperm := pending_perm hc
    rw [hpending] at hperm
    have hall := (apart_perm (hperm.append_left d.stored)).1 hinv.apart
    rw [hstored, List.append_assoc]
    exact hall
  · rw [hstored, hinv.created]
    simp [Db.commit, Db.finish, createdRow]
  · rcases List.mem_append.1 ho with hold | hnew
    · obtain ⟨hf, hmem⟩ := hinv.answered o hold row' created hok
      exact ⟨hf, hmono _ hmem⟩
    · obtain rfl := List.mem_singleton.1 hnew
      obtain ⟨rfl, rfl⟩ : row = row' ∧ true = created := by simpa using hok
      exact ⟨hfits, by simp [hstored]⟩
  · exact (hinv.sound other ((List.eraseIdx_sublist _ _).mem hother)).mono hmono
      fun r hr _ => List.mem_append_left _ hr

lemma Inv.advance (hinv : Inv d) (hc : d.calls[i]? = some c)
    (hnew : ∀ row, c.phase ≠ .inserted row) (h : Advanced d i c c') :
    Inv { d with calls := d.calls.set i c' } := by
  refine ⟨?_, hinv.created, hinv.answered, fun other hother => ?_⟩
  · have hother := pending_perm hc
    rw [pending_eq_none hnew] at hother
    have hset : ({ d with calls := d.calls.set i c' } : Db).calls[i]? = some c' :=
      List.getElem?_set_self (List.getElem?_eq_some_iff.1 hc).1
    have hperm := pending_perm hset
    have herase : (d.calls.set i c').eraseIdx i = d.calls.eraseIdx i := List.eraseIdx_set_eq
    simp only [herase] at hperm
    refine (apart_perm (hperm.append_left _)).2 ?_
    have hold := (apart_perm (hother.append_left _)).1 hinv.apart
    cases hpending : c'.pending with
    | none => exact hold
    | some row =>
      -- the new row is apart from the committed ones and from those in flight
      obtain ⟨row', hphase, rfl⟩ := pending_eq_some hpending
      obtain ⟨hcommitted, hothers, -⟩ := h.inserted row' hphase
      refine (apart_perm List.perm_middle).2 (List.pairwise_cons.2 ⟨fun x hx => ?_, hold⟩)
      exact (List.mem_append.1 hx).elim (hcommitted x) (hothers x)
  · have hsound : other.Sound d := by
      rcases List.mem_or_eq_of_mem_set hother with hmem | rfl
      · exact hinv.sound other hmem
      · exact h.sound
    exact hsound.mono (fun _ hx => hx) fun _ hrow _ => hrow

lemma stored_updated (changesetId : Text) (current : MutableColumns) :
    (d.rows.map (Row.updated changesetId current)).map Row.request = d.rows.map Row.request := by
  rw [List.map_map]
  refine List.map_congr_left fun row _ => ?_
  simp only [Function.comp_apply, Row.updated]
  split_ifs <;> rfl

theorem Inv.step (hinv : Inv d) {a : Action} (h : d.step sha256 lockOf a = some d') : Inv d' := by
  cases a with
  | start call =>
    obtain rfl : d.start sha256 call = d' := Option.some.inj h
    unfold Db.start
    cases hcheck : call.precheck sha256 with
    | some failure =>
      refine ⟨hinv.apart, ?_, fun o ho row created hok => ?_, hinv.sound⟩
      · have hnone : createdRow (call, .error failure) = none := rfl
        simpa [Db.stored, List.filterMap_append, List.filterMap_cons_none hnone] using hinv.created
      · rcases List.mem_append.1 ho with hold | hnew
        · exact hinv.answered o hold row created hok
        · obtain rfl := List.mem_singleton.1 hnew
          exact nomatch hok
    | none =>
      refine ⟨?_, hinv.created, hinv.answered, fun other hother => ?_⟩
      · have hnone : InFlight.pending { call := call } = none := rfl
        simpa [Db.stored, Db.pending, List.filterMap_append, List.filterMap_cons_none hnone]
          using hinv.apart
      · rcases List.mem_append.1 hother with hold | hnew
        · exact (hinv.sound other hold).mono (fun _ hx => hx) fun _ hrow _ => hrow
        · obtain rfl := List.mem_singleton.1 hnew
          trivial
  | next i llm =>
    obtain ⟨c, hc, hcase⟩ := next_cases h
    have hsound := hinv.sound c (List.mem_of_getElem? hc)
    rcases hcase with ⟨result, hphase, rfl⟩ | ⟨row, hphase, rfl⟩ | ⟨hnew, c', hadvance, rfl⟩
    · refine hinv.finish fun row created hok => ?_
      rw [InFlight.Sound, hphase, hok] at hsound
      exact hsound
    · exact hinv.commit hc hphase
    · exact hinv.advance hc hnew (advance_advanced hsound hadvance)
  | abort i =>
    obtain ⟨c, hc, rfl⟩ := Option.map_eq_some_iff.1 h
    exact hinv.finish fun row created hok => nomatch hok
  | update changesetId current =>
    simp only [Db.step, Db.update] at h
    split_ifs at h with hlocked
    cases h
    have hstored : ({ d with rows := d.rows.map (Row.updated changesetId current) } : Db).stored =
        d.stored := stored_updated changesetId current
    refine ⟨?_, hstored.trans hinv.created, fun o ho row created hok => ?_, fun c hc => ?_⟩
    · rw [hstored]
      exact hinv.apart
    · rw [hstored]
      exact hinv.answered o ho row created hok
    · refine (hinv.sound c hc).mono (fun x hx => by rwa [hstored]) fun row hrow hshared => ?_
      -- a locked row is not the one that is updated
      refine List.mem_map.2 ⟨row, hrow, if_neg fun hid => hlocked ?_⟩
      exact List.any_eq_true.2 ⟨c, hc, List.contains_iff_mem.2 (hid ▸ hshared)⟩

/-! ## Runs -/

theorem reach_inv (h : (creating sha256 lockOf).Reach d) : Inv d := by
  refine StepMachine.Reach.induct ?_ (fun d a d' _ hinv hst => hinv.step hst) h
  exact ⟨List.Pairwise.nil, rfl, (fun o ho => nomatch ho), (fun c hc => nomatch hc)⟩

lemma Inv.countP_le_one (hinv : Inv d) (projectId key : Text) :
    d.stored.countP (fun x => x.projectId == projectId && x.idempotencyKey == key) ≤ 1 := by
  refine Rows.countP_le_one_of_pairwise ?_
  refine ((List.pairwise_append.1 hinv.apart).1).imp fun {a b} hab ⟨ha, hb⟩ => ?_
  simp only [Bool.and_eq_true, beq_iff_eq] at ha hb
  exact (conflicts_eq_false hab).2.1 ⟨ha.1.trans hb.1.symm, ha.2.trans hb.2.symm⟩

lemma Inv.countP_createdFor (hinv : Inv d) (projectId key : Text) :
    d.outcomes.countP (createdFor projectId key) =
      d.stored.countP fun x => x.projectId == projectId && x.idempotencyKey == key := by
  rw [hinv.created, List.countP_filterMap]
  refine List.countP_congr fun o ho => ?_
  unfold createdFor
  cases hrow : createdRow o with
  | none => simp
  | some x =>
    -- the row that the call created has its key
    obtain ⟨row, hok, rfl⟩ : ∃ row, o.2 = .ok (row, true) ∧ row.request = x := by
      unfold createdRow at hrow
      split at hrow
      · next row hok => exact ⟨row, hok, Option.some.inj hrow⟩
      · exact nomatch hrow
    obtain ⟨hfits, -⟩ := hinv.answered o ho row true hok
    simp [Call.hasKey, hfits.project, hfits.key]

theorem Inv.idempotent (hinv : Inv d) : Idempotent d where
  one_per_key := (List.pairwise_map.1 (List.pairwise_append.1 hinv.apart).1).imp fun {a b} hab =>
    (conflicts_eq_false hab).2.1
  one_child := (List.pairwise_map.1 (List.pairwise_append.1 hinv.apart).1).imp fun {a b} hab =>
    (conflicts_eq_false hab).2.2
  created_once := by
    rintro projectId key ⟨o, ho, hsucceeded, hkey⟩
    rw [hinv.countP_createdFor]
    refine le_antisymm (hinv.countP_le_one projectId key) (List.one_le_countP_iff.2 ?_)
    obtain ⟨call, result⟩ := o
    cases result with
    | error failure => exact nomatch hsucceeded
    | ok value =>
      obtain ⟨hfits, hmem⟩ := hinv.answered _ ho value.1 value.2 rfl
      refine ⟨value.1.request, hmem, ?_⟩
      rw [hfits.project, hfits.key]
      exact hkey
  same_row := by
    intro o ho row created hok
    obtain ⟨hfits, hmem⟩ := hinv.answered o ho row created hok
    obtain ⟨stored, hstored, heq⟩ := List.mem_map.1 hmem
    exact ⟨stored, hstored, heq, by rw [heq, hfits.project], by rw [heq, hfits.key]⟩
  differs_fails := by
    intro o ho stored hstored hproject hkey hdiffers
    cases hresult : o.2 with
    | error failure => exact ⟨failure, rfl⟩
    | ok value =>
      obtain ⟨hfits, hmem⟩ := hinv.answered o ho value.1 value.2 hresult
      -- the row that was returned is the one with the key
      have hsame : stored.request = value.1.request := by
        by_contra hne
        have hsymm : Std.Symm fun a b : RequestColumns => a.conflicts b = false :=
          ⟨fun a b hab => (conflicts_comm b a).trans hab⟩
        have hapart := (List.pairwise_append.1 hinv.apart).1.forall (List.mem_map_of_mem hstored) hmem hne
        refine (conflicts_eq_false hapart).2.1 ⟨?_, ?_⟩
        · rw [hproject, hfits.project]
        · rw [hkey, hfits.key]
      exact absurd (hsame ▸ hfits) hdiffers
  rows_created := hinv.created

theorem Inv.lawful (hinv : Inv d) {a : Action} (h : (creating sha256 lockOf).step d a = some d') :
    Lawful d a d' where
  writes := by
    cases a with
    | start call =>
      obtain rfl : d.start sha256 call = d' := Option.some.inj h
      left
      unfold Db.start
      split <;> rfl
    | next i llm =>
      obtain ⟨c, -, hcase⟩ := next_cases h
      rcases hcase with ⟨result, -, rfl⟩ | ⟨row, -, rfl⟩ | ⟨-, c', -, rfl⟩
      · exact .inl rfl
      · exact .inr (.inl ⟨c.call, row, rfl, rfl⟩)
      · exact .inl rfl
    | abort i =>
      obtain ⟨c, -, rfl⟩ := Option.map_eq_some_iff.1 h
      exact .inl rfl
    | update changesetId current =>
      have hupdate : d.update changesetId current = some d' := h
      unfold Db.update at hupdate
      split_ifs at hupdate
      cases hupdate
      exact .inr (.inr ⟨changesetId, current, rfl, stored_updated changesetId current⟩)
  inserts_merged := by
    intro row hnew hnot control hcontrol
    cases a with
    | start call =>
      obtain rfl : d.start sha256 call = d' := Option.some.inj h
      have hsame : (d.start sha256 call).pending = d.pending := by
        unfold Db.start
        have hnone : InFlight.pending { call := call } = none := rfl
        split
        · rfl
        · simp [Db.pending, List.filterMap_append, List.filterMap_cons_none hnone]
      exact absurd (hsame ▸ hnew) hnot
    | next i llm =>
      obtain ⟨c, hc, hcase⟩ := next_cases h
      have hsound := hinv.sound c (List.mem_of_getElem? hc)
      have hends : row ∈ (d.calls.eraseIdx i).filterMap InFlight.pending → row ∈ d.pending :=
        ((List.eraseIdx_sublist _ _).filterMap _).mem
      rcases hcase with ⟨result, -, rfl⟩ | ⟨row', -, rfl⟩ | ⟨-, c', hadvance, rfl⟩
      · exact absurd (hends hnew) hnot
      · exact absurd (hends hnew) hnot
      · obtain ⟨other, hother, hpending⟩ := List.mem_filterMap.1 hnew
        rcases List.mem_or_eq_of_mem_set hother with hold | rfl
        · exact absurd (List.mem_filterMap.2 ⟨other, hold, hpending⟩) hnot
        · obtain ⟨inserted, hphase, rfl⟩ := pending_eq_some hpending
          have hadvanced := advance_advanced hsound hadvance
          exact merged_of_authorizes (hadvanced.inserted inserted hphase).2.2 hcontrol
    | abort i =>
      obtain ⟨c, -, rfl⟩ := Option.map_eq_some_iff.1 h
      exact absurd (((List.eraseIdx_sublist _ _).filterMap _).mem hnew) hnot
    | update changesetId current =>
      have hupdate : d.update changesetId current = some d' := h
      unfold Db.update at hupdate
      split_ifs at hupdate
      cases hupdate
      exact absurd hnew hnot
  commits_merged := by
    rintro i llm c row source rfl hc hphase hsource
    have hsound := hinv.sound c (List.mem_of_getElem? hc)
    rw [InFlight.Sound, hphase] at hsound
    obtain ⟨hfits, hmerged⟩ := hsound
    rw [hfits.project]
    exact (hmerged source hsource).2

/-- **The creation of changesets is idempotent**: in every state that is reached a key has one row and a
parent one retry child, exactly one of the calls that succeed for a key created its row and all return it,
a call that differs from the row fails, and a failed call wrote nothing; and every step inserts a revert
only of a source that is merged in the project.

**Proof sketch.** The unique indexes keep the committed rows and those in flight apart, and the committed
rows are those of the calls that returned that they created one. What a call returns otherwise it read
under its key or its parent and compared with its arguments. -/
theorem creation_idempotent (sha256 : Canonical → Text) (lockOf : Text → ℕ) {d : Db}
    (h : (creating sha256 lockOf).Reach d) :
    Idempotent d ∧ ∀ a d', (creating sha256 lockOf).step d a = some d' → Lawful d a d' :=
  ⟨(reach_inv h).idempotent, fun _ _ hst => (reach_inv h).lawful hst⟩

/-! ## Calls that meet -/

/-- The digest of the revert of `cs-1`. -/
def revertDigest : String := "678d1b902bbafdf9bea42de25bd1b70eea081dc5274ba2ebefe4f6f4e71b4efe"

/-- The one digest that the calls below compute. -/
def exampleSha256 (_ : Canonical) : Text := Text.ofString revertDigest

/-- A number for each name of a lock. -/
def exampleLock (name : Text) : ℕ := name.foldl (fun n unit => 65536 * n + unit.toNat) 1

/-- A request of the project `p`. -/
def exampleRequest (changesetId key title digest : String) : Request where
  changesetId := Text.ofString changesetId
  projectId := Text.ofString "p"
  idempotencyKey := Text.ofString key
  idempotencyRequestSha256 := Text.ofString digest
  runId := none
  baseBranch := some (Text.ofString "main")
  task := Text.ofString title
  repositoryTarget := ⟨Text.ofString "rg_01", Text.ofString "p", 1, 1, Text.ofString "o/r"⟩

def addDigest : String := "8cf761dbbcbb89f0a3275806821ce02f3be75b31ed9f3a0edbbb0a4215934fe8"

def fixDigest : String := "173f3f4b71ece1eb14cef1c298d5e34c5afaeb78143e15aeb5ec47de78fa23a6"

/-- The next statements of a call. -/
def exampleSteps (n : ℕ) : List Action := List.replicate n (.next 0 [])

/-- Two calls with one key, and one that differs; the changeset is merged, and a call reverts it. -/
def exampleCalls : List Action :=
  [.start (.create (exampleRequest "cs-1" "k" "Add" addDigest)),
   .start (.create (exampleRequest "cs-2" "k" "Add" addDigest))] ++
  exampleSteps 4 ++ exampleSteps 3 ++
  [.start (.create (exampleRequest "cs-3" "k" "Fix" fixDigest))] ++ exampleSteps 3 ++
  [.update (Text.ofString "cs-1") { status := .merged, mergeSha := some (Text.ofString "6a01") },
   .start (.revert (exampleRequest "cs-4" "r" "Revert" revertDigest) (Text.ofString "cs-1"))] ++
  exampleSteps 5

/-- The calls end as they should. -/
theorem creation_idempotent_met : ∃ d,
    (creating exampleSha256 exampleLock).Reach d ∧
    d.outcomes.map (fun o => o.2.toOption.map fun v => (v.1.request.changesetId, v.2)) =
      [some (Text.ofString "cs-1", true), some (Text.ofString "cs-1", false), none,
       some (Text.ofString "cs-4", true)] ∧
    Idempotent d ∧ ∀ a d', (creating exampleSha256 exampleLock).step d a = some d' → Lawful d a d' := by
  have hrun : ((creating exampleSha256 exampleLock).run (creating exampleSha256 exampleLock).init
      exampleCalls).map (fun d =>
        d.outcomes.map (fun o => o.2.toOption.map fun v => (v.1.request.changesetId, v.2))) =
      some [some (Text.ofString "cs-1", true), some (Text.ofString "cs-1", false), none,
       some (Text.ofString "cs-4", true)] := by
    decide +kernel
  obtain ⟨d, hd, houtcomes⟩ := Option.map_eq_some_iff.1 hrun
  have hreach := StepMachine.reach_of_run hd
  exact ⟨d, hreach, houtcomes, creation_idempotent exampleSha256 exampleLock hreach⟩

end Apdl.Codegen.Creation
