import Apdl.Query.Analysis.Reference

set_option autoImplicit false

/-!
# Correctness of the experiment analysis query

The query returns the rows of the reference analysis when every event that counts was received on a
day of the window. Deliveries after the boundary and replays never change its rows.

## Main results

* `late_exposure_not_counted` — an event received the day after the window ends is lost.
-/

namespace Apdl.Query

/-! ## The events at the boundary -/

section Boundary

variable {A : Analysis} {table : List EventRow}

lemma before_iff {a b : EventRow} : a.Before b ↔
    toLex (a.messageKey, OrderDual.toDual a.receipt) ≤
      toLex (b.messageKey, OrderDual.toDual b.receipt) := by
  rw [Prod.Lex.le_iff]
  rfl

instance : Std.Total EventRow.Before :=
  ⟨fun a b => by simpa only [before_iff] using le_total _ _⟩

instance : IsTrans EventRow EventRow.Before :=
  ⟨fun a b c => by simpa only [before_iff] using le_trans⟩

lemma atBoundary_iff (htable : ∀ d, d ∈ table ↔ d ∈ A.deliveries) {d : EventRow} :
    d ∈ (Sql.replacingFinal EventRow.sortingKey EventRow.receivedAt table).filter
      (EventRow.atBoundary A.params) ↔ A.AtBoundary d := by
  have hkeyed : ∀ x ∈ table, ∀ y ∈ table, x.sortingKey = y.sortingKey → x = y :=
    fun x hx y hy => A.keyed x ((htable x).1 hx) y ((htable y).1 hy)
  rw [List.mem_filter, Sql.mem_replacingFinal hkeyed, htable]
  refine and_congr_right fun _ => ?_
  simp only [EventRow.atBoundary, Bool.and_eq_true, Bool.or_eq_true, decide_eq_true_eq]
  cases hid : d.sourceStreamId with
  | none => simp [Analysis.params, queryParams]
  | some id =>
    simp only [decide_eq_true_eq]
    simp [Analysis.params, queryParams]

lemma eq_of_receipt {x y : EventRow} (hx : A.AtBoundary x) (hy : A.AtBoundary y)
    (h : x.receipt = y.receipt) : x = y := by
  obtain ⟨hxd, hxp, hxs, i, hi, -⟩ := hx
  obtain ⟨hyd, hyp, hys, j, hj, -⟩ := hy
  refine A.keyed x hxd y hyd ?_
  have hparts : i = j := by simpa [EventRow.receipt, EventRow.streamParts, hi, hj] using
    (Prod.mk.inj (toLex.injective h)).2
  rw [EventRow.sortingKey, EventRow.sortingKey, hxp, hyp, hxs, hys, hi, hj, hparts]

theorem mem_boundaryEvents (htable : ∀ d, d ∈ table ↔ d ∈ A.deliveries) {d : EventRow} :
    d ∈ boundaryEvents table A.params ↔ A.Latest d := by
  have hproject : ∀ x y, A.AtBoundary x → A.AtBoundary y →
      (x.messageKey = y.messageKey ↔ x.messageId = y.messageId) := by
    intro x y hx hy
    simp [EventRow.messageKey, hx.2.1, hy.2.1]
  rw [boundaryEvents, Sql.mem_limitOneBy_insertionSort]
  · simp only [atBoundary_iff htable]
    refine and_congr_right fun hd => forall_congr' fun x => ?_
    refine forall_congr' fun hx => ?_
    rw [hproject x d hx hd]
    refine forall_congr' fun hmsg => ?_
    have hkey := (hproject x d hx hd).2 hmsg
    simp [EventRow.Before, hkey]
  · intro x hx y hy hkey hxy hyx
    rw [atBoundary_iff htable] at hx hy
    refine eq_of_receipt hx hy (le_antisymm ?_ ?_)
    · simpa [EventRow.Before, hkey] using hyx
    · simpa [EventRow.Before, hkey] using hxy

lemma boundaryEvents_sorted (table : List EventRow) (p : QueryParams) :
    (boundaryEvents table p).Pairwise fun a b => a.messageKey < b.messageKey := by
  have hbefore : (boundaryEvents table p).Pairwise EventRow.Before :=
    (List.pairwise_insertionSort EventRow.Before _).sublist (Sql.limitOneBy_sublist _)
  have hdistinct : (boundaryEvents table p).Pairwise fun a b => a.messageKey ≠ b.messageKey :=
    List.pairwise_map.1 (Sql.nodup_keys_limitOneBy _)
  exact (hbefore.and hdistinct).imp fun h => h.1.resolve_right fun heq => h.2 heq.1

lemma boundaryEvents_nodup (table : List EventRow) (p : QueryParams) :
    (boundaryEvents table p).Nodup :=
  (boundaryEvents_sorted table p).imp fun h => ne_of_apply_ne EventRow.messageKey h.ne

theorem boundaryEvents_eq {A' : Analysis} {table' : List EventRow}
    (htable : ∀ d, d ∈ table ↔ d ∈ A.deliveries) (htable' : ∀ d, d ∈ table' ↔ d ∈ A'.deliveries)
    (hparams : A'.params = A.params) (hsame : ∀ d, A'.AtBoundary d ↔ A.AtBoundary d) :
    boundaryEvents table' A.params = boundaryEvents table A.params := by
  have hmem : ∀ d, d ∈ boundaryEvents table' A.params ↔ d ∈ boundaryEvents table A.params := by
    intro d
    rw [mem_boundaryEvents htable, ← hparams, mem_boundaryEvents htable']
    simp only [Analysis.Latest, hsame]
  refine List.Perm.eq_of_pairwise (fun a b _ _ hab hba => absurd hba (lt_asymm hab))
    (boundaryEvents_sorted _ _) (boundaryEvents_sorted _ _) ?_
  exact (List.perm_ext_iff_of_nodup (boundaryEvents_nodup _ _) (boundaryEvents_nodup _ _)).2 hmem

end Boundary

/-! ## Actors -/

/-- The actor ID of the query. -/
def Actor.text : Actor → String
  | .user u => "u:" ++ u
  | .anonymous a => "a:" ++ a

lemma user_text_ne_anonymous (u a : String) : "u:" ++ u ≠ "a:" ++ a := by
  intro h
  have hlist := congrArg String.toList h
  simp at hlist

lemma Actor.text_ne_empty (a : Actor) : a.text ≠ "" := by
  cases a <;> simp [Actor.text]

lemma Actor.text_injective : Function.Injective Actor.text := by
  intro a b h
  cases a with
  | user u =>
    cases b with
    | user v => rw [(String.append_right_inj "u:").1 h]
    | anonymous y => exact absurd h (user_text_ne_anonymous u y)
  | anonymous x =>
    cases b with
    | user v => exact absurd h.symm (user_text_ne_anonymous v x)
    | anonymous y => rw [(String.append_right_inj "a:").1 h]

section Identity

variable {A : Analysis} {events : List EventRow}

lemma mem_users (hevents : ∀ d, d ∈ events ↔ A.Latest d) {anonymousId u : String} :
    u ∈ (events.filter fun d =>
      decide (d.projectId = A.params.projectId) && decide (d.eventType = "identify") &&
        decide (d.userId ≠ "") && decide (d.anonymousId ≠ "") &&
        decide (d.anonymousId = anonymousId)).map EventRow.userId ↔
      A.Identifies anonymousId u := by
  simp only [List.mem_map, List.mem_filter, Bool.and_eq_true, decide_eq_true_eq, hevents]
  constructor
  · rintro ⟨d, ⟨hd, ⟨⟨⟨-, htype⟩, huser⟩, hanon⟩, rfl⟩, rfl⟩
    exact ⟨hanon, huser, d, hd, htype, rfl, rfl⟩
  · rintro ⟨hanon, huser, d, hd, htype, rfl, rfl⟩
    exact ⟨d, ⟨hd, ⟨⟨⟨hd.1.2.1, htype⟩, huser⟩, hanon⟩, rfl⟩, rfl⟩

theorem joinedAlias_spec (hevents : ∀ d, d ∈ events ↔ A.Latest d) (d : EventRow) :
    ((joinedAlias events A.params d).hasConflict = true ↔ A.Ambiguous d.anonymousId) ∧
      ∀ u, u ≠ "" →
        ((joinedAlias events A.params d).resolvedUserId = u ↔ A.Resolves d.anonymousId u) := by
  have hmem : ∀ u, _ ↔ A.Identifies d.anonymousId u := fun u => mem_users hevents
  revert hmem
  unfold joinedAlias identityAlias
  generalize (events.filter _).map EventRow.userId = users
  intro hmem
  cases users with
  | nil =>
    have hnone : ∀ u, ¬A.Identifies d.anonymousId u := fun u h => by simpa using (hmem u).2 h
    refine ⟨by simpa using fun ⟨u, _, hu, _⟩ => hnone u hu, fun u hu => ?_⟩
    simpa [hu.symm] using fun h : A.Resolves d.anonymousId u => hnone u h.1
  | cons x xs =>
    have hx : x ∈ x :: xs := List.mem_cons_self
    obtain ⟨lo, hlo⟩ := Option.isSome_iff_exists.1 (List.isSome_min?_of_mem hx)
    obtain ⟨hi, hhi⟩ := Option.isSome_iff_exists.1 (List.isSome_max?_of_mem hx)
    obtain ⟨hlomem, hlole⟩ := List.min?_eq_some_iff.1 hlo
    obtain ⟨himem, hile⟩ := List.max?_eq_some_iff.1 hhi
    have hambiguous : A.Ambiguous d.anonymousId ↔ lo ≠ hi := by
      constructor
      · rintro ⟨u, v, hu, hv, hne⟩ rfl
        have huv : ∀ w, A.Identifies d.anonymousId w → w = lo := fun w hw =>
          le_antisymm (hile w ((hmem w).2 hw)) (hlole w ((hmem w).2 hw))
        exact hne ((huv u hu).trans (huv v hv).symm)
      · exact fun hne => ⟨lo, hi, (hmem lo).1 hlomem, (hmem hi).1 himem, hne⟩
    simp only [hlo, hhi, Option.bind_eq_bind, Option.bind_some, Option.getD_some, decide_eq_true_eq]
    refine ⟨hambiguous.symm, fun u hu => ?_⟩
    rw [Analysis.Resolves, hambiguous, ne_eq, not_not]
    constructor
    · intro h
      split at h
      next heq => exact ⟨h ▸ (hmem lo).1 hlomem, heq⟩
      · exact absurd h.symm hu
    · rintro ⟨hident, heq⟩
      rw [if_pos heq]
      have humem := (hmem u).2 hident
      exact le_antisymm (hlole u humem) ((hile u humem).trans heq.ge)

/-- The actor that `canonical_actor_sql` names. -/
def canonical (d : EventRow) (resolvedUserId : String) : Option Actor :=
  if d.userId ≠ "" then some (.user d.userId)
  else if resolvedUserId ≠ "" then some (.user resolvedUserId)
  else if d.anonymousId ≠ "" then some (.anonymous d.anonymousId)
  else none

lemma canonicalActor_eq (d : EventRow) (r : String) :
    canonicalActor d r = (canonical d r).elim "" Actor.text := by
  unfold canonicalActor canonical
  split_ifs <;> rfl

variable {d : EventRow}

lemma canonical_eq_some_iff {r : String}
    (hr : ∀ u, u ≠ "" → (r = u ↔ A.Resolves d.anonymousId u)) {a : Actor} :
    canonical d r = some a ↔ A.ActsAs d a := by
  have hresolves : ∀ u, A.Resolves d.anonymousId u ↔ u ≠ "" ∧ r = u := fun u =>
    ⟨fun h => ⟨h.1.2.1, (hr u h.1.2.1).2 h⟩, fun h => (hr u h.1).1 h.2⟩
  unfold canonical
  cases a with
  | user u =>
    simp only [Analysis.ActsAs, hresolves]
    split_ifs <;> grind
  | anonymous x =>
    simp only [Analysis.ActsAs, hresolves]
    split_ifs <;> grind

theorem actorId_eq_text_iff (hevents : ∀ d, d ∈ events ↔ A.Latest d) {a : Actor} :
    actorId events A.params d = a.text ↔ A.ActsAs d a := by
  rw [actorId, canonicalActor_eq, ← canonical_eq_some_iff (joinedAlias_spec hevents d).2]
  cases canonical d (joinedAlias events A.params d).resolvedUserId with
  | none => simpa using a.text_ne_empty.symm
  | some b => simpa using Actor.text_injective.eq_iff

lemma actorId_ne_empty_iff (hevents : ∀ d, d ∈ events ↔ A.Latest d) :
    actorId events A.params d ≠ "" ↔ ∃ a, A.ActsAs d a := by
  simp only [← actorId_eq_text_iff hevents]
  constructor
  · intro h
    rw [actorId, canonicalActor_eq] at h ⊢
    cases hc : canonical d (joinedAlias events A.params d).resolvedUserId with
    | none => exact absurd (by rw [hc]; rfl) h
    | some b => exact ⟨b, rfl⟩
  · rintro ⟨a, ha⟩
    rw [ha]
    exact a.text_ne_empty

end Identity

/-! ## Exposures and metric events -/

section Events

variable {A : Analysis} {events : List EventRow}

variable {d : EventRow}

lemma inWindow_iff (hevents : ∀ d, d ∈ events ↔ A.Latest d) :
    d.inWindow events A.params = true ↔
      A.InWindow d.timestamp ∧ A.ReceivedInDays d ∧ ∃ a, A.ActsAs d a := by
  have hstart : A.params.startMs ≤ d.timestamp ↔ A.metadata.startDate ≤ 1000 * d.timestamp := by
    simp only [Analysis.params, queryParams, datetime64BoundaryMilliseconds]
    omega
  have hend : d.timestamp < A.params.endMs ↔ 1000 * d.timestamp < A.metadata.endDate := by
    simp only [Analysis.params, queryParams, datetime64BoundaryMilliseconds]
    omega
  rw [← actorId_ne_empty_iff hevents]
  simp only [EventRow.inWindow, Bool.and_eq_true, decide_eq_true_eq]
  simp only [hstart, hend, Analysis.InWindow, Analysis.ReceivedInDays, EventRow.eventDate, and_assoc]

theorem mem_rawExposures (hevents : ∀ d, d ∈ events ↔ A.Latest d) (hin : A.ReceivedInTime)
    {x : RawExposure} :
    x ∈ rawExposures events A.params ↔
      ∃ a d, A.Exposure a d ∧ x = rawExposure events A.params d := by
  simp only [rawExposures, List.mem_map, List.mem_filter, Bool.and_eq_true, decide_eq_true_eq,
    inWindow_iff hevents, hevents]
  constructor
  · rintro ⟨d, ⟨hd, ⟨⟨⟨⟨-, hname⟩, hflag⟩, hversion⟩, hreason⟩, hwindow, -, a, ha⟩, rfl⟩
    exact ⟨a, d, ⟨hd, ha, hname, hflag, hversion, hreason, hwindow⟩, rfl⟩
  · rintro ⟨a, d, hexp, rfl⟩
    have hdays := (hin.exposures a d hexp).1
    obtain ⟨hd, ha, hname, hflag, hversion, hreason, hwindow⟩ := hexp
    exact ⟨d, ⟨hd, ⟨⟨⟨⟨hd.1.2.1, hname⟩, hflag⟩, hversion⟩, hreason⟩, hwindow, hdays, a, ha⟩, rfl⟩

variable {a : Actor}

lemma rawExposure_actorId (hevents : ∀ d, d ∈ events ↔ A.Latest d) :
    (rawExposure events A.params d).actorId = a.text ↔ A.ActsAs d a :=
  actorId_eq_text_iff hevents

lemma actsAs_unique (hevents : ∀ d, d ∈ events ↔ A.Latest d) {b : Actor}
    (ha : A.ActsAs d a) (hb : A.ActsAs d b) : a = b := by
  refine Actor.text_injective ?_
  rw [← (actorId_eq_text_iff hevents).2 ha, ← (actorId_eq_text_iff hevents).2 hb]

lemma mem_group (hevents : ∀ d, d ∈ events ↔ A.Latest d) (hin : A.ReceivedInTime)
    {x : RawExposure} :
    x ∈ (rawExposures events A.params).filter (fun x => decide (x.actorId = a.text)) ↔
      ∃ d, A.Exposure a d ∧ x = rawExposure events A.params d := by
  rw [List.mem_filter, mem_rawExposures hevents hin, decide_eq_true_eq]
  constructor
  · rintro ⟨⟨b, d, hexp, rfl⟩, hactor⟩
    have hab := actsAs_unique hevents ((rawExposure_actorId hevents).1 hactor) hexp.2.1
    exact ⟨d, hab ▸ hexp, rfl⟩
  · rintro ⟨d, hexp, rfl⟩
    exact ⟨⟨a, d, hexp, rfl⟩, (rawExposure_actorId hevents).2 hexp.2.1⟩

theorem mem_metricEvents (hevents : ∀ d, d ∈ events ↔ A.Latest d) (hin : A.ReceivedInTime) (hfirst : A.First a d) {y : MetricEvent} :
    y ∈ metricEvents events A.params ∧ y.actorId = a.text ∧ d.timestamp ≤ y.timestamp ↔
      ∃ e, A.MetricSince a d e ∧ y = metricEvent events A.params e := by
  simp only [metricEvents, List.mem_map, List.mem_filter, Bool.and_eq_true, decide_eq_true_eq,
    inWindow_iff hevents, hevents]
  constructor
  · rintro ⟨⟨e, ⟨he, ⟨-, hname⟩, hwindow, -, -⟩, rfl⟩, hactor, hle⟩
    exact ⟨e, ⟨hfirst, he, (actorId_eq_text_iff hevents).1 hactor, hname, hle, hwindow.2⟩, rfl⟩
  · rintro ⟨e, hmetric, rfl⟩
    have hdays := hin.metrics a d e hmetric
    obtain ⟨-, he, ha, hname, hle, hend⟩ := hmetric
    have hstart : A.metadata.startDate ≤ 1000 * e.timestamp := by
      have := hfirst.1.2.2.2.2.2.2.1
      omega
    exact ⟨⟨e, ⟨he, ⟨he.1.2.1, hname⟩, ⟨hstart, hend⟩, hdays, a, ha⟩, rfl⟩,
      (actorId_eq_text_iff hevents).2 ha, hle⟩

end Events

/-! ## Assignments -/

section Assignments

variable {A : Analysis} {events : List EventRow}

variable {a : Actor}

lemma first_unique {d x : EventRow} (hd : A.First a d) (hx : A.First a x) : d = x := by
  have horder := le_antisymm (hd.2 x hx.1) (hx.2 d hd.1)
  have hmsg : d.messageId = x.messageId := (Prod.mk.inj (toLex.injective horder)).2
  have hdl := hd.1.1
  have hxl := hx.1.1
  exact eq_of_receipt hdl.1 hxl.1
    (le_antisymm (hxl.2 d hdl.1 hmsg) (hdl.2 x hxl.1 hmsg.symm))

/-- A row of `assignments` describes an actor. -/
structure Describes (A : Analysis) (a : Actor) (o : Assignment) : Prop where
  actorId : o.actorId = a.text
  first : ∃ d, A.First a d ∧ o.assignedVariant = Analysis.variant d ∧ o.assignedAt = d.timestamp
  crossedOver : o.crossedOver = true ↔ A.CrossedOver a
  unknownVariant : o.hasUnknownVariant = true ↔ A.UnknownVariant a

lemma one_lt_uniqExact_iff {α : Type*} [DecidableEq α] {l : List α} :
    1 < Sql.uniqExact l ↔ ∃ x ∈ l, ∃ y ∈ l, x ≠ y := by
  rw [Sql.uniqExact, ← List.card_toFinset, Finset.one_lt_card]
  simp only [List.mem_toFinset]

variable {group : List RawExposure} {o : Assignment}

lemma assignment_describes
    (hgroup : ∀ x, x ∈ group ↔ ∃ d, A.Exposure a d ∧ x = rawExposure events A.params d)
    (h : assignment A.params a.text group = some o) : Describes A a o := by
  simp only [assignment, Option.bind_eq_bind, Option.bind_eq_some_iff, Option.some.injEq] at h
  obtain ⟨x, hx, t, ht, rfl⟩ := h
  obtain ⟨d, hexp, rfl⟩ := (hgroup x).1 (List.argmin_mem hx)
  have hmin : ∀ y, A.Exposure a y →
      (toLex (d.timestamp, d.messageId) : ℤ ×ₗ String) ≤ toLex (y.timestamp, y.messageId) :=
    fun y hy => List.le_of_mem_argmin (f := RawExposure.order) ((hgroup _).2 ⟨y, hy, rfl⟩) hx
  refine ⟨rfl, ⟨d, ⟨hexp, hmin⟩, rfl, ?_⟩, ?_, ?_⟩
  · -- the least time is that of the least pair of time and message
    obtain ⟨htmem, htle⟩ := List.min?_eq_some_iff.1 ht
    obtain ⟨y, hy, rfl⟩ := List.mem_map.1 htmem
    obtain ⟨e, he, rfl⟩ := (hgroup y).1 hy
    refine le_antisymm (htle _ (List.mem_map.2 ⟨_, List.argmin_mem hx, rfl⟩)) ?_
    rcases Prod.Lex.le_iff.1 (hmin e he) with hlt | heq
    · exact hlt.le
    · exact heq.1.le
  · simp only [decide_eq_true_eq, gt_iff_lt, one_lt_uniqExact_iff, List.mem_map, hgroup]
    constructor
    · rintro ⟨v, ⟨x, ⟨d, hd, rfl⟩, rfl⟩, w, ⟨y, ⟨e, he, rfl⟩, rfl⟩, hne⟩
      exact ⟨d, e, hd, he, hne⟩
    · rintro ⟨d, e, hd, he, hne⟩
      exact ⟨_, ⟨_, ⟨d, hd, rfl⟩, rfl⟩, _, ⟨_, ⟨e, he, rfl⟩, rfl⟩, hne⟩
  · simp only [decide_eq_true_eq, gt_iff_lt, List.countP_pos_iff, hgroup]
    constructor
    · rintro ⟨x, ⟨d, hd, rfl⟩, hnot⟩
      exact ⟨d, hd, hnot⟩
    · rintro ⟨d, hd, hnot⟩
      exact ⟨_, ⟨d, hd, rfl⟩, hnot⟩

lemma exists_assignment {p : QueryParams} {k : String} {x : RawExposure}
    (hx : x ∈ group) : ∃ o, assignment p k group = some o := by
  have hne : group ≠ [] := List.ne_nil_of_mem hx
  obtain ⟨y, hy⟩ := Option.ne_none_iff_exists'.1 (mt List.argmin_eq_none.1 hne :
    group.argmin RawExposure.order ≠ none)
  obtain ⟨t, ht⟩ := Option.isSome_iff_exists.1
    (List.isSome_min?_of_mem (List.mem_map_of_mem (f := RawExposure.firstExposure) hx))
  exact ⟨_, by simp only [assignment, hy, ht, Option.bind_eq_bind, Option.bind_some]; rfl⟩

lemma Describes.assigned_iff (h : Describes A a o) {v : String} :
    o.assignedVariant = v ↔ A.Assigned a v := by
  obtain ⟨d, hd, hvariant, -⟩ := h.first
  rw [hvariant]
  constructor
  · exact fun hv => ⟨d, hd, hv⟩
  · rintro ⟨x, hx, hv⟩
    rwa [first_unique hd hx]

theorem describes_of_mem_assignments (hevents : ∀ d, d ∈ events ↔ A.Latest d)
    (hin : A.ReceivedInTime)
    (ho : o ∈ assignments (rawExposures events A.params) A.params) : ∃ a, Describes A a o := by
  obtain ⟨k, hk, hsome⟩ := List.mem_filterMap.1 ho
  obtain ⟨x, hx, rfl⟩ := List.mem_map.1 (List.mem_dedup.1 hk)
  obtain ⟨a, d, hexp, rfl⟩ := (mem_rawExposures hevents hin).1 hx
  rw [(rawExposure_actorId hevents).2 hexp.2.1] at hsome
  exact ⟨a, assignment_describes (fun x => mem_group hevents hin) hsome⟩

theorem exists_mem_assignments (hevents : ∀ d, d ∈ events ↔ A.Latest d) (hin : A.ReceivedInTime) {d : EventRow} (hexp : A.Exposure a d) :
    ∃ o ∈ assignments (rawExposures events A.params) A.params, Describes A a o := by
  have hactor := (rawExposure_actorId hevents).2 hexp.2.1
  have hgroup := (mem_group hevents hin).2 ⟨d, hexp, rfl⟩
  obtain ⟨o, ho⟩ := exists_assignment (p := A.params) (k := a.text) hgroup
  refine ⟨o, List.mem_filterMap.2 ⟨a.text, ?_, ho⟩,
    assignment_describes (fun x => mem_group hevents hin) ho⟩
  exact List.mem_dedup.2 (List.mem_map.2 ⟨_, (List.mem_filter.1 hgroup).1, hactor⟩)

lemma assignment_actorId {p : QueryParams} {k : String}
    (h : assignment p k group = some o) : o.actorId = k := by
  simp only [assignment, Option.bind_eq_bind, Option.bind_eq_some_iff, Option.some.injEq] at h
  obtain ⟨x, -, t, -, rfl⟩ := h
  rfl

lemma nodup_assignments (exposures : List RawExposure) (p : QueryParams) :
    ((assignments exposures p).map Assignment.actorId).Nodup := by
  refine List.pairwise_map.2 (List.Pairwise.filterMap _ ?_ (List.nodup_dedup _))
  intro k k' hne o ho o' ho' heq
  rw [assignment_actorId ho, assignment_actorId ho'] at heq
  exact hne heq

end Assignments

/-! ## Outcomes -/

section Outcomes

variable {A : Analysis} {events : List EventRow}

variable {o : Assignment}

lemma mem_joinedTimestamps {metrics : List MetricEvent} {t : ℤ}
    (ht : t ∈ joinedTimestamps o metrics) :
    (∃ y ∈ metrics, y.actorId = o.actorId ∧ y.timestamp = t) ∨ t = 0 := by
  unfold joinedTimestamps at ht
  split at ht
  · exact .inr (List.mem_singleton.1 ht)
  · obtain ⟨y, hy, rfl⟩ := List.mem_map.1 ht
    obtain ⟨hmem, hactor⟩ := List.mem_filter.1 hy
    exact .inl ⟨y, hmem, of_decide_eq_true hactor, rfl⟩

lemma timestamp_mem_joinedTimestamps {metrics : List MetricEvent} {y : MetricEvent}
    (hy : y ∈ metrics) (hactor : y.actorId = o.actorId) :
    y.timestamp ∈ joinedTimestamps o metrics := by
  have hmem : y.timestamp ∈
      (metrics.filter fun m => decide (m.actorId = o.actorId)).map MetricEvent.timestamp :=
    List.mem_map_of_mem (List.mem_filter.2 ⟨hy, decide_eq_true hactor⟩)
  unfold joinedTimestamps
  split
  next hnil => exact absurd (hnil ▸ hmem) List.not_mem_nil
  · exact hmem

theorem converted_iff (hevents : ∀ d, d ∈ events ↔ A.Latest d) (hin : A.ReceivedInTime) {a : Actor} (ho : Describes A a o) :
    0 < (joinedTimestamps o (metricEvents events A.params)).countP
      (fun t => decide (o.assignedAt ≤ t) && decide (t < A.params.endMs)) ↔ A.Converted a := by
  obtain ⟨d, hfirst, -, hassigned⟩ := ho.first
  have hend : ∀ t, t < A.params.endMs ↔ 1000 * t < A.metadata.endDate := by
    intro t
    simp only [Analysis.params, queryParams, datetime64BoundaryMilliseconds]
    omega
  simp only [List.countP_pos_iff, Bool.and_eq_true, decide_eq_true_eq]
  constructor
  · rintro ⟨t, ht, hle, -⟩
    rw [hassigned] at hle
    rcases mem_joinedTimestamps ht with ⟨y, hy, hactor, rfl⟩ | rfl
    · obtain ⟨e, hmetric, -⟩ := (mem_metricEvents hevents hin hfirst).1
        ⟨hy, hactor.trans ho.actorId, hle⟩
      exact ⟨d, e, hmetric⟩
    · -- the default time lies before every exposure
      exact absurd (hin.exposures a d hfirst.1).2 (not_lt.2 hle)
  · rintro ⟨x, e, hmetric⟩
    obtain rfl := first_unique hfirst hmetric.1
    obtain ⟨hy, hactor, hle⟩ := (mem_metricEvents hevents hin hfirst).2 ⟨e, hmetric, rfl⟩
    refine ⟨_, timestamp_mem_joinedTimestamps hy (hactor.trans ho.actorId.symm), ?_, ?_⟩
    · exact hassigned.trans_le hle
    · exact (hend e.timestamp).2 hmetric.2.2.2.2.2

lemma count_outcomes (hevents : ∀ d, d ∈ events ↔ A.Latest d) (hin : A.ReceivedInTime)
    (metrics : List MetricEvent) {q : ActorOutcome → Bool} {Q : Actor → Prop} {v : String}
    (hq : ∀ o ∈ actorOutcomes (assignments (rawExposures events A.params) A.params) metrics A.params,
      ∀ a, Describes A a o.assignment → (q o = true ↔ Q a)) :
    ((actorOutcomes (assignments (rawExposures events A.params) A.params) metrics
      A.params).filter fun o => decide (o.assignment.assignedVariant = v)).countP q =
      Set.ncard {a | A.Assigned a v ∧ Q a} := by
  rw [List.countP_filter]
  refine Sql.countP_eq_ncard (f := fun o => o.assignment.actorId) Actor.text_injective ?_ ?_
  · rw [actorOutcomes, List.map_map]
    exact nodup_assignments _ _
  · intro k
    simp only [Bool.and_eq_true, decide_eq_true_eq, Set.mem_ofPred_eq]
    constructor
    · rintro ⟨o, ho, ⟨hqo, hv⟩, rfl⟩
      obtain ⟨r, hr, rfl⟩ := List.mem_map.1 ho
      obtain ⟨a, ha⟩ := describes_of_mem_assignments hevents hin hr
      exact ⟨a, ⟨ha.assigned_iff.1 hv, (hq _ ho a ha).1 hqo⟩, ha.actorId.symm⟩
    · rintro ⟨a, ⟨⟨d, hd, hv⟩, hQ⟩, rfl⟩
      obtain ⟨r, hr, ha⟩ := exists_mem_assignments hevents hin hd.1
      refine ⟨_, List.mem_map_of_mem hr, ⟨(hq _ (List.mem_map_of_mem hr) a ha).2 hQ, ?_⟩, ha.actorId⟩
      exact ha.assigned_iff.2 ⟨d, hd, hv⟩

theorem identityQuality_eq (hevents : ∀ d, d ∈ events ↔ A.Latest d) (hin : A.ReceivedInTime) :
    identityQuality (rawExposures events A.params)
      (assignments (rawExposures events A.params) A.params) (metricEvents events A.params) =
      Set.ncard {a | A.Conflicted a} := by
  have hconflict := fun d => (joinedAlias_spec (A := A) hevents d).1
  refine Sql.uniqExact_eq_ncard Actor.text_injective fun k => ?_
  simp only [List.mem_append, List.mem_map, List.mem_filter, List.mem_flatMap, Bool.and_eq_true,
    decide_eq_true_eq, Set.mem_ofPred_eq]
  constructor
  · rintro (⟨x, ⟨hx, hc⟩, rfl⟩ | ⟨y, hy, o, ⟨ho, ⟨hactor, hc⟩, hle⟩, rfl⟩)
    · obtain ⟨a, d, hexp, rfl⟩ := (mem_rawExposures hevents hin).1 hx
      exact ⟨a, .inl ⟨d, hexp, (hconflict d).1 hc⟩,
        ((rawExposure_actorId hevents).2 hexp.2.1).symm⟩
    · obtain ⟨a, ha⟩ := describes_of_mem_assignments hevents hin ho
      obtain ⟨d, hfirst, -, hassigned⟩ := ha.first
      have hya : y.actorId = a.text := hactor.symm.trans ha.actorId
      obtain ⟨e, hmetric, rfl⟩ := (mem_metricEvents hevents hin hfirst).1
        ⟨hy, hya, hassigned.symm.trans_le hle⟩
      exact ⟨a, .inr ⟨d, e, hmetric, (hconflict e).1 hc⟩, hya.symm⟩
  · rintro ⟨a, ⟨d, hexp, hamb⟩ | ⟨d, e, hmetric, hamb⟩, rfl⟩
    · refine .inl ⟨_, ⟨(mem_rawExposures hevents hin).2 ⟨a, d, hexp, rfl⟩, (hconflict d).2 hamb⟩, ?_⟩
      exact (rawExposure_actorId hevents).2 hexp.2.1
    · obtain ⟨o, ho, ha⟩ := exists_mem_assignments hevents hin hmetric.1.1
      obtain ⟨x, hx, -, hassigned⟩ := ha.first
      obtain rfl := first_unique hx hmetric.1
      obtain ⟨hy, hactor, hle⟩ := (mem_metricEvents hevents hin hx).2 ⟨e, hmetric, rfl⟩
      exact .inr ⟨_, hy, o, ⟨ho, ⟨ha.actorId.trans hactor.symm, (hconflict e).2 hamb⟩,
        hassigned.trans_le hle⟩, hactor⟩

end Outcomes

/-! ## The result -/

section Result

variable {A : Analysis} {events : List EventRow}

lemma mem_assignedVariants {v : String} : v ∈ A.assignedVariants ↔ ∃ a, A.Assigned a v := by
  classical
  rw [Analysis.assignedVariants, Finset.mem_filter, and_iff_right_iff_imp]
  rintro ⟨a, d, hd, rfl⟩
  exact Finset.mem_image_of_mem _ hd.1.1.1.1

lemma variants_eq_sort (hevents : ∀ d, d ∈ events ↔ A.Latest d) (hin : A.ReceivedInTime)
    (metrics : List MetricEvent) :
    ((actorOutcomes (assignments (rawExposures events A.params) A.params) metrics A.params).map
      fun o => o.assignment.assignedVariant).dedup.insertionSort (· ≤ ·) =
      A.assignedVariants.sort := by
  have hperm := List.perm_insertionSort (α := String) (· ≤ ·)
  refine List.Perm.eq_of_pairwise (fun _ _ _ _ => le_antisymm)
    (List.pairwise_insertionSort _ _) (Finset.pairwise_sort _ _) ?_
  refine (List.perm_ext_iff_of_nodup ?_ (Finset.sort_nodup _ _)).2 fun v => ?_
  · exact (hperm _).nodup_iff.2 (List.nodup_dedup _)
  · rw [(hperm _).mem_iff, List.mem_dedup, Finset.mem_sort, mem_assignedVariants, actorOutcomes,
      List.map_map, List.mem_map]
    constructor
    · rintro ⟨o, ho, rfl⟩
      obtain ⟨a, ha⟩ := describes_of_mem_assignments hevents hin ho
      exact ⟨a, ha.assigned_iff.1 rfl⟩
    · rintro ⟨a, hassigned⟩
      obtain ⟨d, hd, hv⟩ := hassigned
      obtain ⟨o, ho, ha⟩ := exists_mem_assignments hevents hin hd.1
      exact ⟨o, ho, ha.assigned_iff.2 ⟨d, hd, hv⟩⟩

lemma resultRow_eq (hevents : ∀ d, d ∈ events ↔ A.Latest d) (hin : A.ReceivedInTime) (v : String) :
    resultRow
      (actorOutcomes (assignments (rawExposures events A.params) A.params)
        (metricEvents events A.params) A.params)
      (identityQuality (rawExposures events A.params)
        (assignments (rawExposures events A.params) A.params) (metricEvents events A.params)) v =
      A.row v := by
  have hcount := fun {q : ActorOutcome → Bool} {Q : Actor → Prop} hq =>
    count_outcomes (q := q) (Q := Q) (v := v) hevents hin (metricEvents events A.params) hq
  rw [resultRow, Analysis.row, ResultRow.mk.injEq]
  refine ⟨rfl, ?_, ?_, ?_, ?_, identityQuality_eq hevents hin⟩
  · rw [← List.countP_true, hcount (Q := fun _ => True) (by simp)]
    simp only [and_true]
  · refine hcount fun o ho a ha => ?_
    obtain ⟨r, -, rfl⟩ := List.mem_map.1 ho
    rw [decide_eq_true_eq]
    exact converted_iff hevents hin ha
  · exact hcount fun o _ a ha => ha.crossedOver
  · exact hcount fun o _ a ha => ha.unknownVariant

end Result

/-- **The query counts the eligible data.** On a table filled with the deliveries, whatever their
order and however often each was replayed, the query returns the rows of the analysis when every
event that counts was received on a day of the window; and it returns the same rows on every table
with the same deliveries at the boundary. -/
theorem analysis_query_counts_eligible {A : Analysis} {events : List EventRow}
    (hfill : ∀ d, d ∈ experimentEventDeliveries events ↔ d ∈ A.deliveries) :
    (A.ReceivedInTime →
      analysisQuery (experimentEventDeliveries events) A.params = A.resultRows) ∧
    ∀ (A' : Analysis) (events' : List EventRow),
      (∀ d, d ∈ experimentEventDeliveries events' ↔ d ∈ A'.deliveries) → A'.params = A.params →
      (∀ d, A'.AtBoundary d ↔ A.AtBoundary d) →
      analysisQuery (experimentEventDeliveries events') A.params =
        analysisQuery (experimentEventDeliveries events) A.params := by
  refine ⟨fun hin => ?_, fun A' events' hfill' hparams hsame => ?_⟩
  · have hevents := fun d => mem_boundaryEvents (d := d) hfill
    simp only [analysisQuery, Analysis.resultRows, variants_eq_sort hevents hin]
    exact List.map_congr_left fun v _ => resultRow_eq hevents hin v
  · simp only [analysisQuery, boundaryEvents_eq hfill hfill' hparams hsame]

/-! ## Concrete deliveries -/

/-- Midnight of the first day of the sample window, in milliseconds. -/
def sampleStart : ℤ := 1728000000000

/-- An exposure at noon of that day, received some hours after its midnight. -/
def sampleExposure (hours : ℤ) : EventRow :=
  { projectId := "p", messageId := "m1", eventType := "track"
    eventName := "$feature_flag_exposure", userId := "u1", anonymousId := ""
    timestamp := sampleStart + 12 * 3600000, receivedAt := sampleStart + hours * 3600000
    properties := [("flag_key", .string "f"), ("config_version", .number 1),
      ("reason", .string "fallthrough"), ("variant", .string "treatment")]
    sourceStream := "events:raw:p", sourceStreamId := some (toLex (1, 0)) }

/-- A conversion an hour later, received at once. -/
def sampleConversion : EventRow :=
  { projectId := "p", messageId := "m2", eventType := "track", eventName := "purchase"
    userId := "u1", anonymousId := "", timestamp := sampleStart + 13 * 3600000
    receivedAt := sampleStart + 13 * 3600000, properties := []
    sourceStream := "events:raw:p", sourceStreamId := some (toLex (2, 0)) }

/-- The analysis of an experiment that runs for that day. -/
def sampleAnalysis (deliveries : Finset EventRow)
    (keyed : ∀ x ∈ deliveries, ∀ y ∈ deliveries, x.sortingKey = y.sortingKey → x = y) : Analysis :=
  { deliveries := deliveries, keyed := keyed, projectId := "p", boundary := toLex (9, 0)
    metadata :=
      { flagKey := "f", metricEvent := "purchase", variants := ["control", "treatment"]
        minimumExposureConfigVersion := 1, targeted := false
        startDate := 1000 * sampleStart, endDate := 1000 * (sampleStart + 24 * 3600000) } }

/-- An actor that is exposed and converts is counted, also when its exposure is replayed. -/
theorem analysis_query_counts_sample :
    ∃ A : Analysis, A.deliveries = {sampleExposure 12, sampleConversion} ∧
      analysisQuery (experimentEventDeliveries
        [sampleExposure 12, sampleConversion, sampleExposure 12]) A.params = A.resultRows ∧
      A.resultRows = [⟨"treatment", 1, 1, 0, 0, 0⟩] := by
  let A := sampleAnalysis {sampleExposure 12, sampleConversion} (by decide +kernel)
  have hfill : ∀ d, d ∈ experimentEventDeliveries
      [sampleExposure 12, sampleConversion, sampleExposure 12] ↔ d ∈ A.deliveries := by
    intro d
    have htable : experimentEventDeliveries
        [sampleExposure 12, sampleConversion, sampleExposure 12] =
        [sampleExposure 12, sampleConversion, sampleExposure 12] := by decide +kernel
    rw [htable]
    simp only [List.mem_cons, List.not_mem_nil, or_false, A, sampleAnalysis, Finset.mem_insert,
      Finset.mem_singleton]
    tauto
  have hdays : ∀ d ∈ A.deliveries, A.ReceivedInDays d ∧ 0 < d.timestamp := by
    unfold Analysis.ReceivedInDays
    decide +kernel
  have hin : A.ReceivedInTime :=
    ⟨fun a d hd => hdays d hd.1.1.1, fun a d e he => (hdays e he.2.1.1.1).1⟩
  have hquery := (analysis_query_counts_eligible hfill).1 hin
  refine ⟨A, rfl, hquery, ?_⟩
  rw [← hquery]
  decide +kernel

/-- An exposure in the window that is received after the day on which the window ends is not
counted: the query returns no row, although its actor is assigned to a variant. -/
theorem late_exposure_not_counted :
    ∃ A : Analysis, (∀ d, d ∈ experimentEventDeliveries [sampleExposure 49] ↔ d ∈ A.deliveries) ∧
      A.Assigned (.user "u1") "treatment" ∧
      analysisQuery (experimentEventDeliveries [sampleExposure 49]) A.params = [] ∧
      analysisQuery (experimentEventDeliveries [sampleExposure 49]) A.params ≠ A.resultRows := by
  let A := sampleAnalysis {sampleExposure 49} (by decide +kernel)
  have hquery : analysisQuery (experimentEventDeliveries [sampleExposure 49]) A.params = [] := by
    decide +kernel
  have honly : ∀ x, A.AtBoundary x → x = sampleExposure 49 := fun x hx => by
    simpa [A, sampleAnalysis] using hx.1
  have hat : A.AtBoundary (sampleExposure 49) := by
    refine ⟨by simp [A, sampleAnalysis], rfl, by decide +kernel, toLex (1, 0), rfl, by decide +kernel⟩
  have hlatest : A.Latest (sampleExposure 49) := ⟨hat, fun x hx _ => (honly x hx) ▸ le_rfl⟩
  have hexp : A.Exposure (.user "u1") (sampleExposure 49) := by
    refine ⟨hlatest, ⟨by decide, .inl rfl⟩, rfl, by decide +kernel, by decide +kernel,
      by decide +kernel, ?_⟩
    unfold Analysis.InWindow
    decide +kernel
  have hassigned : A.Assigned (.user "u1") "treatment" :=
    ⟨_, ⟨hexp, fun x hx => (honly x hx.1.1) ▸ le_rfl⟩, by decide +kernel⟩
  refine ⟨A, fun d => ?_, hassigned, hquery, ?_⟩
  · have htable : experimentEventDeliveries [sampleExposure 49] = [sampleExposure 49] := by
      decide +kernel
    rw [htable]
    simp [A, sampleAnalysis]
  · rw [hquery, Analysis.resultRows]
    intro h
    have hmem : "treatment" ∈ A.assignedVariants.sort :=
      (Finset.mem_sort _).2 (mem_assignedVariants.2 ⟨_, hassigned⟩)
    rw [List.map_eq_nil_iff.1 h.symm] at hmem
    exact List.not_mem_nil hmem

end Apdl.Query
