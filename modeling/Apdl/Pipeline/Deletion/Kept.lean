import Apdl.Pipeline.Deletion.Model

set_option autoImplicit false

/-!
# What executions of a deletion keep

The aliases of a user are read again by every execution, from the table that the deletion clears last. So
either they are still the aliases that the first execution would have read, or every table has been cleared
of the rows that these aliases and the user select.

## Main results

* `kept_of_reach` — the invariant holds in every run.
-/

namespace Apdl.Pipeline.Deletion

/-! ## Rows that are left -/

/-- No row of a table meets a condition. -/
def CleanTable (c : Condition) (rows : List Row) : Prop := ∀ row ∈ rows, c.holds row = false

/-- No row meets a condition. -/
def Clean (c : Condition) (w : World) : Prop := ∀ table, CleanTable c (w.tables table)

lemma cleanTable_remaining (c : Condition) (rows : List Row) : CleanTable c (remaining c rows) := by
  intro row hrow
  simpa using (List.mem_filter.1 hrow).2

variable {c : Condition} {rows : List Row}

lemma CleanTable.remaining (h : CleanTable c rows) (d : Condition) :
    CleanTable c (remaining d rows) :=
  fun row hrow => h row (List.mem_of_mem_filter hrow)

lemma cleanTable_of_count (h : rows.countP c.holds = 0) :
    CleanTable c rows := by
  intro row hrow
  simpa using List.countP_eq_zero.1 h row hrow

lemma CleanTable.count (h : CleanTable c rows) :
    rows.countP c.holds = 0 := by
  rw [List.countP_eq_zero]
  intro row hrow
  simp [h row hrow]

lemma delete_tables (w : World) (table t : TargetTable) (c : Condition) :
    (w.delete table c).tables t = if t = table then remaining c (w.tables t) else w.tables t := by
  by_cases h : t = table
  · subst h
    simp [World.delete]
  · simp [World.delete, h]

lemma CleanTable.delete {w : World} {t : TargetTable} (h : CleanTable c (w.tables t))
    (table : TargetTable) (d : Condition) : CleanTable c ((w.delete table d).tables t) := by
  rw [delete_tables]
  by_cases ht : t = table
  · rw [if_pos ht]
    exact h.remaining d
  · rwa [if_neg ht]

lemma cleanTable_delete_self (c : Condition) (w : World) (table : TargetTable) :
    CleanTable c ((w.delete table c).tables table) := by
  rw [delete_tables, if_pos rfl]
  exact cleanTable_remaining c _

lemma filter_remaining (c : Condition) (rows : List Row) :
    (remaining c rows).filter (fun row => decide (row.projectId ≠ c.projectId)) =
      rows.filter fun row => decide (row.projectId ≠ c.projectId) := by
  unfold remaining
  rw [List.filter_filter]
  refine List.filter_congr fun row _ => ?_
  by_cases h : row.projectId = c.projectId <;> simp [Condition.holds, h]

/-! ## The invariant -/

section Invariant

variable (request : DeletionRequest) (first : World)

/-- The aliases that an execution reads. -/
def linkedAt (w : World) : List Text :=
  match request.scope with
  | .project => []
  | .user => anonymousIdsOf (w.tables .identityAliasAssertions) request.projectId request.userId

def firstCondition : Condition := targetCondition request (linkedAt request first)

/-- Every table but the assertions is clean. -/
def OthersClean (c : Condition) (w : World) : Prop :=
  ∀ table, table ≠ .identityAliasAssertions → CleanTable c (w.tables table)

/-- The assertions may be deleted from with a condition: nothing is left, or it is the condition of the
first execution and the other tables are clean. -/
def Deletable (c : Condition) (w : World) : Prop :=
  Clean (firstCondition request first) w ∨
    c = firstCondition request first ∧ OthersClean (firstCondition request first) w

/-- **The invariant of the databases**, from the databases of the first execution. -/
structure Kept (w : World) : Prop where
  others : ∀ table, (w.tables table).filter (fun row => decide (row.projectId ≠ request.projectId)) =
    (first.tables table).filter fun row => decide (row.projectId ≠ request.projectId)
  phase : w.tables .identityAliasAssertions = first.tables .identityAliasAssertions ∨
    Clean (firstCondition request first) w
  /-- Deletions that may still be applied are about the project, and permitted for the assertions. -/
  mutations : ∀ m ∈ w.mutations, m.2.projectId = request.projectId ∧
    (m.1 = .identityAliasAssertions → Deletable request first m.2 w)
  identity : hasIdentity request (w.audit request.requestId) = true
  completed : (w.audit request.requestId).completed.isSome = true → Clean (firstCondition request first) w

variable {request first}

lemma targetCondition_projectId (request : DeletionRequest) (aliases : List Text) :
    (targetCondition request aliases).projectId = request.projectId := by
  unfold targetCondition
  cases request.scope <;> rfl

variable {c : Condition} {w : World}

lemma Deletable.delete (h : Deletable request first c w) (table : TargetTable)
    (d : Condition) : Deletable request first c (w.delete table d) := by
  rcases h with hclean | ⟨heq, hothers⟩
  · exact .inl fun t => (hclean t).delete table d
  · exact .inr ⟨heq, fun t ht => (hothers t ht).delete table d⟩

variable {table : TargetTable}

/-- **A deletion keeps the invariant** if it is about the project, and permitted for the assertions. -/
lemma Kept.delete (h : Kept request first w) (hproject : c.projectId = request.projectId)
    (hassertions : table = .identityAliasAssertions → Deletable request first c w) :
    Kept request first (w.delete table c) := by
  refine ⟨fun t => ?_, ?_, fun m hm => ?_, h.identity, fun hcompleted t => ?_⟩
  · rw [delete_tables, ← h.others t]
    by_cases ht : t = table
    · rw [if_pos ht, ← hproject, filter_remaining]
    · rw [if_neg ht]
  · by_cases ht : table = .identityAliasAssertions
    · right
      rcases hassertions ht with hclean | ⟨rfl, hothers⟩
      · exact fun t => (hclean t).delete table c
      · -- this deletion clears the last table
        intro t
        by_cases heq : t = .identityAliasAssertions
        · rw [heq, ← ht]
          exact cleanTable_delete_self _ w table
        · exact (hothers t heq).delete table _
    · refine h.phase.imp (fun hsame => ?_) fun hclean t => (hclean t).delete table c
      rw [delete_tables, if_neg fun heq => ht heq.symm, hsame]
  · exact ⟨(h.mutations m hm).1, fun ht => ((h.mutations m hm).2 ht).delete table c⟩
  · exact (h.completed hcompleted t).delete table c

lemma Kept.of_mutations (h : Kept request first w) {mutations : List (TargetTable × Condition)}
    (hsub : ∀ m ∈ mutations, m.2.projectId = request.projectId ∧
      (m.1 = .identityAliasAssertions → Deletable request first m.2 w)) :
    Kept request first { w with mutations := mutations } :=
  ⟨h.others, h.phase, hsub, h.identity, h.completed⟩

lemma Kept.drift {w' : World} (h : Kept request first w) {index : ℕ} (hd : w.drift index = some w') :
    Kept request first w' := by
  obtain ⟨m, hm, rfl⟩ := Option.map_eq_some_iff.1 hd
  obtain ⟨hproject, hassertions⟩ := h.mutations m (List.mem_of_getElem? hm)
  have hdeleted := h.delete hproject hassertions
  exact hdeleted.of_mutations fun m' hm' => hdeleted.mutations m' (List.mem_of_mem_eraseIdx hm')

lemma CleanTable.drift {w' : World} {t : TargetTable} (h : CleanTable c (w.tables t))
    {index : ℕ} (hd : w.drift index = some w') : CleanTable c (w'.tables t) := by
  obtain ⟨m, -, rfl⟩ := Option.map_eq_some_iff.1 hd
  exact h.delete m.1 m.2

variable (request first)

/-- **The progress of an execution** that has read its aliases and finished some tables. -/
structure Progress (aliases : List Text) (finished : List TargetTable) (w : World) : Prop where
  kept : Kept request first w
  source : aliases = linkedAt request first ∨ Clean (firstCondition request first) w
  finished : ∀ table ∈ finished, CleanTable (targetCondition request aliases) (w.tables table)

variable {request first}

variable {aliases : List Text} {finished : List TargetTable}

lemma Progress.clean
    (h : Progress request first aliases finished w) (hall : ∀ table, table ∈ finished) :
    Clean (firstCondition request first) w := by
  rcases h.source with rfl | hclean
  · exact fun table => h.finished table (hall table)
  · exact hclean

lemma stable_kept : world.Stable (Kept request first) :=
  fun _ _ _ h hd => h.drift hd

lemma stable_progress (aliases : List Text) (finished : List TargetTable) :
    world.Stable (Progress request first aliases finished) :=
  fun _ _ _ h hd => ⟨h.kept.drift hd, h.source.imp_right fun hclean t => (hclean t).drift hd,
    fun t ht => (h.finished t ht).drift hd⟩

/-! ## One execution -/

/-- The triples of an execution. -/
abbrev Runs {α : Type} (request : DeletionRequest) (first : World) (A : World → Prop) (x : Program α)
    (Q : α → World → Prop) : Prop :=
  world.Triple (Kept request first) (fun _ _ => True) A x Q

variable {A : World → Prop}

lemma runs_query {e : Call} {Q : e.Result → World → Prop} (hA : world.Stable A)
    (hkept : ∀ v, A v → Kept request first v)
    (hperform : ∀ v u r, A v → v.perform e = some (u, r) → Kept request first u ∧ Q r u)
    (hlate : ∀ v table c, A v → e = .alterDelete table c →
      Kept request first { v with mutations := v.mutations ++ [(table, c)] }) :
    Runs request first A (query e) Q := by
  refine Host.triple_call hA fun v hv => ⟨trivial, fun o u r hr => ?_⟩
  cases o with
  | ok =>
    simp only [world, World.exec] at hr
    cases hp : v.perform e with
    | none =>
      rw [hp] at hr
      cases hr
      exact ⟨hkept v hv, fun a ha => by cases ha⟩
    | some x =>
      obtain ⟨u', r'⟩ := x
      rw [hp] at hr
      obtain ⟨hk, hq⟩ := hperform v u' r' hv hp
      cases hr
      refine ⟨hk, fun a ha => ?_⟩
      cases ha
      exact hq
  | lost =>
    obtain ⟨⟨u', r'⟩, hp, hr⟩ := Option.map_eq_some_iff.1
      (show (v.perform e).map (fun x => (x.1, Except.error Failure.raised)) = some (u, r) from hr)
    have hk := (hperform v u' r' hv hp).1
    cases hr
    exact ⟨hk, fun a ha => by cases ha⟩
  | failed =>
    cases show some (v, Except.error Failure.raised) = some (u, r) from hr
    exact ⟨hkept v hv, fun a ha => by cases ha⟩
  | late =>
    cases e with
    | alterDelete table c =>
      cases show some ({ v with mutations := v.mutations ++ [(table, c)] },
        Except.error Failure.raised) = some (u, r) from hr
      exact ⟨hlate v table c hv rfl, fun a ha => by cases ha⟩
    | readAuditEvents _ | recordAuditEvent _ _ _ | selectAnonymousIds _ _ | count _ _ =>
      cases show none = some (u, r) from hr

lemma runs_require (condition : Bool) (e : DeletionError) :
    Runs request first A (require condition e) fun _ w => A w ∧ condition = true := by
  unfold require
  by_cases h : condition = true
  · rw [if_pos h]
    exact Host.triple_pure fun w hw => ⟨hw, h⟩
  · rw [if_neg h]
    exact Host.triple_throw

lemma runs_readEvents (hA : world.Stable A) (hkept : ∀ v, A v → Kept request first v) :
    Runs request first A (readEvents request) fun _ => A := by
  refine Host.triple_seq (runs_query (Q := fun _ => A) hA hkept ?_ fun _ _ _ _ he => nomatch he)
    fun events => Host.triple_seq (runs_require _ _) fun _ => Host.triple_pure fun w hw => hw.1
  intro v u r hv hp
  cases hp
  exact ⟨hkept v hv, hv⟩

lemma sameIdentity_event (request : DeletionRequest) (details : Option Details) :
    (request.event details).SameIdentity (request.event none) := rfl

lemma hasIdentity_insert {events events' : AuditEvents} {type : EventType} {details : Option Details}
    (h : hasIdentity request events = true)
    (hi : events.insert type (request.event details) = some events') :
    hasIdentity request events' = true := by
  have hor : ∀ old : Option AuditEvent,
      (old.all fun event => decide (event.SameIdentity (request.event none))) = true →
        ((old.or (some (request.event details))).all fun event =>
          decide (event.SameIdentity (request.event none))) = true := by
    rintro (_ | event) hold
    · simpa using sameIdentity_event request details
    · exact hold
  unfold hasIdentity at h ⊢
  simp only [List.all_cons, List.all_nil, Bool.and_true, Bool.and_eq_true] at h ⊢
  cases type with
  | requested =>
    cases hi
    exact ⟨hor _ h.1, h.2⟩
  | completed =>
    unfold AuditEvents.insert at hi
    dsimp only at hi
    split at hi
    · rw [ite_eq_iff] at hi
      obtain ⟨-, hi⟩ | ⟨-, hi⟩ := hi
      · cases hi
        exact ⟨h.1, hor _ h.2⟩
      · cases hi
    · cases hi

lemma runs_recordAuditEvent (hA : world.Stable A) (type : EventType) (details : Option Details)
    (hkept : ∀ v, A v → Kept request first v)
    (hclean : ∀ v, A v → type = .completed → Clean (firstCondition request first) v) :
    Runs request first A (recordAuditEvent request type details) fun _ => Kept request first := by
  refine runs_query hA hkept ?_ fun _ _ _ _ he => nomatch he
  intro v u r hv hp
  obtain ⟨events, hi, hu⟩ := Option.map_eq_some_iff.1
    (show ((v.audit request.requestId).insert type (request.event details)).map (fun events =>
      (v.setEvents request.requestId events, ())) = some (u, r) from hp)
  cases hu
  have hk := hkept v hv
  refine and_self_iff.2 ⟨hk.others, hk.phase, hk.mutations, ?_, ?_⟩
  · simpa [World.setEvents] using hasIdentity_insert hk.identity hi
  · intro hcompleted
    have hevents : events.completed.isSome = true := by simpa [World.setEvents] using hcompleted
    cases type with
    | requested =>
      cases hi
      exact hk.completed hevents
    | completed => exact hclean v hv rfl

lemma runs_linkedAnonymousIds :
    Runs request first (Kept request first) (linkedAnonymousIds request) fun aliases =>
      Progress request first aliases [] := by
  unfold linkedAnonymousIds
  cases hscope : request.scope with
  | project =>
    refine Host.triple_pure fun w hw => ⟨hw, .inl ?_, by simp⟩
    simp [linkedAt, hscope]
  | user =>
    refine runs_query stable_kept (fun _ h => h) ?_ fun _ _ _ _ he => nomatch he
    intro v u r hv hp
    cases hp
    refine ⟨hv, hv, hv.phase.imp_left fun hsame => ?_, by simp⟩
    rw [linkedAt, hscope, hsame]

lemma runs_countRows (hA : world.Stable A) (hkept : ∀ v, A v → Kept request first v)
    (table : TargetTable) (c : Condition) :
    Runs request first A (countRows table c) fun n w =>
      A w ∧ (n = 0 → CleanTable c (w.tables table)) := by
  refine runs_query hA hkept ?_ fun _ _ _ _ he => nomatch he
  intro v u r hv hp
  cases hp
  exact ⟨hkept v hv, hv, cleanTable_of_count⟩

lemma Progress.delete (h : Progress request first aliases finished w)
    (hassertions : table = .identityAliasAssertions →
      Deletable request first (targetCondition request aliases) w) :
    Progress request first aliases finished (w.delete table (targetCondition request aliases)) :=
  ⟨h.kept.delete (targetCondition_projectId request aliases) hassertions,
    h.source.imp_right fun hclean t => (hclean t).delete table _,
    fun t ht => (h.finished t ht).delete table _⟩

lemma runs_deleteRows (hassertions : ∀ v, Progress request first aliases finished v →
      table = .identityAliasAssertions → Deletable request first (targetCondition request aliases) v)
    (matched : ℕ) :
    Runs request first (Progress request first aliases finished)
      (deleteRows table (targetCondition request aliases) matched) fun _ =>
        Progress request first aliases finished := by
  unfold deleteRows
  by_cases hmatched : 0 < matched
  · rw [if_pos hmatched]
    refine runs_query (stable_progress aliases finished) (fun _ h => h.kept) ?_ ?_
    · intro v u r hv hp
      cases hp
      have hdeleted := hv.delete (hassertions v hv)
      exact ⟨hdeleted.kept, hdeleted⟩
    · intro v t c hv he
      cases he
      refine hv.kept.of_mutations fun m hm => ?_
      rcases List.mem_append.1 hm with hm | hm
      · exact hv.kept.mutations m hm
      · obtain rfl := List.mem_singleton.1 hm
        exact ⟨targetCondition_projectId request aliases, hassertions v hv⟩
  · rw [if_neg hmatched]
    exact Host.triple_pure fun w hw => hw

/-- **One table is finished.** The assertions are permitted when the other tables are finished. -/
lemma runs_deleteFrom (hlast : table = .identityAliasAssertions →
      ∀ t, t ≠ .identityAliasAssertions → t ∈ finished) :
    Runs request first (Progress request first aliases finished)
      (deleteFrom (targetCondition request aliases) table) fun _ =>
        Progress request first aliases (table :: finished) := by
  have hstable : world.Stable (Progress request first aliases finished) :=
    stable_progress aliases finished
  have hkept : ∀ v, Progress request first aliases finished v → Kept request first v := fun _ h => h.kept
  have hassertions : ∀ v, Progress request first aliases finished v →
      table = .identityAliasAssertions → Deletable request first (targetCondition request aliases) v := by
    intro v hv ht
    rcases hv.source with rfl | hclean
    · exact .inr ⟨rfl, fun t hne => hv.finished t (hlast ht t hne)⟩
    · exact .inl hclean
  refine Host.triple_seq (runs_countRows hstable hkept table _) fun matched =>
    Host.triple_seq ((runs_deleteRows hassertions matched).mono (fun _ h => h.1) fun _ _ h => h)
      fun _ => Host.triple_seq (runs_countRows hstable hkept table _) fun left =>
        Host.triple_seq (runs_require _ _) fun _ => Host.triple_pure ?_
  rintro w ⟨⟨hprogress, hzero⟩, hleft⟩
  refine ⟨hprogress.kept, hprogress.source, fun t ht => ?_⟩
  rcases List.mem_cons.1 ht with rfl | ht
  · exact hzero (by simpa using hleft)
  · exact hprogress.finished t ht

/-- The assertions come after the other tables. -/
def AssertionsLast : List TargetTable → List TargetTable → Prop
  | _, [] => True
  | finished, table :: tables =>
    (table = .identityAliasAssertions → ∀ t, t ≠ .identityAliasAssertions → t ∈ finished) ∧
      AssertionsLast (table :: finished) tables

lemma assertionsLast_targetTables : AssertionsLast [] targetTables := by
  unfold targetTables
  simp only [AssertionsLast, and_true]
  refine ⟨nofun, nofun, nofun, nofun, nofun, fun _ t ht => ?_⟩
  cases t <;> simp at ht ⊢

lemma runs_deleteFromAll {tables : List TargetTable} (hlast : AssertionsLast finished tables) :
    Runs request first (Progress request first aliases finished)
      (deleteFromAll (targetCondition request aliases) tables) fun _ =>
        Progress request first aliases (tables.reverse ++ finished) := by
  induction tables generalizing finished with
  | nil => exact Host.triple_pure fun w hw => hw
  | cons table tables ih =>
    refine Host.triple_seq (runs_deleteFrom hlast.1) fun matched =>
      Host.triple_seq (ih hlast.2) fun rest => Host.triple_pure fun w hw => ?_
    rwa [List.reverse_cons, List.append_assoc]

lemma runs_complete :
    Runs request first (Kept request first) (complete request) fun _ => Kept request first := by
  refine Host.triple_seq runs_linkedAnonymousIds fun aliases =>
    Host.triple_seq (runs_deleteFromAll assertionsLast_targetTables) fun matchedRows =>
      Host.triple_seq (runs_recordAuditEvent (stable_progress aliases _) .completed _
        (fun _ h => h.kept) fun v hv _ => hv.clean ?_) fun _ =>
          Host.triple_seq (runs_readEvents stable_kept fun _ h => h) fun events =>
            Host.triple_seq (runs_require _ _) fun _ => Host.triple_pure fun w hw => hw.1
  intro table
  cases table <;> simp [targetTables]

lemma runs_ensureRequested (events : AuditEvents) :
    Runs request first (Kept request first) (ensureRequested request events) fun _ =>
      Kept request first := by
  unfold ensureRequested
  cases events.requested with
  | some event => exact Host.triple_pure fun w hw => hw
  | none =>
    refine Host.triple_seq (runs_recordAuditEvent stable_kept .requested none (fun _ h => h)
      fun _ _ h => nomatch h) fun _ =>
        Host.triple_seq (runs_readEvents stable_kept fun _ h => h) fun events =>
          (runs_require _ _).mono (fun _ h => h) fun _ _ h => h.1

theorem runs_executeRequest :
    Runs request first (Kept request first) (executeRequest request) fun _ => Kept request first := by
  refine Host.triple_seq (runs_readEvents stable_kept fun _ h => h) fun events => ?_
  cases events.completed with
  | some completed => exact Host.triple_pure fun w hw => hw
  | none => exact Host.triple_seq (runs_ensureRequested events) fun _ => runs_complete

lemma kept_first (haudit : first.audit request.requestId = ⟨none, none⟩)
    (hmutations : first.mutations = []) : Kept request first first := by
  refine ⟨fun _ => rfl, .inl rfl, ?_, ?_, ?_⟩
  · simp [hmutations]
  · rw [haudit]
    rfl
  · rw [haudit]
    exact nofun

theorem kept_of_reach (haudit : first.audit request.requestId = ⟨none, none⟩)
    (hmutations : first.mutations = [])
    {s : Host.Hosted Call Answer World (Except DeletionError DeletionResult)}
    (h : (runs request first).Reach s) : Kept request first s.world := by
  refine (Host.safe_of_reach (P := fun _ _ => True) stable_kept (kept_first haudit hmutations)
    (fun v hv => ?_) h).1
  exact (runs_executeRequest v hv).mono fun _ _ _ => trivial

end Invariant

end Apdl.Pipeline.Deletion
