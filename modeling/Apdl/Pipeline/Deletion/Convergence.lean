import Apdl.Pipeline.Deletion.Kept

set_option autoImplicit false

/-!
# Deletions converge

An execution in which every query is answered completes the request from every state that executions can
leave behind. With what executions keep, this is the convergence of deletions.

## Main results

* `deletion_converges` — a completion is recorded only when no targeted row is left, an execution can
  always complete the request, and rows of other projects stay.
-/

namespace Apdl.Pipeline.Deletion

/-! ## An execution without a fault -/

/-- The run of a program in which every query is answered. -/
abbrev follow {α : Type} (x : Program α) (w : World) : Option (Except DeletionError α × World) :=
  world.follow (fun _ => Outcome.ok) x.run w

variable {w : World}

lemma follow_query {e : Call} {u : World} {r : e.Result} (h : w.perform e = some (u, r)) :
    follow (query e) w = some (.ok r, u) := by
  have hexec : world.exec e w .ok = some (u, .ok r) := by
    simp only [world, World.exec, h]
  show (world.exec e w .ok).bind _ = _
  rw [hexec]
  rfl

lemma follow_require {condition : Bool} (e : DeletionError) (w : World) (h : condition = true) :
    follow (require condition e) w = some (.ok (), w) := by
  rw [require, if_pos h]
  rfl

variable {request : DeletionRequest}

lemma follow_readEvents (h : hasIdentity request (w.audit request.requestId) = true) :
    follow (readEvents request) w = some (.ok (w.audit request.requestId), w) :=
  (Host.follow_seq (follow_query rfl)).trans (Host.follow_seq (follow_require _ w h))

lemma follow_recordAuditEvent {type : EventType} {details : Option Details} {events : AuditEvents}
    (h : (w.audit request.requestId).insert type (request.event details) = some events) :
    follow (recordAuditEvent request type details) w =
      some (.ok (), w.setEvents request.requestId events) := by
  refine follow_query ?_
  show ((w.audit request.requestId).insert type (request.event details)).map _ = _
  rw [h]
  rfl

lemma follow_linkedAnonymousIds (request : DeletionRequest) (w : World) :
    follow (linkedAnonymousIds request) w = some (.ok (linkedAt request w), w) := by
  unfold linkedAnonymousIds linkedAt
  cases request.scope with
  | project => rfl
  | user => exact follow_query rfl

lemma follow_deleteFrom (c : Condition) (table : TargetTable) (w : World) :
    ∃ matched v, follow (deleteFrom c table) w = some (.ok matched, v) ∧ v.audit = w.audit := by
  have hcount : ∀ u : World, follow (countRows table c) u =
      some (.ok ((u.tables table).countP c.holds), u) := fun u => follow_query rfl
  obtain ⟨v, hdelete, hclean, haudit⟩ : ∃ v,
      follow (deleteRows table c ((w.tables table).countP c.holds)) w = some (.ok (), v) ∧
        CleanTable c (v.tables table) ∧ v.audit = w.audit := by
    unfold deleteRows
    by_cases hmatched : 0 < (w.tables table).countP c.holds
    · rw [if_pos hmatched]
      exact ⟨w.delete table c, follow_query rfl, cleanTable_delete_self c w table, rfl⟩
    · rw [if_neg hmatched]
      exact ⟨w, rfl, cleanTable_of_count (Nat.eq_zero_of_not_pos hmatched), rfl⟩
  refine ⟨(w.tables table).countP c.holds, v, ?_, haudit⟩
  refine (Host.follow_seq (hcount w)).trans ((Host.follow_seq hdelete).trans
    ((Host.follow_seq (hcount v)).trans ((Host.follow_seq (follow_require _ v ?_)).trans rfl)))
  rw [hclean.count]
  rfl

lemma follow_deleteFromAll (c : Condition) (tables : List TargetTable) (w : World) :
    ∃ matchedRows v, follow (deleteFromAll c tables) w = some (.ok matchedRows, v) ∧
      v.audit = w.audit := by
  induction tables generalizing w with
  | nil => exact ⟨[], w, rfl, rfl⟩
  | cons table tables ih =>
    obtain ⟨matched, u, hu, huaudit⟩ := follow_deleteFrom c table w
    obtain ⟨rest, v, hv, hvaudit⟩ := ih u
    exact ⟨(table, matched) :: rest, v,
      (Host.follow_seq hu).trans ((Host.follow_seq hv).trans rfl), hvaudit.trans huaudit⟩

lemma follow_complete {event : AuditEvent} (haudit : w.audit request.requestId = ⟨some event, none⟩)
    (hidentity : event.SameIdentity (request.event none)) :
    ∃ result v, follow (complete request) w = some (.ok result, v) ∧
      (v.audit request.requestId).completed.isSome = true := by
  obtain ⟨matchedRows, u, hu, huaudit⟩ :=
    follow_deleteFromAll (targetCondition request (linkedAt request w)) targetTables w
  set details : Details := ⟨(linkedAt request w).length, matchedRows⟩ with hdetails
  have hinsert : (u.audit request.requestId).insert .completed (request.event (some details)) =
      some ⟨some event, some (request.event (some details))⟩ := by
    rw [huaudit, haudit]
    exact if_pos hidentity
  set v : World := u.setEvents request.requestId
    ⟨some event, some (request.event (some details))⟩ with hv
  have hvaudit : v.audit request.requestId = ⟨some event, some (request.event (some details))⟩ := by
    simp [hv, World.setEvents]
  have hvidentity : hasIdentity request (v.audit request.requestId) = true := by
    rw [hvaudit]
    simp [hasIdentity, hidentity, sameIdentity_event]
  refine ⟨⟨.completed, some details⟩, v, ?_, by rw [hvaudit]; rfl⟩
  refine (Host.follow_seq (follow_linkedAnonymousIds request w)).trans ((Host.follow_seq hu).trans
    ((Host.follow_seq (follow_recordAuditEvent hinsert)).trans
      ((Host.follow_seq (follow_readEvents hvidentity)).trans
        ((Host.follow_seq (follow_require _ v ?_)).trans rfl))))
  rw [hvaudit]
  exact decide_eq_true rfl

theorem follow_executeRequest {first : World}
    (h : Kept request first w) : ∃ result v, follow (executeRequest request) w = some (.ok result, v) ∧
      (v.audit request.requestId).completed.isSome = true := by
  have hread := follow_readEvents h.identity
  have hidentity := h.identity
  cases hcompleted : (w.audit request.requestId).completed with
  | some event =>
    refine ⟨⟨.alreadyCompleted, event.details⟩, w, (Host.follow_seq hread).trans ?_, by
      rw [hcompleted]; rfl⟩
    rw [hcompleted]
    rfl
  | none =>
    obtain ⟨event, u, hu, huaudit, huidentity⟩ : ∃ event u,
        follow (ensureRequested request (w.audit request.requestId)) w = some (.ok (), u) ∧
          u.audit request.requestId = ⟨some event, none⟩ ∧
          event.SameIdentity (request.event none) := by
      unfold ensureRequested
      cases hrequested : (w.audit request.requestId).requested with
      | some event =>
        refine ⟨event, w, rfl, ?_, ?_⟩
        · rw [← hrequested, ← hcompleted]
        · simpa [hasIdentity, hrequested, hcompleted] using hidentity
      | none =>
        have hinsert : (w.audit request.requestId).insert .requested (request.event none) =
            some ⟨some (request.event none), none⟩ := by
          simp [AuditEvents.insert, hrequested, hcompleted]
        set u : World := w.setEvents request.requestId ⟨some (request.event none), none⟩ with hu
        have huaudit : u.audit request.requestId = ⟨some (request.event none), none⟩ := by
          simp [hu, World.setEvents]
        have huidentity : hasIdentity request (u.audit request.requestId) = true := by
          rw [huaudit]
          simp [hasIdentity, sameIdentity_event]
        refine ⟨request.event none, u, ?_, huaudit, rfl⟩
        refine (Host.follow_seq (follow_recordAuditEvent hinsert)).trans
          ((Host.follow_seq (follow_readEvents huidentity)).trans (follow_require _ u ?_))
        rw [huaudit]
        rfl
    obtain ⟨result, v, hv, hvcompleted⟩ := follow_complete huaudit huidentity
    refine ⟨result, v, (Host.follow_seq hread).trans ?_, hvcompleted⟩
    rw [hcompleted]
    exact (Host.follow_seq hu).trans hv

/-- **Deletions of a user converge.** Whatever the tables hold and however executions are cut off and their
queries fail, a completion is recorded only when no row of the project has the user or an anonymous ID that
the assertions of the first execution link to the user; an execution without a fault completes the request;
and the rows of other projects stay.

**Proof sketch.** The invariant says that the assertions are still those of the first execution, or that
nothing it targets is left. A deletion from the assertions is sent only when the other tables are clean, so
it turns the first case into the second one, also when it is applied late. -/
theorem deletion_converges {request : DeletionRequest} {first : World}
    (huser : request.scope = .user) (haudit : first.audit request.requestId = ⟨none, none⟩)
    (hmutations : first.mutations = [])
    {s : Host.Hosted Call Answer World (Except DeletionError DeletionResult)}
    (h : (runs request first).Reach s) :
    ((s.world.audit request.requestId).completed.isSome = true →
      ∀ table, ∀ row ∈ s.world.tables table, row.projectId = request.projectId →
        row.userId ≠ request.userId ∧
          ∀ link ∈ first.tables .identityAliasAssertions, link.projectId = request.projectId →
            link.userId = request.userId → link.anonymousId ≠ [] →
              row.anonymousId ≠ link.anonymousId) ∧
    (∃ result v, follow (executeRequest request) s.world = some (.ok result, v) ∧
      (runs request first).Path s ⟨v, none⟩ ∧
      (v.audit request.requestId).completed.isSome = true) ∧
    ∀ table, (s.world.tables table).filter (fun row => decide (row.projectId ≠ request.projectId)) =
      (first.tables table).filter fun row => decide (row.projectId ≠ request.projectId) := by
  have hkept := kept_of_reach haudit hmutations h
  refine ⟨fun hcompleted table row hrow hproject => ?_, ?_, hkept.others⟩
  · have hnot := hkept.completed hcompleted table row hrow
    simp only [firstCondition, targetCondition, linkedAt, huser, Condition.holds, hproject,
      decide_true, Bool.true_and, Bool.or_eq_false_iff, decide_eq_false_iff_not] at hnot
    refine ⟨hnot.1, fun link hlink hlproject hluser hlempty heq => hnot.2 ?_⟩
    rw [heq, anonymousIdsOf, List.mem_dedup]
    exact List.mem_map_of_mem (List.mem_filter.2 ⟨hlink,
      decide_eq_true ⟨hlproject, hluser, hlempty⟩⟩)
  · obtain ⟨result, v, hv, hcompleted⟩ := follow_executeRequest hkept
    exact ⟨result, v, hv, Host.path_rerun hv, hcompleted⟩

/-! ## A run -/

/-- A request about the user `u` of the project `p`. -/
def demoRequest : DeletionRequest where
  requestId := Text.ofString "r"
  scope := .user
  projectId := Text.ofString "p"
  userId := Text.ofString "u"
  actor := Text.ofString "operator"
  reason := Text.ofString "erasure"
  targetSha256 := Text.ofString "t"
  requestSha256 := Text.ofString "q"

/-- Events of an anonymous ID before and after it was linked to the user, and one of another project. -/
def demoTables : TargetTable → List Row
  | .events => [⟨Text.ofString "p", [], Text.ofString "a", Text.ofString "page"⟩,
      ⟨Text.ofString "p", Text.ofString "u", Text.ofString "a", Text.ofString "identify"⟩,
      ⟨Text.ofString "o", Text.ofString "u", Text.ofString "a", Text.ofString "page"⟩]
  | .identityAliasAssertions =>
      [⟨Text.ofString "p", Text.ofString "u", Text.ofString "a", Text.ofString "identify"⟩]
  | _ => []

/-- The databases with these tables. -/
def demoWorld : World := ⟨demoTables, fun _ => ⟨none, none⟩, []⟩

/-- The answer to the deletion of the assertions is lost and the execution is cut off; the next one finds
no alias and completes the request. -/
def demoActs : List (Host.Act ℕ Outcome) :=
  .start :: List.replicate 16 (.answer .ok) ++ [.answer .lost, .cut, .start] ++
    List.replicate 16 (.answer .ok) ++ [.finish]

/-- The run of `demoActs` ends with a completion in the ledger, and every statement about it holds. -/
theorem deletion_converges_demo :
    ∃ s, (runs demoRequest demoWorld).run (runs demoRequest demoWorld).init demoActs = some s ∧
      (s.world.audit demoRequest.requestId).completed.isSome = true ∧
      ∀ table, ∀ row ∈ s.world.tables table, row.projectId = demoRequest.projectId →
        row.userId ≠ demoRequest.userId := by
  have hrun : ((runs demoRequest demoWorld).run (runs demoRequest demoWorld).init demoActs).map
      (fun s => (s.world.audit demoRequest.requestId).completed.isSome) = some true := by
    decide +kernel
  obtain ⟨s, hs, hcompleted⟩ := Option.map_eq_some_iff.1 hrun
  refine ⟨s, hs, hcompleted, fun table row hrow hproject => ?_⟩
  exact ((deletion_converges rfl rfl rfl (StepMachine.reach_of_run hs)).1 hcompleted table row hrow
    hproject).1

end Apdl.Pipeline.Deletion
