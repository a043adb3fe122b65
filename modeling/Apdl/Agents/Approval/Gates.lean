import Apdl.Agents.Approval.Settlement

set_option autoImplicit false

/-!
# Commands and their gates

A command is stored for the gate that its run waits at, and its effects follow the decisions on the
items of that gate. A request is first compared with the stored commands of the run, by its decisions
and its comment only, so a command of an earlier gate can answer it.

## Main results

* `earlier_gate_answers` — the same item id and comment at a second gate.
-/

namespace Apdl.Agents.Approval

open Rows

namespace Tables

/-! ## The items of a gate -/

def gateItemIds (t : Tables) (run : ℕ) (gate : GateAgent) : Option (List String) :=
  (t.result run gate.name).bind fun result =>
    result.output.mapM fun item => item.bind (canonicalItemId gate)

/-- The command belongs to the gate, and its decisions are on each of the persisted items once. -/
def Matches (t : Tables) (run : ℕ) (gate : GateAgent) (c : CommandRow) : Prop :=
  c.run = run ∧ c.gate = gate ∧ ∃ ids : List String, t.gateItemIds run gate = some ids ∧ ids.Nodup ∧
    (c.decisions.map Decision.itemId).Perm ids

variable {gate : GateAgent} {items : List (String × Item)}

lemma itemsById_ids {output : List (Option Item)} {found : List (String × Item)}
    (h : itemsById gate output found = some items) (hnodup : (found.map Prod.fst).Nodup) :
    (items.map Prod.fst).Nodup ∧ ∃ ids : List String,
      (output.mapM fun item => item.bind (canonicalItemId gate)) = some ids ∧
      items.map Prod.fst = found.map Prod.fst ++ ids ∧
      ∀ item ∈ items, item ∈ found ∨ canonicalItemId gate item.2 = some item.1 := by
  induction output generalizing found with
  | nil =>
    obtain rfl : found = items := Option.some.inj h
    exact ⟨hnodup, [], rfl, (List.append_nil _).symm, fun item hitem => .inl hitem⟩
  | cons x rest ih =>
    cases x with
    | none => cases h
    | some item =>
      unfold itemsById at h
      cases hid : canonicalItemId gate item with
      | none => simp [hid] at h
      | some id =>
        simp only [hid, Option.ite_none_right_eq_some, Bool.and_eq_true] at h
        obtain ⟨⟨-, hfresh⟩, h⟩ := h
        have hnew : id ∉ found.map Prod.fst := by
          intro hmem
          obtain ⟨x, hx, rfl⟩ := List.mem_map.1 hmem
          rw [Option.isNone_iff_eq_none, List.lookup_eq_none_iff] at hfresh
          simpa using hfresh x hx
        obtain ⟨hitems, ids, hids, hmap, hcanonical⟩ := ih h (by
          rw [List.map_append, List.nodup_append]
          refine ⟨hnodup, List.nodup_singleton _, fun a ha b hb hab => ?_⟩
          obtain rfl : b = id := List.mem_singleton.1 hb
          exact hnew (hab ▸ ha))
        refine ⟨hitems, id :: ids, ?_, ?_, fun y hy => ?_⟩
        · simp [List.mapM_cons, hid, hids]
        · rw [hmap, List.map_append, List.append_assoc]
          rfl
        · rcases hcanonical y hy with hold | hself
          · rcases List.mem_append.1 hold with hold | hlast
            · exact .inl hold
            · rw [List.mem_singleton.1 hlast]
              exact .inr hid
          · exact .inr hself

lemma waitingGate_cases {t : Tables} {run : ℕ} (h : t.waitingGate run = .ok (gate, items)) :
    (∃ r : Run, t.runs[run]? = some r ∧ r.row.status = .waitingApproval ∧
      gateOfPhase r.row.phase = some gate) ∧
    ∃ result : ResultRow, t.result run gate.name = some result ∧
      itemsById gate result.output [] = some items := by
  unfold waitingGate at h
  cases hrun : t.runs[run]? with
  | none => simp [hrun] at h
  | some r =>
    simp only [hrun] at h
    by_cases hst : r.row.status ≠ .waitingApproval
    · simp [hst] at h
    rw [if_neg hst] at h
    cases hphase : gateOfPhase r.row.phase with
    | none => simp [hphase] at h
    | some found =>
      simp only [hphase] at h
      cases hresult : t.result run found.name with
      | none => simp [hresult] at h
      | some result =>
        simp only [hresult] at h
        split_ifs at h
        cases hitems : itemsById found result.output [] with
        | none => simp [hitems] at h
        | some collected =>
          simp only [hitems, Except.ok.injEq, Prod.mk.injEq] at h
          obtain ⟨rfl, rfl⟩ := h
          exact ⟨⟨r, rfl, not_not.1 hst, hphase⟩, result, hresult, hitems⟩

lemma matches_of_waiting {t : Tables} {q : ApprovalRequest} (hgate : t.waitingGate q.run = .ok (gate, items))
    (hcovers : Covers q.decisions items) (hadmits : t.admitsCommand q gate = true)
    (status : CommandStatus) (resume : RunStatus) :
    t.Matches q.run gate ⟨q.run, gate, q.decisions, q.comment, status, resume⟩ := by
  obtain ⟨-, result, hresult, hitems⟩ := waitingGate_cases hgate
  obtain ⟨hnodup, ids, hids, hmap, -⟩ := itemsById_ids hitems List.nodup_nil
  rw [List.map_nil, List.nil_append] at hmap
  simp only [admitsCommand, Bool.and_eq_true, decide_eq_true_eq] at hadmits
  refine ⟨rfl, rfl, ids, by rw [gateItemIds, hresult]; exact hids, hmap ▸ hnodup, ?_⟩
  refine (List.perm_ext_iff_of_nodup hadmits.2 (hmap ▸ hnodup)).2 fun id => ?_
  rw [← hmap]
  refine ⟨fun hmem => ?_, fun hmem => ?_⟩
  · obtain ⟨d, hd, rfl⟩ := List.mem_map.1 hmem
    obtain ⟨item, hitem, hid⟩ := List.lookup_isSome_iff.1 (hcovers.1 d hd)
    exact eq_of_beq hid ▸ List.mem_map_of_mem hitem
  · obtain ⟨item, hitem, rfl⟩ := List.mem_map.1 hmem
    exact hcovers.2 item hitem

/-! ## Stored commands -/

end Tables

def CommandRow.request (c : CommandRow) : ℕ × GateAgent × List Decision × Option String :=
  (c.run, c.gate, c.decisions, c.comment)

lemma CommandRow.intervene_request (c : CommandRow) : c.intervene.request = c.request := by
  unfold CommandRow.intervene
  split_ifs <;> rfl

namespace Tables

variable {t t' : Tables}

lemma Step.requests (h : t.Step t') (hinv : t.Inv) :
    t'.commands.map CommandRow.request = t.commands.map CommandRow.request ∨
    ∃ (q : ApprovalRequest) (now k : ℕ), t.enqueueApprovalCommand q now = .ok (t', k) := by
  have intervened : ∀ (p : ℕ → CommandRow → Prop) [∀ k c, Decidable (p k c)],
      (t.commands.mapIdx fun k c => if p k c then c.intervene else c).map CommandRow.request =
        t.commands.map CommandRow.request := by
    intro p _
    refine List.ext_getElem? fun k => ?_
    rw [List.getElem?_map, List.getElem?_map, List.getElem?_mapIdx, Option.map_map]
    refine congrArg (Option.map · _) (funext fun c => ?_)
    simp only [Function.comp_apply]
    split_ifs
    · exact c.intervene_request
    · rfl
  cases h with
  | quiet _ hcommands => exact .inl (by rw [hcommands])
  | claim owner j now hclaim =>
    obtain ⟨x, c, status, -, hc, -, -, -, -, rfl⟩ := claimEffect_cases hclaim
    exact .inl (map_set_of_eq _ hc rfl)
  | settle owner j now f hplan _ hsettle =>
    refine .inl ?_
    obtain ⟨x, hx, hheld, ⟨hrun, rfl⟩ | ⟨hrun, rfl⟩⟩ := settle_cases hsettle
    · rcases finalizeCancellation_cases (t := { t with effects := t.effects.set j (f x) }) now
        hrun with ⟨-, hleaves⟩ | ⟨-, hleaves⟩
      · rw [hleaves.commands]
      · rw [hleaves.commands, interveneRun, List.map_map]
        refine List.map_congr_left fun c _ => ?_
        simp only [Function.comp_apply]
        split_ifs
        · exact c.intervene_request
        · rfl
    · have hlive : x.isLive = true := by
        simp [EffectRow.isLive, EffectRow.isPending, EffectRow.processing_of_isHeldBy hheld]
      obtain ⟨c, hc, hcr⟩ := hinv.parent j x hx
      have hqueued : t.statusOf c.run = some .approvalQueued :=
        hcr.symm ▸ (hinv.status_of_live hx hlive).resolve_right hrun
      rcases finalizeCommand_cases (t := { t with effects := t.effects.set j (f x) }) now hc
        (hinv.open_of_live hx hlive hc) hqueued with
        ⟨-, hleaves⟩ | ⟨-, hleaves⟩ | ⟨-, hleaves⟩ | ⟨-, hleaves⟩
      · rw [hleaves.commands]
        exact map_set_of_eq _ hc rfl
      · rw [hleaves.commands]
      · rw [hleaves.commands]
        exact map_set_of_eq _ hc rfl
      · rw [hleaves]
  | enqueue q now k henqueue => exact .inr ⟨q, now, k, henqueue⟩
  | cancel run now project hcancel =>
    refine .inl ?_
    obtain ⟨status, -, ⟨-, rfl⟩ | ⟨-, ⟨-, -, hleaves⟩ | ⟨-, -, hleaves⟩⟩⟩ := cancelRun_cases hcancel
    · rfl
    all_goals
      rw [hleaves.commands]
      exact intervened _

variable {k : ℕ}

lemma origin_of_requests
    (h : t'.commands.map CommandRow.request = t.commands.map CommandRow.request)
    {c' : CommandRow} (hc' : t'.commands[k]? = some c') :
    ∃ c : CommandRow, t.commands[k]? = some c ∧ c.request = c'.request := by
  refine Option.map_eq_some_iff.1 ?_
  rw [← List.getElem?_map, ← h, List.getElem?_map, hc', Option.map_some]

/-- The invariant of stored commands and of the plans of their effects. -/
structure Gates (t : Tables) : Prop where
  gate : ∀ (k k' : ℕ) (c c' : CommandRow), t.commands[k]? = some c → t.commands[k']? = some c' →
    c.run = c'.run → c.gate = c'.gate → k = k'
  /-- A request is stored once at most. -/
  digest : ∀ (k k' : ℕ) (c c' : CommandRow), t.commands[k]? = some c → t.commands[k']? = some c' →
    c.run = c'.run → c.hasDigest c'.decisions c'.comment = true → k = k'
  /-- An external effect carries out an approval of an item that approves itself and is safe. -/
  planned : ∀ (i : ℕ) (e : EffectRow), t.effects[i]? = some e →
    e.plan.effectType.isExternal = true →
    ∃ c : CommandRow, t.commands[e.plan.command]? = some c ∧ c.run = e.plan.run ∧
      (∃ d ∈ c.decisions, d.itemId = e.plan.itemId ∧ d.approved = true) ∧
      canonicalItemId c.gate e.plan.payload = some e.plan.itemId ∧
      e.plan.payload.decision = some "approve" ∧ e.plan.payload.safetyPassed = true
  treatment : ∀ (i : ℕ) (e : EffectRow), t.effects[i]? = some e →
    e.plan.effectType = .openTreatmentChangeset →
    ∃ (d : ℕ) (x : EffectRow), e.plan.dependsOn = some d ∧ t.effects[d]? = some x ∧
      x.plan.command = e.plan.command ∧ x.plan.itemId = e.plan.itemId ∧
      x.plan.effectType = .stageExperimentDraft

variable {c : CommandRow}

lemma request_eq {c' : CommandRow} (h : c.request = c'.request) :
    c.run = c'.run ∧ c.gate = c'.gate ∧ c.decisions = c'.decisions ∧ c.comment = c'.comment := by
  simpa [CommandRow.request] using h

lemma Gates.of_same (h : t.Gates)
    (hcommands : t'.commands.map CommandRow.request = t.commands.map CommandRow.request)
    (heffects : t'.effects.map EffectRow.plan = t.effects.map EffectRow.plan) : t'.Gates where
  gate := by
    intro k k' c c' hc hc' hrun hgate
    obtain ⟨x, hx, hxc⟩ := origin_of_requests hcommands hc
    obtain ⟨x', hx', hxc'⟩ := origin_of_requests hcommands hc'
    obtain ⟨hr, hg, -, -⟩ := request_eq hxc
    obtain ⟨hr', hg', -, -⟩ := request_eq hxc'
    exact h.gate k k' x x' hx hx' (by rw [hr, hr', hrun]) (by rw [hg, hg', hgate])
  digest := by
    intro k k' c c' hc hc' hrun hdigest
    obtain ⟨x, hx, hxc⟩ := origin_of_requests hcommands hc
    obtain ⟨x', hx', hxc'⟩ := origin_of_requests hcommands hc'
    obtain ⟨hr, -, hd, hm⟩ := request_eq hxc
    obtain ⟨hr', -, hd', hm'⟩ := request_eq hxc'
    refine h.digest k k' x x' hx hx' (by rw [hr, hr', hrun]) ?_
    simpa only [CommandRow.hasDigest, hd, hm, hd', hm'] using hdigest
  planned := by
    intro i e he hext
    obtain ⟨x, hx, hplan⟩ := exists_of_plans heffects he
    obtain ⟨c, hc, hrun, hhuman, hitem, hown⟩ := h.planned i x hx (hplan ▸ hext)
    obtain ⟨c', hc', hcc⟩ := origin_of_requests hcommands.symm hc
    obtain ⟨hr, hg, hd, -⟩ := request_eq hcc
    rw [← hplan]
    exact ⟨c', hc', by rw [hr, hrun], by rwa [hd], by rwa [hg], hown⟩
  treatment := by
    intro i e he htype
    obtain ⟨x, hx, hplan⟩ := exists_of_plans heffects he
    obtain ⟨d, y, hdep, hy, hdraft⟩ := h.treatment i x hx (hplan ▸ htype)
    obtain ⟨y', hy', hyp⟩ := exists_of_plans heffects.symm hy
    rw [← hplan]
    exact ⟨d, y', hdep, hy', by rwa [hyp]⟩

variable {q : ApprovalRequest}

lemma replayed_cases (h : t.replayed q = some k) :
    ∃ c : CommandRow, t.commands[k]? = some c ∧ c.run = q.run ∧
      c.hasDigest q.decisions q.comment = true := by
  obtain ⟨hlt, hfound, -⟩ := List.findIdx?_eq_some_iff_getElem.1 h
  simp only [Bool.and_eq_true, decide_eq_true_eq] at hfound
  exact ⟨_, List.getElem?_eq_getElem hlt, hfound.1, hfound.2⟩

lemma not_replayed (h : t.replayed q = none) (hc : t.commands[k]? = some c) (hrun : c.run = q.run) :
    c.hasDigest q.decisions q.comment = false := by
  have hnone := List.findIdx?_eq_none_iff.1 h c (List.mem_of_getElem? hc)
  simpa [hrun] using hnone

lemma hasDigest_comm (c c' : CommandRow) :
    c.hasDigest c'.decisions c'.comment = c'.hasDigest c.decisions c.comment := by
  simp only [CommandRow.hasDigest, eq_comm]

lemma Gates.enqueue (h : t.Gates) {now : ℕ}
    (henqueue : t.enqueueApprovalCommand q now = .ok (t', k)) : t'.Gates := by
  rcases enqueue_cases henqueue with ⟨-, rfl⟩ | ⟨hfresh, -, gate, items, hgate, hcovers, hadmits, rfl⟩
  · exact h
  set planned := planEffects gate q.run t.commands.length items 0 t.effects.length q.decisions
  have hnew : ∀ (k : ℕ) (c : CommandRow), t.commands[k]? = some c → c.run = q.run → c.gate ≠ gate := by
    intro k c hc hrun hsame
    simp only [admitsCommand, Bool.and_eq_true, List.all_eq_true] at hadmits
    have hno := hadmits.1.1.1 c (List.mem_of_getElem? hc)
    simp [hrun, hsame] at hno
  have hcanonical : ∀ d item, items.lookup d = some item → canonicalItemId gate item = some d := by
    intro d item hitem
    obtain ⟨-, result, -, hitems⟩ := waitingGate_cases hgate
    obtain ⟨-, ids, -, -, hall⟩ := itemsById_ids hitems List.nodup_nil
    obtain ⟨l₁, l₂, rfl, -⟩ := List.lookup_eq_some_iff.1 hitem
    exact (hall (d, item) (by simp)).resolve_left (by simp)
  refine ⟨?_, ?_, ?_, ?_⟩
  · intro k k' c d hc hd hrun hsame
    rcases insertCommand_row hc with hold | ⟨rfl, rfl⟩ <;>
      rcases insertCommand_row hd with hold' | ⟨rfl, rfl⟩
    · exact h.gate k k' c d hold hold' hrun hsame
    · exact absurd hsame (hnew k c hold hrun)
    · exact absurd hsame.symm (hnew k' d hold' hrun.symm)
    · rfl
  · intro k k' c d hc hd hrun hdigest
    rcases insertCommand_row hc with hold | ⟨rfl, rfl⟩ <;>
      rcases insertCommand_row hd with hold' | ⟨rfl, rfl⟩
    · exact h.digest k k' c d hold hold' hrun hdigest
    · exact absurd hdigest (by simp [newCommand, not_replayed hfresh hold hrun])
    · rw [hasDigest_comm] at hdigest
      exact absurd hdigest (by simp [newCommand, not_replayed hfresh hold' hrun.symm])
    · rfl
  · intro i e he hext
    rcases getElem?_append_cases he with hold | ⟨j, -, hnewrow⟩
    · obtain ⟨c, hc, rest⟩ := h.planned i e hold hext
      exact ⟨c, getElem?_append_of_some _ hc, rest⟩
    · obtain ⟨p, hp, rfl⟩ := List.mem_map.1 (List.mem_of_getElem? hnewrow)
      obtain ⟨d, hd, item, base, order, hitem, hp⟩ := planEffects_cases hp
      obtain ⟨hcommand, hrun, hid, hpayload⟩ := planDecision_fields hp
      obtain ⟨happroved, hactionable⟩ := planDecision_external hp hext
      simp only [Item.isActionable, Bool.and_eq_true, decide_eq_true_eq] at hactionable
      refine ⟨newCommand q gate, ?_, hrun.symm, ⟨d, hd, hid.symm, happroved⟩, ?_, ?_⟩
      · rw [hcommand]
        exact insertCommand_last t q gate planned now
      · rw [hpayload, hid]
        exact hcanonical d.itemId item hitem
      · rw [hpayload]
        exact hactionable
  · intro i e he htype
    rcases getElem?_append_cases he with hold | ⟨j, -, hnewrow⟩
    · obtain ⟨d, x, hdep, hx, rest⟩ := h.treatment i e hold htype
      exact ⟨d, x, hdep, getElem?_append_of_some _ hx, rest⟩
    · rw [List.getElem?_map, Option.map_eq_some_iff] at hnewrow
      obtain ⟨p, hp, rfl⟩ := hnewrow
      obtain ⟨-, j', p', hdep, hp', hdraft, -, hitem⟩ :=
        (planEffects_dependency hp).resolve_right fun hno => hno.1 htype
      have hcommand : ∀ p ∈ planned, p.command = t.commands.length := by
        intro p hp
        obtain ⟨d, -, item, base, order, -, hp⟩ := planEffects_cases hp
        exact (planDecision_fields hp).1
      refine ⟨t.effects.length + j', ⟨p', .queued, 0, now, none⟩, hdep, ?_, ?_, hitem, hdraft⟩
      · refine (getElem?_append_add _ _ _).trans ?_
        rw [List.getElem?_map, hp']
        rfl
      · rw [hcommand p' (List.mem_of_getElem? hp'), hcommand p (List.mem_of_getElem? hp)]

lemma Step.gates (hstep : t.Step t') (hinv : t.Inv) (h : t.Gates) : t'.Gates := by
  rcases hstep.requests hinv with hcommands | ⟨q, now, k, henqueue⟩
  · rcases hstep.plans with heffects | ⟨q, now, k, henqueue⟩
    · exact h.of_same hcommands heffects
    · exact h.enqueue henqueue
  · exact h.enqueue henqueue

/-! ## Answers to requests -/

lemma perm_of_hasDigest {decisions : List Decision} {comment : Option String}
    (h : c.hasDigest decisions comment = true) : c.decisions.Perm decisions := by
  have hsame : sortedDecisions c.decisions = sortedDecisions decisions := (of_decide_eq_true h).1
  rw [sortedDecisions, sortedDecisions] at hsame
  have hsorted := (List.perm_insertionSort (fun a b : Decision => a.itemId ≤ b.itemId) c.decisions).symm
  rw [hsame] at hsorted
  exact hsorted.trans (List.perm_insertionSort _ decisions)

/-- The decisions of the request are on each of the persisted items of the gate once. -/
def Decides (t : Tables) (q : ApprovalRequest) (gate : GateAgent) : Prop :=
  ∃ ids : List String, t.gateItemIds q.run gate = some ids ∧ ids.Nodup ∧
    (q.decisions.map Decision.itemId).Perm ids

lemma matches_iff {gate : GateAgent}
    (hrun : c.run = q.run) (hdigest : c.hasDigest q.decisions q.comment = true) :
    t.Matches q.run gate c ↔ c.gate = gate ∧ t.Decides q gate := by
  have hperm := (perm_of_hasDigest hdigest).map Decision.itemId
  constructor
  · rintro ⟨-, hgate, ids, hids, hnodup, hdecisions⟩
    exact ⟨hgate, ids, hids, hnodup, hperm.symm.trans hdecisions⟩
  · rintro ⟨hgate, ids, hids, hnodup, hdecisions⟩
    exact ⟨hrun, hgate, ids, hids, hnodup, hperm.trans hdecisions⟩

lemma replayed_of_digest (hc : c ∈ t.commands)
    (hrun : c.run = q.run) (hdigest : c.hasDigest q.decisions q.comment = true) :
    ∃ k : ℕ, t.replayed q = some k := by
  cases h : t.replayed q with
  | some k => exact ⟨k, rfl⟩
  | none =>
    obtain ⟨k, hk⟩ := List.mem_iff_getElem?.1 hc
    rw [not_replayed h hk hrun] at hdigest
    cases hdigest

/-- **The answer to a request at a gate** matches the gate exactly if the stored commands of equal
requests belong to the gate, and decide it. -/
lemma Gates.answer_iff (h : t.Gates) {r : Run} {gate : GateAgent}
    (hr : t.runs[q.run]? = some r) (hproject : r.project = q.project)
    (hphase : gateOfPhase r.row.phase = some gate) :
    (∀ (now : ℕ) (t' : Tables) (k : ℕ), t.enqueueApprovalCommand q now = .ok (t', k) →
      ∃ c : CommandRow, t'.commands[k]? = some c ∧ t.Matches q.run gate c) ↔
    ∀ c ∈ t.commands, c.run = q.run → c.hasDigest q.decisions q.comment = true →
      c.gate = gate ∧ t.Decides q gate := by
  constructor
  · intro hall c hc hrun hdigest
    obtain ⟨k, hk⟩ := replayed_of_digest hc hrun hdigest
    have hanswer : t.enqueueApprovalCommand q 0 = .ok (t, k) := by
      simp [enqueueApprovalCommand, hr, hproject, hk]
    obtain ⟨x, hx, hmatch⟩ := hall 0 t k hanswer
    obtain ⟨y, hy, hyrun, hydigest⟩ := replayed_cases hk
    obtain rfl := Option.some.inj (hx.symm.trans hy)
    obtain ⟨k', hk'⟩ := List.mem_iff_getElem?.1 hc
    have hsame : c.hasDigest x.decisions x.comment = true := by
      simp only [CommandRow.hasDigest, decide_eq_true_eq] at hdigest hydigest ⊢
      exact ⟨hdigest.1.trans hydigest.1.symm, hdigest.2.trans hydigest.2.symm⟩
    obtain rfl := h.digest k' k c x hk' hx (hrun.trans hyrun.symm) hsame
    obtain rfl := Option.some.inj (hk'.symm.trans hx)
    exact (matches_iff hrun hdigest).1 hmatch
  · intro hall now t' k hanswer
    rcases enqueue_cases hanswer with
      ⟨hreplay, rfl⟩ | ⟨-, rfl, found, items, hgate, hcovers, hadmits, rfl⟩
    · obtain ⟨c, hc, hrun, hdigest⟩ := replayed_cases hreplay
      exact ⟨c, hc, (matches_iff hrun hdigest).2 (hall c (List.mem_of_getElem? hc) hrun hdigest)⟩
    · obtain ⟨⟨x, hx, -, hxphase⟩, -⟩ := waitingGate_cases hgate
      obtain rfl := Option.some.inj (hx.symm.trans hr)
      obtain rfl := Option.some.inj (hxphase.symm.trans hphase)
      exact ⟨newCommand q found, insertCommand_last .., matches_of_waiting hgate hcovers hadmits _ _⟩

end Tables

/-! ## Every run -/

open Tables

lemma reach_gates {s : State} (h : machine.Reach s) : s.tables.Gates := by
  refine StepMachine.Reach.induct (P := fun s => s.tables.Gates) ?_ ?_ h
  · refine ⟨?_, ?_, ?_, ?_⟩
    all_goals intros; simp_all [machine, State.initial]
  · intro s act s' hreach hgates hstep
    obtain ⟨hinv, hl⟩ := reach_inv hreach
    exact (step_tables hl hstep).1.gates hinv hgates

/-- **Commands match their gates.** In every reachable state:

* a gate has one command at most;
* an external effect is planned for an item that the human approved, whose own decision is to approve
  and whose safety result passed, and a treatment depends on the draft of its item;
* the command that answers a request, made while the run waits at a gate, belongs to the gate and
  decides each of its persisted items once, if and only if every stored command of the run with the
  same decisions and comment belongs to that gate and the request decides it. -/
theorem commands_match_gates {s : State} (h : machine.Reach s) :
    (∀ (k k' : ℕ) (c c' : CommandRow), s.tables.commands[k]? = some c →
      s.tables.commands[k']? = some c' → c.run = c'.run → c.gate = c'.gate → k = k') ∧
    (∀ (i : ℕ) (e : EffectRow), s.tables.effects[i]? = some e →
      (e.plan.effectType.isExternal = true →
        ∃ c : CommandRow, s.tables.commands[e.plan.command]? = some c ∧ c.run = e.plan.run ∧
          (∃ d ∈ c.decisions, d.itemId = e.plan.itemId ∧ d.approved = true) ∧
          canonicalItemId c.gate e.plan.payload = some e.plan.itemId ∧
          e.plan.payload.decision = some "approve" ∧ e.plan.payload.safetyPassed = true) ∧
      (e.plan.effectType = .openTreatmentChangeset →
        ∃ (d : ℕ) (x : EffectRow), e.plan.dependsOn = some d ∧ s.tables.effects[d]? = some x ∧
          x.plan.command = e.plan.command ∧ x.plan.itemId = e.plan.itemId ∧
          x.plan.effectType = .stageExperimentDraft)) ∧
    ∀ (q : ApprovalRequest) (r : Run) (gate : GateAgent), s.tables.runs[q.run]? = some r →
      r.project = q.project → r.row.status = .waitingApproval →
      gateOfPhase r.row.phase = some gate →
      ((∀ (now : ℕ) (t' : Tables) (k : ℕ),
        s.tables.enqueueApprovalCommand q now = .ok (t', k) →
        ∃ c : CommandRow, t'.commands[k]? = some c ∧ s.tables.Matches q.run gate c) ↔
      ∀ c ∈ s.tables.commands, c.run = q.run → c.hasDigest q.decisions q.comment = true →
        c.gate = gate ∧ s.tables.Decides q gate) := by
  have hgates := reach_gates h
  refine ⟨hgates.gate, fun i e he => ⟨hgates.planned i e he, hgates.treatment i e he⟩, ?_⟩
  intro q r gate hr hproject _ hphase
  exact hgates.answer_iff hr hproject hphase

/-- A run that waits at its first gate is answered with a command of that gate. -/
theorem commands_match_gates_first : ∃ s : State, machine.Reach s ∧
    (∃ (t' : Tables) (k : ℕ), s.tables.enqueueApprovalCommand
      ⟨0, "shop", [⟨"checkout", true⟩], none, true⟩ s.clock = .ok (t', k)) ∧
    ∀ (now : ℕ) (t' : Tables) (k : ℕ), s.tables.enqueueApprovalCommand
      ⟨0, "shop", [⟨"checkout", true⟩], none, true⟩ now = .ok (t', k) →
      ∃ c : CommandRow, t'.commands[k]? = some c ∧ s.tables.Matches 0 .experimentDesign c := by
  have hrun : (machine.run machine.init ((exampleApproval "").take 5)).map (fun s =>
      decide ((s.tables.enqueueApprovalCommand ⟨0, "shop", [⟨"checkout", true⟩], none, true⟩
        s.clock).isOk = true ∧ s.tables.commands = [] ∧
        s.tables.runs.map (fun r => (r.project, r.row.status, gateOfPhase r.row.phase)) =
          [("shop", .waitingApproval, some .experimentDesign)])) = some true := by
    decide +kernel
  obtain ⟨s, hs, hend⟩ := Option.map_eq_some_iff.1 hrun
  obtain ⟨hok, hnone, hwaits⟩ := of_decide_eq_true hend
  obtain ⟨r, hr, hfields⟩ : ∃ r : Run, s.tables.runs[0]? = some r ∧
      (r.project, r.row.status, gateOfPhase r.row.phase) =
        ("shop", .waitingApproval, some .experimentDesign) := by
    refine Option.map_eq_some_iff.1 ?_
    rw [← List.getElem?_map, hwaits]
    rfl
  simp only [Prod.mk.injEq] at hfields
  have hreach := StepMachine.reach_of_run hs
  refine ⟨s, hreach, ?_, ?_⟩
  · cases hanswer : s.tables.enqueueApprovalCommand
        ⟨0, "shop", [⟨"checkout", true⟩], none, true⟩ s.clock with
    | error e => simp [hanswer, Except.isOk, Except.toBool] at hok
    | ok found => exact ⟨found.1, found.2, rfl⟩
  · refine ((commands_match_gates hreach).2.2 ⟨0, "shop", [⟨"checkout", true⟩], none, true⟩ r
      .experimentDesign hr hfields.1 hfields.2.1 hfields.2.2).2 ?_
    intro c hc
    rw [hnone] at hc
    cases hc

/-- A changeset of the proposal `checkout`, ready to be approved. -/
def exampleChangeset : Item :=
  ⟨none, some "checkout", some "approve", some ⟨some true, true, some "low", none, none⟩, "", ""⟩

/-- The design is drafted, the run resumes and stops at a second gate with the same item id. -/
def exampleSecondGate : List Act :=
  [.propose "shop" "checkout"] ++ exampleApproval "" ++ exampleDraft ++
    [.complete 0, .acquire 0 2, .claimProposals 0 ["checkout"],
      .persist 0 2 "code_implementation" "changesets" [some exampleChangeset] true,
      .update 0 2 .waitingApproval "code_implementation_approval"]

/-- The approval of the second gate is answered with the command of the first. -/
theorem earlier_gate_answers : ¬ ∀ s : State, machine.Reach s →
    ∀ (q : ApprovalRequest) (r : Run) (gate : GateAgent), s.tables.runs[q.run]? = some r →
      r.project = q.project → r.row.status = .waitingApproval →
      gateOfPhase r.row.phase = some gate →
      ∀ (now : ℕ) (t' : Tables) (k : ℕ), s.tables.enqueueApprovalCommand q now = .ok (t', k) →
        ∃ c : CommandRow, t'.commands[k]? = some c ∧ c.gate = gate := by
  intro hall
  have hrun : (machine.run machine.init exampleSecondGate).map (fun s =>
      decide ((s.tables.enqueueApprovalCommand ⟨0, "shop", [⟨"checkout", true⟩], none, true⟩
        0).toOption = some (s.tables, 0) ∧
        s.tables.commands.map CommandRow.gate = [.experimentDesign] ∧
        s.tables.runs.map (fun r => (r.project, r.row.status, gateOfPhase r.row.phase)) =
          [("shop", .waitingApproval, some .codeImplementation)])) = some true := by
    decide +kernel
  obtain ⟨s, hs, hend⟩ := Option.map_eq_some_iff.1 hrun
  obtain ⟨hanswer, hcommands, hwaits⟩ := of_decide_eq_true hend
  obtain ⟨r, hr, hfields⟩ : ∃ r : Run, s.tables.runs[0]? = some r ∧
      (r.project, r.row.status, gateOfPhase r.row.phase) =
        ("shop", .waitingApproval, some .codeImplementation) := by
    refine Option.map_eq_some_iff.1 ?_
    rw [← List.getElem?_map, hwaits]
    rfl
  simp only [Prod.mk.injEq] at hfields
  have hok : s.tables.enqueueApprovalCommand ⟨0, "shop", [⟨"checkout", true⟩], none, true⟩ 0 =
      .ok (s.tables, 0) := by
    cases hans : s.tables.enqueueApprovalCommand ⟨0, "shop", [⟨"checkout", true⟩], none, true⟩ 0 with
    | error e => simp [hans, Except.toOption] at hanswer
    | ok found =>
      rw [hans] at hanswer
      rw [Option.some.inj hanswer]
  obtain ⟨c, hc, hgate⟩ := hall s (StepMachine.reach_of_run hs)
    ⟨0, "shop", [⟨"checkout", true⟩], none, true⟩ r .codeImplementation hr hfields.1 hfields.2.1
    hfields.2.2 0 s.tables 0 hok
  have hstored : (s.tables.commands.map CommandRow.gate)[0]? = some GateAgent.codeImplementation := by
    rw [List.getElem?_map, hc, Option.map_some, hgate]
  rw [hcommands] at hstored
  cases hstored

end Apdl.Agents.Approval
