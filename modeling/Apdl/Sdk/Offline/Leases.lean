import Apdl.Sdk.Offline.Outcome

set_option autoImplicit false

/-!
# Leases of offline records

The leases of offline records in every interleaving of any number of tabs, at every reading of
their clocks.

## Main results

* `stale_and_cleared_records_deleted` — a stale record is deleted by the tabs of other scopes too,
  and clearing a scope deletes its records.

## Design

The properties of runs follow from the outcomes of their steps. A lease is what the record says;
whoever holds one has to pass the test of `acknowledge` at some reading.
-/

namespace Apdl.Sdk.Offline

section

variable {E : Type} {p : Platform E} {tab : Tab} {id now : ℤ} {clock : Clock} {v : Value E}
  {ids : List ℤ}

/-! ## Runs -/

/-- The step lets another owner have the record: `owner` releases it, or a tab claims at a reading
at which the lease has expired. -/
def State.Frees (s : State E) (a : Act E) (place : Place) (id : ℤ) (owner : String)
    (expiresAt : ℤ) : Prop :=
  (∃ tab ids now clock, s.performed a = some (tab, place, .release ids now clock) ∧
    tab.owner = owner ∧ id ∈ ids) ∨
  ∃ tab now clock, s.performed a = some (tab, place, .claim now clock) ∧ expiresAt ≤ now

variable {place : Place}

lemma used_of_record {s : State E} (h : s.record place id = some v) :
    s.Used place id := by
  cases place with
  | database => simpa [State.Used] using Shelf.used_of_lookup h
  | memory tab => simpa [State.Used] using Shelf.used_of_lookup h

lemma step_leased {s s' : State E} {a : Act E} {owner : String} {expiresAt : ℤ}
    (hok : s.Ok) (h : s.step p a = some s') (hlease : s.Leased place id owner expiresAt)
    (hfree : ¬ s.Frees a place id owner expiresAt) :
    s'.Leased place id owner expiresAt ∨ s'.record place id = none := by
  obtain ⟨r, hrec, howner, hexpires⟩ := hlease
  have hkept : s'.record place id = some (some r) → s'.Leased place id owner expiresAt :=
    fun hkeep => ⟨r, hkeep, howner, hexpires⟩
  rcases step_outcome hok h hrec with hkeep | ⟨tab, op, hop, hkeep | ⟨hgone, -⟩ | ⟨v', -, hrelet⟩⟩
  · exact .inl (hkept hkeep)
  · exact .inl (hkept hkeep)
  · exact .inr hgone
  · exfalso
    cases op with
    | claim now clock =>
      -- a record that is leased is available only once its lease has expired
      obtain ⟨r', hr', -, havail, -⟩ := hrelet
      cases hr'
      simp only [isClaimAvailable, howner, hexpires, decide_eq_true_eq] at havail
      exact hfree (.inr ⟨tab, now, clock, hop, havail⟩)
    | release ids now clock =>
      obtain ⟨r', hr', hid, -, howner', -⟩ := hrelet
      cases hr'
      rw [howner, Option.some.injEq] at howner'
      exact hfree (.inl ⟨tab, ids, now, clock, hop, howner'.symm, hid⟩)
    | _ => exact hrelet.elim

lemma run_leased {db : Database E} {s s' : State E} {as : List (Act E)}
    {owner : String} {expiresAt : ℤ} (hok : s.Ok) (hlease : s.Leased place id owner expiresAt)
    (hrun : (machine p db).run s as = some s')
    (hfree : ∀ t a, (machine p db).Takes s as t a → ¬ t.Frees a place id owner expiresAt) :
    s'.Leased place id owner expiresAt ∨ s'.record place id = none := by
  have hused : s.Used place id := by
    obtain ⟨r, hrec, -⟩ := hlease
    exact used_of_record hrec
  -- once the record is deleted its id is not given again
  suffices hinv : s'.Ok ∧ s'.Used place id ∧
      (s'.Leased place id owner expiresAt ∨ s'.record place id = none) from hinv.2.2
  refine StepMachine.run_induct (M := machine p db)
    (P := fun t => t.Ok ∧ t.Used place id ∧
      (t.Leased place id owner expiresAt ∨ t.record place id = none))
    as ⟨hok, hused, .inl hlease⟩ ?_ hrun
  intro t a t' htakes ⟨htok, htused, ht⟩ hstep
  have hlater := step_later htok hstep htused
  refine ⟨step_ok htok hstep, hlater.1, ?_⟩
  rcases ht with hleased | hgone
  · exact step_leased htok hstep hleased (hfree t a htakes)
  · exact .inr (hlater.2 hgone)

lemma run_stored {db : Database E} {s s' : State E} {as : List (Act E)}
    (hok : s.Ok) (hrec : s.record place id = some v)
    (hrun : (machine p db).run s as = some s') :
    (∃ v', s'.record place id = some v' ∧
      v'.map StoredOfflineEvent.unlease = v.map StoredOfflineEvent.unlease) ∨
    ∃ t a tab op v', (machine p db).Takes s as t a ∧ t.performed a = some (tab, place, op) ∧
      t.record place id = some v' ∧
      v'.map StoredOfflineEvent.unlease = v.map StoredOfflineEvent.unlease ∧
      op.Removes p tab id v' := by
  suffices hinv : s'.Ok ∧ _ from hinv.2
  refine StepMachine.run_induct (M := machine p db)
    (P := fun t' => t'.Ok ∧
      ((∃ v', t'.record place id = some v' ∧
        v'.map StoredOfflineEvent.unlease = v.map StoredOfflineEvent.unlease) ∨
      ∃ t a tab op v', (machine p db).Takes s as t a ∧ t.performed a = some (tab, place, op) ∧
        t.record place id = some v' ∧
        v'.map StoredOfflineEvent.unlease = v.map StoredOfflineEvent.unlease ∧
        op.Removes p tab id v')) as ⟨hok, .inl ⟨v, hrec, rfl⟩⟩ ?_ hrun
  intro t a t' htakes ⟨htok, ht⟩ hstep
  refine ⟨step_ok htok hstep, ?_⟩
  rcases ht with ⟨w, hw, hsame⟩ | hremoved
  · rcases step_outcome htok hstep hw with
      hkeep | ⟨tab, op, hop, hkeep | ⟨-, hremoves⟩ | ⟨w', hw', hrelet⟩⟩
    · exact .inl ⟨w, hkeep, hsame⟩
    · exact .inl ⟨w, hkeep, hsame⟩
    · exact .inr ⟨t, a, tab, op, w, htakes, hop, hw, hsame, hremoves⟩
    · exact .inl ⟨w', hw', hrelet.unlease_eq.trans hsame⟩
  · exact .inr hremoved

lemma step_acknowledged {s s' : State E} {a : Act E} (hok : s.Ok) (h : s.step p a = some s')
    (hop : s.performed a = some (tab, place, .acknowledge ids now clock))
    (hrec : s.record place id = some v) :
    s'.record place id = some v ∨
      (s'.record place id = none ∧ id ∈ ids ∧ s.Holds place id tab.owner now) := by
  rcases step_outcome hok h hrec with hkeep | ⟨tab', op, hop', hout⟩
  · exact .inl hkeep
  rw [hop] at hop'
  cases hop'
  rcases hout with hkeep | ⟨hgone, hstale | hevict | hack | hclear⟩ | ⟨v', -, hrelet⟩
  · exact .inl hkeep
  · exact hstale.elim
  · exact hevict.elim
  · obtain ⟨r, rfl, hid, -, hlease⟩ := hack
    refine .inr ⟨hgone, hid, ?_⟩
    simp only [holdsLease, Bool.and_eq_true, decide_eq_true_eq] at hlease
    obtain ⟨howner, hexpiry⟩ := hlease
    split at hexpiry
    · rename_i expiresAt hexpires
      exact ⟨expiresAt, by simpa using hexpiry, r, hrec, howner, hexpires⟩
    · cases hexpiry
  · exact hclear.elim
  · exact hrelet.elim

lemma Op.Removes.stale_of_scope {op : Op E} {r : StoredOfflineEvent E}
    {s : State E} {a : Act E} (hok : s.Ok) (hop : s.performed a = some (tab, place, op))
    (hrec : s.record place id = some (some r)) (hscope : ¬ r.InScope tab.scope)
    (h : op.Removes p tab id (some r)) : op.FindsStale p tab id (some r) := by
  have hcur : ∀ {reading now : ℤ},
      classifyRecord p tab.scope reading now id (some r) ≠ .current := by
    intro reading now hc
    obtain ⟨r', hr', hin, -⟩ := classify_current p hc
    cases hr'
    exact hscope hin
  rcases h with hstale | hevict | hack | hclear
  · exact hstale
  · cases op with
    | store rows bounds =>
      cases bounds with
      | none => exact hevict.elim
      | some reading =>
        obtain ⟨r', -, hc, -⟩ := hevict
        exact absurd hc hcur
    | _ => exact hevict.elim
  · cases op with
    | acknowledge ids now clock =>
      obtain ⟨r', -, -, hc, -⟩ := hack
      exact absurd hc hcur
    | acknowledgeStored messageIds reading =>
      cases reading with
      | some reading =>
        obtain ⟨r', -, -, hc⟩ := hack
        exact absurd (hc reading.1 reading.2 rfl) hcur
      | none =>
        -- the records are not classified in memory, where they all have the scope of the tab
        exfalso
        cases a with
        | acknowledgeStored tab' messageIds' =>
          cases hop
          exact hscope (hok.memory _ id r hrec)
        | commit i now clock =>
          obtain ⟨c, -, hc⟩ := Option.map_eq_some_iff.1 hop
          obtain ⟨tab', call⟩ := c
          cases call <;> cases hc
        | fail i now clock =>
          simp only [State.performed] at hop
          split at hop <;> cases hop
        | acknowledge tab' recordIds now clock =>
          obtain ⟨ids, -, hc⟩ := Option.map_eq_some_iff.1 hop
          cases hc
        | release tab' recordIds now clock =>
          obtain ⟨ids, -, hc⟩ := Option.map_eq_some_iff.1 hop
          cases hc
        | _ => cases hop
    | _ => exact hack.elim
  · cases op with
    | clear now clock => exact absurd hclear hcur
    | _ => exact hclear.elim

lemma Op.Relets.inScope {op : Op E} {r : StoredOfflineEvent E} {v' : Value E}
    (h : op.Relets p tab id (some r) v') : r.InScope tab.scope := by
  have hcur : ∀ {reading now : ℤ},
      classifyRecord p tab.scope reading now id (some r) = .current → r.InScope tab.scope := by
    intro reading now hc
    obtain ⟨r', hr', hin, -⟩ := classify_current p hc
    cases hr'
    exact hin
  cases op with
  | claim now clock =>
    obtain ⟨-, -, hc, -⟩ := h
    exact hcur hc
  | release ids now clock =>
    obtain ⟨-, -, -, hc, -⟩ := h
    exact hcur hc
  | _ => exact h.elim

lemma step_scope {s s' : State E} {a : Act E} {r : StoredOfflineEvent E}
    (hok : s.Ok) (h : s.step p a = some s') (hrec : s.record place id = some (some r)) :
    s'.record place id = some (some r) ∨
      ∃ tab op, s.performed a = some (tab, place, op) ∧
        (r.InScope tab.scope ∨
          (op.FindsStale p tab id (some r) ∧ s'.record place id = none)) := by
  rcases step_outcome hok h hrec with
    hkeep | ⟨tab, op, hop, hkeep | ⟨hgone, hremoves⟩ | ⟨v', -, hrelet⟩⟩
  · exact .inl hkeep
  · exact .inl hkeep
  · refine .inr ⟨tab, op, hop, ?_⟩
    by_cases hscope : r.InScope tab.scope
    · exact .inl hscope
    · exact .inr ⟨hremoves.stale_of_scope hok hop hrec hscope, hgone⟩
  · exact .inr ⟨tab, op, hop, .inl hrelet.inScope⟩

end

/-- **Leases of offline records**, in every run of any number of tabs over one database and at any
readings of their clocks.

* No record is held by two owners, at whatever readings they look. A lease stays as it is until its
  owner releases the record, a tab claims at a reading at which it has expired, or the record is
  deleted.
* An acknowledgement deletes only records that its tab holds under a lease that is unexpired at the
  reading of the call, and leaves all others as they are.
* A record stays stored, with its contents, until a step acknowledges it, evicts it by the bounds,
  clears it with its scope or finds it stale.
* A step of a tab leaves a record of another scope as it is, or finds it stale and deletes it. -/
theorem offline_leases {E : Type} (p : Platform E) (db : Database E) {s : State E}
    (hs : (machine p db).Reach s) :
    (∀ place id owner₁ owner₂ reading₁ reading₂, s.Holds place id owner₁ reading₁ →
      s.Holds place id owner₂ reading₂ → owner₁ = owner₂) ∧
    (∀ place id owner expiresAt as s', s.Leased place id owner expiresAt →
      (machine p db).run s as = some s' →
      (∀ t a, (machine p db).Takes s as t a → ¬ t.Frees a place id owner expiresAt) →
      s'.Leased place id owner expiresAt ∨ s'.record place id = none) ∧
    (∀ a s' tab place ids now clock id v, s.step p a = some s' →
      s.performed a = some (tab, place, .acknowledge ids now clock) →
      s.record place id = some v →
      s'.record place id = some v ∨
        (s'.record place id = none ∧ id ∈ ids ∧ s.Holds place id tab.owner now)) ∧
    (∀ place id v as s', s.record place id = some v → (machine p db).run s as = some s' →
      (∃ v', s'.record place id = some v' ∧
        v'.map StoredOfflineEvent.unlease = v.map StoredOfflineEvent.unlease) ∨
      ∃ t a tab op v', (machine p db).Takes s as t a ∧ t.performed a = some (tab, place, op) ∧
        t.record place id = some v' ∧
        v'.map StoredOfflineEvent.unlease = v.map StoredOfflineEvent.unlease ∧
        op.Removes p tab id v') ∧
    ∀ a s' place id r, s.step p a = some s' → s.record place id = some (some r) →
      s'.record place id = some (some r) ∨
        ∃ tab op, s.performed a = some (tab, place, op) ∧
          (r.InScope tab.scope ∨
            (op.FindsStale p tab id (some r) ∧ s'.record place id = none)) := by
  have hok := ok_of_reach hs
  refine ⟨?_, ?_, ?_, ?_, ?_⟩
  · rintro place id owner₁ owner₂ reading₁ reading₂ ⟨e₁, -, r₁, hrec₁, howner₁, -⟩
      ⟨e₂, -, r₂, hrec₂, howner₂, -⟩
    rw [hrec₁] at hrec₂
    cases hrec₂
    rw [howner₁] at howner₂
    exact Option.some.inj howner₂
  · exact fun place id owner expiresAt as s' hlease hrun hfree => run_leased hok hlease hrun hfree
  · exact fun a s' tab place ids now clock id v hstep hop hrec =>
      step_acknowledged hok hstep hop hrec
  · exact fun place id v as s' hrec hrun => run_stored hok hrec hrun
  · exact fun a s' place id r hstep hrec => step_scope hok hstep hrec

/-! ## Two tabs of one browser -/

/-- Events that are a message id and a time, which has to be recent; their JSON texts are of one
size. -/
def samplePlatform : Platform (String × ℤ) where
  canonicalizeTrackEvent := fun reading e =>
    if reading - maxEventAgeMs ≤ e.2 ∧ e.2 ≤ reading + maxEventFutureSkewMs then some e else none
  serializedEventBytes := fun _ => some 120
  messageId := Prod.fst
  isCanonicalOrigin := fun origin => decide (origin = "https://apdl.example")

def day : ℤ := 24 * 60 * 60 * 1000

/-- A tab of the project `shop`. -/
def shopTab : Tab :=
  ⟨"lease_00000000-0000-4000-8000-00000000000a", ⟨"https://apdl.example", "shop"⟩⟩

/-- A tab of the project `blog`. -/
def blogTab : Tab :=
  ⟨"lease_00000000-0000-4000-8000-00000000000b", ⟨"https://apdl.example", "blog"⟩⟩

/-- The record of an event that the first tab stores on the tenth day. -/
def shopRecord : StoredOfflineEvent (String × ℤ) :=
  ⟨4, "https://apdl.example", "shop", 10 * day, 120, none, none, ("m1", 10 * day)⟩

/-- All clocks show the same. -/
def clockAt (reading : ℤ) : Clock := fun _ _ => reading

/-- The two tabs over a database that is empty at first. -/
def sample : StepMachine (State (String × ℤ)) (Act (String × ℤ)) :=
  machine samplePlatform (Shelf.empty 1)

/-- After a tab has claimed its record, no other owner holds it at any reading. -/
theorem offline_leases_claimed :
    ∃ s, sample.Reach s ∧
      s.Leased .database 1 shopTab.owner (10 * day + leaseDurationMs) ∧
      ∀ owner reading, s.Holds .database 1 owner reading → owner = shopTab.owner := by
  have hrun : (sample.run sample.init
      [.store shopTab [("m1", 10 * day)] false (clockAt (10 * day)),
        .commit 0 (10 * day) (clockAt (10 * day)), .claim shopTab 10 (10 * day) (clockAt (10 * day)),
        .commit 0 (10 * day) (clockAt (10 * day))]).map (fun s => s.record .database 1) =
      some (some (some (shopRecord.lease shopTab.owner (10 * day + leaseDurationMs)))) := by
    decide +kernel
  obtain ⟨s, hs, hrec⟩ := Option.map_eq_some_iff.1 hrun
  have hreach : sample.Reach s := StepMachine.reach_of_run hs
  have hlease : s.Leased .database 1 shopTab.owner (10 * day + leaseDurationMs) :=
    ⟨_, hrec, rfl, rfl⟩
  refine ⟨s, hreach, hlease, fun owner reading hholds => ?_⟩
  have hown : s.Holds .database 1 shopTab.owner (10 * day) := ⟨_, by decide, hlease⟩
  exact (offline_leases samplePlatform (Shelf.empty 1) hreach).1 .database 1 _ _ _ _ hholds hown

/-- A tab that claims eight days later deletes the stale record of another project; and a tab that
clears its project deletes a record that is neither acknowledged, nor evicted, nor stale. -/
theorem stale_and_cleared_records_deleted :
    (¬ ∀ s a s' tab place id r, sample.Reach s → s.step samplePlatform a = some s' →
      (s.performed a).map (fun op => (op.1, op.2.1)) = some (tab, place) →
      s.record place id = some (some r) → ¬ r.InScope tab.scope →
      s'.record place id = s.record place id) ∧
    ¬ ∀ s a s' place id v, sample.Reach s → s.step samplePlatform a = some s' →
      s.record place id = some v →
      (∀ tab op, s.performed a = some (tab, place, op) →
        ¬ op.FindsStale samplePlatform tab id v ∧ ¬ op.Evicts samplePlatform tab id v ∧
          ¬ op.Acknowledges samplePlatform tab id v) →
      ∃ v', s'.record place id = some v' := by
  refine ⟨fun h => ?_, fun h => ?_⟩
  · have hrun : ((sample.run sample.init
        [.store shopTab [("m1", 10 * day)] false (clockAt (10 * day)),
          .commit 0 (10 * day) (clockAt (10 * day)),
          .claim blogTab 10 (18 * day) (clockAt (18 * day))]).bind fun s =>
        (s.step samplePlatform (.commit 0 (18 * day) (clockAt (18 * day)))).map fun s' =>
          decide (s.record .database 1 = some (some shopRecord)) &&
            decide (s'.record .database 1 = none) &&
            decide ((s.performed (.commit 0 (18 * day) (clockAt (18 * day)))).map
              (fun op => (op.1, op.2.1)) = some (blogTab, .database))) = some true := by
      decide +kernel
    obtain ⟨s, hs, hstep⟩ := Option.bind_eq_some_iff.1 hrun
    obtain ⟨s', hs', heq⟩ := Option.map_eq_some_iff.1 hstep
    simp only [Bool.and_eq_true, decide_eq_true_eq] at heq
    obtain ⟨⟨hrec, hgone⟩, hop⟩ := heq
    have hkept := h s _ s' blogTab .database 1 shopRecord (StepMachine.reach_of_run hs) hs' hop
      hrec (by unfold StoredOfflineEvent.InScope; decide)
    rw [hrec, hgone] at hkept
    cases hkept
  · have hrun : ((sample.run sample.init
        [.store shopTab [("m1", 10 * day)] false (clockAt (10 * day)),
          .fail 0 (10 * day) (clockAt (10 * day))]).bind fun s =>
        (s.step samplePlatform (.clear shopTab (10 * day) (clockAt (10 * day)))).map fun s' =>
          decide (s.record (.memory shopTab) maxSafeInteger = some (some shopRecord)) &&
            decide (s'.record (.memory shopTab) maxSafeInteger = none)) = some true := by
      decide +kernel
    obtain ⟨s, hs, hstep⟩ := Option.bind_eq_some_iff.1 hrun
    obtain ⟨s', hs', heq⟩ := Option.map_eq_some_iff.1 hstep
    simp only [Bool.and_eq_true, decide_eq_true_eq] at heq
    obtain ⟨hrec, hgone⟩ := heq
    have hcur : classifyRecord samplePlatform shopTab.scope (10 * day) (10 * day)
        maxSafeInteger (some shopRecord) = .current := by decide +kernel
    have hkept := h s _ s' (.memory shopTab) maxSafeInteger _ (StepMachine.reach_of_run hs) hs' hrec
    obtain ⟨v', hv'⟩ := hkept fun tab op hop => by
      cases hop
      refine ⟨fun hstale => ?_, fun hevict => hevict, fun hack => hack⟩
      have hboth := hcur.symm.trans hstale
      cases hboth
    rw [hgone] at hv'
    cases hv'

end Apdl.Sdk.Offline
