import Apdl.Lib.PyValue
import Mathlib.Algebra.BigOperators.Group.List.Basic
import Mathlib.Data.List.Nodup
import Mathlib.Data.List.Perm.Basic

set_option autoImplicit false

/-!
# Experiment arms

`_aggregate_arms` of the query service: the rows of an experiment query are checked one by one
while the totals accumulate, and the counts of the declared variants become arms.

## Main results

* `arm_aggregation` — when rows are rejected, what is returned, and that the order is irrelevant.
-/

namespace Apdl.Query.Arms

open PyValue (Fields field)

/-! ## The loop -/

structure HTTPException where
  statusCode : ℕ
  detail : String

/-- `HTTPException(status_code=503, detail=detail)`. -/
def unavailable (detail : String) : HTTPException := ⟨503, detail⟩

structure ExperimentArmResult where
  variant : Text
  sampleSize : ℤ
  conversions : ℤ
  conversionRate : PyFloat

/-- The variables of the loop; a dictionary is the function of its entries. -/
structure Totals where
  aggregates : Text → Option (ℤ × ℤ) := fun _ => none
  seenVariants : List Text := []
  crossoverActors : ℤ := 0
  unknownVariantActors : ℤ := 0
  identityConflictActors : Option ℤ := none

/-- An integer with `type(value) is int`. -/
def exactInt : PyValue → Option ℤ
  | .int n => some n
  | _ => none

/-- The body of the loop; `declared` are the variants of the experiment. -/
def aggregateRow (declared : List Text) (s : Totals) (row : Fields) :
    Except HTTPException Totals :=
  match field row "variant" with
  | .str variant =>
    if variant = [] then .error (unavailable "ClickHouse returned invalid experiment aggregates")
    else if variant ∈ s.seenVariants then
      .error (unavailable "ClickHouse returned duplicate experiment arm aggregates")
    else
      match exactInt (field row "sample_size"), exactInt (field row "conversions"),
        exactInt (field row "crossover_actors"), exactInt (field row "unknown_variant_actors") with
      | some sampleSize, some conversions, some crossovers, some unknowns =>
        match exactInt (field row "identity_conflict_actors") with
        | some conflicts =>
          if conflicts < 0 then
            .error (unavailable "ClickHouse returned invalid identity-conflict aggregates")
          else if s.identityConflictActors ≠ none ∧ s.identityConflictActors ≠ some conflicts then
            .error (unavailable "ClickHouse returned inconsistent identity-conflict aggregates")
          else if sampleSize < 0 ∨ conversions < 0 ∨ conversions > sampleSize ∨ crossovers < 0 ∨
              crossovers > sampleSize ∨ unknowns < 0 ∨ unknowns > sampleSize then
            .error (unavailable "ClickHouse returned inconsistent experiment aggregates")
          else .ok {
            aggregates := fun v => if v = variant ∧ variant ∈ declared then
              some (sampleSize, conversions) else s.aggregates v
            seenVariants := variant :: s.seenVariants
            crossoverActors := s.crossoverActors + crossovers
            unknownVariantActors := s.unknownVariantActors + unknowns
            identityConflictActors := some conflicts }
        | none => .error (unavailable "ClickHouse returned invalid identity-conflict aggregates")
      | _, _, _, _ => .error (unavailable "ClickHouse returned invalid experiment aggregates")
  | _ => .error (unavailable "ClickHouse returned invalid experiment aggregates")

/-- The arm of a variant with its counts. -/
def armResult (variant : Text) (counts : ℤ × ℤ) : ExperimentArmResult where
  variant := variant
  sampleSize := counts.1
  conversions := counts.2
  conversionRate :=
    if counts.1 ≠ 0 then PyFloat.nearest ((counts.2 : ℚ) / counts.1) else .finite 0

/-- The arms, and the crossover, unknown-variant and identity-conflict totals. -/
structure Aggregation where
  arms : List ExperimentArmResult
  crossoverActors : ℤ
  unknownVariantActors : ℤ
  identityConflictActors : ℤ

/-- The end of `_aggregate_arms`. -/
def Totals.result (declared : List Text) (s : Totals) : Aggregation where
  arms := declared.map fun v => armResult v ((s.aggregates v).getD (0, 0))
  crossoverActors := s.crossoverActors
  unknownVariantActors := s.unknownVariantActors
  identityConflictActors := s.identityConflictActors.getD 0

def aggregateArms (variants : List Text) (rows : List Fields) : Except HTTPException Aggregation :=
  (rows.foldlM (aggregateRow variants) {}).map (Totals.result variants)

/-! ## What a row says -/

/-- A row with a variant and counts within their bounds. -/
structure ArmRow where
  variant : Text
  sampleSize : ℤ
  conversions : ℤ
  crossovers : ℤ
  unknowns : ℤ
  conflicts : ℤ
  variant_ne : variant ≠ []
  conflicts_nonneg : 0 ≤ conflicts
  conversions_range : 0 ≤ conversions ∧ conversions ≤ sampleSize
  crossovers_range : 0 ≤ crossovers ∧ crossovers ≤ sampleSize
  unknowns_range : 0 ≤ unknowns ∧ unknowns ≤ sampleSize

/-- The row says `a`. -/
def ArmRow.Reads (row : Fields) (a : ArmRow) : Prop :=
  field row "variant" = .str a.variant ∧ field row "sample_size" = .int a.sampleSize ∧
    field row "conversions" = .int a.conversions ∧ field row "crossover_actors" = .int a.crossovers ∧
    field row "unknown_variant_actors" = .int a.unknowns ∧
    field row "identity_conflict_actors" = .int a.conflicts

/-- The rows have different variants and the same number of identity conflicts. -/
def Compatible (arms : List ArmRow) : Prop :=
  (arms.map ArmRow.variant).Nodup ∧ ∀ a ∈ arms, ∀ b ∈ arms, a.conflicts = b.conflicts

/-- The counts of a variant: those of its row, or zeros. -/
def countsOf (arms : List ArmRow) (variant : Text) : ℤ × ℤ :=
  ((arms.find? fun a => a.variant = variant).map fun a => (a.sampleSize, a.conversions)).getD (0, 0)

/-- The result of compatible rows. -/
def resultOf (variants : List Text) (arms : List ArmRow) : Aggregation where
  arms := variants.map fun v => armResult v (countsOf arms v)
  crossoverActors := (arms.map ArmRow.crossovers).sum
  unknownVariantActors := (arms.map ArmRow.unknowns).sum
  identityConflictActors := (arms.head?.map ArmRow.conflicts).getD 0

/-- The totals after a row. -/
def Totals.add (declared : List Text) (s : Totals) (a : ArmRow) : Totals where
  aggregates := fun v => if v = a.variant ∧ a.variant ∈ declared then
    some (a.sampleSize, a.conversions) else s.aggregates v
  seenVariants := a.variant :: s.seenVariants
  crossoverActors := s.crossoverActors + a.crossovers
  unknownVariantActors := s.unknownVariantActors + a.unknowns
  identityConflictActors := some a.conflicts

/-- A row fits the rows before it. -/
def Totals.Fits (s : Totals) (a : ArmRow) : Prop :=
  a.variant ∉ s.seenVariants ∧
    (s.identityConflictActors = none ∨ s.identityConflictActors = some a.conflicts)

variable {declared : List Text} {s s' : Totals} {row : Fields} {rows : List Fields} {a : ArmRow}
  {arms : List ArmRow}

lemma exactInt_eq_some_iff {v : PyValue} {n : ℤ} : exactInt v = some n ↔ v = .int n := by
  cases v <;> simp [exactInt]

lemma aggregateRow_eq_ok_iff : aggregateRow declared s row = .ok s' ↔
    ∃ a, ArmRow.Reads row a ∧ s.Fits a ∧ s' = s.add declared a := by
  constructor
  · intro h
    unfold aggregateRow at h
    split at h
    · next variant hvariant =>
      split_ifs at h with hempty hseen
      split at h
      · next sampleSize conversions crossovers unknowns hsize hconv hcross hunk =>
        split at h
        · next conflicts hconf =>
          split_ifs at h with hneg hsame hbounds
          obtain rfl := Except.ok.inj h
          rw [exactInt_eq_some_iff] at hsize hconv hcross hunk hconf
          refine ⟨⟨variant, sampleSize, conversions, crossovers, unknowns, conflicts, hempty,
            by omega, by omega, by omega, by omega⟩,
            ⟨hvariant, hsize, hconv, hcross, hunk, hconf⟩, ⟨hseen, ?_⟩, rfl⟩
          by_contra hne
          exact hsame (not_or.1 hne)
        · cases h
      · cases h
    · cases h
  · rintro ⟨a, ⟨hvariant, hsize, hconv, hcross, hunk, hconf⟩, ⟨hseen, hsame⟩, rfl⟩
    have hconv' := a.conversions_range
    have hcross' := a.crossovers_range
    have hunk' := a.unknowns_range
    have hsame' : ¬(s.identityConflictActors ≠ none ∧
        s.identityConflictActors ≠ some a.conflicts) := by
      rwa [← not_or, not_not]
    simp only [aggregateRow, hvariant, hsize, hconv, hcross, hunk, hconf, exactInt]
    rw [if_neg a.variant_ne, if_neg hseen, if_neg (not_lt.2 a.conflicts_nonneg), if_neg hsame',
      if_neg (by omega)]
    rfl

lemma statusCode_of_error {e : HTTPException} (h : aggregateRow declared s row = .error e) :
    e.statusCode = 503 := by
  have hcode : ∀ {detail : String},
      (Except.error (unavailable detail) : Except HTTPException Totals) = .error e →
        e.statusCode = 503 := by
    intro detail heq
    obtain rfl := Except.error.inj heq
    rfl
  unfold aggregateRow at h
  repeat' split at h
  all_goals first | exact hcode h | cases h

/-! ## All rows -/

/-- Every row fits the rows before it. -/
def Totals.FitsAll (declared : List Text) (s : Totals) : List ArmRow → Prop
  | [] => True
  | a :: arms => s.Fits a ∧ (s.add declared a).FitsAll declared arms

lemma foldlM_eq_ok_iff : rows.foldlM (aggregateRow declared) s = .ok s' ↔
    ∃ arms, List.Forall₂ ArmRow.Reads rows arms ∧ s.FitsAll declared arms ∧
      s' = arms.foldl (Totals.add declared) s := by
  induction rows generalizing s with
  | nil =>
    refine ⟨fun h => ⟨[], .nil, trivial, (Except.ok.inj h).symm⟩, ?_⟩
    rintro ⟨arms, hreads, -, rfl⟩
    cases hreads
    rfl
  | cons row rows ih =>
    have hstep : (row :: rows).foldlM (aggregateRow declared) s = .ok s' ↔
        ∃ t, aggregateRow declared s row = .ok t ∧
          rows.foldlM (aggregateRow declared) t = .ok s' := by
      rw [List.foldlM_cons]
      cases aggregateRow declared s row with
      | error e => simp [bind, Except.bind]
      | ok t => simp [bind, Except.bind]
    rw [hstep]
    constructor
    · rintro ⟨t, hrow, hrows⟩
      obtain ⟨a, hreads, hfits, rfl⟩ := aggregateRow_eq_ok_iff.1 hrow
      obtain ⟨arms, hall, hfitsAll, rfl⟩ := ih.1 hrows
      exact ⟨a :: arms, .cons hreads hall, ⟨hfits, hfitsAll⟩, rfl⟩
    · rintro ⟨arms, hall, hfitsAll, rfl⟩
      cases hall with
      | cons hreads hall =>
        exact ⟨_, aggregateRow_eq_ok_iff.2 ⟨_, hreads, hfitsAll.1, rfl⟩,
          ih.2 ⟨_, hall, hfitsAll.2, rfl⟩⟩

lemma fitsAll_iff : s.FitsAll declared arms ↔ (∀ a ∈ arms, s.Fits a) ∧ Compatible arms := by
  induction arms generalizing s with
  | nil => simp [Totals.FitsAll, Compatible]
  | cons a arms ih =>
    have hrest : (∀ b ∈ arms, (s.add declared a).Fits b) ↔
        (∀ b ∈ arms, b.variant ≠ a.variant ∧ b.variant ∉ s.seenVariants) ∧
          ∀ b ∈ arms, a.conflicts = b.conflicts := by
      simp only [Totals.Fits, Totals.add, List.mem_cons, not_or, reduceCtorEq, false_or,
        Option.some.injEq]
      grind
    rw [Totals.FitsAll, ih, hrest]
    simp only [Compatible, Totals.Fits, List.forall_mem_cons, List.map_cons, List.nodup_cons,
      List.mem_map]
    grind

lemma conflicts_foldl (hfits : s.FitsAll declared arms) :
    ((arms.foldl (Totals.add declared) s).identityConflictActors).getD 0 =
      (s.identityConflictActors.or (arms.head?.map ArmRow.conflicts)).getD 0 := by
  induction arms generalizing s with
  | nil => simp
  | cons a arms ih =>
    rw [List.foldl_cons, ih hfits.2]
    obtain h | h := hfits.1.2 <;> simp [Totals.add, h]

lemma sums_foldl (arms : List ArmRow) (s : Totals) :
    (arms.foldl (Totals.add declared) s).crossoverActors =
        s.crossoverActors + (arms.map ArmRow.crossovers).sum ∧
      (arms.foldl (Totals.add declared) s).unknownVariantActors =
        s.unknownVariantActors + (arms.map ArmRow.unknowns).sum := by
  induction arms generalizing s with
  | nil => simp
  | cons a arms ih =>
    simp only [List.foldl_cons, ih, Totals.add, List.map_cons, List.sum_cons, add_assoc, and_self]

lemma aggregates_foldl (hnodup : (arms.map ArmRow.variant).Nodup) {v : Text} (hv : v ∈ declared) :
    (arms.foldl (Totals.add declared) s).aggregates v =
      ((arms.find? fun a => a.variant = v).map fun a => (a.sampleSize, a.conversions)).or
        (s.aggregates v) := by
  induction arms generalizing s with
  | nil => rfl
  | cons a arms ih =>
    obtain ⟨hnot, hnodup⟩ := List.nodup_cons.1 hnodup
    rw [List.foldl_cons, ih hnodup]
    by_cases h : a.variant = v
    · have hnone : arms.find? (fun b => b.variant = v) = none :=
        List.find?_eq_none.2 fun b hb heq =>
          hnot (h ▸ of_decide_eq_true heq ▸ List.mem_map_of_mem hb)
      simp [hnone, h, Totals.add, hv]
    · simp [h, Totals.add, Ne.symm h]

lemma aggregateArms_eq_ok {variants : List Text} (hreads : List.Forall₂ ArmRow.Reads rows arms)
    (h : Compatible arms) : aggregateArms variants rows = .ok (resultOf variants arms) := by
  have hfits : Totals.FitsAll variants {} arms :=
    fitsAll_iff.2 ⟨fun a _ => ⟨List.not_mem_nil, .inl rfl⟩, h⟩
  rw [aggregateArms, foldlM_eq_ok_iff.2 ⟨arms, hreads, hfits, rfl⟩]
  have harms : ∀ v ∈ variants, armResult v
      (((arms.foldl (Totals.add variants) {}).aggregates v).getD (0, 0)) =
        armResult v (countsOf arms v) := by
    intro v hv
    rw [aggregates_foldl h.1 hv, Option.or_none, countsOf]
  simp only [Except.map, Totals.result, resultOf, List.map_congr_left harms, sums_foldl,
    conflicts_foldl hfits, Option.none_or, zero_add]

lemma find?_eq_some_iff (h : (arms.map ArmRow.variant).Nodup) (v : Text) :
    arms.find? (fun b => b.variant = v) = some a ↔ a ∈ arms ∧ a.variant = v := by
  refine ⟨fun hf => ⟨List.mem_of_find?_eq_some hf, by simpa using List.find?_some hf⟩, ?_⟩
  rintro ⟨ha, rfl⟩
  cases hf : arms.find? fun b => b.variant = a.variant with
  | none => exact absurd (decide_eq_true rfl) (List.find?_eq_none.1 hf a ha)
  | some b =>
    have hb : b.variant = a.variant := by simpa using List.find?_some hf
    rw [List.inj_on_of_nodup_map h (List.mem_of_find?_eq_some hf) ha hb]

lemma resultOf_perm {variants : List Text} {arms' : List ArmRow} (hp : arms.Perm arms')
    (h : Compatible arms) :
    Compatible arms' ∧ resultOf variants arms = resultOf variants arms' := by
  have hnodup' : (arms'.map ArmRow.variant).Nodup := (hp.map _).nodup_iff.1 h.1
  have hcounts (v : Text) : countsOf arms v = countsOf arms' v := by
    have hfind : arms.find? (fun b => b.variant = v) = arms'.find? fun b => b.variant = v :=
      Option.ext fun a => by
        rw [find?_eq_some_iff h.1, find?_eq_some_iff hnodup', hp.mem_iff]
    rw [countsOf, hfind, countsOf]
  have hhead : (arms.head?.map ArmRow.conflicts).getD 0 =
      (arms'.head?.map ArmRow.conflicts).getD 0 := by
    cases arms with
    | nil => rw [hp.nil_eq]
    | cons a arms =>
      cases arms' with
      | nil => exact absurd hp.eq_nil (List.cons_ne_nil _ _)
      | cons b arms' =>
        exact h.2 a List.mem_cons_self b (hp.mem_iff.2 List.mem_cons_self)
  refine ⟨⟨hnodup', fun a ha b hb => h.2 a (hp.mem_iff.2 ha) b (hp.mem_iff.2 hb)⟩, ?_⟩
  rw [resultOf, resultOf, hhead, ((hp.map ArmRow.crossovers).sum_eq),
    ((hp.map ArmRow.unknowns).sum_eq)]
  simp only [hcounts]

lemma aggregateArms_eq_ok_iff {variants : List Text} {r : Aggregation} :
    aggregateArms variants rows = .ok r ↔
      ∃ arms, List.Forall₂ ArmRow.Reads rows arms ∧ Compatible arms ∧ r = resultOf variants arms := by
  constructor
  · intro h
    cases hfold : rows.foldlM (aggregateRow variants) {} with
    | error e =>
      rw [aggregateArms, hfold] at h
      cases h
    | ok s =>
      obtain ⟨arms, hreads, hfits, -⟩ := foldlM_eq_ok_iff.1 hfold
      have hcompatible := (fitsAll_iff.1 hfits).2
      rw [aggregateArms_eq_ok hreads hcompatible] at h
      exact ⟨arms, hreads, hcompatible, (Except.ok.inj h).symm⟩
  · rintro ⟨arms, hreads, h, rfl⟩
    exact aggregateArms_eq_ok hreads h

lemma statusCode_of_foldlM {e : HTTPException}
    (h : rows.foldlM (aggregateRow declared) s = .error e) : e.statusCode = 503 := by
  induction rows generalizing s with
  | nil => cases h
  | cons row rows ih =>
    rw [List.foldlM_cons] at h
    cases hrow : aggregateRow declared s row with
    | error e' =>
      rw [hrow] at h
      obtain rfl := Except.error.inj h
      exact statusCode_of_error hrow
    | ok t =>
      rw [hrow] at h
      exact ih h

lemma aggregateArms_perm {variants : List Text} {r : Aggregation} {rows' : List Fields}
    (hp : rows.Perm rows') (h : aggregateArms variants rows = .ok r) :
    aggregateArms variants rows' = .ok r := by
  obtain ⟨arms, hreads, hcompatible, rfl⟩ := aggregateArms_eq_ok_iff.1 h
  obtain ⟨arms', hreads', hp'⟩ := List.perm_comp_forall₂ hp.symm hreads
  obtain ⟨hcompatible', hresult⟩ := @resultOf_perm _ variants _ hp'.symm hcompatible
  rw [hresult]
  exact aggregateArms_eq_ok hreads' hcompatible'

/-- **Arm aggregation.** Rows are rejected with status 503 exactly when they cannot all be read as
compatible rows; otherwise there is one arm for each declared variant, in the declared order, with
the counts of its row, and the totals are the sums over all rows. Reordering the rows changes
neither whether they are rejected nor what is returned. -/
theorem arm_aggregation (variants : List Text) (rows : List Fields) :
    (∀ e, aggregateArms variants rows = .error e → e.statusCode = 503) ∧
    ((∃ e, aggregateArms variants rows = .error e) ↔
      ¬∃ arms, List.Forall₂ ArmRow.Reads rows arms ∧ Compatible arms) ∧
    (∀ arms, List.Forall₂ ArmRow.Reads rows arms → Compatible arms →
      aggregateArms variants rows = .ok (resultOf variants arms)) ∧
    ∀ rows', rows.Perm rows' →
      (aggregateArms variants rows).toOption = (aggregateArms variants rows').toOption := by
  refine ⟨fun e h => ?_, ?_, fun arms hreads h => aggregateArms_eq_ok hreads h, fun rows' hp => ?_⟩
  · cases hfold : rows.foldlM (aggregateRow variants) {} with
    | error e' =>
      rw [aggregateArms, hfold] at h
      obtain rfl := Except.error.inj h
      exact statusCode_of_foldlM hfold
    | ok s =>
      rw [aggregateArms, hfold] at h
      cases h
  · have hok : (∃ arms, List.Forall₂ ArmRow.Reads rows arms ∧ Compatible arms) ↔
        ∃ r, aggregateArms variants rows = .ok r :=
      ⟨fun ⟨arms, hreads, h⟩ => ⟨_, aggregateArms_eq_ok hreads h⟩, fun ⟨r, hr⟩ =>
        have ⟨arms, hreads, h, _⟩ := aggregateArms_eq_ok_iff.1 hr
        ⟨arms, hreads, h⟩⟩
    rw [hok]
    cases aggregateArms variants rows with
    | error e => simp
    | ok r => simp
  · refine Option.ext fun r => ?_
    have hiff : ∀ x : Except HTTPException Aggregation, x.toOption = some r ↔ x = .ok r := by
      intro x
      cases x <;> simp [Except.toOption]
    rw [hiff, hiff]
    exact ⟨aggregateArms_perm hp, aggregateArms_perm hp.symm⟩

end Apdl.Query.Arms
