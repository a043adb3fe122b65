import Apdl.Flags.Wire.Grammar
import Mathlib.Algebra.Order.Floor.Div
import Mathlib.Order.Interval.Finset.Nat
import Mathlib.Tactic.Linarith
import Mathlib.Tactic.FieldSimp

set_option autoImplicit false

/-!
# Weighted assignment

`assign_weighted_variant` divides the hash values among the variants: with exact arithmetic, variant
`i` gets the values whose scaled hash lies between the cumulative weights before and after it.

## Main results

* `share_off_by_more_than_one` — the share of all `2 ^ 32` values may be missed by more than one.
-/

namespace Apdl.Flags.Assignment

open Config (VariantConfig validateVariantWeights validateVariantWeightContract)

/-- The sum of the weights. -/
def total (vs : List VariantConfig) : ℤ := (vs.map VariantConfig.weight).sum

@[simp] lemma total_nil : total [] = 0 := rfl

@[simp] lemma total_cons (v : VariantConfig) (vs : List VariantConfig) :
    total (v :: vs) = v.weight + total vs := List.sum_cons

@[simp] lemma total_append (as bs : List VariantConfig) :
    total (as ++ bs) = total as + total bs := by
  simp [total]

/-- The target of a hash value: `hash * total / (2^32 - 1)`. -/
def scaled (vs : List VariantConfig) (hash : ℕ) : ℚ := (hash : ℚ) * total vs / uint32Max

/-- The variant of a hash value. -/
def assign (R : Runtime) (vs : List VariantConfig) (hash : ℕ) : Option Text :=
  assignWeightedVariant R vs (percentageBucket hash)

/-- The hash values of a variant. -/
def hashes (vs : List VariantConfig) (v : VariantConfig) : Finset ℕ :=
  (Finset.range (2 ^ 32)).filter fun hash => assign .python vs hash = some v.key

variable {vs pre post : List VariantConfig} {v : VariantConfig} {t : ℚ} {c : ℤ} {last : Option Text}

lemma total_nonneg (h : ∀ u ∈ vs, 0 ≤ u.weight) : 0 ≤ total vs :=
  List.sum_nonneg (List.forall_mem_map.2 h)

/-! ## The loop -/

lemma pickVariant_append (h : ∀ u ∈ pre, 0 ≤ u.weight) (hlo : ((c + total pre : ℤ) : ℚ) ≤ t)
    (last : Option Text) (rest : List VariantConfig) :
    ∃ last', pickVariant t c last (pre ++ rest) = pickVariant t (c + total pre) last' rest := by
  induction pre generalizing c last with
  | nil => exact ⟨last, by rw [total_nil, add_zero, List.nil_append]⟩
  | cons u pre ih =>
    obtain ⟨hu, hpre⟩ := List.forall_mem_cons.1 h
    rw [total_cons, ← add_assoc] at hlo ⊢
    rw [List.cons_append, pickVariant]
    by_cases hzero : u.weight ≤ 0
    · rw [show c + u.weight = c by omega] at hlo ⊢
      rw [if_pos hzero]
      exact ih hpre hlo last
    · have hnot : ¬t < (c + u.weight : ℤ) := by
        refine not_lt.2 (le_trans ?_ hlo)
        have := total_nonneg hpre
        norm_cast
        omega
      rw [if_neg hzero, if_neg hnot]
      exact ih hpre hlo _

lemma pickVariant_interval (h : ∀ u ∈ pre, 0 ≤ u.weight) (hlo : ((c + total pre : ℤ) : ℚ) ≤ t)
    (hhi : t < (c + total pre + v.weight : ℤ)) :
    pickVariant t c last (pre ++ v :: post) = some v.key := by
  have hpos : ¬v.weight ≤ 0 := by
    have := lt_of_le_of_lt hlo hhi
    norm_cast at this
    omega
  obtain ⟨last', heq⟩ := pickVariant_append h hlo last (v :: post)
  rw [heq, pickVariant, if_neg hpos, if_pos hhi]

lemma pickVariant_top (h : ∀ u ∈ pre, 0 ≤ u.weight) (hv : 0 < v.weight)
    (hpost : ∀ u ∈ post, u.weight = 0) (hge : ((c + total pre + v.weight : ℤ) : ℚ) ≤ t) :
    pickVariant t c last (pre ++ v :: post) = some v.key := by
  have hzeros : ∀ (last' : Option Text) (us : List VariantConfig), (∀ u ∈ us, u.weight = 0) →
      ∀ c', pickVariant t c' last' us = last' := by
    intro last' us hus c'
    induction us with
    | nil => rfl
    | cons u us ih =>
      obtain ⟨hu, hus⟩ := List.forall_mem_cons.1 hus
      rw [pickVariant, if_pos hu.le, ih hus]
  have hlo : ((c + total pre : ℤ) : ℚ) ≤ t := le_trans (by norm_cast; omega) hge
  obtain ⟨last', heq⟩ := pickVariant_append h hlo last (v :: post)
  rw [heq, pickVariant, if_neg (not_le.2 hv), if_neg (not_lt.2 hge), hzeros _ _ hpost]

lemma exists_interval (hlo : (c : ℚ) ≤ t) (hhi : t < (c + total vs : ℤ)) :
    ∃ pre v post, vs = pre ++ v :: post ∧ ((c + total pre : ℤ) : ℚ) ≤ t ∧
      t < (c + total pre + v.weight : ℤ) := by
  induction vs generalizing c with
  | nil =>
    rw [total_nil, add_zero] at hhi
    exact absurd hhi (not_lt.2 hlo)
  | cons v vs ih =>
    by_cases h : t < (c + v.weight : ℤ)
    · exact ⟨[], v, vs, rfl, by simpa using hlo, by simpa using h⟩
    · rw [total_cons, ← add_assoc] at hhi
      obtain ⟨pre, u, post, rfl, hpre, hu⟩ := ih (not_lt.1 h) hhi
      exact ⟨v :: pre, u, post, rfl, by rwa [total_cons, ← add_assoc],
        by rwa [total_cons, ← add_assoc]⟩

lemma exists_last (h : ∀ u ∈ vs, 0 ≤ u.weight) (hpos : 0 < total vs) :
    ∃ pre v post, vs = pre ++ v :: post ∧ 0 < v.weight ∧ ∀ u ∈ post, u.weight = 0 := by
  induction vs with
  | nil => exact absurd hpos (lt_irrefl _)
  | cons v vs ih =>
    obtain ⟨hv, hvs⟩ := List.forall_mem_cons.1 h
    rcases (total_nonneg hvs).eq_or_lt with hzero | hrest
    · have hall : ∀ u ∈ vs, u.weight = 0 := fun u hu =>
        List.all_zero_of_le_zero_le_of_sum_eq_zero (List.forall_mem_map.2 hvs) hzero.symm
          (List.mem_map_of_mem hu)
      rw [total_cons, ← hzero, add_zero] at hpos
      exact ⟨[], v, vs, rfl, hpos, hall⟩
    · obtain ⟨pre, u, post, rfl, hu, hpost⟩ := ih hvs hrest
      exact ⟨v :: pre, u, post, rfl, hu, hpost⟩

/-! ## Accepted variants -/

/-- Variants that `validate_variant_weights` accepts. -/
structure Valid (vs : List VariantConfig) : Prop where
  contract : validateVariantWeightContract (vs.map VariantConfig.weight) = .ok ()
  nonneg : ∀ u ∈ vs, 0 ≤ u.weight
  total_pos : 0 < total vs
  nodup : (vs.map VariantConfig.key).Nodup

lemma weightTotal_eq {ws : List ℤ} {r : ℤ} (h : Config.weightTotal c ws = .ok r) :
    r = c + ws.sum := by
  induction ws generalizing c with
  | nil => simpa [Config.weightTotal] using h.symm
  | cons w ws ih =>
    simp only [Config.weightTotal, Check.bind_eq_ok] at h
    obtain ⟨-, -, -, -, hrest⟩ := h
    rw [ih hrest, List.sum_cons, add_assoc]

lemma valid_iff : validateVariantWeights vs = .ok () ↔ Valid vs := by
  simp only [validateVariantWeights, Check.bind_eq_ok, Check.ensure_eq_ok, decide_eq_true_eq]
  constructor
  · rintro ⟨⟨⟩, hcontract, hnodup⟩
    have hweights := hcontract
    simp only [validateVariantWeightContract, Check.bind_eq_ok, Check.ensure_eq_ok,
      decide_eq_true_eq] at hweights
    obtain ⟨-, -, -, -, r, hr, hpos⟩ := hweights
    have hrange := Wire.weightTotal_range hr
    have hsum := weightTotal_eq hr
    rw [zero_add] at hsum
    exact ⟨hcontract, fun u hu => (hrange _ (List.mem_map_of_mem hu)).1, hpos.trans_eq hsum, hnodup⟩
  · exact fun h => ⟨(), h.contract, h.nodup⟩

lemma assign_eq (h : Valid vs) (textEncoder : Bool) (hash : ℕ) :
    assign .python vs hash = pickVariant (scaled vs hash) 0 none vs ∧
      assign (.javascript textEncoder) vs hash = assign .python vs hash := by
  have hpy : Runtime.python.weightsValid (vs.map VariantConfig.weight) = true :=
    decide_eq_true h.contract
  have hjs : (Runtime.javascript textEncoder).weightsValid (vs.map VariantConfig.weight) = true :=
    (Wire.hasCanonicalVariantWeights_iff _).2 h.contract
  have htarget : percentageBucket hash / 100 * ((vs.map VariantConfig.weight).sum : ℤ) =
      scaled vs hash := by
    rw [percentageBucket, scaled, total]
    ring
  simp only [assign, assignWeightedVariant, hpy, hjs, if_true, htarget, and_self]

lemma Valid.nonneg_pre (h : Valid (pre ++ v :: post)) : ∀ u ∈ pre, 0 ≤ u.weight :=
  fun u hu => h.nonneg u (List.mem_append_left _ hu)

lemma scaled_range (h : 0 < total vs) {hash : ℕ} (hhash : hash < 2 ^ 32) :
    0 ≤ scaled vs hash ∧ scaled vs hash ≤ total vs ∧
      (scaled vs hash = total vs ↔ hash = uint32Max) := by
  have hmax : (0 : ℚ) < uint32Max := by norm_num [uint32Max]
  have htotal : (0 : ℚ) < total vs := by exact_mod_cast h
  have hle : (hash : ℚ) ≤ uint32Max := by
    have : hash ≤ uint32Max := Nat.le_of_lt_succ hhash
    exact_mod_cast this
  refine ⟨by unfold scaled; positivity, ?_, ?_⟩
  · rw [scaled, div_le_iff₀ hmax, mul_comm]
    exact mul_le_mul_of_nonneg_left hle htotal.le
  · rw [scaled, div_eq_iff hmax.ne', mul_comm, mul_right_inj' htotal.ne']
    exact Nat.cast_inj

lemma eq_of_key {pre' post' : List VariantConfig} {v' : VariantConfig} (h : Valid vs)
    (heq : vs = pre ++ v :: post) (heq' : vs = pre' ++ v' :: post') (hkey : v'.key = v.key) :
    pre' = pre ∧ v' = v ∧ post' = post := by
  have hnodup := h.nodup
  rw [heq, List.map_append, List.map_cons] at hnodup
  obtain ⟨-, hcons, hdisjoint⟩ := List.nodup_append.1 hnodup
  have hpre : v' ∉ pre := fun hmem =>
    hdisjoint _ (List.mem_map_of_mem hmem) _ List.mem_cons_self hkey
  have hpost : v' ∉ post := fun hmem =>
    (List.nodup_cons.1 hcons).1 (hkey ▸ List.mem_map_of_mem hmem)
  obtain ⟨rfl, rfl, rfl⟩ := (List.append_cons_inj_of_notMem hpre hpost).1 (heq.symm.trans heq')
  exact ⟨rfl, rfl, rfl⟩

theorem assign_eq_some_iff (h : Valid vs) (hsplit : vs = pre ++ v :: post) {hash : ℕ}
    (hhash : hash < 2 ^ 32) : assign .python vs hash = some v.key ↔
      ((total pre : ℚ) ≤ scaled vs hash ∧ scaled vs hash < (total pre + v.weight : ℤ)) ∨
        (hash = uint32Max ∧ 0 < v.weight ∧ ∀ u ∈ post, u.weight = 0) := by
  obtain ⟨hlo, hhi, htop⟩ := scaled_range h.total_pos hhash
  rw [(assign_eq h true hash).1]
  have hinterval : ∀ {pre v post}, vs = pre ++ v :: post → (total pre : ℚ) ≤ scaled vs hash →
      scaled vs hash < (total pre + v.weight : ℤ) →
        pickVariant (scaled vs hash) 0 none vs = some v.key := by
    rintro pre v post heq hpre hv
    rw [heq] at h
    have hpick : pickVariant (scaled vs hash) 0 none (pre ++ v :: post) = some v.key :=
      pickVariant_interval h.nonneg_pre (by rwa [zero_add]) (by rwa [zero_add])
    rwa [← heq] at hpick
  have hlast : ∀ {pre v post}, vs = pre ++ v :: post → hash = uint32Max → 0 < v.weight →
      (∀ u ∈ post, u.weight = 0) → pickVariant (scaled vs hash) 0 none vs = some v.key := by
    rintro pre v post heq hmax hv hpost
    have hzero : total post = 0 := List.sum_eq_zero (List.forall_mem_map.2 hpost)
    have hge : ((0 + total pre + v.weight : ℤ) : ℚ) ≤ scaled vs hash := by
      rw [htop.2 hmax, heq, total_append, total_cons, hzero, zero_add, add_zero]
    rw [heq] at h
    have hpick : pickVariant (scaled vs hash) 0 none (pre ++ v :: post) = some v.key :=
      pickVariant_top h.nonneg_pre hv hpost hge
    rwa [← heq] at hpick
  refine ⟨fun hassign => ?_, ?_⟩
  · by_cases hmax : hash = uint32Max
    · obtain ⟨pre', v', post', heq', hv', hpost'⟩ := exists_last h.nonneg h.total_pos
      have hkey := Option.some.inj ((hlast heq' hmax hv' hpost').symm.trans hassign)
      obtain ⟨rfl, rfl, rfl⟩ := eq_of_key h hsplit heq' hkey
      exact .inr ⟨hmax, hv', hpost'⟩
    · have hlt : scaled vs hash < (0 + total vs : ℤ) := by
        rw [zero_add]
        exact lt_of_le_of_ne hhi fun heq => hmax (htop.1 heq)
      obtain ⟨pre', v', post', heq', hpre', hv'⟩ := exists_interval (by exact_mod_cast hlo) hlt
      rw [zero_add] at hpre' hv'
      have hkey := Option.some.inj ((hinterval heq' hpre' hv').symm.trans hassign)
      obtain ⟨rfl, rfl, rfl⟩ := eq_of_key h hsplit heq' hkey
      exact .inl ⟨hpre', hv'⟩
  · rintro (⟨hpre, hv⟩ | ⟨hmax, hv, hpost⟩)
    · exact hinterval hsplit hpre hv
    · exact hlast hsplit hmax hv hpost

/-! ## Counting -/

/-- The number of hash values whose scaled value lies below a cumulative weight. -/
def below (vs : List VariantConfig) (c : ℤ) : ℕ :=
  (c.toNat * uint32Max) ⌈/⌉ (total vs).toNat

lemma below_le_iff (h : 0 < total vs) (hc : 0 ≤ c) (hash : ℕ) :
    below vs c ≤ hash ↔ (c : ℚ) ≤ scaled vs hash := by
  have hmax : (0 : ℚ) < uint32Max := by norm_num [uint32Max]
  obtain ⟨n, hn⟩ := Int.eq_ofNat_of_zero_le hc
  obtain ⟨m, hm⟩ := Int.eq_ofNat_of_zero_le h.le
  have hpos : 0 < m := by omega
  rw [below, scaled, hn, hm, Int.toNat_natCast, Int.toNat_natCast, ceilDiv_le_iff_le_mul hpos,
    le_div_iff₀ hmax, mul_comm m]
  norm_cast

lemma below_bounds (h : 0 < total vs) (hc : 0 ≤ c) :
    c * uint32Max ≤ total vs * below vs c ∧
      total vs * below vs c < c * uint32Max + total vs := by
  obtain ⟨n, hn⟩ := Int.eq_ofNat_of_zero_le hc
  obtain ⟨m, hm⟩ := Int.eq_ofNat_of_zero_le h.le
  have hpos : 0 < m := by omega
  have hiff (k : ℕ) : below vs c ≤ k ↔ n * uint32Max ≤ m * k := by
    rw [below, hn, hm, Int.toNat_natCast, Int.toNat_natCast, ceilDiv_le_iff_le_mul hpos]
  have hself := (hiff _).1 le_rfl
  have hbefore : m * below vs c < n * uint32Max + m := by
    rcases Nat.eq_zero_or_pos (below vs c) with hzero | hpositive
    · rw [hzero]
      omega
    · have hnot := mt (hiff (below vs c - 1)).2 (by omega)
      rw [Nat.mul_sub_one] at hnot
      have := Nat.le_mul_of_pos_right m hpositive
      omega
  have hself' : ((n * uint32Max : ℕ) : ℤ) ≤ (m * below vs c : ℕ) := Int.ofNat_le.2 hself
  have hbefore' : ((m * below vs c : ℕ) : ℤ) < (n * uint32Max + m : ℕ) := Int.ofNat_lt.2 hbefore
  rw [Nat.cast_mul, Nat.cast_mul, ← hn, ← hm] at hself'
  rw [Nat.cast_mul, Nat.cast_add, Nat.cast_mul, ← hn, ← hm] at hbefore'
  exact ⟨hself', hbefore'⟩

lemma below_le_max (h : 0 < total vs) (hc : 0 ≤ c) (hle : c ≤ total vs) :
    below vs c ≤ uint32Max := by
  have hmax : scaled vs uint32Max = total vs :=
    (scaled_range h (show uint32Max < 2 ^ 32 by decide)).2.2.2 rfl
  rw [below_le_iff h hc, hmax]
  exact_mod_cast hle

lemma hashes_eq (h : Valid vs) (hsplit : vs = pre ++ v :: post) :
    hashes vs v = Finset.Ico (below vs (total pre))
      (if 0 < v.weight ∧ ∀ u ∈ post, u.weight = 0 then 2 ^ 32
        else below vs (total pre + v.weight)) := by
  have hvs : ∀ u ∈ pre ++ v :: post, 0 ≤ u.weight := hsplit ▸ h.nonneg
  obtain ⟨hpre, hrest⟩ := List.forall_mem_append.1 hvs
  obtain ⟨hv, hpost⟩ := List.forall_mem_cons.1 hrest
  have hcum := total_nonneg hpre
  have htotal : total vs = total pre + v.weight + total post := by
    rw [hsplit, total_append, total_cons, add_assoc]
  have hpostTotal := total_nonneg hpost
  ext hash
  rw [hashes, Finset.mem_filter, Finset.mem_range, Finset.mem_Ico]
  split_ifs with hlast
  · have hzero : total post = 0 := List.sum_eq_zero (List.forall_mem_map.2 hlast.2)
    rw [and_comm, and_congr_left_iff]
    intro hhash
    obtain ⟨-, hhi, htop⟩ := scaled_range h.total_pos hhash
    rw [assign_eq_some_iff h hsplit hhash, below_le_iff h.total_pos hcum,
      show total pre + v.weight = total vs by omega]
    constructor
    · rintro (⟨hlo, -⟩ | ⟨hmax, -⟩)
      · exact hlo
      · rw [htop.2 hmax]
        exact_mod_cast (by omega : total pre ≤ total vs)
    · intro hlo
      by_cases hmax : hash = uint32Max
      · exact .inr ⟨hmax, hlast⟩
      · exact .inl ⟨hlo, lt_of_le_of_ne hhi fun heq => hmax (htop.1 heq)⟩
  · have hnext : 0 ≤ total pre + v.weight := by omega
    have hbound := below_le_max h.total_pos hnext (by omega)
    have hmem (hhash : hash < 2 ^ 32) : assign .python vs hash = some v.key ↔
        below vs (total pre) ≤ hash ∧ hash < below vs (total pre + v.weight) := by
      rw [assign_eq_some_iff h hsplit hhash, below_le_iff h.total_pos hcum,
        ← not_le (a := below vs _), below_le_iff h.total_pos hnext, not_le]
      exact or_iff_left fun hright => hlast hright.2
    refine ⟨fun ⟨hhash, hassign⟩ => (hmem hhash).1 hassign, fun hin => ?_⟩
    have hhash : hash < 2 ^ 32 := lt_of_lt_of_le hin.2 (hbound.trans (by decide))
    exact ⟨hhash, (hmem hhash).2 hin⟩

theorem card_hashes (h : Valid vs) (hsplit : vs = pre ++ v :: post) :
    |((hashes vs v).card : ℚ) - uint32Max * v.weight / total vs| ≤ 1 := by
  have hvs : ∀ u ∈ pre ++ v :: post, 0 ≤ u.weight := hsplit ▸ h.nonneg
  obtain ⟨hpre, hrest⟩ := List.forall_mem_append.1 hvs
  obtain ⟨hv, hpost⟩ := List.forall_mem_cons.1 hrest
  have hcum := total_nonneg hpre
  have htotal : total vs = total pre + v.weight + total post := by
    rw [hsplit, total_append, total_cons, add_assoc]
  have hpostTotal := total_nonneg hpost
  obtain ⟨hlo, hlo'⟩ := below_bounds h.total_pos hcum
  have hW : (0 : ℚ) < total vs := by exact_mod_cast h.total_pos
  -- it suffices to bound the product with the whole weight
  suffices hint : |total vs * ((hashes vs v).card : ℤ) - uint32Max * v.weight| ≤ total vs by
    have hq : |(total vs : ℚ) * (hashes vs v).card - uint32Max * v.weight| ≤ total vs := by
      exact_mod_cast hint
    rw [← mul_le_mul_iff_right₀ hW, mul_one, ← abs_of_pos hW, ← abs_mul, abs_of_pos hW, mul_sub,
      mul_div_cancel₀ _ hW.ne']
    exact hq
  rw [hashes_eq h hsplit, Nat.card_Ico, abs_le]
  split_ifs with hlast
  · have hzero : total post = 0 := List.sum_eq_zero (List.forall_mem_map.2 hlast.2)
    have hle := below_le_max h.total_pos hcum (by omega)
    have hcard : ((2 ^ 32 - below vs (total pre) : ℕ) : ℤ) =
        uint32Max + 1 - below vs (total pre) := by
      unfold uint32Max at hle ⊢
      omega
    have hweight : v.weight = total vs - total pre := by omega
    rw [hcard, hweight]
    constructor <;> nlinarith
  · have hnext : 0 ≤ total pre + v.weight := by omega
    obtain ⟨hhi, hhi'⟩ := below_bounds h.total_pos hnext
    have hmono : below vs (total pre) ≤ below vs (total pre + v.weight) := by
      rw [below_le_iff h.total_pos hcum]
      refine le_trans ?_ ((below_le_iff h.total_pos hnext _).1 le_rfl)
      exact_mod_cast (by omega : total pre ≤ total pre + v.weight)
    rw [Nat.cast_sub hmono]
    constructor <;> nlinarith

/-- **Weighted assignment.** Both languages accept the same weights and choose the same variant. A
variant of accepted variants is chosen exactly for the hash values whose scaled value lies between
the cumulative weights before and after it, the last variant with a positive weight also for the
greatest value; one with weight zero is never chosen, and of the values a variant gets its share of
`2 ^ 32 - 1` up to one. -/
theorem weighted_assignment :
    (∀ ws : List ℤ, JavaScript.hasCanonicalVariantWeights ws = true ↔
      validateVariantWeightContract ws = .ok ()) ∧
    ∀ vs : List VariantConfig, validateVariantWeights vs = .ok () →
      (∀ textEncoder, ∀ hash < 2 ^ 32,
        assign (.javascript textEncoder) vs hash = assign .python vs hash) ∧
      ∀ pre v post, vs = pre ++ v :: post →
        (∀ hash < 2 ^ 32, assign .python vs hash = some v.key ↔
          ((total pre : ℚ) ≤ scaled vs hash ∧ scaled vs hash < (total pre + v.weight : ℤ)) ∨
            (hash = uint32Max ∧ 0 < v.weight ∧ ∀ u ∈ post, u.weight = 0)) ∧
        (v.weight = 0 → hashes vs v = ∅) ∧
        |((hashes vs v).card : ℚ) - uint32Max * v.weight / total vs| ≤ 1 := by
  refine ⟨Wire.hasCanonicalVariantWeights_iff, fun vs hvs => ?_⟩
  have h := valid_iff.1 hvs
  refine ⟨fun textEncoder hash _ => (assign_eq h textEncoder hash).2, fun pre v post hsplit =>
    ⟨fun hash hhash => assign_eq_some_iff h hsplit hhash, fun hzero => ?_, card_hashes h hsplit⟩⟩
  refine Finset.filter_eq_empty_iff.2 fun hash hmem hassign => ?_
  rcases (assign_eq_some_iff h hsplit (Finset.mem_range.1 hmem)).1 hassign with ⟨hlo, hhi⟩ | ⟨-, hv, -⟩
  · rw [hzero, add_zero] at hhi
    exact absurd hlo (not_le.2 hhi)
  · omega

/-- Weights of which the second gets too little. -/
def unevenVariants : List VariantConfig := [⟨[97], 1⟩, ⟨[98], 6⟩, ⟨[99], 14⟩]

/-- The share of all `2 ^ 32` values may be missed by more than one: the second of the weights 1, 6
and 14 gets 1227133512 values, and its share is 1227133513 and a seventh. -/
theorem share_off_by_more_than_one : validateVariantWeights unevenVariants = .ok () ∧
    1 < |((hashes unevenVariants ⟨[98], 6⟩).card : ℚ) - 2 ^ 32 * 6 / total unevenVariants| := by
  have hvalid : validateVariantWeights unevenVariants = .ok () := by decide
  refine ⟨hvalid, ?_⟩
  have hsplit : unevenVariants = [⟨[97], 1⟩] ++ ⟨[98], 6⟩ :: [⟨[99], 14⟩] := rfl
  have htotal : total unevenVariants = 21 := by decide
  have hcard : (hashes unevenVariants ⟨[98], 6⟩).card = 1227133512 := by
    rw [hashes_eq (valid_iff.1 hvalid) hsplit, Nat.card_Ico, if_neg (by decide)]
    decide
  rw [hcard, htotal]
  norm_num

end Apdl.Flags.Assignment
