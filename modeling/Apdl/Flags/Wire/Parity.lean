import Apdl.Flags.Wire.Grammar

set_option autoImplicit false

/-!
# When the two parsers agree

The dialects of the two parsers differ at single places: in the unit that string lengths are
counted in, in what counts as an integer, in the conversions of pydantic and in the default of a
rule's name. They also differ in how a refused flag is named and in the bound of the project
identifier.

## Main results

* `parsers_agree` — they have the same result for a payload that meets `PayloadAgrees`, and only
  for such a one when they differ on at most one candidate.
-/

namespace Apdl.Flags.Wire

open Config (GateCondition GateRule RolloutConfig VariantConfig FallthroughConfig
  boundedLength maxVariants maxVariantWeight validateVariants)
open Doc (Fields)

/-! ## Integer literals -/

namespace JavaScript

variable {n : ℤ}

lemma isInteger_eq_some_iff {d : Doc} :
    isInteger d = some n ↔ d.toDouble = some (n : ℚ) := by
  simp only [isInteger, Option.bind_eq_some_iff, Option.ite_none_right_eq_some, Option.some.injEq]
  constructor
  · rintro ⟨r, hr, hden, rfl⟩
    rw [hr, (Rat.den_eq_one_iff r).1 hden]
  · intro h
    exact ⟨n, h, Rat.den_intCast n, Rat.num_intCast n⟩

lemma isSafeInteger_eq_some_iff {d : Doc} :
    isSafeInteger d = some n ↔ d.toDouble = some (n : ℚ) ∧ n.natAbs ≤ 9007199254740991 := by
  rw [isSafeInteger, Option.filter_eq_some_iff, isInteger_eq_some_iff, decide_eq_true_eq]

lemma round_safe_iff {k : ℤ} (hk : k.natAbs ≤ 9007199254740991) :
    Double.round n = some (k : ℚ) ↔ n = k := by
  constructor
  · intro h
    by_cases hn : n.natAbs ≤ 2 ^ 53
    · rw [Double.round_intCast hn] at h
      exact_mod_cast Option.some.inj h
    · -- beyond the safe integers the double is beyond them too
      rcases le_or_gt 0 n with hpos | hneg
      · have hle := Double.le_round_intCast (z := n) (k := 53) (by omega) h
        have : (2 : ℤ) ^ 53 ≤ k := by exact_mod_cast hle
        omega
      · have hle := Double.round_intCast_le (z := n) (k := 53) (by omega) h
        have : k ≤ -(2 : ℤ) ^ 53 := by exact_mod_cast hle
        omega
  · rintro rfl
    exact Double.round_intCast (by omega)

lemma one_le_round_iff {k : ℤ} (h : Double.round n = some (k : ℚ)) : 1 ≤ k ↔ 1 ≤ n := by
  constructor
  · intro hk
    by_contra hn
    rcases Int.lt_or_eq_of_le (show n ≤ 0 by omega) with hneg | rfl
    · have hle := Double.round_intCast_le (z := n) (k := 0) (by omega) h
      have : k ≤ -(2 : ℤ) ^ 0 := by exact_mod_cast hle
      omega
    · rw [Double.round_intCast (by norm_num)] at h
      have : (k : ℚ) = 0 := by simpa using (Option.some.inj h).symm
      have : k = 0 := by exact_mod_cast this
      omega
  · intro hn
    have hle := Double.le_round_intCast (z := n) (k := 0) (by omega) h
    have : (2 : ℤ) ^ 0 ≤ k := by exact_mod_cast hle
    omega

end JavaScript

/-! ## Condition values -/

/-- The integer literals of a value: its own, or those of its items. -/
def intLiterals : Doc → List ℤ
  | .int n => [n]
  | .arr items => items.filterMap fun d => match d with
    | .int n => some n
    | _ => none
  | _ => []

lemma round_nearest_isSome (q : ℚ) :
    (Double.round (Doc.nearest q)).isSome = (Double.round q).isSome := by
  unfold Doc.nearest
  rcases h : Double.round q with _ | r
  · simp [h]
  · simp [Double.round_round h]

lemma isScalar_read (len : Text → ℕ) (d : Doc) :
    isScalar len (JavaScript.read d) = isScalar len (Python.read d) := by
  cases d with
  | int n => exact round_nearest_isSome n
  | _ => rfl

lemma isConditionValueValid_read (len : Text → ℕ) (op : Operator) (d : Doc) :
    isConditionValueValid len op (JavaScript.read d) =
      isConditionValueValid len op (Python.read d) := by
  unfold isConditionValueValid
  cases op.cls with
  | equality => exact isScalar_read len d
  | string => cases d <;> rfl
  | numeric =>
    cases d with
    | int n => exact round_nearest_isSome n
    | _ => rfl
  | membership =>
    cases d with
    | arr items =>
      simp only [JavaScript.read, Python.read, Doc.read, Doc.readItems_eq_map, isMembershipList,
        List.length_map, List.all_map]
      congr 2
      funext d
      exact isScalar_read len d
    | _ => rfl
  | presence => rfl

lemma isBoundedText_of_unit {t : Text} (h : isBoundedText Text.unitLength t = true) :
    isBoundedText Text.length t = true := by
  simp only [isBoundedText, decide_eq_true_eq] at h ⊢
  exact le_trans (Text.length_le_unitLength t) h

lemma isScalar_of_unit {v : Json} (h : isScalar Text.unitLength v = true) :
    isScalar Text.length v = true := by
  cases v with
  | str s => exact isBoundedText_of_unit h
  | _ => exact h

lemma isConditionValueValid_of_unit {op : Operator} {v : Json}
    (h : isConditionValueValid Text.unitLength op v = true) :
    isConditionValueValid Text.length op v = true := by
  unfold isConditionValueValid at h ⊢
  cases hcls : op.cls with
  | equality =>
    rw [hcls] at h
    exact isScalar_of_unit h
  | string =>
    rw [hcls] at h
    cases v with
    | str s => exact isBoundedText_of_unit h
    | _ => exact h
  | numeric =>
    rw [hcls] at h
    cases v with
    | str s =>
      simp only [parseNumeric] at h ⊢
      split_ifs at h with hb
      · rwa [if_pos (isBoundedText_of_unit hb)]
      · cases h
    | _ => exact h
  | membership =>
    rw [hcls] at h
    cases v with
    | arr items =>
      simp only [isMembershipList, Bool.and_eq_true, List.all_eq_true] at h ⊢
      exact ⟨h.1, fun v hv => isScalar_of_unit (h.2 v hv)⟩
    | _ => exact h
  | presence =>
    rw [hcls] at h
    exact h

lemma nearest_eq_iff {n : ℤ} (h : (Double.round n).isSome = true) :
    Doc.nearest n = n ↔ Double.round n = some (n : ℚ) := by
  unfold Doc.nearest
  obtain ⟨r, hr⟩ := Option.isSome_iff_exists.1 h
  simp [hr]

lemma read_scalar_eq_iff {d : Doc} (h : isScalar Text.length (Python.read d) = true) :
    JavaScript.read d = Python.read d ↔ ∀ n : ℤ, d = .int n → Double.round n = some (n : ℚ) := by
  cases d with
  | int n =>
    simp only [JavaScript.read, Python.read, Doc.read, Json.num.injEq, Doc.int.injEq,
      forall_eq']
    exact nearest_eq_iff h
  | arr items => cases h
  | obj fields => cases h
  | _ => simp [JavaScript.read, Python.read, Doc.read]

lemma read_eq_iff {op : Operator} {d : Doc}
    (h : isConditionValueValid Text.length op (Python.read d) = true) :
    JavaScript.read d = Python.read d ↔
      ∀ n ∈ intLiterals d, Double.round n = some ((n : ℤ) : ℚ) := by
  cases d with
  | int n =>
    have hfinite : (Double.round n).isSome = true := by
      unfold isConditionValueValid at h
      cases hcls : op.cls <;> rw [hcls] at h <;> first | exact h | cases h
    simp only [JavaScript.read, Python.read, Doc.read, Json.num.injEq, intLiterals,
      List.forall_mem_singleton]
    exact nearest_eq_iff hfinite
  | arr items =>
    have hitems : ∀ d ∈ items, isScalar Text.length (Python.read d) = true := by
      unfold isConditionValueValid at h
      cases hcls : op.cls <;> rw [hcls] at h
      case membership =>
        simp only [Python.read, Doc.read, Doc.readItems_eq_map, isMembershipList, Bool.and_eq_true,
          List.all_map, List.all_eq_true] at h
        exact h.2
      all_goals cases h
    simp only [JavaScript.read, Python.read, Doc.read, Json.arr.injEq, Doc.readItems_eq_map,
      List.map_inj_left, intLiterals, List.mem_filterMap]
    constructor
    · rintro hall n ⟨d, hd, hn⟩
      obtain rfl : d = .int n := by
        cases d <;> simp_all
      exact (read_scalar_eq_iff (hitems _ hd)).1 (hall _ hd) n rfl
    · intro hall d hd
      refine (read_scalar_eq_iff (hitems d hd)).2 fun n hn => hall n ⟨d, hd, ?_⟩
      rw [hn]
  | obj fields =>
    unfold isConditionValueValid at h
    cases hcls : op.cls <;> rw [hcls] at h <;> cases h
  | _ => simp [JavaScript.read, Python.read, Doc.read, intLiterals]

/-! ## The places where the dialects differ -/

def isNumber : Doc → Bool
  | .int _ => true
  | .float _ => true
  | _ => false

namespace Leaf

variable (P : Pydantic)

/-- What only JavaScript takes: a string that is not encodable, and an integer that is written with
a fraction or an exponent. -/
def JavaScriptOnly : Leaf → Prop
  | .identifier (.str s) => isIdentifier Text.unitLength s = true ∧ P.isStr s = false
  | .text (.str s) => isBoundedText Text.unitLength s = true ∧ P.isStr s = false
  | .name (some (.str s)) => isBoundedText Text.unitLength s = true ∧ P.isStr s = false
  | .weight (.float q) => ∃ n : ℤ, Double.round q = some (n : ℚ) ∧ 0 ≤ n ∧ n ≤ maxVariantWeight
  | .version (.float q) => ∃ n : ℤ, Double.round q = some (n : ℚ) ∧ 1 ≤ n
  | _ => False

/-- What only Python takes: a string that is within its bound in code points but not in code
units, a missing name, what pydantic converts, and a version that is no finite double. -/
def PythonOnly : Leaf → Prop
  | .identifier (.str s) => P.isStr s = true ∧ isIdentifier Text.length s = true ∧
    isIdentifier Text.unitLength s = false
  | .text (.str s) => P.isStr s = true ∧ isBoundedText Text.length s = true ∧
    isBoundedText Text.unitLength s = false
  | .name none => True
  | .name (some (.str s)) => P.isStr s = true ∧ isBoundedText Text.length s = true ∧
    isBoundedText Text.unitLength s = false
  | .enabled d => JavaScript.boolean d = none ∧ (P.bool d).isSome = true
  | .version (.int n) => 1 ≤ n ∧ Double.round n = none
  | .percentage d => isNumber d = false ∧ (P.percentage d).isSome = true
  | .value op d => isConditionValueValid Text.length op (Python.read d) = true ∧
    isConditionValueValid Text.unitLength op (Python.read d) = false
  | _ => False

/-- What both take and JavaScript rounds: an integer literal that is no double. -/
def Rounded : Leaf → Prop
  | .version (.int n) => Double.round n ≠ some (n : ℚ)
  | .value _ d => ∃ n ∈ intLiterals d, Double.round n ≠ some ((n : ℤ) : ℚ)
  | _ => False

end Leaf

lemma boundedLength_identifier (s : Text) :
    boundedLength 1 maxIdentifierLength s = isIdentifier Text.length s := rfl

lemma boundedLength_text (s : Text) :
    boundedLength 0 maxStringLength s = isBoundedText Text.length s := by
  simp [boundedLength, isBoundedText]

lemma isIdentifier_of_unit {t : Text} (h : isIdentifier Text.unitLength t = true) :
    isIdentifier Text.length t = true := by
  simp only [isIdentifier, Bool.and_eq_true, decide_eq_true_eq] at h ⊢
  have hle := Text.length_le_unitLength t
  have hge := Text.unitLength_le t
  omega

section Places

variable (P : Pydantic)

lemma isSome_filter_toText (p : Text → Bool) (d : Doc) :
    (d.toText.filter p).isSome = true ↔ ∃ s, d = .str s ∧ p s = true := by
  cases d with
  | str s => simp [Doc.toText]
  | _ => simp [Doc.toText]

variable {d : Doc}

lemma javascript_takes_identifier : javascript.takes (.identifier d) = true ↔
    ∃ s, d = .str s ∧ isIdentifier Text.unitLength s = true :=
  isSome_filter_toText _ d

lemma python_takes_identifier : (python P).takes (.identifier d) = true ↔
    ∃ s, d = .str s ∧ (P.isStr s = true ∧ isIdentifier Text.length s = true) := by
  refine (isSome_filter_toText _ d).trans (exists_congr fun s => and_congr_right fun _ => ?_)
  rw [boundedLength_identifier, Bool.and_eq_true]

lemma javascript_takes_text : javascript.takes (.text d) = true ↔
    ∃ s, d = .str s ∧ isBoundedText Text.unitLength s = true :=
  isSome_filter_toText _ d

lemma python_takes_text : (python P).takes (.text d) = true ↔
    ∃ s, d = .str s ∧ (P.isStr s = true ∧ isBoundedText Text.length s = true) := by
  refine (isSome_filter_toText _ d).trans (exists_congr fun s => and_congr_right fun _ => ?_)
  rw [boundedLength_text, Bool.and_eq_true]

lemma javascript_takes_name {d : Option Doc} : javascript.takes (.name d) = true ↔
    ∃ e, d = some e ∧ javascript.takes (.text e) = true := by
  cases d with
  | none => simp [Dialect.takes]
  | some e => simp [Dialect.takes]

lemma python_takes_name {d : Option Doc} : (python P).takes (.name d) = true ↔
    d = none ∨ ∃ e, d = some e ∧ (python P).takes (.text e) = true := by
  cases d with
  | none => simp [Dialect.takes, Python.ruleName]
  | some e => simp [Dialect.takes, Python.ruleName]

lemma javascript_takes_weight : javascript.takes (.weight d) = true ↔
    ∃ n : ℤ, d.toDouble = some (n : ℚ) ∧ 0 ≤ n ∧ n ≤ maxVariantWeight := by
  simp only [Dialect.takes, javascript_weight, Option.isSome_iff_exists, Option.filter_eq_some_iff,
    JavaScript.isSafeInteger_eq_some_iff, decide_eq_true_eq, maxVariantWeight]
  refine exists_congr fun n => ?_
  constructor
  · rintro ⟨⟨hn, hsafe⟩, h0⟩
    exact ⟨hn, h0, by omega⟩
  · rintro ⟨hn, h0, hle⟩
    exact ⟨⟨hn, by omega⟩, h0⟩

lemma python_takes_weight : (python P).takes (.weight d) = true ↔
    ∃ n : ℤ, d = .int n ∧ 0 ≤ n ∧ n ≤ maxVariantWeight := by
  cases d <;> simp [Dialect.takes, Python.strictInt]

lemma javascript_takes_version : javascript.takes (.version d) = true ↔
    ∃ n : ℤ, d.toDouble = some (n : ℚ) ∧ 1 ≤ n := by
  simp only [Dialect.takes, javascript_version, Option.isSome_map, Option.isSome_iff_exists,
    Option.filter_eq_some_iff, JavaScript.isInteger_eq_some_iff, decide_eq_true_eq]

lemma python_takes_version : (python P).takes (.version d) = true ↔
    ∃ n : ℤ, d = .int n ∧ 1 ≤ n := by
  cases d <;> simp [Dialect.takes, Python.strictInt]

lemma percentage_eq (h : isNumber d = true) :
    P.percentage d = d.toDouble.filter inPercent := by
  cases d with
  | int n => exact P.percentage_int n
  | float q => exact P.percentage_float q
  | _ => cases h

lemma javascript_takes_value {op : Operator} :
    javascript.takes (.value op d) = isConditionValueValid Text.unitLength op (Python.read d) := by
  rw [Dialect.takes, javascript_value, isConditionValueValid_read]
  cases isConditionValueValid Text.unitLength op (Python.read d) <;> rfl

lemma python_takes_value {op : Operator} :
    (python P).takes (.value op d) = isConditionValueValid Text.length op (Python.read d) := by
  rw [Dialect.takes, python_value]
  cases isConditionValueValid Text.length op (Python.read d) <;> rfl

lemma javaScriptOnly_iff (l : Leaf) :
    l.JavaScriptOnly P ↔ javascript.takes l = true ∧ ¬ (python P).takes l = true := by
  cases l with
  | identifier d =>
    rw [javascript_takes_identifier, python_takes_identifier]
    cases d with
    | str s =>
      simp only [Leaf.JavaScriptOnly, Doc.str.injEq, exists_eq_left']
      exact and_congr_right fun h => by simp [isIdentifier_of_unit h]
    | _ => simp [Leaf.JavaScriptOnly]
  | text d =>
    rw [javascript_takes_text, python_takes_text]
    cases d with
    | str s =>
      simp only [Leaf.JavaScriptOnly, Doc.str.injEq, exists_eq_left']
      exact and_congr_right fun h => by simp [isBoundedText_of_unit h]
    | _ => simp [Leaf.JavaScriptOnly]
  | name d =>
    rw [javascript_takes_name, python_takes_name]
    rcases d with _ | d
    · simp [Leaf.JavaScriptOnly]
    · simp only [Option.some.injEq, exists_eq_left', reduceCtorEq, false_or,
        javascript_takes_text, python_takes_text]
      cases d with
      | str s =>
        simp only [Leaf.JavaScriptOnly, Doc.str.injEq, exists_eq_left']
        exact and_congr_right fun h => by simp [isBoundedText_of_unit h]
      | _ => simp [Leaf.JavaScriptOnly]
  | enabled d =>
    cases d with
    | bool b => simp [Leaf.JavaScriptOnly, Dialect.takes, P.bool_bool]
    | _ => simp [Leaf.JavaScriptOnly, Dialect.takes, JavaScript.boolean]
  | weight d =>
    rw [javascript_takes_weight, python_takes_weight]
    cases d with
    | int n =>
      simp only [Leaf.JavaScriptOnly, false_iff, not_and, Doc.toDouble, Doc.int.injEq,
        exists_eq_left']
      rintro ⟨k, hk, h0, hle⟩ hno
      have hsafe : k.natAbs ≤ 9007199254740991 := by
        unfold maxVariantWeight at hle
        omega
      obtain rfl := (JavaScript.round_safe_iff hsafe).1 hk
      exact hno h0 hle
    | float q => simp [Leaf.JavaScriptOnly, Doc.toDouble]
    | _ => simp [Leaf.JavaScriptOnly, Doc.toDouble]
  | version d =>
    rw [javascript_takes_version, python_takes_version]
    cases d with
    | int n =>
      simp only [Leaf.JavaScriptOnly, false_iff, not_and, not_not, Doc.toDouble, Doc.int.injEq,
        exists_eq_left']
      rintro ⟨k, hk, h1⟩
      exact (JavaScript.one_le_round_iff hk).1 h1
    | float q => simp [Leaf.JavaScriptOnly, Doc.toDouble]
    | _ => simp [Leaf.JavaScriptOnly, Doc.toDouble]
  | percentage d =>
    simp only [Leaf.JavaScriptOnly, false_iff, not_and, not_not, Dialect.takes,
      javascript_percentage, python_percentage]
    intro h
    cases hd : isNumber d with
    | true => rwa [percentage_eq P hd]
    | false => cases d <;> simp_all [isNumber, Doc.toDouble]
  | value op d =>
    rw [javascript_takes_value, python_takes_value]
    simp only [Leaf.JavaScriptOnly, false_iff, not_and, not_not]
    exact isConditionValueValid_of_unit

lemma pythonOnly_iff (l : Leaf) :
    l.PythonOnly P ↔ (python P).takes l = true ∧ ¬ javascript.takes l = true := by
  cases l with
  | identifier d =>
    rw [javascript_takes_identifier, python_takes_identifier]
    cases d with
    | str s => simp [Leaf.PythonOnly, and_assoc]
    | _ => simp [Leaf.PythonOnly]
  | text d =>
    rw [javascript_takes_text, python_takes_text]
    cases d with
    | str s => simp [Leaf.PythonOnly, and_assoc]
    | _ => simp [Leaf.PythonOnly]
  | name d =>
    rw [javascript_takes_name, python_takes_name]
    rcases d with _ | d
    · simp [Leaf.PythonOnly]
    · simp only [Option.some.injEq, exists_eq_left', reduceCtorEq, false_or,
        javascript_takes_text, python_takes_text]
      cases d with
      | str s => simp [Leaf.PythonOnly, and_assoc]
      | _ => simp [Leaf.PythonOnly]
  | enabled d =>
    simp [Leaf.PythonOnly, Dialect.takes, and_comm]
  | weight d =>
    rw [javascript_takes_weight, python_takes_weight]
    simp only [Leaf.PythonOnly, false_iff, not_and, not_not]
    rintro ⟨n, rfl, h0, hle⟩
    refine ⟨n, Double.round_intCast ?_, h0, hle⟩
    unfold maxVariantWeight at hle
    omega
  | version d =>
    rw [javascript_takes_version, python_takes_version]
    cases d with
    | int n =>
      simp only [Leaf.PythonOnly, Doc.int.injEq, exists_eq_left', Doc.toDouble]
      refine and_congr_right fun hn => ⟨?_, ?_⟩
      · rintro hnone ⟨k, hk, -⟩
        rw [hnone] at hk
        cases hk
      · intro hno
        rcases hr : Double.round n with _ | r
        · rfl
        · obtain ⟨k, rfl⟩ := Double.exists_int_round hr
          exact absurd ⟨k, hr, (JavaScript.one_le_round_iff hr).2 hn⟩ hno
    | _ => simp [Leaf.PythonOnly]
  | percentage d =>
    simp only [Leaf.PythonOnly, Dialect.takes, javascript_percentage, python_percentage]
    cases hd : isNumber d with
    | true => simp [percentage_eq P hd]
    | false =>
      have hnone : d.toDouble = none := by cases d <;> simp_all [isNumber, Doc.toDouble]
      simp [hnone]
  | value op d =>
    rw [javascript_takes_value, python_takes_value]
    simp [Leaf.PythonOnly]

lemma filter_toText_eq {p : Text → Bool} {s : Text} (h : p s = true) :
    (Doc.str s).toText.filter p = some s := by
  simp [Doc.toText, h]

lemma sameAt_iff {l : Leaf} (hj : javascript.takes l = true) (hp : (python P).takes l = true) :
    Dialect.SameAt javascript (python P) l ↔ ¬ l.Rounded := by
  cases l with
  | identifier d =>
    obtain ⟨s, rfl, hs⟩ := javascript_takes_identifier.1 hj
    obtain ⟨s', hs', hpy⟩ := (python_takes_identifier P).1 hp
    obtain rfl := Doc.str.inj hs'
    simp [Dialect.SameAt, Leaf.Rounded, JavaScript.isIdentifier, Python.constrainedStr,
      filter_toText_eq, hs, hpy, boundedLength_identifier]
  | text d =>
    obtain ⟨s, rfl, hs⟩ := javascript_takes_text.1 hj
    obtain ⟨s', hs', hpy⟩ := (python_takes_text P).1 hp
    obtain rfl := Doc.str.inj hs'
    simp [Dialect.SameAt, Leaf.Rounded, JavaScript.isBoundedString, Python.constrainedStr,
      filter_toText_eq, hs, hpy, boundedLength_text]
  | name d =>
    obtain ⟨e, rfl, he⟩ := javascript_takes_name.1 hj
    obtain ⟨s, rfl, hs⟩ := javascript_takes_text.1 he
    rcases (python_takes_name P).1 hp with hnone | ⟨e', he', hpy⟩
    · cases hnone
    obtain rfl := Option.some.inj he'
    obtain ⟨s', hs', hpy⟩ := (python_takes_text P).1 hpy
    obtain rfl := Doc.str.inj hs'
    simp [Dialect.SameAt, Leaf.Rounded, JavaScript.isBoundedString, Python.ruleName,
      Python.constrainedStr, filter_toText_eq, hs, hpy, boundedLength_text]
  | enabled d =>
    cases d with
    | bool b => simp [Dialect.SameAt, Leaf.Rounded, JavaScript.boolean, P.bool_bool]
    | _ => cases hj
  | weight d =>
    obtain ⟨n, rfl, h0, hle⟩ := (python_takes_weight P).1 hp
    have hsafe : n.natAbs ≤ 9007199254740991 := by
      unfold maxVariantWeight at hle
      omega
    have hread : JavaScript.isSafeInteger (.int n) = some n :=
      JavaScript.isSafeInteger_eq_some_iff.2 ⟨(JavaScript.round_safe_iff hsafe).2 rfl, hsafe⟩
    simp [Dialect.SameAt, Leaf.Rounded, hread, Python.strictInt, Option.filter_some, h0, hle]
  | version d =>
    obtain ⟨n, rfl, h1⟩ := (python_takes_version P).1 hp
    obtain ⟨k, hk, hk1⟩ := javascript_takes_version.1 hj
    have hread : JavaScript.isInteger (.int n) = some k := JavaScript.isInteger_eq_some_iff.2 hk
    have hround : Double.round n = some (k : ℚ) := hk
    simp only [Dialect.SameAt, Leaf.Rounded, javascript_version, python_version, hread,
      Python.strictInt, Option.filter_some, hk1, h1, decide_true, if_true, Option.map_some,
      Option.some.injEq, hround, not_not, Int.cast_inj]
    omega
  | percentage d =>
    cases hd : isNumber d with
    | true => simp [Dialect.SameAt, Leaf.Rounded, percentage_eq P hd]
    | false => cases d <;> simp_all [isNumber, Doc.toDouble, Dialect.takes]
  | value op d =>
    rw [javascript_takes_value] at hj
    rw [python_takes_value] at hp
    have hjs := (isConditionValueValid_read Text.unitLength op d).trans hj
    simp only [Dialect.SameAt, Leaf.Rounded, javascript_value, python_value, hjs, hp, if_true,
      Option.some.injEq, read_eq_iff hp, not_exists, not_and, not_not]

lemma javascript_honest : javascript.Honest where
  identifier h := (Option.filter_eq_some_iff.1 h).1
  weight h := (Option.filter_eq_some_iff.1 (Option.filter_eq_some_iff.1 h).1).1

lemma python_honest : (python P).Honest where
  identifier h := (Option.filter_eq_some_iff.1 h).1
  weight := by
    intro d n h
    obtain ⟨hint, hrange⟩ := Option.filter_eq_some_iff.1 h
    simp only [Bool.and_eq_true, decide_eq_true_eq] at hrange
    have hexact : n.natAbs ≤ 2 ^ 53 := by
      unfold maxVariantWeight at hrange
      omega
    cases d with
    | int m =>
      obtain rfl := Option.some.inj hint
      exact JavaScript.isInteger_eq_some_iff.2 (Double.round_intCast hexact)
    | _ => cases hint

end Places

/-! ## Candidates -/

section Candidates

variable (P : Pydantic)

/-- A candidate that is a flag but for the differences of the dialects: its parts are there, its
variants fit together and each place is taken by one of them. -/
def Readable (x : Doc) (f : RawFlag) : Prop :=
  rawFlag x = some f ∧ f.Fits ∧
    ∀ l ∈ f.leaves, javascript.takes l = true ∨ (python P).takes l = true

/-- The candidates on which the parsers agree. A candidate without a key is refused by both. One
with a key is read alike, or refused by both: because it is not readable or holds what each refuses,
and then JavaScript has to be able to name it. -/
def Agrees (x : Doc) : Prop :=
  ∀ key, Python.invalidKey x = some key →
    (∃ f, Readable P x f ∧
      ∀ l ∈ f.leaves, ¬ l.JavaScriptOnly P ∧ ¬ l.PythonOnly P ∧ ¬ l.Rounded) ∨
    ((∀ f, Readable P x f →
        (∃ l ∈ f.leaves, l.JavaScriptOnly P) ∧ ∃ l ∈ f.leaves, l.PythonOnly P) ∧
      (JavaScript.extractInvalidFlagKey x).isSome = true)

variable {P}

variable {x : Doc} {f : RawFlag} {c : ClientFlagConfig}

lemma invalidKey_of_readFlag {D : Dialect}
    (hD : D.Honest) (hne : ∀ d, D.identifier d ≠ some []) (hraw : rawFlag x = some f)
    (hc : D.readFlag f = some c) : Python.invalidKey x = some c.key := by
  have hkey := (Dialect.readFlag_eq_some_iff.1 hc).key
  have hnil : c.key ≠ [] := by
    intro h
    exact hne f.key (by rw [hkey, h])
  rcases x with _ | _ | _ | _ | _ | _ | fields
  case obj =>
    have hcut := rawFlag_eq_some_iff.1 hraw
    refine Traverse.bind_intro rfl (Fields.read_eq_some_iff.2 ⟨f.key, hcut.key, ?_⟩)
    rw [Python.nonEmptyStr, hD.identifier hkey]
    simp [hnil]
  all_goals cases hraw

lemma javascript_identifier_ne (d : Doc) : javascript.identifier d ≠ some [] := by
  intro h
  exact absurd (Option.filter_eq_some_iff.1 h).2 (by decide)

lemma python_identifier_ne (d : Doc) : (python P).identifier d ≠ some [] := by
  intro h
  have hbound := (Bool.and_eq_true_iff.1 (Option.filter_eq_some_iff.1 h).2).2
  exact absurd hbound (by decide)

variable {key : Text}

lemma invalidKey_of_extract
    (h : JavaScript.extractInvalidFlagKey x = some key) : Python.invalidKey x = some key := by
  rcases x with _ | _ | _ | _ | _ | _ | fields
  case obj =>
    obtain ⟨_, hfields, h⟩ := Traverse.of_bind h
    obtain rfl := Option.some.inj hfields
    obtain ⟨k, hk, h⟩ := Traverse.of_bind h
    obtain ⟨-, h⟩ := Traverse.of_guard h
    obtain rfl := Option.some.inj h
    obtain ⟨d, hd, hkey⟩ := Fields.read_eq_some_iff.1 hk
    have hnil : k ≠ [] := by
      rintro rfl
      exact javascript_identifier_ne d hkey
    refine Traverse.bind_intro rfl (Fields.read_eq_some_iff.2 ⟨d, hd, ?_⟩)
    rw [Python.nonEmptyStr, (Option.filter_eq_some_iff.1 hkey).1]
    simp [hnil]
  all_goals cases h

lemma Readable.readFlag_isSome (h : Readable P x f) {D : Dialect}
    (hD : D.Honest) : (D.readFlag f).isSome = true ↔ ∀ l ∈ f.leaves, D.takes l = true := by
  rw [Dialect.readFlag_isSome_iff hD, and_iff_left h.2.1]

lemma readable_of_javascript (h : JavaScript.isFlagConfig x = some c) :
    ∃ f, Readable P x f ∧ javascript.readFlag f = some c := by
  rw [JavaScript.isFlagConfig_eq, Option.bind_eq_some_iff] at h
  obtain ⟨f, hraw, hc⟩ := h
  obtain ⟨htakes, hfits⟩ := (Dialect.readFlag_isSome_iff javascript_honest).1
    (Option.isSome_iff_exists.2 ⟨c, hc⟩)
  exact ⟨f, ⟨hraw, hfits, fun l hl => .inl (htakes l hl)⟩, hc⟩

lemma readable_of_python (h : Python.gateConfig P x = some c) :
    ∃ f, Readable P x f ∧ (python P).readFlag f = some c := by
  rw [Python.gateConfig_eq, Option.bind_eq_some_iff] at h
  obtain ⟨f, hraw, hc⟩ := h
  obtain ⟨htakes, hfits⟩ := (Dialect.readFlag_isSome_iff (python_honest P)).1
    (Option.isSome_iff_exists.2 ⟨c, hc⟩)
  exact ⟨f, ⟨hraw, hfits, fun l hl => .inr (htakes l hl)⟩, hc⟩

lemma python_outcome (hkey : Python.invalidKey x = some key) :
    Python.outcome P x =
      match Python.gateConfig P x with
      | some config => .flag config
      | none => .invalid key := by
  unfold Python.outcome
  cases Python.gateConfig P x <;> simp [hkey]

lemma javascript_outcome (hkey : Python.invalidKey x = some key) :
    JavaScript.outcome x =
      match JavaScript.isFlagConfig x with
      | some config => .flag config
      | none =>
        if (JavaScript.extractInvalidFlagKey x).isSome then .invalid key else .unrecognized := by
  unfold JavaScript.outcome
  cases JavaScript.isFlagConfig x with
  | some config => rfl
  | none =>
    rcases hex : JavaScript.extractInvalidFlagKey x with _ | k
    · rfl
    · obtain rfl := Option.some.inj ((invalidKey_of_extract hex).symm.trans hkey)
      rfl

lemma unrecognized_of_keyless (hkey : Python.invalidKey x = none) :
    JavaScript.outcome x = .unrecognized ∧ Python.outcome P x = .unrecognized := by
  have hj : JavaScript.isFlagConfig x = none := by
    rw [← Option.not_isSome_iff_eq_none, Option.isSome_iff_exists]
    rintro ⟨c, hc⟩
    obtain ⟨f, hf, hread⟩ := readable_of_javascript (P := P) hc
    rw [invalidKey_of_readFlag javascript_honest javascript_identifier_ne hf.1 hread] at hkey
    cases hkey
  have hp : Python.gateConfig P x = none := by
    rw [← Option.not_isSome_iff_eq_none, Option.isSome_iff_exists]
    rintro ⟨c, hc⟩
    obtain ⟨f, hf, hread⟩ := readable_of_python hc
    rw [invalidKey_of_readFlag (python_honest P) python_identifier_ne hf.1 hread] at hkey
    cases hkey
  have hex : JavaScript.extractInvalidFlagKey x = none := by
    rw [← Option.not_isSome_iff_eq_none, Option.isSome_iff_exists]
    rintro ⟨k, hk⟩
    rw [invalidKey_of_extract hk] at hkey
    cases hkey
  simp [JavaScript.outcome, Python.outcome, hj, hp, hex, hkey]

/-- A readable candidate with a key: the parsers make the same of it when no place divides them, or
when each has a place it refuses and JavaScript can name the key.

**Proof sketch.** JavaScript reads it unless a place is only for Python, and Python unless a place
is only for JavaScript. When both read it, they read the same unless JavaScript rounds a number. -/
lemma outcome_eq_iff_of_readable (hkey : Python.invalidKey x = some key) (hf : Readable P x f) :
    JavaScript.outcome x = Python.outcome P x ↔ Agrees P x := by
  rw [javascript_outcome hkey, python_outcome hkey]
  have hunique : ∀ g, Readable P x g → g = f := by
    intro g hg
    exact Option.some.inj (hg.1.symm.trans hf.1)
  -- JavaScript reads it unless a place is only for Python, and the other way round
  have hjs : (JavaScript.isFlagConfig x).isSome = true ↔
      ∀ l ∈ f.leaves, ¬ l.PythonOnly P := by
    rw [JavaScript.isFlagConfig_eq, hf.1, Option.bind_some, hf.readFlag_isSome javascript_honest]
    refine forall₂_congr fun l hl => ?_
    have := hf.2.2 l hl
    rw [pythonOnly_iff]
    tauto
  have hpy : (Python.gateConfig P x).isSome = true ↔ ∀ l ∈ f.leaves, ¬ l.JavaScriptOnly P := by
    rw [Python.gateConfig_eq, hf.1, Option.bind_some, hf.readFlag_isSome (python_honest P)]
    refine forall₂_congr fun l hl => ?_
    have := hf.2.2 l hl
    rw [javaScriptOnly_iff]
    tauto
  have hagrees : Agrees P x ↔
      (∀ l ∈ f.leaves, ¬ l.JavaScriptOnly P ∧ ¬ l.PythonOnly P ∧ ¬ l.Rounded) ∨
        (((∃ l ∈ f.leaves, l.JavaScriptOnly P) ∧ ∃ l ∈ f.leaves, l.PythonOnly P) ∧
          (JavaScript.extractInvalidFlagKey x).isSome = true) := by
    constructor
    · intro h
      rcases h key hkey with ⟨g, hg, hplaces⟩ | ⟨hboth, hname⟩
      · obtain rfl := hunique g hg
        exact .inl hplaces
      · exact .inr ⟨hboth f hf, hname⟩
    · rintro (hplaces | ⟨hboth, hname⟩) _ -
      · exact .inl ⟨f, hf, hplaces⟩
      · refine .inr ⟨fun g hg => ?_, hname⟩
        obtain rfl := hunique g hg
        exact hboth
  rw [hagrees]
  rcases hjc : JavaScript.isFlagConfig x with _ | c <;>
    rcases hpc : Python.gateConfig P x with _ | c' <;>
    simp only [hjc, hpc, Option.isSome_none, Option.isSome_some, Bool.false_eq_true, false_iff,
      true_iff, not_forall, not_not] at hjs hpy
  · -- both refuse it
    obtain ⟨l, hl, hlp⟩ := hjs
    obtain ⟨m, hm, hmj⟩ := hpy
    have hno : ¬ ∀ l ∈ f.leaves, ¬ l.JavaScriptOnly P ∧ ¬ l.PythonOnly P ∧ ¬ l.Rounded :=
      fun h => (h l hl).2.1 hlp
    have hboth : (∃ l ∈ f.leaves, l.JavaScriptOnly P) ∧ ∃ l ∈ f.leaves, l.PythonOnly P :=
      ⟨⟨m, hm, hmj⟩, ⟨l, hl, hlp⟩⟩
    simp only [hno, hboth, true_and, false_or]
    split_ifs with hname <;> simp [hname]
  · -- only Python reads it
    obtain ⟨l, hl, hlp⟩ := hjs
    refine iff_of_false (by split_ifs <;> simp) ?_
    rintro (hplaces | ⟨⟨⟨m, hm, hmj⟩, -⟩, -⟩)
    · exact (hplaces l hl).2.1 hlp
    · exact hpy m hm hmj
  · -- only JavaScript reads it
    obtain ⟨m, hm, hmj⟩ := hpy
    refine iff_of_false (by simp) ?_
    rintro (hplaces | ⟨⟨-, l, hl, hlp⟩, -⟩)
    · exact (hplaces m hm).1 hmj
    · exact hjs l hl hlp
  · -- both read it
    rw [JavaScript.isFlagConfig_eq, hf.1, Option.bind_some] at hjc
    rw [Python.gateConfig_eq, hf.1, Option.bind_some] at hpc
    have hno : ¬ ((∃ l ∈ f.leaves, l.JavaScriptOnly P) ∧ ∃ l ∈ f.leaves, l.PythonOnly P) := by
      rintro ⟨⟨l, hl, hlj⟩, -⟩
      exact hpy l hl hlj
    have htj := (hf.readFlag_isSome javascript_honest).1 (Option.isSome_iff_exists.2 ⟨c, hjc⟩)
    have htp := (hf.readFlag_isSome (python_honest P)).1 (Option.isSome_iff_exists.2 ⟨c', hpc⟩)
    simp only [hno, false_and, or_false, Outcome.flag.injEq, Dialect.readFlag_eq_iff hjc hpc]
    refine forall₂_congr fun l hl => ?_
    rw [sameAt_iff P (htj l hl) (htp l hl)]
    exact ⟨fun h => ⟨hpy l hl, hjs l hl, h⟩, fun h => h.2.2⟩

lemma outcome_eq_iff_of_not_readable
    (hkey : Python.invalidKey x = some key) (hreadable : ¬ ∃ f, Readable P x f) :
    JavaScript.outcome x = Python.outcome P x ↔ Agrees P x := by
  rw [javascript_outcome hkey, python_outcome hkey]
  have hj : JavaScript.isFlagConfig x = none := by
    rw [← Option.not_isSome_iff_eq_none, Option.isSome_iff_exists]
    rintro ⟨c, hc⟩
    obtain ⟨f, hf, -⟩ := readable_of_javascript (P := P) hc
    exact hreadable ⟨f, hf⟩
  have hp : Python.gateConfig P x = none := by
    rw [← Option.not_isSome_iff_eq_none, Option.isSome_iff_exists]
    rintro ⟨c, hc⟩
    obtain ⟨f, hf, -⟩ := readable_of_python hc
    exact hreadable ⟨f, hf⟩
  have hagrees : Agrees P x ↔ (JavaScript.extractInvalidFlagKey x).isSome = true := by
    constructor
    · intro h
      rcases h key hkey with ⟨f, hf, -⟩ | ⟨-, hname⟩
      · exact absurd ⟨f, hf⟩ hreadable
      · exact hname
    · intro hname _ _
      exact .inr ⟨fun f hf => absurd ⟨f, hf⟩ hreadable, hname⟩
  rw [hagrees, hj, hp]
  simp only
  split_ifs with hname <;> simp [hname]

theorem outcome_eq_iff (x : Doc) : JavaScript.outcome x = Python.outcome P x ↔ Agrees P x := by
  rcases hkey : Python.invalidKey x with _ | key
  · obtain ⟨hj, hp⟩ := unrecognized_of_keyless (P := P) hkey
    refine iff_of_true (hj.trans hp.symm) fun key hkey' => ?_
    rw [hkey] at hkey'
    cases hkey'
  by_cases hreadable : ∃ f, Readable P x f
  · obtain ⟨f, hf⟩ := hreadable
    exact outcome_eq_iff_of_readable hkey hf
  · exact outcome_eq_iff_of_not_readable hkey hreadable

end Candidates

/-! ## The loop -/

namespace Outcome

/-- The flag of an outcome. -/
def config : Outcome → Option ClientFlagConfig
  | .flag c => some c
  | _ => none

/-- The invalid key of an outcome. -/
def key : Outcome → Option Text
  | .invalid k => some k
  | _ => none

lemma ext_parts {a b : Outcome} (hc : a.config = b.config) (hk : a.key = b.key) : a = b := by
  cases a <;> cases b <;> simp_all [config, key]

end Outcome

lemma collect_eq (outcome : Doc → Outcome) (cs : List Doc) (r : ParseResult)
    (h : ∀ c ∈ cs, outcome c ≠ .unrecognized) :
    collect outcome cs r = some ⟨r.projectId,
      r.flags ++ cs.filterMap fun c => (outcome c).config,
      r.invalidKeys ++ cs.filterMap fun c => (outcome c).key⟩ := by
  induction cs generalizing r with
  | nil => simp [collect]
  | cons c cs ih =>
    have hrest : ∀ d ∈ cs, outcome d ≠ .unrecognized := fun d hd => h d (List.mem_cons_of_mem c hd)
    cases hc : outcome c with
    | flag config => simp [collect, hc, ih _ hrest, Outcome.config, Outcome.key]
    | invalid key => simp [collect, hc, ih _ hrest, Outcome.config, Outcome.key]
    | unrecognized => exact absurd hc (h c List.mem_cons_self)

lemma collect_eq_none {outcome : Doc → Outcome} {cs : List Doc} {c : Doc} (hc : c ∈ cs)
    (h : outcome c = .unrecognized) (r : ParseResult) : collect outcome cs r = none := by
  induction cs generalizing r with
  | nil => cases hc
  | cons d cs ih =>
    rcases List.mem_cons.1 hc with rfl | hmem
    · simp [collect, h]
    · cases hd : outcome d <;> simp [collect, hd, ih hmem]

lemma collect_congr {f g : Doc → Outcome} {cs : List Doc} (h : ∀ c ∈ cs, f c = g c)
    (r : ParseResult) : collect f cs r = collect g cs r := by
  induction cs generalizing r with
  | nil => rfl
  | cons c cs ih =>
    have hrest : ∀ d ∈ cs, f d = g d := fun d hd => h d (List.mem_cons_of_mem c hd)
    cases hc : g c <;> simp [collect, h c List.mem_cons_self, hc, ih hrest]

/-! ## Payloads -/

section Payloads

lemma isSchemaVersion_iff (d : Doc) :
    Python.isSchemaVersion (some d) = true ↔ d.toDouble = some 2 := by
  cases d with
  | int n =>
    simp only [Python.isSchemaVersion, decide_eq_true_eq, Doc.toDouble]
    exact (JavaScript.round_safe_iff (n := n) (k := 2) (by decide)).symm
  | float q => simp [Python.isSchemaVersion, Doc.toDouble]
  | _ => simp [Python.isSchemaVersion, Doc.toDouble]

variable {p : Doc}

lemma extractCandidates_iff {projectId : Text} {cs : List Doc} :
    JavaScript.extractCandidates p = some (projectId, cs) ↔
      Python.extractCandidates p = some (projectId, cs) ∧
        isIdentifier Text.unitLength projectId = true := by
  rcases p with _ | _ | _ | _ | _ | _ | fields
  case obj =>
    constructor
    · intro h
      obtain ⟨_, hfields, h⟩ := Traverse.of_bind h
      obtain rfl := Option.some.inj hfields
      obtain ⟨hkeys, h⟩ := Traverse.of_guard h
      obtain ⟨flags, hflags, h⟩ := Traverse.of_bind h
      obtain ⟨v, hv, h⟩ := Traverse.of_bind h
      obtain ⟨hv2, h⟩ := Traverse.of_guard h
      obtain ⟨pid, hpid, h⟩ := Traverse.of_bind h
      obtain ⟨rfl, rfl⟩ := Prod.mk.inj (Option.some.inj h)
      rw [hv2] at hv
      obtain ⟨d, hd, hv⟩ := Fields.read_eq_some_iff.1 hv
      obtain ⟨t, ht, hpid⟩ := Fields.read_eq_some_iff.1 hpid
      obtain ⟨htext, hident⟩ := Option.filter_eq_some_iff.1 hpid
      have hnil : pid ≠ [] := by
        rintro rfl
        exact absurd hident (by decide)
      refine ⟨?_, hident⟩
      refine Traverse.bind_intro rfl <| Traverse.guard_intro hkeys <| Traverse.guard_intro ?_ <|
        Traverse.bind_intro (Fields.read_eq_some_iff.2 ⟨t, ht, ?_⟩) <|
        Traverse.bind_intro hflags rfl
      · rw [hd]
        exact (isSchemaVersion_iff d).2 hv
      · rw [Python.nonEmptyStr, htext]
        simp [hnil]
    · rintro ⟨h, hident⟩
      obtain ⟨_, hfields, h⟩ := Traverse.of_bind h
      obtain rfl := Option.some.inj hfields
      obtain ⟨hkeys, h⟩ := Traverse.of_guard h
      obtain ⟨hversion, h⟩ := Traverse.of_guard h
      obtain ⟨pid, hpid, h⟩ := Traverse.of_bind h
      obtain ⟨flags, hflags, h⟩ := Traverse.of_bind h
      obtain ⟨rfl, rfl⟩ := Prod.mk.inj (Option.some.inj h)
      obtain ⟨t, ht, hpid⟩ := Fields.read_eq_some_iff.1 hpid
      obtain ⟨htext, -⟩ := Option.filter_eq_some_iff.1 hpid
      rcases hd : Fields.get fields "schema_version" with _ | d
      · rw [hd] at hversion
        cases hversion
      rw [hd] at hversion
      refine Traverse.bind_intro rfl <| Traverse.guard_intro hkeys <|
        Traverse.bind_intro hflags <|
        Traverse.bind_intro (Fields.read_eq_some_iff.2 ⟨d, hd, (isSchemaVersion_iff d).1 hversion⟩) <|
        Traverse.guard_intro rfl <|
        Traverse.bind_intro (Fields.read_eq_some_iff.2 ⟨t, ht, ?_⟩) rfl
      rw [JavaScript.isIdentifier, htext]
      simp [hident]
  all_goals exact iff_of_false (by rintro ⟨⟩) (by rintro ⟨⟨⟩, -⟩)

variable (P : Pydantic)

/-- The payloads on which the parsers agree: the envelope is refused by both, or a candidate has no
key, or the project identifier has at most 128 code units and they agree on every candidate. -/
def PayloadAgrees (p : Doc) : Prop :=
  ∀ projectId cs, Python.extractCandidates p = some (projectId, cs) →
    (∃ c ∈ cs, Python.invalidKey c = none) ∨
      (isIdentifier Text.unitLength projectId = true ∧ ∀ c ∈ cs, Agrees P c)

/-- They differ on at most one candidate of the payload. -/
def DiffersOnce (p : Doc) : Prop :=
  ∀ projectId cs, Python.extractCandidates p = some (projectId, cs) →
    cs.Pairwise fun c d => Agrees P c ∨ Agrees P d

variable {P}

lemma python_recognizes {c : Doc} (h : Python.invalidKey c ≠ none) :
    Python.outcome P c ≠ .unrecognized := by
  obtain ⟨key, hkey⟩ := Option.ne_none_iff_exists'.1 h
  rw [python_outcome hkey]
  split <;> simp

lemma parse_eq_of_payloadAgrees (h : PayloadAgrees P p) :
    JavaScript.parseFlagConfigResult p = Python.parseFlagConfigResult P p := by
  unfold JavaScript.parseFlagConfigResult Python.parseFlagConfigResult
  rcases hpy : Python.extractCandidates p with _ | ⟨pid, cs⟩
  · -- the envelope is refused by both
    rcases hjs : JavaScript.extractCandidates p with _ | ⟨pid, cs⟩
    · rfl
    · rw [(extractCandidates_iff.1 hjs).1] at hpy
      cases hpy
  rcases h pid cs hpy with ⟨c, hc, hkey⟩ | ⟨hident, hall⟩
  · obtain ⟨hj, hp⟩ := unrecognized_of_keyless (P := P) hkey
    have hnone : Python.parseFlagConfigResult P p = none := by
      unfold Python.parseFlagConfigResult
      rw [hpy]
      exact collect_eq_none hc hp _
    rcases hjs : JavaScript.extractCandidates p with _ | ⟨pid', cs'⟩
    · exact (collect_eq_none hc hp _).symm
    · obtain ⟨rfl, rfl⟩ := Prod.mk.inj (Option.some.inj
        ((extractCandidates_iff.1 hjs).1.symm.trans hpy))
      exact (collect_eq_none hc hj _).trans (collect_eq_none hc hp _).symm
  · rw [extractCandidates_iff.2 ⟨hpy, hident⟩]
    exact collect_congr (fun c hc => (outcome_eq_iff c).2 (hall c hc)) _

lemma filterMap_split {α : Type} {f g : Doc → Option α} {as bs : List Doc} {c : Doc}
    (has : ∀ d ∈ as, f d = g d) (hbs : ∀ d ∈ bs, f d = g d)
    (h : (as ++ c :: bs).filterMap f = (as ++ c :: bs).filterMap g) : f c = g c := by
  rw [List.filterMap_append, List.filterMap_append, List.filterMap_congr has,
    List.append_cancel_left_eq, List.filterMap_cons, List.filterMap_cons,
    List.filterMap_congr hbs] at h
  cases hf : f c <;> cases hg : g c <;> simp_all

/-- Where the parsers agree and differ on at most one candidate, the payload meets the condition.

**Proof sketch.** When every candidate has a key, Python returns a result, so JavaScript does and
the project identifier is within its bound. A candidate they differ on would stand alone, so the
flags and the keys before it and after it are the same in both results, and so are its own. -/
lemma payloadAgrees_of_parse_eq (honce : DiffersOnce P p)
    (h : JavaScript.parseFlagConfigResult p = Python.parseFlagConfigResult P p) :
    PayloadAgrees P p := by
  intro pid cs hpy
  by_cases hkeys : ∃ c ∈ cs, Python.invalidKey c = none
  · exact .inl hkeys
  have hrec : ∀ c ∈ cs, Python.outcome P c ≠ .unrecognized := by
    intro c hc
    exact python_recognizes fun hnone => hkeys ⟨c, hc, hnone⟩
  have hresult : Python.parseFlagConfigResult P p =
      collect (Python.outcome P) cs ⟨pid, [], []⟩ := by
    unfold Python.parseFlagConfigResult
    rw [hpy]
    rfl
  rw [hresult, collect_eq _ _ _ hrec] at h
  rcases hjs : JavaScript.extractCandidates p with _ | ⟨pid', cs'⟩
  · unfold JavaScript.parseFlagConfigResult at h
    rw [hjs] at h
    cases h
  obtain ⟨hpy', hident⟩ := extractCandidates_iff.1 hjs
  obtain ⟨rfl, rfl⟩ := Prod.mk.inj (Option.some.inj (hpy'.symm.trans hpy))
  have hjrec : ∀ c ∈ cs', JavaScript.outcome c ≠ .unrecognized := by
    intro c hc hun
    unfold JavaScript.parseFlagConfigResult at h
    rw [hjs] at h
    exact absurd ((collect_eq_none hc hun _).symm.trans h) (by simp)
  have hjresult : JavaScript.parseFlagConfigResult p =
      collect JavaScript.outcome cs' ⟨pid', [], []⟩ := by
    unfold JavaScript.parseFlagConfigResult
    rw [hjs]
    rfl
  rw [hjresult, collect_eq _ _ _ hjrec] at h
  simp only [List.nil_append, Option.some.injEq, ParseResult.mk.injEq, true_and] at h
  refine .inr ⟨hident, fun c hc => ?_⟩
  by_contra hdiff
  obtain ⟨as, bs, rfl⟩ := List.append_of_mem hc
  have hpair := honce pid' _ hpy'
  rw [List.pairwise_append, List.pairwise_cons] at hpair
  have hsame : ∀ d ∈ as ++ bs, JavaScript.outcome d = Python.outcome P d := by
    intro d hd
    refine (outcome_eq_iff d).2 ?_
    rcases List.mem_append.1 hd with hd | hd
    · exact (hpair.2.2 d hd c List.mem_cons_self).resolve_right hdiff
    · exact (hpair.2.1.1 d hd).resolve_left hdiff
  refine hdiff ((outcome_eq_iff c).1 (Outcome.ext_parts ?_ ?_))
  · exact filterMap_split (fun d hd => by rw [hsame d (List.mem_append_left bs hd)])
      (fun d hd => by rw [hsame d (List.mem_append_right as hd)]) h.1
  · exact filterMap_split (fun d hd => by rw [hsame d (List.mem_append_left bs hd)])
      (fun d hd => by rw [hsame d (List.mem_append_right as hd)]) h.2

/-- **When the two parsers agree.** A payload that meets `PayloadAgrees` gets the same result from
both: both refuse it, or both accept it with the same flags and the same invalid keys. A payload
that does not meet it, and on which they differ in a single candidate, gets different results. -/
theorem parsers_agree (P : Pydantic) (p : Doc) :
    (PayloadAgrees P p →
      JavaScript.parseFlagConfigResult p = Python.parseFlagConfigResult P p) ∧
    (DiffersOnce P p →
      JavaScript.parseFlagConfigResult p = Python.parseFlagConfigResult P p →
        PayloadAgrees P p) :=
  ⟨parse_eq_of_payloadAgrees, payloadAgrees_of_parse_eq⟩

/-- A `Pydantic` that converts nothing. -/
def plainPydantic : Pydantic where
  isStr := wellFormed
  bool := JavaScript.boolean
  percentage d := d.toDouble.filter inPercent
  isStr_of_wellFormed _ h := h
  bool_bool _ := rfl
  percentage_int _ := rfl
  percentage_float _ := rfl

/-- A payload with one record that has a key and nothing else. -/
def stubPayload : Doc :=
  .obj [(Text.ofString "schema_version", .int 2),
    (Text.ofString "project_id", .str (Text.ofString "demo")),
    (Text.ofString "flags", .arr [.obj [(Text.ofString "key", .str (Text.ofString "f"))]])]

/-- JavaScript refuses the payload, Python returns it with an invalid key. -/
theorem stub_divides_parsers :
    JavaScript.parseFlagConfigResult stubPayload = none ∧
      Python.parseFlagConfigResult plainPydantic stubPayload =
        some ⟨Text.ofString "demo", [], [Text.ofString "f"]⟩ := by
  decide +kernel

end Payloads

end Apdl.Flags.Wire
