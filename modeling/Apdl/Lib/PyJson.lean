import Apdl.Lib.Binary64
import Apdl.Lib.Check
import Apdl.Lib.Document

set_option autoImplicit false

/-!
# Python values of JSON documents

`json.loads` turns a document into a Python value and `json.dumps` writes a value as a document. A
value is again a `Doc`: its floats are doubles, where a literal beyond the range of the doubles
stands for an infinity, and its objects are dictionaries. With `allow_nan=False` and a hook that
refuses repeated keys the two are inverse on the values that have a document.

## Main results

* `PyJson.parse_parse` — what is read without options is read again as itself.

## Design

The lexical form of a document (white space, escapes, the digits of a number) is left out: a `Doc`
has the token structure. The sign of a zero is lost. `int` refuses literals of more than 4300
digits.
-/

namespace PyJson

open Doc (Fields)

/-- Why a document has no value. -/
inductive LoadError
  | duplicateKey (key : Text)
  /-- An integer literal has too many digits. -/
  | intTooLong
  deriving DecidableEq

/-- `sys.get_int_max_str_digits()`. -/
def maxIntDigits : ℕ := 4300

/-- The number of decimal digits of an integer. -/
def intDigits (n : ℤ) : ℕ := (Nat.toDigits 10 n.natAbs).length

/-- The first key that has occurred before. -/
def firstDuplicate : List Text → List Text → Option Text
  | _, [] => none
  | seen, k :: ks => if k ∈ seen then some k else firstDuplicate (seen ++ [k]) ks

/-- The `object_pairs_hook` that refuses repeated keys. -/
def fromPairs (fields : Fields) : Except LoadError Doc :=
  match firstDuplicate [] (fields.map Prod.fst) with
  | some key => .error (.duplicateKey key)
  | none => .ok (.obj fields)

mutual

def loads : Doc → Except LoadError Doc
  | .null => .ok .null
  | .bool b => .ok (.bool b)
  | .int n => if intDigits n ≤ maxIntDigits then .ok (.int n) else .error .intTooLong
  | .float q => .ok (.float (Doc.nearest q))
  | .str s => .ok (.str s)
  | .arr items => (loadItems items).map .arr
  | .obj fields => (loadFields fields).bind fromPairs

def loadItems : List Doc → Except LoadError (List Doc)
  | [] => .ok []
  | d :: ds => do
    let v ← loads d
    let vs ← loadItems ds
    .ok (v :: vs)

def loadFields : List (Text × Doc) → Except LoadError (List (Text × Doc))
  | [] => .ok []
  | (k, d) :: ds => do
    let v ← loads d
    let vs ← loadFields ds
    .ok ((k, v) :: vs)

end

mutual

/-- No float of the value is an infinity. -/
def finite : Doc → Bool
  | .float q => (Double.round q).isSome
  | .arr items => finiteItems items
  | .obj fields => finiteFields fields
  | _ => true

/-- No float of the items is an infinity. -/
def finiteItems : List Doc → Bool
  | [] => true
  | d :: ds => finite d && finiteItems ds

/-- No float of the fields is an infinity. -/
def finiteFields : List (Text × Doc) → Bool
  | [] => true
  | (_, d) :: ds => finite d && finiteFields ds

end

/-- `json.dumps(value, allow_nan=False)`; `none` when it raises `ValueError`. -/
def dumps (value : Doc) : Option Doc := if finite value then some value else none

mutual

/-- The value is the value of a document: integers of bounded length, floats that are doubles,
dictionaries without repeated keys. -/
def canonical : Doc → Bool
  | .int n => decide (intDigits n ≤ maxIntDigits)
  | .float q => decide (Double.round q = some q)
  | .arr items => canonicalItems items
  | .obj fields => decide (fields.map Prod.fst).Nodup && canonicalFields fields
  | _ => true

/-- The items are values of documents. -/
def canonicalItems : List Doc → Bool
  | [] => true
  | d :: ds => canonical d && canonicalItems ds

/-- The fields are values of documents. -/
def canonicalFields : List (Text × Doc) → Bool
  | [] => true
  | (_, d) :: ds => canonical d && canonicalFields ds

end

/-! ## Reading -/

lemma firstDuplicate_eq_none {seen ks : List Text} :
    firstDuplicate seen ks = none ↔ ks.Nodup ∧ ∀ k ∈ ks, k ∉ seen := by
  induction ks generalizing seen with
  | nil => simp [firstDuplicate]
  | cons k ks ih =>
    rw [firstDuplicate, List.nodup_cons, List.forall_mem_cons]
    by_cases hk : k ∈ seen
    · simp [hk]
    · rw [if_neg hk, ih]
      simp only [List.mem_append, List.mem_singleton, not_or]
      constructor
      · rintro ⟨hnodup, hnew⟩
        exact ⟨⟨fun hmem => (hnew k hmem).2 rfl, hnodup⟩, hk, fun x hx => (hnew x hx).1⟩
      · rintro ⟨⟨hnew, hnodup⟩, -, hseen⟩
        exact ⟨hnodup, fun x hx => ⟨hseen x hx, fun heq => hnew (heq ▸ hx)⟩⟩

variable {fields : Fields} {v : Doc}

lemma fromPairs_eq_ok :
    fromPairs fields = .ok v ↔ (fields.map Prod.fst).Nodup ∧ v = .obj fields := by
  have hiff := @firstDuplicate_eq_none [] (fields.map Prod.fst)
  unfold fromPairs
  cases h : firstDuplicate [] (fields.map Prod.fst) with
  | some key =>
    have hdup : ¬ (fields.map Prod.fst).Nodup := fun hnodup => by
      simp [h] at hiff
      exact hiff hnodup
    simp [hdup]
  | none =>
    have hnodup : (fields.map Prod.fst).Nodup := (hiff.1 h).1
    simp [hnodup, eq_comm]

mutual

theorem canonical_of_loads : ∀ {d v : Doc}, loads d = .ok v → finite v = true → canonical v = true
  | .null, _, h, _ => by cases h; rfl
  | .bool _, _, h, _ => by cases h; rfl
  | .int n, _, h, _ => by
    simp only [loads] at h
    split at h
    · rename_i hlen
      cases h
      simpa [canonical] using hlen
    · cases h
  | .float q, _, h, hf => by
    cases h
    rcases hq : Double.round q with _ | r
    · simp [finite, Doc.nearest, hq] at hf
    · simp [canonical, Doc.nearest, hq, Double.round_round hq]
  | .str _, _, h, _ => by cases h; rfl
  | .arr items, _, h, hf => by
    simp only [loads] at h
    cases hitems : loadItems items with
    | error e =>
      rw [hitems] at h
      cases h
    | ok vs =>
      rw [hitems] at h
      cases h
      exact canonicalItems_of_loads hitems hf
  | .obj fields, _, h, hf => by
    simp only [loads] at h
    cases hfields : loadFields fields with
    | error e =>
      rw [hfields] at h
      cases h
    | ok vs =>
      rw [hfields] at h
      obtain ⟨hnodup, rfl⟩ := fromPairs_eq_ok.1 h
      simp only [canonical, Bool.and_eq_true, decide_eq_true_eq]
      exact ⟨hnodup, canonicalFields_of_loads hfields hf⟩

theorem canonicalItems_of_loads : ∀ {ds vs : List Doc}, loadItems ds = .ok vs →
    finiteItems vs = true → canonicalItems vs = true
  | [], _, h, _ => by cases h; rfl
  | d :: ds, _, h, hf => by
    simp only [loadItems, Check.bind_eq_ok] at h
    obtain ⟨v, hv, vs, hvs, h⟩ := h
    cases h
    simp only [finiteItems, canonicalItems, Bool.and_eq_true] at hf ⊢
    exact ⟨canonical_of_loads hv hf.1, canonicalItems_of_loads hvs hf.2⟩

theorem canonicalFields_of_loads : ∀ {ds vs : List (Text × Doc)}, loadFields ds = .ok vs →
    finiteFields vs = true → canonicalFields vs = true
  | [], _, h, _ => by cases h; rfl
  | (k, d) :: ds, _, h, hf => by
    simp only [loadFields, Check.bind_eq_ok] at h
    obtain ⟨v, hv, vs, hvs, h⟩ := h
    cases h
    simp only [finiteFields, canonicalFields, Bool.and_eq_true] at hf ⊢
    exact ⟨canonical_of_loads hv hf.1, canonicalFields_of_loads hvs hf.2⟩

end

lemma exists_loads_of_mem_items {ds vs : List Doc} (h : loadItems ds = .ok vs) :
    ∀ v ∈ vs, ∃ d, loads d = .ok v := by
  induction ds generalizing vs with
  | nil =>
    cases h
    simp
  | cons d ds ih =>
    simp only [loadItems, Check.bind_eq_ok] at h
    obtain ⟨v, hv, vs', hvs, h⟩ := h
    cases h
    rw [List.forall_mem_cons]
    exact ⟨⟨d, hv⟩, ih hvs⟩

lemma exists_loads_of_mem_fields {ds vs : Fields} (h : loadFields ds = .ok vs) :
    ∀ f ∈ vs, ∃ d, loads d = .ok f.2 := by
  induction ds generalizing vs with
  | nil =>
    cases h
    simp
  | cons f ds ih =>
    obtain ⟨k, d⟩ := f
    simp only [loadFields, Check.bind_eq_ok] at h
    obtain ⟨v, hv, vs', hvs, h⟩ := h
    cases h
    rw [List.forall_mem_cons]
    exact ⟨⟨d, hv⟩, ih hvs⟩

lemma loads_arr {d : Doc} {vs : List Doc} (h : loads d = .ok (.arr vs)) :
    ∀ v ∈ vs, ∃ e, loads e = .ok v := by
  cases d with
  | arr ds =>
    simp only [loads] at h
    cases hitems : loadItems ds with
    | error e =>
      rw [hitems] at h
      cases h
    | ok us =>
      rw [hitems] at h
      cases h
      exact exists_loads_of_mem_items hitems
  | obj ds =>
    simp only [loads] at h
    cases hfields : loadFields ds with
    | error e =>
      rw [hfields] at h
      cases h
    | ok us =>
      rw [hfields] at h
      obtain ⟨-, heq⟩ := fromPairs_eq_ok.1 h
      cases heq
  | int n =>
    simp only [loads] at h
    split at h <;> cases h
  | _ => cases h

lemma loads_obj {d : Doc} {vs : Fields} (h : loads d = .ok (.obj vs)) :
    (vs.map Prod.fst).Nodup ∧ ∀ f ∈ vs, ∃ e, loads e = .ok f.2 := by
  cases d with
  | obj ds =>
    simp only [loads] at h
    cases hfields : loadFields ds with
    | error e =>
      rw [hfields] at h
      cases h
    | ok us =>
      rw [hfields] at h
      obtain ⟨hnodup, heq⟩ := fromPairs_eq_ok.1 h
      cases heq
      exact ⟨hnodup, exists_loads_of_mem_fields hfields⟩
  | arr ds =>
    simp only [loads] at h
    cases hitems : loadItems ds with
    | error e =>
      rw [hitems] at h
      cases h
    | ok us =>
      rw [hitems] at h
      cases h
  | int n =>
    simp only [loads] at h
    split at h <;> cases h
  | _ => cases h

/-! ## Writing and reading back -/

mutual

theorem loads_of_canonical : ∀ {v : Doc}, canonical v = true → loads v = .ok v
  | .null, _ => rfl
  | .bool _, _ => rfl
  | .int n, h => by
    simp only [canonical, decide_eq_true_eq] at h
    simp [loads, h]
  | .float q, h => by
    simp only [canonical, decide_eq_true_eq] at h
    simp [loads, Doc.nearest, h]
  | .str _, _ => rfl
  | .arr items, h => by
    rw [loads, loadItems_of_canonical h]
    rfl
  | .obj fields, h => by
    simp only [canonical, Bool.and_eq_true, decide_eq_true_eq] at h
    rw [loads, loadFields_of_canonical h.2]
    exact fromPairs_eq_ok.2 ⟨h.1, rfl⟩

theorem loadItems_of_canonical : ∀ {vs : List Doc}, canonicalItems vs = true →
    loadItems vs = .ok vs
  | [], _ => rfl
  | v :: vs, h => by
    simp only [canonicalItems, Bool.and_eq_true] at h
    rw [loadItems, loads_of_canonical h.1, loadItems_of_canonical h.2]
    rfl

theorem loadFields_of_canonical : ∀ {vs : List (Text × Doc)}, canonicalFields vs = true →
    loadFields vs = .ok vs
  | [], _ => rfl
  | (k, v) :: vs, h => by
    simp only [canonicalFields, Bool.and_eq_true] at h
    rw [loadFields, loads_of_canonical h.1, loadFields_of_canonical h.2]
    rfl

end

mutual

theorem finite_of_canonical : ∀ {v : Doc}, canonical v = true → finite v = true
  | .null, _ => rfl
  | .bool _, _ => rfl
  | .int _, _ => rfl
  | .float q, h => by
    simp only [canonical, decide_eq_true_eq] at h
    simp [finite, h]
  | .str _, _ => rfl
  | .arr items, h => finiteItems_of_canonical h
  | .obj fields, h => by
    simp only [canonical, Bool.and_eq_true] at h
    exact finiteFields_of_canonical h.2

theorem finiteItems_of_canonical : ∀ {vs : List Doc}, canonicalItems vs = true →
    finiteItems vs = true
  | [], _ => rfl
  | v :: vs, h => by
    simp only [canonicalItems, finiteItems, Bool.and_eq_true] at h ⊢
    exact ⟨finite_of_canonical h.1, finiteItems_of_canonical h.2⟩

theorem finiteFields_of_canonical : ∀ {vs : List (Text × Doc)}, canonicalFields vs = true →
    finiteFields vs = true
  | [], _ => rfl
  | (k, v) :: vs, h => by
    simp only [canonicalFields, finiteFields, Bool.and_eq_true] at h ⊢
    exact ⟨finite_of_canonical h.1, finiteFields_of_canonical h.2⟩

end

lemma dumps_of_canonical (h : canonical v = true) : dumps v = some v :=
  if_pos (finite_of_canonical h)

/-! ## Dictionaries -/

lemma canonicalFields_iff :
    canonicalFields fields = true ↔ ∀ f ∈ fields, canonical f.2 = true := by
  induction fields with
  | nil => simp [canonicalFields]
  | cons f fs ih =>
    obtain ⟨k, d⟩ := f
    simp [canonicalFields, ih]

lemma canonical_obj_iff : canonical (.obj fields) = true ↔
    (fields.map Prod.fst).Nodup ∧ ∀ f ∈ fields, canonical f.2 = true := by
  rw [canonical, Bool.and_eq_true, decide_eq_true_eq, canonicalFields_iff]

lemma canonical_filter (h : canonical (.obj fields) = true)
    (p : Text × Doc → Bool) : canonical (.obj (fields.filter p)) = true := by
  obtain ⟨hnodup, hvalues⟩ := canonical_obj_iff.1 h
  refine canonical_obj_iff.2 ⟨?_, fun f hf => hvalues f (List.mem_of_mem_filter hf)⟩
  exact hnodup.sublist (List.filter_sublist.map Prod.fst)

/-- `fields[key] = value`: a key that is there keeps its place. -/
def set (fields : Fields) (key : Text) (value : Doc) : Fields :=
  if key ∈ fields.map Prod.fst then
    fields.map fun f => if f.1 = key then (key, value) else f
  else fields ++ [(key, value)]

lemma keys_set (fields : Fields) (key : Text) (value : Doc) :
    (set fields key value).map Prod.fst =
      if key ∈ fields.map Prod.fst then fields.map Prod.fst
      else fields.map Prod.fst ++ [key] := by
  unfold set
  split_ifs with h
  · rw [List.map_map]
    refine List.map_congr_left fun f _ => ?_
    by_cases hf : f.1 = key <;> simp [hf]
  · simp

lemma nodup_keys_set (h : (fields.map Prod.fst).Nodup) (key : Text)
    (value : Doc) : ((set fields key value).map Prod.fst).Nodup := by
  rw [keys_set]
  split_ifs with hmem
  · exact h
  · exact h.append (List.nodup_singleton key) (by simpa using hmem)

variable {key : Text}

lemma mem_set {value : Doc} {f : Text × Doc}
    (h : f ∈ set fields key value) : f = (key, value) ∨ f ∈ fields := by
  unfold set at h
  split_ifs at h with hmem
  · obtain ⟨g, hg, rfl⟩ := List.mem_map.1 h
    split_ifs
    · exact .inl rfl
    · exact .inr hg
  · rcases List.mem_append.1 h with hold | hnew
    · exact .inr hold
    · exact .inl (List.mem_singleton.1 hnew)

theorem canonical_set {value : Doc}
    (h : canonical (.obj fields) = true) (hv : canonical value = true) :
    canonical (.obj (set fields key value)) = true := by
  obtain ⟨hnodup, hvalues⟩ := canonical_obj_iff.1 h
  refine canonical_obj_iff.2 ⟨nodup_keys_set hnodup key value, fun f hf => ?_⟩
  rcases mem_set hf with rfl | hold
  · exact hv
  · exact hvalues f hold

/-- The value of a key. -/
def get (fields : Fields) (key : Text) : Option Doc := fields.reverse.lookup key

lemma fieldsGet_eq (fields : Fields) (name : String) :
    fields.get name = get fields (Text.ofString name) := rfl

lemma mem_of_get (h : get fields key = some v) : (key, v) ∈ fields := by
  obtain ⟨l₁, l₂, heq, -⟩ := List.lookup_eq_some_iff.1 h
  rw [← List.mem_reverse, heq]
  simp

lemma get_eq_some_iff (h : (fields.map Prod.fst).Nodup) :
    get fields key = some v ↔ (key, v) ∈ fields := by
  have hrev : (fields.reverse.map Prod.fst).Nodup := by
    rw [List.map_reverse]
    exact List.nodup_reverse.2 h
  unfold get
  rw [← List.mem_reverse]
  generalize fields.reverse = l at hrev
  induction l with
  | nil => simp
  | cons f l ih =>
    obtain ⟨k, d⟩ := f
    obtain ⟨hk, hl⟩ := List.nodup_cons.1 hrev
    rw [List.lookup_cons]
    by_cases hkey : key = k
    · subst hkey
      have hnot : (key, v) ∉ l := fun hmem => hk (List.mem_map.2 ⟨_, hmem, rfl⟩)
      simp [hnot, eq_comm]
    · have hbeq : (key == k) = false := by simpa using hkey
      simp [hbeq, ih hl, hkey]

lemma get_eq_none_iff :
    get fields key = none ↔ key ∉ fields.map Prod.fst := by
  unfold get
  rw [List.lookup_eq_none_iff]
  simp only [List.mem_reverse, bne_iff_ne, ne_eq, List.mem_map, not_exists, not_and]
  exact ⟨fun h f hf heq => h f hf heq.symm, fun h f hf heq => h f hf heq.symm⟩

theorem get_set (h : (fields.map Prod.fst).Nodup) (key k : Text) (value : Doc) :
    get (set fields key value) k = if k = key then some value else get fields k := by
  have hnodup := nodup_keys_set h key value
  refine Option.ext fun v => ?_
  rw [get_eq_some_iff hnodup]
  unfold set
  split_ifs with hmem hk hk
  · -- the key is there and is asked for
    subst hk
    simp only [List.mem_map, Option.some.injEq]
    constructor
    · rintro ⟨f, hf, heq⟩
      split_ifs at heq with hfk
      · exact (Prod.mk.inj heq).2
      · exact absurd (congrArg Prod.fst heq) hfk
    · rintro rfl
      obtain ⟨f, hf, hfk⟩ := List.mem_map.1 hmem
      exact ⟨f, hf, by rw [if_pos hfk]⟩
  · -- another key keeps its value
    rw [get_eq_some_iff h]
    simp only [List.mem_map]
    constructor
    · rintro ⟨f, hf, heq⟩
      split_ifs at heq with hfk
      · exact absurd (Prod.mk.inj heq).1.symm hk
      · rwa [← heq]
    · intro hf
      exact ⟨_, hf, if_neg hk⟩
  · subst hk
    have hnot : (k, v) ∉ fields := fun hf => hmem (List.mem_map.2 ⟨_, hf, rfl⟩)
    simp [hnot, eq_comm]
  · rw [get_eq_some_iff h]
    simp [hk]

/-! ## Reading without options -/

/-- The dictionary of a list of pairs: of repeated keys the last value counts. -/
def dictOf (fields : Fields) : Fields := fields.foldl (fun acc f => set acc f.1 f.2) []

mutual

/-- `json.loads` without options: repeated keys are accepted. -/
def parse : Doc → Except LoadError Doc
  | .null => .ok .null
  | .bool b => .ok (.bool b)
  | .int n => if intDigits n ≤ maxIntDigits then .ok (.int n) else .error .intTooLong
  | .float q => .ok (.float (Doc.nearest q))
  | .str s => .ok (.str s)
  | .arr items => (parseItems items).map .arr
  | .obj fields => (parseFields fields).map fun values => .obj (dictOf values)

def parseItems : List Doc → Except LoadError (List Doc)
  | [] => .ok []
  | d :: ds => do
    let v ← parse d
    let vs ← parseItems ds
    .ok (v :: vs)

def parseFields : List (Text × Doc) → Except LoadError (List (Text × Doc))
  | [] => .ok []
  | (k, d) :: ds => do
    let v ← parse d
    let vs ← parseFields ds
    .ok ((k, v) :: vs)

end

lemma foldl_set {acc : Fields} (h : ((acc ++ fields).map Prod.fst).Nodup) :
    fields.foldl (fun acc f => set acc f.1 f.2) acc = acc ++ fields := by
  induction fields generalizing acc with
  | nil => simp
  | cons f fs ih =>
    have hnew : f.1 ∉ acc.map Prod.fst := by
      rw [List.map_append, List.map_cons] at h
      exact fun hmem => List.disjoint_of_nodup_append h hmem List.mem_cons_self
    rw [List.foldl_cons, set, if_neg hnew, ih (by simpa using h)]
    simp

lemma dictOf_of_nodup (h : (fields.map Prod.fst).Nodup) :
    dictOf fields = fields := by
  rw [dictOf, foldl_set (by simpa using h), List.nil_append]

lemma dictOf_spec (fields : Fields) :
    ((dictOf fields).map Prod.fst).Nodup ∧ ∀ f ∈ dictOf fields, f ∈ fields := by
  have key : ∀ (fs acc : Fields), (acc.map Prod.fst).Nodup →
      ((fs.foldl (fun acc f => set acc f.1 f.2) acc).map Prod.fst).Nodup ∧
        ∀ f ∈ fs.foldl (fun acc f => set acc f.1 f.2) acc, f ∈ acc ∨ f ∈ fs := by
    intro fs
    induction fs with
    | nil => exact fun acc h => ⟨h, fun f hf => .inl hf⟩
    | cons g fs ih =>
      intro acc h
      obtain ⟨hnodup, hmem⟩ := ih (set acc g.1 g.2) (nodup_keys_set h g.1 g.2)
      refine ⟨hnodup, fun f hf => ?_⟩
      rcases hmem f hf with hset | hrest
      · rcases mem_set hset with rfl | hacc
        · exact .inr List.mem_cons_self
        · exact .inl hacc
      · exact .inr (List.mem_cons_of_mem g hrest)
  obtain ⟨hnodup, hmem⟩ := key fields [] List.nodup_nil
  exact ⟨hnodup, fun f hf => (hmem f hf).resolve_left List.not_mem_nil⟩

lemma parseItems_of_fixed {items : List Doc} (h : ∀ d ∈ items, parse d = .ok d) :
    parseItems items = .ok items := by
  induction items with
  | nil => rfl
  | cons d ds ih =>
    obtain ⟨hd, hds⟩ := List.forall_mem_cons.1 h
    rw [parseItems, hd, ih hds]
    rfl

lemma parseFields_of_fixed (h : ∀ f ∈ fields, parse f.2 = .ok f.2) :
    parseFields fields = .ok fields := by
  induction fields with
  | nil => rfl
  | cons f fs ih =>
    obtain ⟨hf, hfs⟩ := List.forall_mem_cons.1 h
    rw [parseFields, hf, ih hfs]
    rfl

lemma parse_obj_of_fixed (hnodup : (fields.map Prod.fst).Nodup)
    (h : ∀ f ∈ fields, parse f.2 = .ok f.2) : parse (.obj fields) = .ok (.obj fields) := by
  rw [parse, parseFields_of_fixed h]
  exact congrArg Except.ok (congrArg Doc.obj (dictOf_of_nodup hnodup))

mutual

theorem parse_parse : ∀ {d v : Doc}, parse d = .ok v → parse v = .ok v
  | .null, _, h => by cases h; rfl
  | .bool _, _, h => by cases h; rfl
  | .int n, _, h => by
    simp only [parse] at h
    split at h
    · rename_i hlen
      cases h
      simp [parse, hlen]
    · cases h
  | .float q, _, h => by
    cases h
    rcases hq : Double.round q with _ | r
    · simp [parse, Doc.nearest, hq]
    · simp [parse, Doc.nearest, hq, Double.round_round hq]
  | .str _, _, h => by cases h; rfl
  | .arr items, _, h => by
    simp only [parse] at h
    cases hitems : parseItems items with
    | error e =>
      rw [hitems] at h
      cases h
    | ok vs =>
      rw [hitems] at h
      cases h
      rw [parse, parseItems_of_fixed (parseItems_parse hitems)]
      rfl
  | .obj fields, _, h => by
    simp only [parse] at h
    cases hfields : parseFields fields with
    | error e =>
      rw [hfields] at h
      cases h
    | ok vs =>
      rw [hfields] at h
      cases h
      obtain ⟨hnodup, hmem⟩ := dictOf_spec vs
      exact parse_obj_of_fixed hnodup fun f hf => parseFields_parse hfields f (hmem f hf)

theorem parseItems_parse : ∀ {ds vs : List Doc}, parseItems ds = .ok vs →
    ∀ v ∈ vs, parse v = .ok v
  | [], _, h => by
    cases h
    simp
  | d :: ds, _, h => by
    simp only [parseItems, Check.bind_eq_ok] at h
    obtain ⟨v, hv, vs, hvs, h⟩ := h
    cases h
    exact List.forall_mem_cons.2 ⟨parse_parse hv, parseItems_parse hvs⟩

theorem parseFields_parse : ∀ {ds vs : List (Text × Doc)}, parseFields ds = .ok vs →
    ∀ f ∈ vs, parse f.2 = .ok f.2
  | [], _, h => by
    cases h
    simp
  | (k, d) :: ds, _, h => by
    simp only [parseFields, Check.bind_eq_ok] at h
    obtain ⟨v, hv, vs, hvs, h⟩ := h
    cases h
    exact List.forall_mem_cons.2 ⟨parse_parse hv, parseFields_parse hvs⟩

end

lemma fixed_of_parse_obj (h : parse (.obj fields) = .ok (.obj fields)) :
    (fields.map Prod.fst).Nodup ∧ ∀ f ∈ fields, parse f.2 = .ok f.2 := by
  simp only [parse] at h
  cases hfields : parseFields fields with
  | error e =>
    rw [hfields] at h
    cases h
  | ok values =>
    rw [hfields] at h
    have heq : dictOf values = fields := by simpa [Except.map] using h
    obtain ⟨hnodup, hmem⟩ := dictOf_spec values
    rw [heq] at hnodup hmem
    exact ⟨hnodup, fun f hf => parseFields_parse hfields f (hmem f hf)⟩

end PyJson
