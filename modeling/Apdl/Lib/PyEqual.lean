import Apdl.Lib.PyJson

set_option autoImplicit false

/-!
# Equality of Python values

`==` on the values of JSON documents: dictionaries are equal when they have the same keys with equal
values, whatever the order; `True` equals `1` and `1` equals `1.0`.

## Main results

* `PyJson.agree_present` — dictionaries built over the same keys that agree are the same, when their
  values are determined by what they agree with.
-/

namespace PyJson

open Doc (Fields)

/-- What an infinity counts as: more than any finite double, and no integer. -/
def infinity : ℚ := 2 ^ 1024 + 1 / 2

/-- The number a value is in a comparison. -/
def number : Doc → Option ℚ
  | .bool b => some (if b then 1 else 0)
  | .int n => some n
  | .float q =>
    match Double.round q with
    | some _ => some q
    | none => some (if 0 < q then infinity else -infinity)
  | _ => none

def equalNumber (d e : Doc) : Bool :=
  match number d, number e with
  | some p, some q => decide (p = q)
  | _, _ => false

mutual

/-- `==` on values of JSON documents. -/
def equal : Doc → Doc → Bool
  | .null, e => e.isNull
  | .bool b, e => equalNumber (.bool b) e
  | .int n, e => equalNumber (.int n) e
  | .float q, e => equalNumber (.float q) e
  | .str s, e =>
    match e with
    | .str t => decide (s = t)
    | _ => false
  | .arr ds, e =>
    match e with
    | .arr es => equalItems ds es
    | _ => false
  | .obj fs, e =>
    match e with
    | .obj gs => decide (fs.length = gs.length) && equalFields fs gs
    | _ => false

/-- The items of lists, in order. -/
def equalItems : List Doc → List Doc → Bool
  | [], [] => true
  | d :: ds, e :: es => equal d e && equalItems ds es
  | _, _ => false

/-- Every key of the first dictionary has an equal value in the second. -/
def equalFields : List (Text × Doc) → Fields → Bool
  | [], _ => true
  | (k, d) :: fs, gs =>
    (match get gs k with
      | some e => equal d e
      | none => false) && equalFields fs gs

end

/-! ## What equality determines -/

variable {d x : Doc} {s k : Text}

lemma eq_of_equal_str (h : equal d (.str s) = true) : d = .str s := by
  cases d with
  | str t =>
    simp only [equal, decide_eq_true_eq] at h
    rw [h]
  | _ => simp [equal, equalNumber, number, Doc.isNull] at h

lemma eq_of_equal_null (h : equal d .null = true) : d = .null := by
  cases d with
  | null => rfl
  | _ => simp [equal, equalNumber, number] at h

lemma number_of_equal {e : Doc} {q : ℚ} (he : number e = some q) (h : equal d e = true) :
    number d = some q := by
  have key : equalNumber d e = true → number d = some q := by
    intro hn
    unfold equalNumber at hn
    rw [he] at hn
    cases hd : number d with
    | none => simp [hd] at hn
    | some p =>
      rw [hd] at hn
      rw [of_decide_eq_true hn]
  cases d with
  | bool b => exact key h
  | int n => exact key h
  | float p => exact key h
  | null =>
    cases e with
    | null => cases he
    | _ => simp [equal, Doc.isNull] at h
  | str s =>
    cases e with
    | str t => cases he
    | _ => simp [equal] at h
  | arr ds =>
    cases e with
    | arr es => cases he
    | _ => simp [equal] at h
  | obj fs =>
    cases e with
    | obj gs => cases he
    | _ => simp [equal] at h

variable {gs : Fields}

lemma equalFields_iff {fs : Fields} :
    equalFields fs gs = true ↔ ∀ f ∈ fs, ∃ e, get gs f.1 = some e ∧ equal f.2 e = true := by
  induction fs with
  | nil => simp [equalFields]
  | cons f fs ih =>
    obtain ⟨k, d⟩ := f
    rw [equalFields, Bool.and_eq_true, ih, List.forall_mem_cons]
    refine and_congr ?_ Iff.rfl
    cases hk : get gs k <;> simp

lemma obj_of_equal_obj (h : equal d (.obj gs) = true) :
    ∃ fs, d = .obj fs ∧ fs.length = gs.length ∧
      ∀ f ∈ fs, ∃ e, get gs f.1 = some e ∧ equal f.2 e = true := by
  cases d with
  | obj fs =>
    simp only [equal, Bool.and_eq_true, decide_eq_true_eq, equalFields_iff] at h
    exact ⟨fs, rfl, h.1, h.2⟩
  | _ => simp [equal, equalNumber, number, Doc.isNull] at h

/-- Two values that are equal to one value that was read. -/
def Agree (x y : Doc) : Prop := ∃ u, parse u = .ok u ∧ equal u x = true ∧ equal u y = true

lemma Agree.str {t : Text} (h : Agree (.str s) (.str t)) : s = t := by
  obtain ⟨u, -, hs, ht⟩ := h
  have heq := (eq_of_equal_str hs).symm.trans (eq_of_equal_str ht)
  exact Doc.str.inj heq

lemma Agree.not_null_str : ¬ Agree .null (.str s) := by
  rintro ⟨u, -, hn, hs⟩
  cases (eq_of_equal_null hn).symm.trans (eq_of_equal_str hs)

lemma Agree.number {y : Doc} (h : Agree x y) {p q : ℚ} (hx : number x = some p)
    (hy : PyJson.number y = some q) : p = q := by
  obtain ⟨u, -, hux, huy⟩ := h
  have heq := (number_of_equal hx hux).symm.trans (number_of_equal hy huy)
  exact Option.some.inj heq

lemma Agree.not_null_number {p : ℚ} (hx : PyJson.number x = some p) :
    ¬ Agree .null x := by
  rintro ⟨u, -, hn, hux⟩
  rw [eq_of_equal_null hn] at hux
  cases number_of_equal hx hux

lemma Agree.symm {y : Doc} (h : Agree x y) : Agree y x := by
  obtain ⟨u, hu, hx, hy⟩ := h
  exact ⟨u, hu, hy, hx⟩

lemma exists_of_equal_obj {fs : Fields} (hf : (fs.map Prod.fst).Nodup)
    (hlen : fs.length = gs.length)
    (h : ∀ f ∈ fs, ∃ e, get gs f.1 = some e ∧ equal f.2 e = true) {e : Doc}
    (hk : get gs k = some e) : ∃ d, get fs k = some d ∧ equal d e = true := by
  have hsub : fs.map Prod.fst ⊆ gs.map Prod.fst := by
    intro x hx
    obtain ⟨f, hf', rfl⟩ := List.mem_map.1 hx
    obtain ⟨e', he', -⟩ := h f hf'
    exact List.mem_map.2 ⟨_, mem_of_get he', rfl⟩
  -- as many distinct keys in the first as in the second
  have hperm : (fs.map Prod.fst).Perm (gs.map Prod.fst) := by
    refine List.Subperm.perm_of_length_le (List.subperm_of_subset hf hsub) ?_
    rw [List.length_map, List.length_map, hlen]
  have hmem : k ∈ fs.map Prod.fst :=
    hperm.mem_iff.2 (List.mem_map.2 ⟨_, mem_of_get hk, rfl⟩)
  obtain ⟨f, hf', rfl⟩ := List.mem_map.1 hmem
  obtain ⟨e', he', heq⟩ := h f hf'
  obtain rfl : e' = e := Option.some.inj (he'.symm.trans hk)
  exact ⟨f.2, (get_eq_some_iff hf).2 hf', heq⟩

lemma Agree.get {hs : Fields} (h : Agree (.obj gs) (.obj hs)) {a : Doc}
    (ha : get gs k = some a) : ∃ b, PyJson.get hs k = some b ∧ Agree a b := by
  obtain ⟨u, hu, hug, huh⟩ := h
  obtain ⟨fs, rfl, hlen, hfg⟩ := obj_of_equal_obj hug
  obtain ⟨fs', heq, hlen', hfh⟩ := obj_of_equal_obj huh
  cases heq
  obtain ⟨hnodup, hfixed⟩ := fixed_of_parse_obj hu
  obtain ⟨d, hd, hda⟩ := exists_of_equal_obj hnodup hlen hfg ha
  obtain ⟨b, hb, hdb⟩ := hfh (k, d) (mem_of_get hd)
  exact ⟨b, hb, d, hfixed (k, d) (mem_of_get hd), hda, hdb⟩

/-! ## Dictionaries over a list of keys -/

/-- The fields whose value is there. -/
def present : List (Text × Option Doc) → Fields
  | [] => []
  | (k, some d) :: rest => (k, d) :: present rest
  | (_, none) :: rest => present rest

lemma keys_present (fields : List (Text × Option Doc)) :
    ((present fields).map Prod.fst).Sublist (fields.map Prod.fst) := by
  induction fields with
  | nil => exact List.Sublist.slnil
  | cons f fields ih =>
    obtain ⟨k, v⟩ := f
    cases v with
    | none => exact ih.cons k
    | some d => exact ih.cons_cons k

lemma mem_present {fields : List (Text × Option Doc)} :
    (k, d) ∈ present fields ↔ (k, some d) ∈ fields := by
  induction fields with
  | nil => simp [present]
  | cons f fields ih =>
    obtain ⟨l, v⟩ := f
    cases v with
    | none => simp [present, ih]
    | some e => simp [present, ih]

lemma eq_of_agree {xs ys : List (Text × Option Doc)} (hx : (xs.map Prod.fst).Nodup)
    (hy : (ys.map Prod.fst).Nodup) (h : Agree (.obj (present xs)) (.obj (present ys))) {a : Doc} {y : Option Doc} (ha : (k, some a) ∈ xs) (hb : (k, y) ∈ ys) :
    ∃ b, y = some b ∧ Agree a b := by
  have hxk := hx.sublist (keys_present xs)
  obtain ⟨b, hget, hab⟩ := h.get ((get_eq_some_iff hxk).2 (mem_present.2 ha))
  have hmem := mem_present.1 (mem_of_get hget)
  have hval := List.inj_on_of_nodup_map hy hb hmem rfl
  exact ⟨b, (Prod.mk.inj hval).2, hab⟩

theorem agree_present {keys : List Text} {xs ys : List (Option Doc)} (hkeys : keys.Nodup)
    (hx : xs.length = keys.length) (hy : ys.length = keys.length)
    (hleaf : List.Forall₂ (fun x y => ∀ a ∈ x, ∀ b ∈ y, Agree a b → a = b) xs ys)
    (h : Agree (.obj (present (keys.zip xs))) (.obj (present (keys.zip ys)))) : xs = ys := by
  have hfst : ∀ {zs : List (Option Doc)}, zs.length = keys.length →
      (keys.zip zs).map Prod.fst = keys :=
    fun hz => List.map_fst_zip (hz ▸ le_refl _)
  have hxs : ((keys.zip xs).map Prod.fst).Nodup := (hfst hx).symm ▸ hkeys
  have hys : ((keys.zip ys).map Prod.fst).Nodup := (hfst hy).symm ▸ hkeys
  -- position by position: the two values stand under one key
  refine List.ext_getElem (hx.trans hy.symm) fun i hi hi' => ?_
  have hik : i < keys.length := hx ▸ hi
  have hmx : (keys[i], xs[i]) ∈ keys.zip xs := by
    rw [List.mem_iff_getElem]
    exact ⟨i, by simp [hik, hi], by simp⟩
  have hmy : (keys[i], ys[i]) ∈ keys.zip ys := by
    rw [List.mem_iff_getElem]
    exact ⟨i, by simp [hik, hi'], by simp⟩
  have hrel := hleaf.get hi hi'
  simp only [List.get_eq_getElem] at hrel
  cases hxi : xs[i] with
  | none =>
    cases hyi : ys[i] with
    | none => rfl
    | some b =>
      rw [hxi] at hmx
      rw [hyi] at hmy
      obtain ⟨a, hnone, -⟩ := eq_of_agree hys hxs h.symm hmy hmx
      cases hnone
  | some a =>
    rw [hxi] at hmx
    obtain ⟨b, hyi, hab⟩ := eq_of_agree hxs hys h hmx hmy
    rw [hyi, hrel a hxi b hyi hab]

end PyJson
