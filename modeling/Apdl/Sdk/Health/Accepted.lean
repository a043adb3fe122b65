import Apdl.Ingest.Contract
import Apdl.Lib.PyJson
import Apdl.Sdk.Health.Capture

set_option autoImplicit false

/-!
# Whether captured health events pass ingestion

Ingestion requires every property of `$frontend_error` and `$web_vital` and refuses any other
(`validation/schema.py`). The sanitizer leaves out a property that it does not copy, so an event is
accepted only if every property was copied. The capture truncates the message and the stack to what is
copied; it bounds none of the other texts.

## Main results

* `long_component_refused` — a component whose name is too long.
-/

namespace Apdl.Sdk.Health

open Apdl.Ingest
open Doc (Fields)
open Text (ofString)

/-- The rules for the properties of `_validate_frontend_error_event` and `_validate_web_vital_event`. -/
def propertyErrors (event : Text) (properties : Fields) (path : Text) : Except Raised (List FieldError) :=
  if event = frontendErrorEvent then
    (validateFrontendErrorTypes properties path).map
      (keyErrors properties path frontendErrorKeys "frontend error" ++ ·)
  else if event = webVitalEvent then
    (validateWebVitalTypes properties path).map
      (keyErrors properties path Ingest.webVitalKeys "web vital" ++ ·)
  else .ok []

/-! ## What was assigned -/

/-- What ingestion reads of the properties that were assigned. -/
def docOf (as : List Assignment) : Fields := stringifyFields (assigned as)

lemma stringifyFields_eq (fields : List (Text × JsValue)) :
    stringifyFields fields = fields.map fun f => (f.1, f.2.stringify) := by
  induction fields with
  | nil => rfl
  | cons f fs ih => rw [stringifyFields, ih, List.map_cons]

variable {as : List Assignment} {d : Doc}

lemma mem_docOf {k : Text} :
    (k, d) ∈ docOf as ↔ ∃ a ∈ as, ∃ v, a.2 = some v ∧ k = ofString a.1 ∧ d = v.stringify := by
  rw [docOf, stringifyFields_eq]
  constructor
  · intro h
    obtain ⟨f, hf, heq⟩ := List.mem_map.1 h
    obtain ⟨a, ha, hassigned⟩ := List.mem_filterMap.1 hf
    obtain ⟨v, hv, rfl⟩ := Option.map_eq_some_iff.1 hassigned
    obtain ⟨rfl, rfl⟩ := Prod.mk.inj heq
    exact ⟨a, ha, v, hv, rfl, rfl⟩
  · rintro ⟨a, ha, v, hv, rfl, rfl⟩
    exact List.mem_map.2 ⟨(ofString a.1, v), List.mem_filterMap.2 ⟨a, ha, by rw [hv]; rfl⟩, rfl⟩

/-- The keys of a list of assignments. -/
def assignedKeys (as : List Assignment) : List Text := as.map fun a => ofString a.1

lemma keys_docOf_sublist (as : List Assignment) : (keys (docOf as)).Sublist (assignedKeys as) := by
  rw [docOf, stringifyFields_eq, keys, List.map_map]
  induction as with
  | nil => exact List.Sublist.slnil
  | cons a as ih =>
    obtain ⟨key, value⟩ := a
    cases value with
    | none => exact ih.cons _
    | some v => exact ih.cons_cons _

variable {a : Assignment}

lemma get_docOf (hnodup : (assignedKeys as).Nodup) (ha : a ∈ as) :
    (docOf as).get a.1 = a.2.map JsValue.stringify := by
  have hkeys : ((docOf as).map Prod.fst).Nodup := (keys_docOf_sublist as).nodup hnodup
  rw [PyJson.fieldsGet_eq]
  cases hvalue : a.2 with
  | some v => exact (PyJson.get_eq_some_iff hkeys).2 (mem_docOf.2 ⟨a, ha, v, hvalue, rfl, rfl⟩)
  | none =>
    refine PyJson.get_eq_none_iff.2 fun hmem => ?_
    obtain ⟨⟨k, d⟩, hf, hk⟩ := List.mem_map.1 hmem
    obtain ⟨b, hb, v, hv, hkb, -⟩ := mem_docOf.1 hf
    -- no two assignments are to one key
    have hab : b = a := List.inj_on_of_nodup_map hnodup hb ha (hkb.symm.trans hk)
    rw [hab, hvalue] at hv
    exact nomatch hv

/-- **The keys are accepted exactly when everything was assigned.** -/
lemma keyErrors_docOf {path : Text} {allowed : List String} {name : String}
    (hnodup : (assignedKeys as).Nodup) (hallowed : ∀ k, k ∈ allowed.map ofString ↔ k ∈ assignedKeys as) :
    keyErrors (docOf as) path allowed name = [] ↔ ∀ a ∈ as, a.2.isSome = true := by
  rw [keyErrors_eq_nil_iff]
  constructor
  · rintro ⟨hrequired, -⟩ a ha
    obtain ⟨key, hkey, heq⟩ := List.mem_map.1 ((hallowed _).2 (List.mem_map.2 ⟨a, ha, rfl⟩))
    have hmem := has_eq_true_iff.1 (hrequired key hkey)
    have hget := get_docOf hnodup ha
    cases hvalue : a.2 with
    | some v => rfl
    | none =>
      rw [hvalue, Option.map_none, PyJson.fieldsGet_eq, ← heq] at hget
      exact absurd hmem (PyJson.get_eq_none_iff.1 hget)
  · intro h
    refine ⟨fun key hkey => has_eq_true_iff.2 ?_, fun f hf =>
      (hallowed f.1).2 ((keys_docOf_sublist as).mem (List.mem_map_of_mem hf))⟩
    obtain ⟨a, ha, heq⟩ := List.mem_map.1 ((hallowed _).1 (List.mem_map_of_mem hkey))
    obtain ⟨v, hv⟩ := Option.isSome_iff_exists.1 (h a ha)
    exact List.mem_map.2 ⟨_, mem_docOf.2 ⟨a, ha, v, hv, heq.symm, rfl⟩, rfl⟩

/-! ## The shape of what is copied -/

variable {parseUrl : Text → Option Url} {source : Record} {key : String} {v : JsValue}

lemma copyEnum_shape {allowed : List Text} (h : (copyEnum source key allowed).2 = some v) :
    ∃ t ∈ allowed, v = .string t := by
  unfold copyEnum at h
  dsimp only at h
  split at h
  · next t _ =>
    split_ifs at h with hallowed
    exact ⟨t, List.contains_iff_mem.1 hallowed, (Option.some.inj h).symm⟩
  · exact nomatch h

lemma copyBoundedString_shape {maxLength : ℕ} {stripUrls : Bool}
    (h : (copyBoundedString parseUrl source key maxLength stripUrls).2 = some v) :
    ∃ t, v = .string t := by
  unfold copyBoundedString at h
  dsimp only at h
  split at h
  · split_ifs at h
    · exact ⟨_, (Option.some.inj h).symm⟩
    · exact ⟨_, (Option.some.inj h).symm⟩
  · exact nomatch h

lemma copySanitizedPath_shape (h : (copySanitizedPath source key).2 = some v) : ∃ t, v = .string t := by
  obtain ⟨t, -, rfl⟩ := Option.map_eq_some_iff.1 h
  exact ⟨t, rfl⟩

lemma copySanitizedUrlLike_shape (h : (copySanitizedUrlLike parseUrl source key).2 = some v) :
    ∃ t, v = .string t := by
  unfold copySanitizedUrlLike at h
  dsimp only at h
  split at h
  · split_ifs at h
    exact ⟨_, (Option.some.inj h).symm⟩
  · exact nomatch h

lemma copyFiniteNumber_shape (h : (copyFiniteNumber source key).2 = some v) :
    ∃ x : Finite, v = .number (.finite x) := by
  unfold copyFiniteNumber at h
  dsimp only at h
  split at h
  · exact ⟨_, (Option.some.inj h).symm⟩
  · exact nomatch h

lemma copyNullableFiniteNumber_shape (h : (copyNullableFiniteNumber source key).2 = some v) :
    v = .null ∨ ∃ x : Finite, v = .number (.finite x) := by
  unfold copyNullableFiniteNumber at h
  dsimp only at h
  split at h
  · exact .inl (Option.some.inj h).symm
  · exact .inr ⟨_, (Option.some.inj h).symm⟩
  · exact nomatch h

lemma copyStringRecord_shape (h : (copyStringRecord source key).2 = some v) :
    ∃ fields, v = .record fields := by
  unfold copyStringRecord at h
  dsimp only at h
  split at h
  · split_ifs at h
    exact ⟨_, (Option.some.inj h).symm⟩
  · exact nomatch h

lemma copyPositiveIntegerRecord_shape (h : (copyPositiveIntegerRecord source key).2 = some v) :
    ∃ fields, v = .record fields := by
  unfold copyPositiveIntegerRecord at h
  dsimp only at h
  split at h
  · split_ifs at h
    exact ⟨_, (Option.some.inj h).symm⟩
  · exact nomatch h

lemma isNumber_stringify (x : Finite) : IsNumber (JsValue.stringify (.number (.finite x))) := by
  obtain ⟨q, hq⟩ := x
  simp only [JsValue.stringify, JsNumber.stringify]
  split_ifs with hint
  · have hcast : ((q.num : ℤ) : ℚ) = q := Rat.coe_int_num_of_den_eq_one hint.1
    exact ⟨q, by rw [toNumber, hcast], by rw [hq]; rfl⟩
  · exact ⟨q, rfl, by rw [hq]; rfl⟩

/-! ## What the sanitizer lets pass -/

/-- The flags that were copied pass: the same keys in both maps, none of them empty, variants that are not
empty and versions that are written as integers. -/
def FlagsPass (source : Record) : Prop :=
  ∀ flags versions, (copyStringRecord source "active_flags").2 = some (.record flags) →
    (copyPositiveIntegerRecord source "active_flag_versions").2 = some (.record versions) →
      (∀ k, k ∈ flags.map Prod.fst ↔ k ∈ versions.map Prod.fst) ∧
        (∀ f ∈ flags, f.1 ≠ [] ∧ isNonEmptyString (some f.2.stringify) = true) ∧
          ∀ f ∈ versions, f.1 ≠ [] ∧ isNonNegativeInt f.2.stringify = true

lemma read_docOf (hnodup : (assignedKeys as).Nodup) (ha : a ∈ as) (h : (docOf as).get a.1 = some d) : ∃ v, a.2 = some v ∧ d = v.stringify := by
  rw [get_docOf hnodup ha] at h
  obtain ⟨v, hv, rfl⟩ := Option.map_eq_some_iff.1 h
  exact ⟨v, hv, rfl⟩

lemma read_string (hnodup : (assignedKeys as).Nodup) (ha : a ∈ as)
    (hshape : ∀ v, a.2 = some v → ∃ t, v = .string t) (h : (docOf as).get a.1 = some d) :
    ∃ t, d = .str t := by
  obtain ⟨v, hv, rfl⟩ := read_docOf hnodup ha h
  obtain ⟨t, rfl⟩ := hshape v hv
  exact ⟨t, rfl⟩

lemma flags_docOf (hnodup : (assignedKeys as).Nodup) (path : Text)
    (hflags : copyStringRecord source "active_flags" ∈ as)
    (hversions : copyPositiveIntegerRecord source "active_flag_versions" ∈ as)
    (hall : ∀ a ∈ as, a.2.isSome = true) :
    validateActiveFlagProperties (docOf as) path = [] ↔ FlagsPass source := by
  obtain ⟨v, hv⟩ := Option.isSome_iff_exists.1 (hall _ hflags)
  obtain ⟨w, hw⟩ := Option.isSome_iff_exists.1 (hall _ hversions)
  obtain ⟨flags, rfl⟩ := copyStringRecord_shape hv
  obtain ⟨versions, rfl⟩ := copyPositiveIntegerRecord_shape hw
  have hgetFlags : (docOf as).get "active_flags" = some (.obj (stringifyFields flags)) := by
    have h := get_docOf hnodup hflags
    rwa [hv] at h
  have hgetVersions : (docOf as).get "active_flag_versions" = some (.obj (stringifyFields versions)) := by
    have h := get_docOf hnodup hversions
    rwa [hw] at h
  have hkeys (fields : Record) : keys (stringifyFields fields) = fields.map Prod.fst := by
    rw [stringifyFields_eq, keys, List.map_map]
    rfl
  rw [validateActiveFlagProperties_eq_nil hgetFlags hgetVersions, hkeys, hkeys, stringifyFields_eq,
    stringifyFields_eq]
  simp only [List.forall_mem_map]
  constructor
  · intro h flags' versions' hflags' hversions'
    rw [hv] at hflags'
    rw [hw] at hversions'
    cases hflags'
    cases hversions'
    exact h
  · intro h
    exact h flags versions hv hw

lemma map_append_eq_nil {errors : List FieldError} {types : Except Raised (List FieldError)} :
    types.map (errors ++ ·) = .ok [] ↔ errors = [] ∧ types = .ok [] := by
  cases types <;> simp [Except.map]

lemma frontendErrorKeys_nodup (parseUrl : Text → Option Url) (source : Record) :
    (assignedKeys (frontendErrorAssignments parseUrl source)).Nodup := by
  have hnodup : (frontendErrorKeys.map ofString).Nodup := by decide +kernel
  exact hnodup

lemma webVitalKeys_nodup (parseUrl : Text → Option Url) (source : Record) :
    (assignedKeys (webVitalAssignments parseUrl source)).Nodup := by
  have hnodup : (webVitalKeys.map ofString).Nodup := by decide +kernel
  exact hnodup

lemma frontendError_docOf (parseUrl : Text → Option Url) (source : Record) :
    Follows frontendError.rules (docOf (frontendErrorAssignments parseUrl source)) := by
  have hnodup := frontendErrorKeys_nodup parseUrl source
  have hnumber (key : String)
      (hmem : copyNullableFiniteNumber source key ∈ frontendErrorAssignments parseUrl source) (d : Doc)
      (hd : (docOf (frontendErrorAssignments parseUrl source)).get key = some d) : OrNull IsNumber d := by
    obtain ⟨v, hv, rfl⟩ := read_docOf hnodup hmem hd
    rcases copyNullableFiniteNumber_shape hv with rfl | ⟨x, rfl⟩
    · exact .inl rfl
    · exact .inr (isNumber_stringify x)
  have hbounded (key : String) (maxLength : ℕ) (stripUrls : Bool)
      (hmem : copyBoundedString parseUrl source key maxLength stripUrls ∈
        frontendErrorAssignments parseUrl source) (d : Doc)
      (hd : (docOf (frontendErrorAssignments parseUrl source)).get key = some d) : IsString d :=
    read_string hnodup hmem (fun _ hv => copyBoundedString_shape hv) hd
  simp only [frontendError, follows_cons, follows_nil, and_true]
  refine ⟨fun d hd => ?_, hbounded _ 1024 true ?_, fun d hd => read_string hnodup
    (a := copySanitizedPath source "page") ?_ (fun _ hv => copySanitizedPath_shape hv) hd,
    hbounded _ 256 false ?_, hbounded _ 256 false ?_, fun d hd => read_string hnodup
    (a := copySanitizedUrlLike parseUrl source "source") ?_
    (fun _ hv => copySanitizedUrlLike_shape hv) hd,
    hbounded _ 4096 true ?_, hnumber _ ?_, hnumber _ ?_⟩
  · obtain ⟨v, hv, rfl⟩ := read_docOf hnodup
      (a := copyEnum source "error_type" safeErrorTypes) (by simp [frontendErrorAssignments]) hd
    obtain ⟨t, ht, rfl⟩ := copyEnum_shape hv
    obtain ⟨name, hname, rfl⟩ := List.mem_map.1 ht
    exact ⟨name, hname, rfl⟩
  all_goals simp [frontendErrorAssignments]

theorem sanitizedError_accepted_iff (parseUrl : Text → Option Url) (source : Record) (path : Text) :
    propertyErrors frontendErrorEvent (stringifyFields (sanitizeFrontendErrorProperties parseUrl source))
        path = .ok [] ↔
      (∀ a ∈ frontendErrorAssignments parseUrl source, a.2.isSome = true) ∧ FlagsPass source := by
  have hnodup := frontendErrorKeys_nodup parseUrl source
  change propertyErrors _ (docOf (frontendErrorAssignments parseUrl source)) path = _ ↔ _
  rw [propertyErrors, if_pos rfl, map_append_eq_nil, frontendErrorTypes_eq_nil_iff,
    and_iff_right (frontendError_docOf parseUrl source), keyErrors_docOf hnodup fun k => Iff.rfl]
  refine and_congr_right fun hall => ?_
  exact flags_docOf hnodup path (by simp [frontendErrorAssignments]) (by simp [frontendErrorAssignments]) hall

lemma webVital_docOf (parseUrl : Text → Option Url) (source : Record) :
    Follows webVital.rules (docOf (webVitalAssignments parseUrl source)) := by
  have hnodup := webVitalKeys_nodup parseUrl source
  have henum (key : String) (texts : List String)
      (hmem : copyEnum source key (texts.map ofString) ∈ webVitalAssignments parseUrl source) (d : Doc)
      (hd : (docOf (webVitalAssignments parseUrl source)).get key = some d) : OneOf texts d := by
    obtain ⟨v, hv, rfl⟩ := read_docOf hnodup hmem hd
    obtain ⟨t, ht, rfl⟩ := copyEnum_shape hv
    obtain ⟨name, hname, rfl⟩ := List.mem_map.1 ht
    exact ⟨name, hname, rfl⟩
  have hnumber (key : String)
      (hmem : copyFiniteNumber source key ∈ webVitalAssignments parseUrl source) (d : Doc)
      (hd : (docOf (webVitalAssignments parseUrl source)).get key = some d) : IsNumber d := by
    obtain ⟨v, hv, rfl⟩ := read_docOf hnodup hmem hd
    obtain ⟨x, rfl⟩ := copyFiniteNumber_shape hv
    exact isNumber_stringify x
  have hbounded (key : String) (maxLength : ℕ)
      (hmem : copyBoundedString parseUrl source key maxLength false ∈ webVitalAssignments parseUrl source)
      (d : Doc) (hd : (docOf (webVitalAssignments parseUrl source)).get key = some d) : IsString d :=
    read_string hnodup hmem (fun _ hv => copyBoundedString_shape hv) hd
  -- the rules of a web vital name a property that it does not have
  have hcomponent : (docOf (webVitalAssignments parseUrl source)).get "component" = none := by
    have habsent : ofString "component" ∉ webVitalKeys.map ofString := by decide +kernel
    exact PyJson.get_eq_none_iff.2 fun hmem => habsent ((keys_docOf_sublist _).mem hmem)
  simp only [webVital, follows_cons, follows_nil, and_true]
  refine ⟨henum _ _ ?_, henum _ _ ?_, hnumber _ ?_, hnumber _ ?_, hbounded _ 256 ?_, hbounded _ 128 ?_,
    fun d hd => read_string hnodup (a := copySanitizedPath source "page") ?_
      (fun _ hv => copySanitizedPath_shape hv) hd, fun d hd => by cases hcomponent.symm.trans hd⟩
  · simp [webVitalAssignments, webVitalMetrics, Ingest.webVitalMetrics]
  · simp [webVitalAssignments, safeWebVitalRatings, webVitalRatings]
  all_goals simp [webVitalAssignments]

theorem sanitizedVital_accepted_iff (parseUrl : Text → Option Url) (source : Record) (path : Text) :
    propertyErrors webVitalEvent (stringifyFields (sanitizeWebVitalProperties parseUrl source))
        path = .ok [] ↔
      (∀ a ∈ webVitalAssignments parseUrl source, a.2.isSome = true) ∧ FlagsPass source := by
  have hnodup := webVitalKeys_nodup parseUrl source
  have hne : webVitalEvent ≠ frontendErrorEvent := by decide +kernel
  change propertyErrors _ (docOf (webVitalAssignments parseUrl source)) path = _ ↔ _
  rw [propertyErrors, if_neg hne, if_pos rfl, map_append_eq_nil, webVitalTypes_eq_nil_iff,
    and_iff_right (webVital_docOf parseUrl source), keyErrors_docOf hnodup fun k => Iff.rfl]
  refine and_congr_right fun hall => ?_
  exact flags_docOf hnodup path (by simp [webVitalAssignments]) (by simp [webVitalAssignments]) hall

/-! ## What is captured -/

/-- The bounds of the flags: no key is empty, no variant is too long, and every version is written as an
integer. -/
structure ActiveFlagSnapshot.Fits (s : ActiveFlagSnapshot) : Prop where
  key_ne : ∀ f ∈ s.activeFlags, f.1 ≠ []
  variant_le : ∀ f ∈ s.activeFlags, f.2.unitLength ≤ 256
  version_int : ∀ v ∈ s.activeFlagVersions, ∃ x : Finite, v.2 = .finite x ∧ x.1.den = 1 ∧ x.1 < 10 ^ 21

/-- The bounds of the path of the page. -/
def PageFits (pagePath : Option Text) : Prop :=
  (pagePath.getD []).unitLength ≤ 2048 ∧ (pagePath.getD []).head? = some (unit '/')

def Report.Bounded : Report → Prop
  | .browserError e => e.filename.unitLength ≤ 4096
  | .unhandledRejection _ => True
  | .componentRenderError component slotId _ => component.unitLength ≤ 256 ∧ slotId.unitLength ≤ 256
  | .webVital m =>
    (∃ x, m.value = .finite x) ∧ (∃ x, m.delta = .finite x) ∧
      (m.rating = ofString "needs-improvement" ∨ m.rating ∈ safeWebVitalRatings) ∧
        m.id.unitLength ≤ 256 ∧ m.navigationType.unitLength ≤ 128

structure Report.Fits (pagePath : Option Text) (s : ActiveFlagSnapshot) (r : Report) : Prop where
  page : PageFits pagePath
  bounded : r.Bounded
  flags : s.Fits

/-! ## When a property is copied -/

lemma Record.get_of_mem {r : Record} (hnodup : (r.map Prod.fst).Nodup) (h : (ofString key, v) ∈ r) :
    r.get key = some v := by
  unfold Record.get
  induction r with
  | nil => exact nomatch h
  | cons f fs ih =>
    obtain ⟨hf, hfs⟩ := List.nodup_cons.1 hnodup
    rcases List.mem_cons.1 h with rfl | hmem
    · rw [List.lookup_cons, beq_self_eq_true]
    · have hne : ofString key ≠ f.1 := fun heq => hf (heq ▸ List.mem_map_of_mem hmem)
      rw [List.lookup_cons, beq_false_of_ne hne]
      exact ih hfs hmem

variable {t : Text}

lemma copyEnum_isSome {allowed : List Text} (h : source.get key = some (.string t)) :
    (copyEnum source key allowed).2.isSome = true ↔ t ∈ allowed := by
  simp [copyEnum, h]

lemma copyBoundedString_isSome {maxLength : ℕ} {stripUrls : Bool}
    (h : source.get key = some (.string t)) :
    (copyBoundedString parseUrl source key maxLength stripUrls).2.isSome = true ↔
      t.unitLength ≤ maxLength := by
  simp [copyBoundedString, h, isBoundedString]

lemma copySanitizedPath_isSome (h : source.get key = some (.string t)) :
    (copySanitizedPath source key).2.isSome = true ↔
      t.unitLength ≤ 2048 ∧ t.head? = some (unit '/') := by
  have hslash : (unit '/' != unit '?' && unit '/' != unit '#') = true := by decide
  have hhead : (beforeQuery t).head? = some (unit '/') ↔ t.head? = some (unit '/') := by
    cases t with
    | nil => rfl
    | cons u t =>
      unfold beforeQuery
      rw [List.takeWhile_cons]
      by_cases hu : u = unit '/'
      · subst hu
        simp [hslash]
      · split_ifs <;> simp [hu]
  simp only [copySanitizedPath, h, sanitizePath]
  split_ifs with hlong hstart
  · simp [Nat.not_le.2 hlong]
  · simp [Nat.not_lt.1 hlong, hhead.1 hstart]
  · simp [hhead.not.1 hstart]

lemma copySanitizedUrlLike_isSome (h : source.get key = some (.string t)) :
    (copySanitizedUrlLike parseUrl source key).2.isSome = true ↔ t.unitLength ≤ 4096 := by
  simp [copySanitizedUrlLike, h, isBoundedString]

lemma copyFiniteNumber_isSome {x : JsNumber} (h : source.get key = some (.number x)) :
    (copyFiniteNumber source key).2.isSome = true ↔ ∃ y, x = .finite y := by
  cases x <;> simp [copyFiniteNumber, h]

lemma copyNullableFiniteNumber_isSome {value : Option JsValue}
    (h : source.get key = some (finiteNumberOrNull value)) :
    (copyNullableFiniteNumber source key).2.isSome = true := by
  have hcases : finiteNumberOrNull value = .null ∨ ∃ x, finiteNumberOrNull value = .number (.finite x) := by
    unfold finiteNumberOrNull
    split
    · exact .inr ⟨_, rfl⟩
    · exact .inl rfl
  rcases hcases with hnull | ⟨x, hx⟩
  · simp [copyNullableFiniteNumber, h, hnull]
  · simp [copyNullableFiniteNumber, h, hx]

lemma unitLength_truncate_le (t : Text) (maxLength : ℕ) : (truncate t maxLength).unitLength ≤ maxLength := by
  unfold truncate
  split_ifs with h
  · exact List.length_take_le _ _
  · exact Nat.not_lt.1 h

variable {s : ActiveFlagSnapshot} {pagePath : Option Text}

lemma isPositiveInteger_iff {x : Finite} (hpos : 0 < x.1) :
    isPositiveInteger (.number (.finite x)) = true ↔ x.1.den = 1 := by
  simp only [isPositiveInteger, Bool.and_eq_true, beq_iff_eq, decide_eq_true_eq, and_iff_left_iff_imp]
  intro hden
  have hcast : ((x.1.num : ℤ) : ℚ) = x.1 := Rat.coe_int_num_of_den_eq_one hden
  rw [← hcast] at hpos ⊢
  exact_mod_cast hpos

lemma isNonNegativeInt_iff {x : Finite} (hpos : 0 < x.1) (hden : x.1.den = 1) :
    isNonNegativeInt (JsValue.stringify (.number (.finite x))) = true ↔ x.1 < 10 ^ 21 := by
  have hlow : -10 ^ 21 < x.1 := lt_trans (by norm_num) hpos
  simp only [JsValue.stringify, JsNumber.stringify, hden, hlow, true_and]
  split_ifs with hlt
  · simpa [isNonNegativeInt, hlt] using hpos.le
  · simp [isNonNegativeInt, hlt]

lemma copyStringRecord_eq (hflags : source.get key = some s.flags) :
    (copyStringRecord source key).2 = some v ↔
      (∀ f ∈ s.activeFlags, f.2.unitLength ≤ 256) ∧ s.flags = v := by
  simp only [copyStringRecord, hflags, ActiveFlagSnapshot.flags]
  split_ifs with hall
  · have hle : ∀ f ∈ s.activeFlags, f.2.unitLength ≤ 256 := by simpa [isBoundedString] using hall
    rw [and_iff_right hle, Option.some.injEq]
  · have hle : ¬∀ f ∈ s.activeFlags, f.2.unitLength ≤ 256 := by simpa [isBoundedString] using hall
    exact ⟨(fun h => nomatch h), fun h => absurd h.1 hle⟩

lemma copyPositiveIntegerRecord_eq (hversions : source.get key = some s.versions) :
    (copyPositiveIntegerRecord source key).2 = some v ↔
      (∀ f ∈ s.activeFlagVersions, ∃ x : Finite, f.2 = .finite x ∧ x.1.den = 1) ∧ s.versions = v := by
  have hpositive : (∀ f ∈ s.activeFlagVersions, isPositiveInteger (.number f.2) = true) ↔
      ∀ f ∈ s.activeFlagVersions, ∃ x : Finite, f.2 = .finite x ∧ x.1.den = 1 := by
    refine forall₂_congr fun f hf => ?_
    obtain ⟨x, hx, hpos⟩ := s.version_pos f hf
    rw [hx, isPositiveInteger_iff hpos]
    exact ⟨fun h => ⟨x, rfl, h⟩, fun ⟨y, hy, h⟩ => by cases hy; exact h⟩
  rw [← hpositive]
  simp only [copyPositiveIntegerRecord, hversions, ActiveFlagSnapshot.versions]
  split_ifs with hall
  · have hint : ∀ f ∈ s.activeFlagVersions, isPositiveInteger (.number f.2) = true := by simpa using hall
    rw [and_iff_right hint, Option.some.injEq]
  · have hint : ¬∀ f ∈ s.activeFlagVersions, isPositiveInteger (.number f.2) = true := by
      simpa using hall
    exact ⟨(fun h => nomatch h), fun h => absurd h.1 hint⟩

/-- **The flags are copied and pass exactly when they fit.** -/
lemma flags_iff (hflags : source.get "active_flags" = some s.flags)
    (hversions : source.get "active_flag_versions" = some s.versions) :
    ((copyStringRecord source "active_flags").2.isSome = true ∧
      (copyPositiveIntegerRecord source "active_flag_versions").2.isSome = true ∧ FlagsPass source) ↔
        s.Fits := by
  have hvariant (f : Text × Text) (hf : f ∈ s.activeFlags) :
      isNonEmptyString (some (JsValue.stringify (.string f.2))) = true :=
    decide_eq_true (Nat.pos_of_ne_zero fun h => s.variant_ne f hf (Text.length_eq_zero.1 h))
  constructor
  · rintro ⟨hf, hv, hpass⟩
    obtain ⟨w, hw⟩ := Option.isSome_iff_exists.1 hf
    obtain ⟨w', hw'⟩ := Option.isSome_iff_exists.1 hv
    obtain ⟨hle, rfl⟩ := (copyStringRecord_eq hflags).1 hw
    obtain ⟨hint, rfl⟩ := (copyPositiveIntegerRecord_eq hversions).1 hw'
    obtain ⟨-, hkeys, hversion⟩ := hpass _ _ hw hw'
    refine ⟨fun f hf => ?_, hle, fun f hf => ?_⟩
    · exact (hkeys _ (List.mem_map_of_mem hf)).1
    · obtain ⟨x, hx, hden⟩ := hint f hf
      obtain ⟨y, hy, hpos⟩ := s.version_pos f hf
      obtain rfl : y = x := JsNumber.finite.inj (hy.symm.trans hx)
      have hread := (hversion _ (List.mem_map_of_mem hf)).2
      rw [hx] at hread
      exact ⟨y, hx, hden, (isNonNegativeInt_iff hpos hden).1 hread⟩
  · intro hfits
    have hint : ∀ f ∈ s.activeFlagVersions, ∃ x : Finite, f.2 = .finite x ∧ x.1.den = 1 := by
      intro f hf
      obtain ⟨x, hx, hden, -⟩ := hfits.version_int f hf
      exact ⟨x, hx, hden⟩
    have hw := (copyStringRecord_eq hflags).2 ⟨hfits.variant_le, rfl⟩
    have hw' := (copyPositiveIntegerRecord_eq hversions).2 ⟨hint, rfl⟩
    refine ⟨by rw [hw]; rfl, by rw [hw']; rfl, fun flags versions h h' => ?_⟩
    obtain rfl := JsValue.record.inj (Option.some.inj (hw.symm.trans h))
    obtain rfl := JsValue.record.inj (Option.some.inj (hw'.symm.trans h'))
    refine ⟨fun k => ?_, fun f hf => ?_, fun f hf => ?_⟩
    · simpa [List.map_map, Function.comp_def] using s.same_keys k
    · obtain ⟨g, hg, rfl⟩ := List.mem_map.1 hf
      exact ⟨hfits.key_ne g hg, hvariant g hg⟩
    · obtain ⟨g, hg, rfl⟩ := List.mem_map.1 hf
      obtain ⟨x, hx, hden, hlt⟩ := hfits.version_int g hg
      obtain ⟨y, hy, hpos⟩ := s.version_pos g hg
      obtain rfl : y = x := JsNumber.finite.inj (hy.symm.trans hx)
      obtain ⟨f, hf, hkey⟩ := List.mem_map.1 ((s.same_keys g.1).2 (List.mem_map_of_mem hg))
      refine ⟨hkey ▸ hfits.key_ne f hf, ?_⟩
      dsimp only
      rw [hx]
      exact (isNonNegativeInt_iff hpos hden).2 hlt

/-! ## Whether a captured event is accepted -/

lemma captureError_nodup (pagePath : Option Text) (s : ActiveFlagSnapshot) (errorType : String)
    (details : ErrorDetails) :
    ((captureError pagePath s errorType details).properties.map Prod.fst).Nodup := by
  have hnodup : (frontendErrorKeys.map ofString).Nodup := by decide +kernel
  exact hnodup

lemma event_nodup (pagePath : Option Text) (s : ActiveFlagSnapshot) (m : Metric) :
    ((m.event pagePath s).properties.map Prod.fst).Nodup := by
  have hnodup : (webVitalKeys.map ofString).Nodup := by decide +kernel
  exact hnodup

lemma sanitize_error {e : TrackEvent} (h : e.event = frontendErrorEvent) :
    (sanitizeAutoCaptureEvent parseUrl e).properties =
      sanitizeFrontendErrorProperties parseUrl e.properties := if_pos h

lemma sanitize_vital {e : TrackEvent} (h : e.event = webVitalEvent) :
    (sanitizeAutoCaptureEvent parseUrl e).properties =
      sanitizeWebVitalProperties parseUrl e.properties := by
  have hne : e.event ≠ frontendErrorEvent := by
    rw [h]
    decide +kernel
  exact (if_neg hne).trans (if_pos h)

/-- **A captured error is accepted exactly when its page, its component, its slot, its source and the flags
fit.** -/
lemma capturedError_accepted_iff (parseUrl : Text → Option Url) (pagePath : Option Text)
    (s : ActiveFlagSnapshot) {errorType : String} (htype : ofString errorType ∈ safeErrorTypes)
    {details : ErrorDetails} (line column : Option JsValue)
    (hline : details.line = finiteNumberOrNull line) (hcolumn : details.column = finiteNumberOrNull column)
    (path : Text) :
    propertyErrors (captureError pagePath s errorType details).event
        (stringifyFields (sanitizeAutoCaptureEvent parseUrl
          (captureError pagePath s errorType details)).properties) path = .ok [] ↔
      PageFits pagePath ∧ (details.component.getD []).unitLength ≤ 256 ∧
        (details.slotId.getD []).unitLength ≤ 256 ∧ details.source.unitLength ≤ 4096 ∧ s.Fits := by
  have hget (key : String) (v : JsValue)
      (h : (ofString key, v) ∈ (captureError pagePath s errorType details).properties) :=
    Record.get_of_mem (captureError_nodup pagePath s errorType details) h
  have htypeGet := hget "error_type" (.string (ofString errorType)) (by simp [captureError])
  have hmessage := hget "message" (.string (truncate details.message 1024)) (by simp [captureError])
  have hpage := hget "page" (.string (pagePath.getD [])) (by simp [captureError])
  have hcomponent := hget "component" (.string (details.component.getD [])) (by simp [captureError])
  have hslot := hget "slot_id" (.string (details.slotId.getD [])) (by simp [captureError])
  have hsource := hget "source" (.string details.source) (by simp [captureError])
  have hlineGet := hget "line" (finiteNumberOrNull line) (by simp [captureError, hline])
  have hcolumnGet := hget "column" (finiteNumberOrNull column) (by simp [captureError, hcolumn])
  have hstack := hget "stack" (.string (truncate details.stack 4096)) (by simp [captureError])
  have hflags := hget "active_flags" s.flags (by simp [captureError])
  have hversions := hget "active_flag_versions" s.versions (by simp [captureError])
  have hevent : (captureError pagePath s errorType details).event = frontendErrorEvent := rfl
  rw [sanitize_error hevent, hevent, sanitizedError_accepted_iff, ← flags_iff hflags hversions]
  simp only [frontendErrorAssignments, List.forall_mem_cons]
  rw [copyEnum_isSome htypeGet, copyBoundedString_isSome hmessage, copySanitizedPath_isSome hpage,
    copyBoundedString_isSome hcomponent, copyBoundedString_isSome hslot,
    copySanitizedUrlLike_isSome hsource, copyBoundedString_isSome hstack]
  have hmessageLe := unitLength_truncate_le details.message 1024
  have hstackLe := unitLength_truncate_le details.stack 4096
  have hlineSome := copyNullableFiniteNumber_isSome hlineGet
  have hcolumnSome := copyNullableFiniteNumber_isSome hcolumnGet
  unfold PageFits
  constructor
  · rintro ⟨⟨-, -, hp, hc, hs, hsrc, -, -, -, hf, hv, -⟩, hpass⟩
    exact ⟨hp, hc, hs, hsrc, hf, hv, hpass⟩
  · rintro ⟨hp, hc, hs, hsrc, hf, hv, hpass⟩
    exact ⟨⟨htype, hmessageLe, hp, hc, hs, hsrc, hlineSome, hcolumnSome, hstackLe, hf, hv,
      fun _ h => nomatch h⟩, hpass⟩

/-- **A captured web vital is accepted exactly when its numbers, its texts, its page and the flags fit.** -/
lemma capturedVital_accepted_iff (parseUrl : Text → Option Url) (pagePath : Option Text)
    (s : ActiveFlagSnapshot) {m : Metric} (hname : m.name ∈ webVitalMetrics) (path : Text) :
    propertyErrors (m.event pagePath s).event
        (stringifyFields (sanitizeAutoCaptureEvent parseUrl (m.event pagePath s)).properties) path =
      .ok [] ↔ PageFits pagePath ∧ (Report.webVital m).Bounded ∧ s.Fits := by
  have hget (key : String) (v : JsValue) (h : (ofString key, v) ∈ (m.event pagePath s).properties) :=
    Record.get_of_mem (event_nodup pagePath s m) h
  have hmetric := hget "metric" (.string m.name) (by simp [Metric.event])
  have hvalue := hget "value" (.number m.value) (by simp [Metric.event])
  have hrating := hget "rating" (.string (if m.rating = ofString "needs-improvement" then
    ofString "needs_improvement" else m.rating)) (by simp [Metric.event])
  have hdelta := hget "delta" (.number m.delta) (by simp [Metric.event])
  have hid := hget "id" (.string m.id) (by simp [Metric.event])
  have hnavigation := hget "navigation_type" (.string m.navigationType) (by simp [Metric.event])
  have hpage := hget "page" (.string (pagePath.getD [])) (by simp [Metric.event])
  have hflags := hget "active_flags" s.flags (by simp [Metric.event])
  have hversions := hget "active_flag_versions" s.versions (by simp [Metric.event])
  have hrated : (if m.rating = ofString "needs-improvement" then ofString "needs_improvement"
      else m.rating) ∈ safeWebVitalRatings ↔
        m.rating = ofString "needs-improvement" ∨ m.rating ∈ safeWebVitalRatings := by
    split_ifs with h
    · simp [h, safeWebVitalRatings]
    · simp [h]
  have hevent : (m.event pagePath s).event = webVitalEvent := rfl
  rw [sanitize_vital hevent, hevent, sanitizedVital_accepted_iff, ← flags_iff hflags hversions]
  simp only [webVitalAssignments, List.forall_mem_cons]
  rw [copyEnum_isSome hmetric, copyFiniteNumber_isSome hvalue, copyEnum_isSome hrating, hrated,
    copyFiniteNumber_isSome hdelta, copyBoundedString_isSome hid, copyBoundedString_isSome hnavigation,
    copySanitizedPath_isSome hpage]
  unfold PageFits Report.Bounded
  constructor
  · rintro ⟨⟨-, hval, hrate, hdel, hi, hn, hp, hf, hv, -⟩, hpass⟩
    exact ⟨hp, ⟨hval, hdel, hrate, hi, hn⟩, hf, hv, hpass⟩
  · rintro ⟨hp, ⟨hval, hdel, hrate, hi, hn⟩, hf, hv, hpass⟩
    exact ⟨⟨hname, hval, hrate, hdel, hi, hn, hp, hf, hv, fun _ h => nomatch h⟩, hpass⟩

/-- **A captured event is accepted exactly when the report fits**: the path of the page starts with a slash
and is not too long, the texts that the capture does not truncate are not too long, the numbers of a web
vital are finite, and the flags fit.

**Proof sketch.** What the sanitizer copies has the types that ingestion requires, so only a property that
was not copied, a flag without a key, or a version that is written with an exponent is refused. -/
theorem captured_accepted_iff (parseUrl : Text → Option Url) (h : HealthCapture)
    (pagePath : Option Text) (s : ActiveFlagSnapshot) (r : Report) {e : TrackEvent}
    (he : h.report pagePath s r = some e) (path : Text) :
    propertyErrors e.event (stringifyFields (sanitizeAutoCaptureEvent parseUrl e).properties) path =
      .ok [] ↔ r.Fits pagePath s := by
  have hfits : r.Fits pagePath s ↔ PageFits pagePath ∧ r.Bounded ∧ s.Fits :=
    ⟨fun h => ⟨h.page, h.bounded, h.flags⟩, fun h => ⟨h.1, h.2.1, h.2.2⟩⟩
  have hempty : Text.unitLength [] ≤ 256 := Nat.zero_le _
  have hempty' : Text.unitLength [] ≤ 4096 := Nat.zero_le _
  rw [hfits]
  cases r with
  | browserError error =>
    obtain ⟨-, he⟩ := Option.ite_none_right_eq_some.1 he
    obtain rfl := Option.some.inj he
    refine (capturedError_accepted_iff parseUrl pagePath s (by simp [safeErrorTypes]) error.lineno error.colno
      rfl rfl path).trans ?_
    exact ⟨fun ⟨hp, _, _, hsrc, hs⟩ => ⟨hp, hsrc, hs⟩, fun ⟨hp, hsrc, hs⟩ =>
      ⟨hp, hempty, hempty, hsrc, hs⟩⟩
  | unhandledRejection reason =>
    obtain ⟨-, he⟩ := Option.ite_none_right_eq_some.1 he
    obtain rfl := Option.some.inj he
    refine (capturedError_accepted_iff parseUrl pagePath s (by simp [safeErrorTypes]) none none
      rfl rfl path).trans ?_
    exact ⟨fun ⟨hp, _, _, _, hs⟩ => ⟨hp, trivial, hs⟩, fun ⟨hp, _, hs⟩ =>
      ⟨hp, hempty, hempty, hempty', hs⟩⟩
  | componentRenderError component slotId error =>
    obtain ⟨-, he⟩ := Option.ite_none_right_eq_some.1 he
    obtain rfl := Option.some.inj he
    refine (capturedError_accepted_iff parseUrl pagePath s (by simp [safeErrorTypes]) none none
      rfl rfl path).trans ?_
    exact ⟨fun ⟨hp, hc, hslot, _, hs⟩ => ⟨hp, ⟨hc, hslot⟩, hs⟩, fun ⟨hp, ⟨hc, hslot⟩, hs⟩ =>
      ⟨hp, hc, hslot, hempty', hs⟩⟩
  | webVital m =>
    obtain ⟨hcaptured, he⟩ := Option.ite_none_right_eq_some.1 he
    obtain rfl := Option.some.inj he
    simp only [Bool.and_eq_true] at hcaptured
    have hname : m.name ∈ webVitalMetrics := List.contains_iff_mem.1 hcaptured.2
    exact capturedVital_accepted_iff parseUrl pagePath s hname path

/-! ## A component with a long name -/

/-- One active flag. -/
def exampleSnapshot : ActiveFlagSnapshot where
  activeFlags := [(ofString "new-nav", ofString "treatment")]
  activeFlagVersions := [(ofString "new-nav", .finite ⟨3, by decide +kernel⟩)]
  nodup_flags := List.nodup_singleton _
  nodup_versions := List.nodup_singleton _
  same_keys := fun _ => Iff.rfl
  variant_ne := by decide +kernel
  version_pos := by
    intro v hv
    obtain rfl := List.mem_singleton.1 hv
    exact ⟨_, rfl, by decide +kernel⟩

def exampleCapture : HealthCapture := ⟨true, true, true⟩

/-- A component raises while it is rendered. -/
def exampleReport (component : Text) : Report :=
  .componentRenderError component (ofString "header") (.string (ofString "boom"))

/-- A component with a short name: its event is accepted. -/
theorem captured_accepted_iff_short : ∃ e,
    exampleCapture.report (some (ofString "/home")) exampleSnapshot (exampleReport (ofString "Nav")) =
      some e ∧
    propertyErrors e.event (stringifyFields (sanitizeAutoCaptureEvent (fun _ => none) e).properties) [] =
      .ok [] := by
  refine ⟨_, rfl, (captured_accepted_iff (fun _ => none) exampleCapture (some (ofString "/home"))
    exampleSnapshot (exampleReport (ofString "Nav")) rfl []).2 ⟨?_, ?_, ?_⟩⟩
  · exact ⟨by decide +kernel, by decide +kernel⟩
  · exact ⟨by decide +kernel, by decide +kernel⟩
  · refine ⟨by decide +kernel, by decide +kernel, fun v hv => ?_⟩
    obtain rfl := List.mem_singleton.1 hv
    exact ⟨_, rfl, by decide +kernel, by decide +kernel⟩

/-- **A component whose name has 257 letters**: the event lacks its component and is refused. -/
theorem long_component_refused : ∃ e,
    exampleCapture.report (some (ofString "/home")) exampleSnapshot
      (exampleReport (List.replicate 257 (unit 'a'))) = some e ∧
    propertyErrors e.event (stringifyFields (sanitizeAutoCaptureEvent (fun _ => none) e).properties) [] =
      .ok [⟨ofString "properties.component",
        ofString "Missing required frontend error property"⟩] := by
  refine ⟨_, rfl, ?_⟩
  have hrefused : (propertyErrors frontendErrorEvent (stringifyFields
      (sanitizeFrontendErrorProperties (fun _ => none) (captureError (some (ofString "/home"))
        exampleSnapshot "component_render_error"
        { message := ofString "boom"
          stack := []
          component := some (List.replicate 257 (unit 'a'))
          slotId := some (ofString "header") }).properties)) []) =
      .ok [⟨ofString "properties.component",
        ofString "Missing required frontend error property"⟩] := by
    decide +kernel
  exact hrefused

end Apdl.Sdk.Health
