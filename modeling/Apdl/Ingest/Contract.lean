import Apdl.Ingest.Batch

set_option autoImplicit false

/-!
# The contract of a batch

What a batch has to be, as a predicate on the parsed body, and what `validate_event_batch` makes of
it. The validation raises on some values that the contract refuses: a list or a dictionary that is
looked up in a set, and an integer that is beyond the doubles.

## Main results

* `validation_raises_on_list` — a batch on which it raises.
-/

namespace Apdl.Ingest

open Doc (Fields)
open Text (ofString)
open Check

/-! ## Values -/

/-- A string with bounds on its length. -/
def IsText (isStr : Text → Bool) (lo hi : ℕ) (d : Doc) : Prop :=
  ∃ s, d = .str s ∧ isStr s = true ∧ lo ≤ s.length ∧ s.length ≤ hi

/-- A natural number with a bound. -/
def IsSize (hi : ℕ) (d : Doc) : Prop := ∃ n : ℤ, d = .int n ∧ 0 ≤ n ∧ n ≤ hi

def IsString (d : Doc) : Prop := ∃ s, d = .str s

def NonEmpty (d : Doc) : Prop := ∃ s, d = .str s ∧ 0 < s.length

/-- One of these texts. -/
def OneOf (texts : List String) (d : Doc) : Prop := ∃ t ∈ texts, d = .str (ofString t)

/-- A number that is a finite double. -/
def IsNumber (d : Doc) : Prop := ∃ q, toNumber d = some q ∧ (Double.round q).isSome = true

/-- `null`, or a value of this kind. -/
def OrNull (P : Doc → Prop) (d : Doc) : Prop := d = .null ∨ P d

/-! ## Records -/

/-- The fields of a record: the name, whether it is required, and what holds of the value. -/
abbrev Rules := List (String × Bool × (Doc → Prop))

/-- The fields follow the rules: the required ones are there, and every value is of its kind. -/
def Follows (rules : Rules) (fields : Fields) : Prop :=
  ∀ r ∈ rules, match fields.get r.1 with
    | some d => r.2.2 d
    | none => r.2.1 = false

/-- Every field has one of these names. -/
def Only (names : List String) (fields : Fields) : Prop :=
  ∀ f ∈ fields, f.1 ∈ names.map ofString

/-- An object that follows the rules and has no other field. -/
def Record (rules : Rules) (d : Doc) : Prop :=
  ∃ fields, d = .obj fields ∧ Follows rules fields ∧ Only (rules.map Prod.fst) fields

section Contract

variable (isStr : Text → Bool) (receivedAt : Datetime)

/-- `NamedVersionContext`. -/
def namedVersionRules : Rules :=
  [("name", true, IsText isStr 1 128), ("version", true, IsText isStr 1 128)]

/-- `DimensionsContext`. -/
def dimensionsRules : Rules := [("width", true, IsSize 100000), ("height", true, IsSize 100000)]

/-- `PageContext`. -/
def pageRules : Rules :=
  [("url", true, IsText isStr 0 4096), ("title", true, IsText isStr 0 1024),
    ("path", true, IsText isStr 0 2048), ("search", true, IsText isStr 0 2048)]

/-- `EventContext`. -/
def contextRules : Rules :=
  [("library", false, OrNull (Record (namedVersionRules isStr))),
    ("browser", false, OrNull (Record (namedVersionRules isStr))),
    ("os", false, OrNull (Record (namedVersionRules isStr))),
    ("device", false, OrNull (Record [("type", true, IsText isStr 1 64)])),
    ("screen", false, OrNull (Record dimensionsRules)),
    ("viewport", false, OrNull (Record dimensionsRules)),
    ("page", false, OrNull (Record (pageRules isStr))),
    ("locale", false, OrNull (IsText isStr 0 128)),
    ("timezone", false, OrNull (IsText isStr 0 128)),
    ("referrer", false, OrNull (IsText isStr 0 4096))]

/-- A context: a record without nulls. -/
def ContextOk (d : Doc) : Prop :=
  Record (contextRules isStr) d ∧ ∀ fields, d = .obj fields → ∀ f ∈ fields, f.2 ≠ .null

/-- A timestamp of the canonical format in the window around the time of receipt. -/
def TimestampOk (d : Doc) : Prop :=
  ∃ s t oldest newest, d = .str s ∧ parseTimestamp s = .ok t ∧
    receivedAt.shift (-maxEventAgeSeconds) = some oldest ∧
    receivedAt.shift maxEventFutureSkewSeconds = some newest ∧ oldest ≤ t.micros ∧ t.micros ≤ newest

/-- Properties with bounded keys and strings. -/
def PropertiesOk (d : Doc) : Prop :=
  ∃ fields, d = .obj fields ∧ ∀ f ∈ fields, f.1.length ≤ maxEventNameLength ∧
    ∀ s, f.2 = .str s → s.length ≤ maxStringPropertyLength

/-- The fields of an event before the timestamp. -/
def rulesBefore : Rules :=
  [("event", true, fun d => ∃ s, d = .str s ∧ 0 < s.length ∧ s.length ≤ maxEventNameLength),
    ("type", true, OneOf validEventTypes),
    ("user_id", false, OrNull (IsText isStr 1 128)),
    ("anonymous_id", false, OrNull (IsText isStr 1 128)),
    ("group_id", false, OrNull (IsText isStr 1 128))]

/-- The fields of an event after the timestamp. -/
def rulesAfter : Rules :=
  [("properties", false, OrNull PropertiesOk),
    ("traits", false, OrNull fun d => ∃ fields, d = .obj fields),
    ("context", true, ContextOk isStr), ("message_id", true, IsText isStr 1 128),
    ("session_id", false, OrNull (IsText isStr 1 128))]

def eventRules : Rules :=
  rulesBefore isStr ++ ("timestamp", true, TimestampOk receivedAt) :: rulesAfter isStr

/-- A field has this text. -/
def Says (fields : Fields) (key text : String) : Prop :=
  fields.get key = some (.str (ofString text))

/-- The event has a user or an anonymous ID. -/
def Identified (event : Fields) : Prop :=
  truthy (event.get "user_id") = true ∨ truthy (event.get "anonymous_id") = true

structure EventOk (event : Fields) : Prop where
  fields : Record (eventRules isStr receivedAt) (.obj event)
  noNull : ∀ name ∈ Event.optionalFields, event.get name ≠ some .null
  identified : Identified event
  named : ∀ name ∈ ["identify", "group", "page"], Says event "type" name → Says event "event" name
  user : Says event "type" "identify" → truthy (event.get "user_id") = true
  group : Says event "type" "group" → truthy (event.get "group_id") = true

/-! ## Reserved events -/

def ActiveFlagsOk (properties : Fields) : Prop :=
  ∃ flags versions, properties.get "active_flags" = some (.obj flags) ∧
    properties.get "active_flag_versions" = some (.obj versions) ∧
    (∀ k, k ∈ keys flags ↔ k ∈ keys versions) ∧
    (∀ f ∈ flags, f.1 ≠ [] ∧ NonEmpty f.2) ∧
    ∀ f ∈ versions, f.1 ≠ [] ∧ ∃ n : ℤ, f.2 = .int n ∧ 0 ≤ n

/-- A reserved event: its name, the properties it has, what holds of them, and those that are looked
up in a set or converted to a double. -/
structure Reserved where
  name : String
  allowed : List String
  rules : Rules
  also : Fields → Prop
  members : List String
  numbers : List String

/-- `$feature_flag_exposure`. -/
def exposure : Reserved where
  name := "$feature_flag_exposure"
  allowed := featureFlagExposureKeys
  rules :=
    [("flag_key", false, NonEmpty), ("variant", false, NonEmpty),
      ("reason", false, OneOf featureFlagExposureReasons), ("rule_id", false, OrNull IsString),
      ("rollout_bucket", false, IsNumber), ("variant_bucket", false, IsNumber),
      ("rollout_percentage", false, fun d =>
        IsNumber d ∧ ∃ q, toNumber d = some q ∧ 0 ≤ q ∧ q ≤ 100),
      ("bucket_by", false, NonEmpty),
      ("config_version", false, fun d => ∃ n : ℤ, d = .int n ∧ 1 ≤ n),
      ("source", false, OneOf featureFlagExposureSources), ("page", false, IsString),
      ("component", false, IsString)]
  also properties :=
    (Says properties "reason" "rule_match" → ∃ d, properties.get "rule_id" = some d ∧ NonEmpty d) ∧
      (Says properties "reason" "fallthrough" → ∀ d, properties.get "rule_id" = some d → d = .null)
  members := ["reason", "source"]
  numbers := ["rollout_bucket", "variant_bucket", "rollout_percentage"]

def frontendError : Reserved where
  name := "$frontend_error"
  allowed := frontendErrorKeys
  rules :=
    [("error_type", false, OneOf frontendErrorTypes), ("message", false, IsString),
      ("page", false, IsString), ("component", false, IsString), ("slot_id", false, IsString),
      ("source", false, IsString), ("stack", false, IsString), ("line", false, OrNull IsNumber),
      ("column", false, OrNull IsNumber)]
  also := ActiveFlagsOk
  members := ["error_type"]
  numbers := ["line", "column"]

def webVital : Reserved where
  name := "$web_vital"
  allowed := webVitalKeys
  rules :=
    [("metric", false, OneOf webVitalMetrics), ("rating", false, OneOf webVitalRatings),
      ("value", false, IsNumber), ("delta", false, IsNumber), ("id", false, IsString),
      ("navigation_type", false, IsString), ("page", false, IsString),
      ("component", false, IsString)]
  also := ActiveFlagsOk
  members := ["metric", "rating"]
  numbers := ["value", "delta"]

/-- The envelope of a reserved event. -/
structure EnvelopeOk (event : Fields) : Prop where
  track : Says event "type" "track"
  required : ∀ key ∈ requiredEnvelopeKeys, event.has key = true
  only : Only envelopeKeys event
  identified : Identified event
  texts : ∀ key ∈ ["user_id", "anonymous_id", "group_id", "timestamp", "message_id", "session_id"],
    ∀ d, event.get key = some d → NonEmpty d
  context : ∀ d, event.get "context" = some d → ∃ fields, d = .obj fields

structure Reserved.PropertiesOk (k : Reserved) (properties : Fields) : Prop where
  required : ∀ key ∈ k.allowed, properties.has key = true
  only : Only k.allowed properties
  rules : Follows k.rules properties
  also : k.also properties

/-- The contract of the reserved events. -/
def ReservedOk (event : Fields) : Prop :=
  ∀ k ∈ [exposure, frontendError, webVital], Says event "event" k.name →
    EnvelopeOk event ∧ ∃ properties, event.get "properties" = some (.obj properties) ∧
      k.PropertiesOk properties

/-- The events of a batch of the right shape. -/
def HasEvents (d : Doc) (events : List Doc) : Prop :=
  ∃ body, d = .obj body ∧ Fields.get body "events" = some (.arr events) ∧ Only ["events"] body ∧
    events ≠ [] ∧ events.length ≤ maxBatchSize

def BatchOk (d : Doc) : Prop :=
  ∃ events, HasEvents d events ∧ (events.filterMap messageId).Nodup ∧
    ∀ e ∈ events, ∃ event, e = .obj event ∧ EventOk isStr receivedAt event ∧ ReservedOk event

/-! ## What does not raise -/

/-- A value that can be looked up in a set: no list and no dictionary. -/
def CanHash (d : Doc) : Prop := (∀ items, d ≠ .arr items) ∧ ∀ fields, d ≠ .obj fields

/-- The value is not an integer beyond the doubles. -/
def InDoubles (d : Doc) : Prop := ∀ n : ℤ, d = .int n → (Double.round n).isSome = true

/-- The bounds of the window of a timestamp that are asked for are datetimes. -/
def WindowExists (t : Datetime) : Prop :=
  ∃ oldest, receivedAt.shift (-maxEventAgeSeconds) = some oldest ∧
    (oldest ≤ t.micros → (receivedAt.shift maxEventFutureSkewSeconds).isSome = true)

/-- The window of the timestamp exists, when it is asked for. -/
def TimestampHarmless (event : Fields) : Prop :=
  (∀ name ∈ Event.optionalFields, event.get name ≠ some .null) →
    ∀ s t, event.get "timestamp" = some (.str s) → parseTimestamp s = .ok t →
      WindowExists receivedAt t

/-- What is looked up in a set is no list or dictionary, and every integer that is converted is
within the doubles. -/
def Reserved.Harmless (k : Reserved) (properties : Fields) : Prop :=
  (∀ key ∈ k.members, ∀ d, properties.get key = some d → CanHash d) ∧
    ∀ key ∈ k.numbers, ∀ d, properties.get key = some d → InDoubles d

/-- No value of an event raises. -/
def EventHarmless (event : Fields) : Prop :=
  TimestampHarmless receivedAt event ∧
    ∀ k ∈ [exposure, frontendError, webVital], Says event "event" k.name →
      ∀ properties, event.get "properties" = some (.obj properties) → k.Harmless properties

/-- No value of a batch raises. -/
def BatchHarmless (d : Doc) : Prop :=
  ∀ events, HasEvents d events → ∀ event, .obj event ∈ events → EventHarmless receivedAt event

end Contract

/-! ## Records and their models -/

variable {isStr : Text → Bool} {receivedAt : Datetime} {d : Doc} {fields event properties : Fields}

lemma boundedStr_eq_nil_iff {lo hi : ℕ} :
    boundedStr isStr lo hi d = [] ↔ IsText isStr lo hi d := by
  cases d with
  | str s =>
    have hiff : IsText isStr lo hi (.str s) ↔ isStr s = true ∧ lo ≤ s.length ∧ s.length ≤ hi := by
      simp [IsText]
    rw [hiff, boundedStr]
    split_ifs <;> simp_all
  | _ => simp [boundedStr, IsText]

lemma boundedInt_eq_nil_iff {hi : ℕ} : boundedInt hi d = [] ↔ IsSize hi d := by
  cases d with
  | int n =>
    have hiff : IsSize hi (.int n) ↔ 0 ≤ n ∧ n ≤ hi := by simp [IsSize]
    rw [hiff, boundedInt]
    split_ifs <;> simp <;> omega
  | _ => simp [boundedInt, IsSize]

lemma nullable_eq_nil_iff {validate : Doc → List LineError} {P : Doc → Prop}
    (h : ∀ d, validate d = [] ↔ P d) (d : Doc) : nullable validate d = [] ↔ OrNull P d := by
  cases d with
  | null => simp [nullable, OrNull]
  | _ => simp [nullable, OrNull, h]

/-- The specifications of a model are these rules. -/
abbrev Specifies (specs : List FieldSpec) (rules : Rules) : Prop :=
  List.Forall₂ (fun spec r => spec.name = r.1 ∧ spec.required = r.2.1 ∧
    ∀ d, spec.validate d = [] ↔ r.2.2 d) specs rules

lemma Specifies.errors_eq_nil_iff {specs : List FieldSpec} {rules : Rules}
    (h : Specifies specs rules) :
    specs.flatMap (FieldSpec.errors fields) = [] ↔ Follows rules fields := by
  induction h with
  | nil => simp [Follows]
  | @cons spec r specs rules hr _ ih =>
    obtain ⟨hname, hrequired, hvalidate⟩ := hr
    have hspec : spec.errors fields = [] ↔ match fields.get r.1 with
        | some d => r.2.2 d
        | none => r.2.1 = false := by
      unfold FieldSpec.errors within
      rw [hname, hrequired]
      cases fields.get r.1 with
      | none => cases r.2.1 <;> simp
      | some d => simp [hvalidate]
    rw [List.flatMap_cons, List.append_eq_nil_iff, ih, hspec]
    unfold Follows
    rw [List.forall_mem_cons]

lemma Specifies.names_eq {specs : List FieldSpec} {rules : Rules} (h : Specifies specs rules) :
    specs.map FieldSpec.name = rules.map Prod.fst := by
  induction h with
  | nil => rfl
  | cons hr _ ih => rw [List.map_cons, List.map_cons, hr.1, ih]

lemma extraErrors_eq_nil_iff {names : List String} :
    extraErrors names fields = [] ↔ Only names fields := by
  simp [extraErrors, Only]

lemma Specifies.model_eq_nil_iff {specs : List FieldSpec} {rules : Rules}
    (h : Specifies specs rules) (name : String) (d : Doc) : model name specs d = [] ↔ Record rules d := by
  cases d with
  | obj fields =>
    rw [model, List.append_eq_nil_iff, h.errors_eq_nil_iff, extraErrors_eq_nil_iff, h.names_eq]
    constructor
    · exact fun hd => ⟨fields, rfl, hd⟩
    · rintro ⟨_, ⟨⟩, hd⟩
      exact hd
  | _ => simp [model, Record]

lemma isNull_eq_true : d.isNull = true ↔ d = .null := by
  cases d <;> simp [Doc.isNull]

lemma eventContext_eq_nil_iff (d : Doc) : eventContext isStr d = [] ↔ ContextOk isStr d := by
  have hnamed : Specifies [⟨"name", true, boundedStr isStr 1 128⟩,
      ⟨"version", true, boundedStr isStr 1 128⟩] (namedVersionRules isStr) :=
    .cons ⟨rfl, rfl, fun _ => boundedStr_eq_nil_iff⟩ <|
      .cons ⟨rfl, rfl, fun _ => boundedStr_eq_nil_iff⟩ .nil
  have hdimensions : Specifies [⟨"width", true, boundedInt 100000⟩,
      ⟨"height", true, boundedInt 100000⟩] dimensionsRules :=
    .cons ⟨rfl, rfl, fun _ => boundedInt_eq_nil_iff⟩ <|
      .cons ⟨rfl, rfl, fun _ => boundedInt_eq_nil_iff⟩ .nil
  have hcontext : Specifies (contextSpecs isStr) (contextRules isStr) := by
    refine .cons ⟨rfl, rfl, ?_⟩ <| .cons ⟨rfl, rfl, ?_⟩ <| .cons ⟨rfl, rfl, ?_⟩ <|
      .cons ⟨rfl, rfl, ?_⟩ <| .cons ⟨rfl, rfl, ?_⟩ <| .cons ⟨rfl, rfl, ?_⟩ <|
      .cons ⟨rfl, rfl, ?_⟩ <| .cons ⟨rfl, rfl, ?_⟩ <| .cons ⟨rfl, rfl, ?_⟩ <|
      .cons ⟨rfl, rfl, ?_⟩ .nil <;>
      refine nullable_eq_nil_iff ?_
    · exact hnamed.model_eq_nil_iff _
    · exact hnamed.model_eq_nil_iff _
    · exact hnamed.model_eq_nil_iff _
    · exact Specifies.model_eq_nil_iff (.cons ⟨rfl, rfl, fun _ => boundedStr_eq_nil_iff⟩ .nil) _
    · exact hdimensions.model_eq_nil_iff _
    · exact hdimensions.model_eq_nil_iff _
    · exact Specifies.model_eq_nil_iff (.cons ⟨rfl, rfl, fun _ => boundedStr_eq_nil_iff⟩ <|
        .cons ⟨rfl, rfl, fun _ => boundedStr_eq_nil_iff⟩ <|
        .cons ⟨rfl, rfl, fun _ => boundedStr_eq_nil_iff⟩ <|
        .cons ⟨rfl, rfl, fun _ => boundedStr_eq_nil_iff⟩ .nil) _
    all_goals exact fun _ => boundedStr_eq_nil_iff
  unfold eventContext ContextOk
  rw [← hcontext.model_eq_nil_iff "EventContext"]
  cases d with
  | obj fields =>
    cases hnull : fields.find? fun f => f.2.isNull with
    | some f =>
      have hmem := List.mem_of_find?_eq_some hnull
      have hf := List.find?_some hnull
      simp only [hnull]
      exact iff_of_false (List.cons_ne_nil _ _) fun h =>
        h.2 fields rfl f hmem (isNull_eq_true.1 hf)
    | none =>
      rw [List.find?_eq_none] at hnull
      simp only [List.find?_eq_none.2 hnull]
      refine (and_iff_left ?_).symm
      rintro _ ⟨⟩ f hf hnil
      exact hnull f hf (isNull_eq_true.2 hnil)
  | _ => simp

/-! ## Events -/

lemma validateEventType_eq_nil_iff (d : Doc) :
    validateEventType d = [] ↔ OneOf validEventTypes d := by
  cases d with
  | str s =>
    have hiff : OneOf validEventTypes (.str s) ↔
        (validEventTypes.map ofString).contains s = true := by
      simp [OneOf, eq_comm]
    rw [hiff, validateEventType]
    split
    · exact iff_of_true rfl ‹_›
    · exact iff_of_false (List.cons_ne_nil _ _) ‹_›
  | _ => simp [validateEventType, str, OneOf]

lemma validateProperties_eq_nil_iff (d : Doc) : validateProperties d = [] ↔ PropertiesOk d := by
  cases d with
  | obj fields =>
    have hproperty : ∀ f : Text × Doc, propertyError f = none ↔ f.1.length ≤ maxEventNameLength ∧
        ∀ s, f.2 = .str s → s.length ≤ maxStringPropertyLength := by
      rintro ⟨key, value⟩
      unfold propertyError
      by_cases hkey : maxEventNameLength < key.length
      · simp [hkey]
      · cases value <;> simp [hkey, not_lt.1 hkey]
    simp [validateProperties, PropertiesOk, hproperty]
  | _ => simp [validateProperties, dict, PropertiesOk]

lemma specifies_before : Specifies (Event.specsBefore isStr) (rulesBefore isStr) := by
  have hid : ∀ d, nullable (boundedStr isStr 1 128) d = [] ↔ OrNull (IsText isStr 1 128) d :=
    nullable_eq_nil_iff fun _ => boundedStr_eq_nil_iff
  refine .cons ⟨rfl, rfl, fun d => ?_⟩ <| .cons ⟨rfl, rfl, validateEventType_eq_nil_iff⟩ <|
    .cons ⟨rfl, rfl, hid⟩ <| .cons ⟨rfl, rfl, hid⟩ <| .cons ⟨rfl, rfl, hid⟩ .nil
  cases d with
  | str s =>
    simp only [validateEventName]
    split_ifs <;> simp <;> omega
  | _ => simp [validateEventName, str]

lemma specifies_after : Specifies (Event.specsAfter isStr) (rulesAfter isStr) := by
  refine .cons ⟨rfl, rfl, nullable_eq_nil_iff validateProperties_eq_nil_iff⟩ <|
    .cons ⟨rfl, rfl, nullable_eq_nil_iff fun d => ?_⟩ <|
    .cons ⟨rfl, rfl, eventContext_eq_nil_iff⟩ <|
    .cons ⟨rfl, rfl, fun _ => boundedStr_eq_nil_iff⟩ <|
    .cons ⟨rfl, rfl, nullable_eq_nil_iff fun _ => boundedStr_eq_nil_iff⟩ .nil
  cases d <;> simp [dict]

lemma timestampWindow_eq_nil_iff {t : Datetime} : timestampWindow t receivedAt = .ok [] ↔
    ∃ oldest newest, receivedAt.shift (-maxEventAgeSeconds) = some oldest ∧
      receivedAt.shift maxEventFutureSkewSeconds = some newest ∧
      oldest ≤ t.micros ∧ t.micros ≤ newest := by
  unfold timestampWindow
  cases receivedAt.shift (-maxEventAgeSeconds) with
  | none => simp
  | some oldest =>
    cases receivedAt.shift maxEventFutureSkewSeconds with
    | none =>
      simp only
      split_ifs <;> simp
    | some newest =>
      simp only [Option.some.injEq]
      split_ifs <;> simp <;> omega

lemma validateTimestamp_eq_nil_iff (d : Doc) :
    validateTimestamp receivedAt d = .ok [] ↔ TimestampOk receivedAt d := by
  cases d with
  | str s =>
    unfold validateTimestamp TimestampOk
    cases hparse : parseTimestamp s with
    | error message => simp [hparse]
    | ok t => simp [hparse, timestampWindow_eq_nil_iff]
  | _ => simp [validateTimestamp, str, TimestampOk]

lemma envelopeErrors_eq_nil_iff : Event.envelopeErrors event = [] ↔ Identified event ∧
    (∀ name ∈ ["identify", "group", "page"], Says event "type" name → Says event "event" name) ∧
    (Says event "type" "identify" → truthy (event.get "user_id") = true) ∧
    (Says event "type" "group" → truthy (event.get "group_id") = true) := by
  unfold Event.envelopeErrors
  by_cases hid : Identified event
  · have hnot : (!truthy (event.get "user_id") && !truthy (event.get "anonymous_id")) = false := by
      rcases hid with h | h <;> simp [h]
    simp only [hnot, Bool.false_eq_true, if_false, hid, true_and]
    unfold Says
    cases htype : event.get "type" with
    | none => simp
    | some d =>
      cases d with
      | str type =>
        have hany : ∀ name, ((event.get "event").any fun d => d.toText == some name) = true ↔
            event.get "event" = some (.str name) := by
          intro name
          cases event.get "event" with
          | none => simp
          | some d => cases d <;> simp [Doc.toText]
        have hig : ofString "identify" ≠ ofString "group" := by decide
        have hip : ofString "identify" ≠ ofString "page" := by decide
        have hgp : ofString "group" ≠ ofString "page" := by decide
        simp only [List.forall_mem_cons, Option.some.injEq, Doc.str.injEq]
        by_cases hidentify : type = ofString "identify"
        · subst hidentify
          have hname : canonicalEventName (ofString "identify") = some (ofString "identify") := by
            decide
          simp only [hname, hany]
          split_ifs <;> simp_all [isText]
        by_cases hgroup : type = ofString "group"
        · subst hgroup
          have hname : canonicalEventName (ofString "group") = some (ofString "group") := by
            decide
          simp only [hname, hany]
          split_ifs <;> simp_all [isText, hig.symm]
        by_cases hpage : type = ofString "page"
        · subst hpage
          have hname : canonicalEventName (ofString "page") = some (ofString "page") := by
            decide
          simp only [hname, hany]
          split_ifs <;> simp_all [isText, hip.symm, hgp.symm]
        · have hname : canonicalEventName type = none := by
            simp [canonicalEventName, Ne.symm hidentify, Ne.symm hgroup, Ne.symm hpage]
          simp [hname, hidentify, hgroup, hpage]
      | _ => simp
  · have hnot : (!truthy (event.get "user_id") && !truthy (event.get "anonymous_id")) = true := by
      simpa [Identified] using hid
    simp [hnot, hid]

lemma explicitNull_eq_none_iff : Event.explicitNull event = none ↔
    ∀ name ∈ Event.optionalFields, event.get name ≠ some .null := by
  rw [Event.explicitNull, List.find?_eq_none]
  refine forall₂_congr fun name _ => ?_
  cases event.get name with
  | none => simp
  | some d => simp [isNull_eq_true]

lemma map_eq_ok_iff {α β : Type} {x : Except Raised α} {f : α → β} {b : β} :
    x.map f = .ok b ↔ ∃ a, x = .ok a ∧ f a = b := by
  cases x <;> simp [Except.map]

lemma returns_bind {α β : Type} {x : Except Raised α} {f : α → Except Raised β} :
    (∃ b, (x >>= f) = .ok b) ↔ ∃ a, x = .ok a ∧ ∃ b, f a = .ok b := by
  simp only [bind_eq_ok]
  constructor
  · rintro ⟨b, a, ha, hb⟩
    exact ⟨a, ha, b, hb⟩
  · rintro ⟨a, ha, b, hb⟩
    exact ⟨b, a, ha, hb⟩

lemma returns_map {α β : Type} {x : Except Raised α} {f : α → β} :
    (∃ b, x.map f = .ok b) ↔ ∃ a, x = .ok a := by
  cases x <;> simp [Except.map]

lemma fieldErrors_eq_nil_iff : Event.fieldErrors isStr receivedAt event = .ok [] ↔
    Record (eventRules isStr receivedAt) (.obj event) := by
  have htimestamp : Event.timestampErrors receivedAt event = .ok [] ↔
      match event.get "timestamp" with
      | some d => TimestampOk receivedAt d
      | none => true = false := by
    unfold Event.timestampErrors
    cases event.get "timestamp" with
    | none => simp [within]
    | some d => simp [map_eq_ok_iff, within, ← validateTimestamp_eq_nil_iff]
  have hnames : Event.fieldNames isStr = (eventRules isStr receivedAt).map Prod.fst := by
    rw [Event.fieldNames, eventRules, specifies_before.names_eq, specifies_after.names_eq,
      List.map_append, List.map_cons]
  have hrecord : Record (eventRules isStr receivedAt) (.obj event) ↔
      Follows (eventRules isStr receivedAt) event ∧
        Only ((eventRules isStr receivedAt).map Prod.fst) event :=
    ⟨fun ⟨_, h, hr⟩ => by cases h; exact hr, fun hr => ⟨event, rfl, hr⟩⟩
  have hfollows : Follows (eventRules isStr receivedAt) event ↔ Follows (rulesBefore isStr) event ∧
      Event.timestampErrors receivedAt event = .ok [] ∧ Follows (rulesAfter isStr) event := by
    rw [htimestamp]
    unfold Follows eventRules
    rw [List.forall_mem_append, List.forall_mem_cons]
  rw [hrecord, hfollows, ← hnames, ← extraErrors_eq_nil_iff, ← specifies_before.errors_eq_nil_iff,
    ← specifies_after.errors_eq_nil_iff]
  simp only [Event.fieldErrors, bind_eq_ok, pure_eq_ok, List.append_eq_nil_iff]
  constructor
  · rintro ⟨ts, hts, ⟨⟨hbefore, rfl⟩, hafter⟩, hextra⟩
    exact ⟨⟨hbefore, hts, hafter⟩, hextra⟩
  · rintro ⟨⟨hbefore, hts, hafter⟩, hextra⟩
    exact ⟨[], hts, ⟨⟨hbefore, rfl⟩, hafter⟩, hextra⟩

lemma modelValidate_eq_nil_iff : Event.modelValidate isStr receivedAt event = .ok [] ↔
    EventOk isStr receivedAt event := by
  unfold Event.modelValidate
  cases hnull : Event.explicitNull event with
  | some name =>
    refine iff_of_false (by simp) fun h => ?_
    rw [explicitNull_eq_none_iff.2 h.noNull] at hnull
    cases hnull
  | none =>
    have herrors : ∀ errors : List LineError,
        (if errors = [] then Event.envelopeErrors event else errors) = [] ↔
          errors = [] ∧ Event.envelopeErrors event = [] := by
      intro errors
      split_ifs with h <;> simp [h]
    simp only [map_eq_ok_iff, herrors, envelopeErrors_eq_nil_iff]
    constructor
    · rintro ⟨_, hfields, rfl, hid, hnamed, huser, hgroup⟩
      exact ⟨fieldErrors_eq_nil_iff.1 hfields, explicitNull_eq_none_iff.1 hnull, hid, hnamed, huser,
        hgroup⟩
    · intro h
      exact ⟨[], fieldErrors_eq_nil_iff.2 h.fields, rfl, h.identified, h.named, h.user, h.group⟩

lemma timestampWindow_returns_iff {t : Datetime} :
    (∃ errors, timestampWindow t receivedAt = .ok errors) ↔ WindowExists receivedAt t := by
  unfold timestampWindow WindowExists
  cases receivedAt.shift (-maxEventAgeSeconds) with
  | none => simp
  | some oldest =>
    simp only [Option.some.injEq, exists_eq_left']
    by_cases hold : t.micros < oldest
    · simp [hold]
    · cases receivedAt.shift maxEventFutureSkewSeconds with
      | none => simp [hold]
      | some newest =>
        refine iff_of_true ?_ fun _ => rfl
        simp only [hold, if_false]
        split_ifs <;> exact ⟨_, rfl⟩

lemma modelValidate_returns_iff :
    (∃ errors, Event.modelValidate isStr receivedAt event = .ok errors) ↔
      TimestampHarmless receivedAt event := by
  unfold Event.modelValidate TimestampHarmless
  rw [← explicitNull_eq_none_iff]
  cases Event.explicitNull event with
  | some name => simp
  | none =>
    have hfields : (∃ errors, Event.fieldErrors isStr receivedAt event = .ok errors) ↔
        ∃ errors, Event.timestampErrors receivedAt event = .ok errors := by
      simp only [Event.fieldErrors, bind_eq_ok, pure_eq_ok]
      constructor
      · rintro ⟨_, ts, hts, -⟩
        exact ⟨ts, hts⟩
      · rintro ⟨ts, hts⟩
        exact ⟨_, ts, hts, rfl⟩
    rw [returns_map, hfields, forall_prop_of_true rfl]
    unfold Event.timestampErrors
    cases event.get "timestamp" with
    | none => simp
    | some d =>
      simp only [returns_map]
      cases d with
      | str s =>
        simp only [validateTimestamp, Option.some.injEq, Doc.str.injEq]
        cases hparse : parseTimestamp s with
        | error message =>
          refine iff_of_true ⟨_, rfl⟩ ?_
          rintro _ t rfl ht
          rw [hparse] at ht
          cases ht
        | ok t =>
          rw [timestampWindow_returns_iff]
          constructor
          · rintro hwindow _ t' rfl ht
            rw [hparse] at ht
            cases ht
            exact hwindow
          · exact fun h => h s t rfl hparse
      | _ => simp [validateTimestamp]

/-! ## Reserved events -/

lemma has_eq_true_iff {key : String} : fields.has key = true ↔ ofString key ∈ keys fields := by
  simp [Doc.Fields.has, Doc.Fields.get, keys, List.lookup_isSome_iff]

lemma sorted_eq_nil_iff {texts : List Text} : sorted texts = [] ↔ texts = [] := by
  rw [← List.length_eq_zero_iff, sorted, List.length_mergeSort, List.length_eq_zero_iff]

lemma missing_eq_nil_iff {required : List String} :
    missing required fields = [] ↔ ∀ key ∈ required, fields.has key = true := by
  rw [missing, sorted_eq_nil_iff]
  simp [has_eq_true_iff]

lemma unknown_eq_nil_iff {allowed : List String} :
    unknown allowed fields = [] ↔ Only allowed fields := by
  rw [unknown, sorted_eq_nil_iff]
  simp [Only, keys]

lemma isText_eq_true_iff {key text : String} :
    isText (fields.get key) text = true ↔ Says fields key text := by
  unfold isText Says
  cases fields.get key with
  | none => simp
  | some d => cases d <;> simp

lemma isNonEmptyString_eq_true_iff : isNonEmptyString (some d) = true ↔ NonEmpty d := by
  cases d <;> simp [isNonEmptyString, NonEmpty]

lemma envelope_eq_nil_iff (path : Text) (name : String) : trackError event path name ++
    validateFeatureFlagExposureEnvelope event path = [] ↔ EnvelopeOk event := by
  have htrack : trackError event path name = [] ↔ Says event "type" "track" := by
    unfold trackError
    rw [← isText_eq_true_iff]
    split_ifs with h <;> simp [h]
  have hid : (!truthy (event.get "user_id") && !truthy (event.get "anonymous_id")) = false ↔
      Identified event := by
    unfold Identified
    cases truthy (event.get "user_id") <;> simp
  have htext : ∀ key : String, (event.has key && !isNonEmptyString (event.get key)) = false ↔
      ∀ d, event.get key = some d → NonEmpty d := by
    intro key
    unfold Doc.Fields.has
    cases event.get key with
    | none => simp
    | some d => simp [← isNonEmptyString_eq_true_iff]
  have hcontext :
      (event.has "context" && ((event.get "context").bind Doc.toFields).isNone) = false ↔
        ∀ d, event.get "context" = some d → ∃ fields, d = .obj fields := by
    unfold Doc.Fields.has
    cases event.get "context" with
    | none => simp
    | some d => cases d <;> simp [Doc.toFields]
  have hempty : ∀ (b : Bool) (e : FieldError), (if b = true then [e] else []) = [] ↔ b = false := by
    intro b e
    cases b <;> simp
  rw [List.append_eq_nil_iff, htrack]
  unfold validateFeatureFlagExposureEnvelope
  simp only [List.append_eq_nil_iff, List.map_eq_nil_iff, missing_eq_nil_iff, unknown_eq_nil_iff,
    List.flatMap_eq_nil_iff, hempty, hid, htext, hcontext]
  constructor
  · rintro ⟨ht, ⟨⟨⟨hr, ho⟩, hi⟩, hx⟩, hc⟩
    exact ⟨ht, hr, ho, hi, hx, hc⟩
  · exact fun h => ⟨h.track, ⟨⟨⟨h.required, h.only⟩, h.identified⟩, h.texts⟩, h.context⟩

lemma checkProperty_eq_nil_iff {path : Text} {key message : String}
    {fails : Doc → Except Raised Bool} :
    checkProperty properties path key message fails = .ok [] ↔
      ∀ d, properties.get key = some d → fails d = .ok false := by
  unfold checkProperty
  cases properties.get key with
  | none => simp
  | some d =>
    cases h : fails d with
    | error e => simp [Except.map, h]
    | ok b => cases b <;> simp [Except.map, h]

lemma checkProperty_returns_iff {path : Text} {key message : String}
    {fails : Doc → Except Raised Bool} :
    (∃ errors, checkProperty properties path key message fails = .ok errors) ↔
      ∀ d, properties.get key = some d → ∃ b, fails d = .ok b := by
  unfold checkProperty
  cases properties.get key with
  | none => simp
  | some d =>
    constructor
    · rintro ⟨_, h⟩ _ ⟨⟩
      obtain ⟨b, hb, -⟩ := map_eq_ok_iff.1 h
      exact ⟨b, hb⟩
    · intro h
      obtain ⟨b, hb⟩ := h d rfl
      exact ⟨_, map_eq_ok_iff.2 ⟨b, hb, rfl⟩⟩

lemma isMember_iff {texts : List String} :
    (isMember texts d).map (!·) = .ok false ↔ OneOf texts d := by
  cases d with
  | str s => simp [isMember, OneOf, Except.map, eq_comm (a := s)]
  | _ => simp [isMember, OneOf, Except.map]

lemma isFiniteNumber_iff : (isFiniteNumber d).map (!·) = .ok false ↔ IsNumber d := by
  cases d with
  | int n =>
    have hiff : IsNumber (.int n) ↔ (Double.round n).isSome = true := by simp [IsNumber, toNumber]
    rw [hiff, isFiniteNumber]
    split_ifs with h <;> simp [Except.map, h]
  | float q => simp [isFiniteNumber, IsNumber, toNumber, Except.map]
  | _ => simp [isFiniteNumber, IsNumber, toNumber, Except.map]

lemma nullableNumber_iff :
    (if d.isNull then .ok false else (isFiniteNumber d).map (!·)) = .ok false ↔
      OrNull IsNumber d := by
  cases d with
  | null => simp [Doc.isNull, OrNull]
  | _ => simp [Doc.isNull, OrNull, isFiniteNumber_iff]

lemma follows_cons {name : String} {P : Doc → Prop} {rules : Rules} :
    Follows ((name, false, P) :: rules) fields ↔
      (∀ d, fields.get name = some d → P d) ∧ Follows rules fields := by
  unfold Follows
  rw [List.forall_mem_cons]
  refine and_congr_left fun _ => ?_
  cases fields.get name <;> simp

lemma follows_required {name : String} {P : Doc → Prop} {rules : Rules} :
    Follows ((name, true, P) :: rules) fields ↔
      (∃ d, fields.get name = some d ∧ P d) ∧ Follows rules fields := by
  unfold Follows
  rw [List.forall_mem_cons]
  refine and_congr_left fun _ => ?_
  cases fields.get name <;> simp

lemma property_eq_nil_iff (path : Text) (key : String) (texts : List String) (message : String) :
    (validateStringProperty properties path key = .ok [] ↔
      ∀ d, properties.get key = some d → IsString d) ∧
    (validateNullableStringProperty properties path key = .ok [] ↔
      ∀ d, properties.get key = some d → OrNull IsString d) ∧
    (validateNumberProperty properties path key = .ok [] ↔
      ∀ d, properties.get key = some d → IsNumber d) ∧
    (validateNullableNumberProperty properties path key = .ok [] ↔
      ∀ d, properties.get key = some d → OrNull IsNumber d) ∧
    (checkMember properties path key message texts = .ok [] ↔
      ∀ d, properties.get key = some d → OneOf texts d) := by
  refine ⟨?_, ?_, ?_, ?_, ?_⟩ <;>
    refine checkProperty_eq_nil_iff.trans (forall₂_congr fun d _ => ?_)
  · cases d <;> simp [Doc.toText, IsString]
  · cases d <;> simp [Doc.toText, Doc.isNull, OrNull, IsString]
  · exact isFiniteNumber_iff
  · exact nullableNumber_iff
  · exact isMember_iff

@[simp] lemma follows_nil : Follows [] fields := by
  simp [Follows]

lemma percentage_eq_nil_iff {path : Text} {key : String} :
    validateNullablePercentageProperty properties path key = .ok [] ↔
      ∀ d, properties.get key = some d → OrNull (fun d => IsNumber d ∧
        ∃ q, toNumber d = some q ∧ 0 ≤ q ∧ q ≤ 100) d := by
  have hkind := (@property_eq_nil_iff properties path key [] "").2.2.2.1
  have hsplit : validateNullablePercentageProperty properties path key = .ok [] ↔
      validateNullableNumberProperty properties path key = .ok [] ∧
        0 ≤ ((properties.get key).bind toNumber).getD 0 ∧
        ((properties.get key).bind toNumber).getD 0 ≤ 100 := by
    simp only [validateNullablePercentageProperty, bind_eq_ok]
    constructor
    · rintro ⟨kind, hnumber, h⟩
      split_ifs at h with hnil <;> simp_all
    · rintro ⟨hnumber, hlow, hhigh⟩
      exact ⟨[], hnumber, by simp [not_lt.2 hlow, not_lt.2 hhigh]⟩
  rw [hsplit, hkind]
  cases properties.get key with
  | none => simp
  | some d =>
    simp only [Option.some.injEq, forall_eq', Option.bind_some]
    constructor
    · rintro ⟨rfl | hnumber, hlow, hhigh⟩
      · exact .inl rfl
      · obtain ⟨q, hq, -⟩ := id hnumber
        rw [hq] at hlow hhigh
        exact .inr ⟨hnumber, q, hq, hlow, hhigh⟩
    · rintro (rfl | ⟨hnumber, q, hq, hlow, hhigh⟩)
      · exact ⟨.inl rfl, by simp [toNumber], by simp [toNumber]⟩
      · rw [hq]
        exact ⟨.inr hnumber, hlow, hhigh⟩

lemma ruleIdErrors_eq_nil_iff {path : Text} :
    ruleIdErrors properties path = [] ↔ exposure.also properties := by
  have htext : isNonEmptyString (properties.get "rule_id") = true ↔
      ∃ d, properties.get "rule_id" = some d ∧ NonEmpty d := by
    cases properties.get "rule_id" with
    | none => simp [isNonEmptyString]
    | some d => simp [isNonEmptyString_eq_true_iff]
  have hnull : ((properties.get "rule_id").any fun d => !d.isNull) = false ↔
      ∀ d, properties.get "rule_id" = some d → d = .null := by
    cases properties.get "rule_id" with
    | none => simp
    | some d => simp [isNull_eq_true]
  unfold ruleIdErrors exposure
  simp only [List.append_eq_nil_iff, ite_eq_right_iff, List.cons_ne_nil, imp_false,
    Bool.and_eq_true, Bool.not_eq_true', not_and, Bool.not_eq_false, Bool.not_eq_true,
    isText_eq_true_iff, htext, hnull]

lemma exposureTypes_eq_nil_iff {path : Text} :
    validateFeatureFlagExposureTypes properties path = .ok [] ↔
      Follows exposure.rules properties ∧ exposure.also properties := by
  have hprop := @property_eq_nil_iff properties path
  have htext : ∀ d : Doc, (.ok (!isNonEmptyString (some d)) : Except Raised Bool) = .ok false ↔
      NonEmpty d := fun d => by simp [← isNonEmptyString_eq_true_iff]
  have hversion : ∀ d : Doc, (.ok (!isNonNegativeInt d || decide ((toNumber d).getD 0 < 1)) :
      Except Raised Bool) = .ok false ↔ ∃ n : ℤ, d = .int n ∧ 1 ≤ n := by
    intro d
    cases d with
    | int n =>
      have hcast : ((n : ℚ) < 1) ↔ n < 1 := by exact_mod_cast Iff.rfl
      simp [isNonNegativeInt, toNumber, hcast]
      omega
    | _ => simp [isNonNegativeInt]
  have hnotNull : ∀ key : String, notNull properties path key = [] ↔
      ∀ d, properties.get key = some d → d ≠ .null := by
    intro key
    unfold notNull
    cases properties.get key with
    | none => simp
    | some d => simp [← isNull_eq_true]
  unfold validateFeatureFlagExposureTypes
  simp only [bind_eq_ok, pure_eq_ok, List.append_eq_nil_iff, and_assoc, ↓existsAndEq,
    List.flatMap_cons, List.flatMap_nil, List.append_nil, and_true, true_and,
    checkProperty_eq_nil_iff, htext, hversion, hnotNull, ruleIdErrors_eq_nil_iff,
    percentage_eq_nil_iff, (hprop _ [] "").1, (hprop _ [] "").2.1, (hprop _ [] "").2.2.2.1,
    (hprop _ _ _).2.2.2.2]
  have hnumber : ∀ {d : Doc}, IsNumber d → d ≠ .null := by
    rintro _ ⟨q, hq, -⟩ rfl
    cases hq
  unfold exposure
  simp only [follows_cons]
  constructor
  · rintro ⟨h1, h2, h3, h4, h5, h6, h7, -, h8, h9, h10, h11, h12, n5, n6, n7, hrule⟩
    exact ⟨⟨h1, h2, h3, h4, fun d hd => (h5 d hd).resolve_left (n5 d hd),
      fun d hd => (h6 d hd).resolve_left (n6 d hd), fun d hd => (h7 d hd).resolve_left (n7 d hd),
      h8, h9, h10, h11, h12, follows_nil⟩, hrule⟩
  · rintro ⟨⟨h1, h2, h3, h4, h5, h6, h7, h8, h9, h10, h11, h12, -⟩, hrule⟩
    refine ⟨h1, h2, h3, h4, fun d hd => .inr (h5 d hd), fun d hd => .inr (h6 d hd),
      fun d hd => .inr (h7 d hd), fun d hd => ?_, h8, h9, h10, h11, h12,
      fun d hd => hnumber (h5 d hd), fun d hd => hnumber (h6 d hd), fun d hd => hnumber (h7 d hd).1,
      hrule⟩
    obtain ⟨t, rfl, -⟩ := h8 d hd
    exact .inr ⟨t, rfl⟩

lemma validateActiveFlagProperties_eq_nil {path : Text} {flags versions : Fields}
    (hflags : properties.get "active_flags" = some (.obj flags))
    (hversions : properties.get "active_flag_versions" = some (.obj versions)) :
    validateActiveFlagProperties properties path = [] ↔
      (∀ k, k ∈ keys flags ↔ k ∈ keys versions) ∧
        (∀ f ∈ flags, f.1 ≠ [] ∧ isNonEmptyString (some f.2) = true) ∧
          ∀ f ∈ versions, f.1 ≠ [] ∧ isNonNegativeInt f.2 = true := by
  have hsame (l l' : List Text) : (l.all l'.contains && l'.all l.contains) = true ↔
      ∀ k, k ∈ l ↔ k ∈ l' := by
    simp only [Bool.and_eq_true, List.all_eq_true, List.contains_iff_mem]
    exact ⟨fun h k => ⟨h.1 k, h.2 k⟩, fun h => ⟨fun k => (h k).1, fun k => (h k).2⟩⟩
  have hempty (k : Text) (e : FieldError) : (if k = [] then [e] else []) = [] ↔ k ≠ [] := by
    split_ifs with hk <;> simp [hk]
  have hbad (c : Bool) (e : FieldError) : (if c = true then [] else [e]) = [] ↔ c = true := by
    cases c <;> simp
  unfold validateActiveFlagProperties
  simp only [hflags, hversions, dictProperty, Option.bind_some, Doc.toFields,
    List.append_eq_nil_iff, List.flatMap_eq_nil_iff, activeFlagErrors, activeVersionErrors, hempty,
    hbad, hsame, and_assoc]

lemma activeFlags_eq_nil_iff {path : Text} (hflags : properties.has "active_flags" = true)
    (hversions : properties.has "active_flag_versions" = true) :
    validateActiveFlagProperties properties path = [] ↔ ActiveFlagsOk properties := by
  obtain ⟨f, hf⟩ := Option.isSome_iff_exists.1 hflags
  obtain ⟨v, hv⟩ := Option.isSome_iff_exists.1 hversions
  have hnat : ∀ d : Doc, isNonNegativeInt d = true ↔ ∃ n : ℤ, d = .int n ∧ 0 ≤ n := by
    intro d
    cases d <;> simp [isNonNegativeInt]
  unfold ActiveFlagsOk
  cases f with
  | obj flags =>
    cases v with
    | obj versions =>
      rw [validateActiveFlagProperties_eq_nil hf hv]
      simp [hf, hv, isNonEmptyString_eq_true_iff, hnat]
    | _ => simp [validateActiveFlagProperties, dictProperty, hf, hv, Doc.toFields]
  | _ => simp [validateActiveFlagProperties, dictProperty, hf, Doc.toFields]

lemma frontendErrorTypes_eq_nil_iff {path : Text} :
    validateFrontendErrorTypes properties path = .ok [] ↔
      Follows frontendError.rules properties ∧
        validateActiveFlagProperties properties path = [] := by
  have hprop := @property_eq_nil_iff properties path
  unfold validateFrontendErrorTypes frontendError
  simp only [bind_eq_ok, pure_eq_ok, List.append_eq_nil_iff, and_assoc, List.mapM_cons,
    List.mapM_nil, ↓existsAndEq, and_true, List.flatten_cons, List.flatten_nil, List.append_nil,
    true_and, exists_and_left, (hprop _ [] "").1, (hprop _ [] "").2.2.2.1, (hprop _ _ _).2.2.2.2,
    follows_cons, follows_nil]

lemma webVitalTypes_eq_nil_iff {path : Text} :
    validateWebVitalTypes properties path = .ok [] ↔
      Follows webVital.rules properties ∧ validateActiveFlagProperties properties path = [] := by
  have hprop := @property_eq_nil_iff properties path
  unfold validateWebVitalTypes webVital
  simp only [bind_eq_ok, pure_eq_ok, List.append_eq_nil_iff, and_assoc, List.mapM_cons,
    List.mapM_nil, ↓existsAndEq, and_true, List.flatten_cons, List.flatten_nil, List.append_nil,
    true_and, exists_and_left, (hprop _ [] "").1, (hprop _ [] "").2.2.1, (hprop _ _ _).2.2.2.2,
    follows_cons, follows_nil]

lemma property_returns_iff (path : Text) (key : String) (texts : List String) (message : String) :
    (∃ errors, validateStringProperty properties path key = .ok errors) ∧
    (∃ errors, validateNullableStringProperty properties path key = .ok errors) ∧
    ((∃ errors, validateNumberProperty properties path key = .ok errors) ↔
      ∀ d, properties.get key = some d → InDoubles d) ∧
    ((∃ errors, validateNullableNumberProperty properties path key = .ok errors) ↔
      ∀ d, properties.get key = some d → InDoubles d) ∧
    ((∃ errors, checkMember properties path key message texts = .ok errors) ↔
      ∀ d, properties.get key = some d → CanHash d) := by
  have hnumber : ∀ d, (∃ b, isFiniteNumber d = .ok b) ↔ InDoubles d := by
    intro d
    cases d with
    | int n =>
      rw [isFiniteNumber]
      split_ifs with h <;> simp [InDoubles, h]
    | _ => simp [isFiniteNumber, InDoubles]
  refine ⟨checkProperty_returns_iff.2 fun d _ => ⟨_, rfl⟩,
    checkProperty_returns_iff.2 fun d _ => ⟨_, rfl⟩, ?_, ?_, ?_⟩ <;>
    refine checkProperty_returns_iff.trans (forall₂_congr fun d _ => ?_)
  · exact returns_map.trans (hnumber d)
  · rw [← hnumber]
    cases d <;> simp [Doc.isNull, isFiniteNumber, returns_map]
  · rw [returns_map]
    cases d <;> simp [isMember, CanHash]

lemma percentage_returns_iff {path : Text} {key : String} :
    (∃ errors, validateNullablePercentageProperty properties path key = .ok errors) ↔
      ∀ d, properties.get key = some d → InDoubles d := by
  rw [← (@property_returns_iff properties path key [] "").2.2.2.1]
  unfold validateNullablePercentageProperty
  rw [returns_bind]
  refine exists_congr fun kind => and_iff_left ?_
  dsimp only
  split_ifs <;> exact ⟨_, rfl⟩

lemma types_return_iff {path : Text} :
    ((∃ errors, validateFeatureFlagExposureTypes properties path = .ok errors) ↔
      exposure.Harmless properties) ∧
    ((∃ errors, validateFrontendErrorTypes properties path = .ok errors) ↔
      frontendError.Harmless properties) ∧
    ((∃ errors, validateWebVitalTypes properties path = .ok errors) ↔
      webVital.Harmless properties) := by
  have hprop := @property_returns_iff properties path
  have hcheck : ∀ (key message : String) (f : Doc → Bool), ∃ errors,
      checkProperty properties path key message (fun d => .ok (f d)) = .ok errors :=
    fun key message f => checkProperty_returns_iff.2 fun d _ => ⟨_, rfl⟩
  unfold validateFeatureFlagExposureTypes validateFrontendErrorTypes validateWebVitalTypes
    Reserved.Harmless exposure frontendError webVital
  simp only [returns_bind, exists_and_right, hcheck, (hprop _ [] "").1, (hprop _ [] "").2.1,
    (hprop _ [] "").2.2.1, (hprop _ [] "").2.2.2.1, (hprop _ _ _).2.2.2.2, percentage_returns_iff,
    List.mapM_cons, List.mapM_nil, true_and, pure_eq_ok, exists_eq', and_true, List.forall_mem_cons,
    List.not_mem_nil, IsEmpty.forall_iff, implies_true]
  refine ⟨⟨?_, ?_⟩, and_assoc.symm⟩
  · rintro ⟨h1, h2, h3, h4, h5⟩
    exact ⟨⟨h1, h5⟩, h2, h3, h4⟩
  · rintro ⟨⟨h1, h5⟩, h2, h3, h4⟩
    exact ⟨h1, h2, h3, h4, h5⟩

/-! ## From properties to batches -/

lemma keyErrors_eq_nil_iff {path : Text} {allowed : List String} {name : String} :
    keyErrors properties path allowed name = [] ↔
      (∀ key ∈ allowed, properties.has key = true) ∧ Only allowed properties := by
  rw [keyErrors, List.append_eq_nil_iff, List.map_eq_nil_iff, List.map_eq_nil_iff,
    missing_eq_nil_iff, unknown_eq_nil_iff]

lemma reserved_iff {k : Reserved} {path : Text} {name label : String}
    {types : Fields → Text → Except Raised (List FieldError)}
    (htypes : ∀ ps, (∀ key ∈ k.allowed, ps.has key = true) →
      (types ps path = .ok [] ↔ Follows k.rules ps ∧ k.also ps))
    (hreturns : ∀ ps, (∃ errors, types ps path = .ok errors) ↔ k.Harmless ps)
    {v : Except Raised (List FieldError)}
    (hv : v = match reservedProperties event path with
      | .error e => .ok (trackError event path name ++
          validateFeatureFlagExposureEnvelope event path ++ [e])
      | .ok ps => (types ps path).map fun errors => trackError event path name ++
          validateFeatureFlagExposureEnvelope event path ++ keyErrors ps path k.allowed label ++
          errors) :
    (v = .ok [] ↔ EnvelopeOk event ∧ ∃ ps, event.get "properties" = some (.obj ps) ∧
      k.PropertiesOk ps) ∧
    ((∃ errors, v = .ok errors) ↔
      ∀ ps, event.get "properties" = some (.obj ps) → k.Harmless ps) := by
  subst hv
  unfold reservedProperties
  cases event.get "properties" with
  | none => simp
  | some d =>
    cases d with
    | obj ps =>
      simp only [Option.some.injEq, Doc.obj.injEq, exists_eq_left', forall_eq']
      refine ⟨?_, returns_map.trans (hreturns ps)⟩
      rw [map_eq_ok_iff, ← envelope_eq_nil_iff path name]
      constructor
      · rintro ⟨errors, herrors, h⟩
        rw [List.append_eq_nil_iff, List.append_eq_nil_iff, keyErrors_eq_nil_iff] at h
        obtain ⟨⟨henv, hrequired, honly⟩, rfl⟩ := h
        have hrules := (htypes ps hrequired).1 herrors
        exact ⟨henv, hrequired, honly, hrules.1, hrules.2⟩
      · rintro ⟨henv, h⟩
        refine ⟨[], (htypes ps h.required).2 ⟨h.rules, h.also⟩, ?_⟩
        rw [henv, keyErrors_eq_nil_iff.2 ⟨h.required, h.only⟩]
        rfl
    | _ => simp

lemma validateReservedEvent_iff (path : Text) :
    (validateReservedEvent event path = .ok [] ↔ ReservedOk event) ∧
    ((∃ errors, validateReservedEvent event path = .ok errors) ↔
      ∀ k ∈ [exposure, frontendError, webVital], Says event "event" k.name →
        ∀ ps, event.get "properties" = some (.obj ps) → k.Harmless ps) := by
  have hflags : ∀ {k : Reserved} (ps : Fields), "active_flags" ∈ k.allowed →
      "active_flag_versions" ∈ k.allowed → (∀ key ∈ k.allowed, ps.has key = true) →
      (validateActiveFlagProperties ps path = [] ↔ ActiveFlagsOk ps) :=
    fun ps hf hv hrequired => activeFlags_eq_nil_iff (hrequired _ hf) (hrequired _ hv)
  have hexposure := @reserved_iff event exposure path _ _ _
    (fun ps _ => exposureTypes_eq_nil_iff) (fun ps => types_return_iff.1)
    (validateFeatureFlagExposureEvent event path) rfl
  have herror := @reserved_iff event frontendError path _ _ _
    (fun ps hrequired => frontendErrorTypes_eq_nil_iff.trans
      (and_congr_right fun _ => hflags ps (by decide) (by decide) hrequired))
    (fun ps => types_return_iff.2.1) (validateFrontendErrorEvent event path) rfl
  have hvital := @reserved_iff event webVital path _ _ _
    (fun ps hrequired => webVitalTypes_eq_nil_iff.trans
      (and_congr_right fun _ => hflags ps (by decide) (by decide) hrequired))
    (fun ps => types_return_iff.2.2) (validateWebVitalEvent event path) rfl
  have hother : ∀ a b : String, ofString a ≠ ofString b → Says event "event" a →
      ¬ Says event "event" b := by
    intro a b hne ha hb
    unfold Says at ha hb
    rw [ha] at hb
    exact hne (by simpa using hb)
  have hnames : exposure.name = "$feature_flag_exposure" ∧ frontendError.name = "$frontend_error" ∧
      webVital.name = "$web_vital" := ⟨rfl, rfl, rfl⟩
  unfold validateReservedEvent ReservedOk
  simp only [List.forall_mem_cons, List.not_mem_nil, IsEmpty.forall_iff, implies_true, and_true,
    hnames]
  by_cases h₁ : isText (event.get "event") "$feature_flag_exposure" = true
  · have s₁ := isText_eq_true_iff.1 h₁
    have s₂ := hother _ "$frontend_error" (by decide) s₁
    have s₃ := hother _ "$web_vital" (by decide) s₁
    simpa only [h₁, s₁, s₂, s₃, if_true, forall_const, false_imp_iff, and_true] using hexposure
  have s₁ := mt isText_eq_true_iff.2 h₁
  by_cases h₂ : isText (event.get "event") "$frontend_error" = true
  · have s₂ := isText_eq_true_iff.1 h₂
    have s₃ := hother _ "$web_vital" (by decide) s₂
    simpa only [h₁, h₂, s₁, s₂, s₃, if_true, if_false, Bool.false_eq_true, forall_const,
      false_imp_iff, and_true, true_and] using herror
  have s₂ := mt isText_eq_true_iff.2 h₂
  by_cases h₃ : isText (event.get "event") "$web_vital" = true
  · have s₃ := isText_eq_true_iff.1 h₃
    simpa only [h₁, h₂, h₃, s₁, s₂, s₃, if_true, if_false, Bool.false_eq_true, forall_const,
      false_imp_iff, true_and] using hvital
  · simp [h₁, h₂, h₃, s₁, s₂, mt isText_eq_true_iff.2 h₃]

lemma validateEvent_iff (path : Text) :
    (validateEvent isStr receivedAt path (.obj event) = .ok [] ↔
      EventOk isStr receivedAt event ∧ ReservedOk event) ∧
    ((∃ errors, validateEvent isStr receivedAt path (.obj event) = .ok errors) ↔
      EventHarmless receivedAt event) := by
  obtain ⟨hnil, hreturns⟩ := @validateReservedEvent_iff event path
  constructor
  · rw [← hnil, ← modelValidate_eq_nil_iff]
    simp only [validateEvent, bind_eq_ok, pure_eq_ok, List.append_eq_nil_iff, List.map_eq_nil_iff,
      ↓existsAndEq, and_true]
    refine and_congr_right fun hmodel => and_iff_left ?_
    rcases (modelValidate_eq_nil_iff.1 hmodel).identified with h | h <;> simp [h]
  · unfold EventHarmless
    rw [← hreturns, ← @modelValidate_returns_iff isStr]
    simp only [validateEvent, returns_bind, exists_and_right, pure_eq_ok, exists_eq', and_true]

lemma validateEvents_iff (events : List Doc) : ∀ index : ℕ,
    (validateEvents isStr receivedAt index events = .ok [] ↔
      ∀ e ∈ events, ∃ event, e = .obj event ∧ EventOk isStr receivedAt event ∧ ReservedOk event) ∧
    ((∃ errors, validateEvents isStr receivedAt index events = .ok errors) ↔
      ∀ event, .obj event ∈ events → EventHarmless receivedAt event) := by
  induction events with
  | nil => simp [validateEvents]
  | cons e events ih =>
    intro index
    obtain ⟨hnil, hreturns⟩ := ih (index + 1)
    have hevent : ∀ path : Text, (validateEvent isStr receivedAt path e = .ok [] ↔
        ∃ event, e = .obj event ∧ EventOk isStr receivedAt event ∧ ReservedOk event) ∧
        ((∃ errors, validateEvent isStr receivedAt path e = .ok errors) ↔
          ∀ event, e = .obj event → EventHarmless receivedAt event) := by
      intro path
      cases e with
      | obj event => simpa using validateEvent_iff _
      | _ => simp [validateEvent]
    constructor
    · rw [List.forall_mem_cons, ← hnil,
        ← (hevent (ofString "events[" ++ ofNat index ++ ofString "]")).1]
      simp only [validateEvents, bind_eq_ok, pure_eq_ok, List.append_eq_nil_iff, ↓existsAndEq,
        and_true]
    · simp only [validateEvents, returns_bind, exists_and_right, hreturns, (hevent _).2, pure_eq_ok,
        exists_eq', and_true, List.mem_cons, or_imp, forall_and, eq_comm (a := e)]

lemma duplicateMessageIds_eq_nil_iff (events : List Doc) : ∀ (first : List (Text × ℕ)) (index : ℕ),
    duplicateMessageIds first index events = [] ↔ (events.filterMap messageId).Nodup ∧
      ∀ id ∈ events.filterMap messageId, first.lookup id = none := by
  induction events with
  | nil => simp [duplicateMessageIds]
  | cons e events ih =>
    intro first index
    unfold duplicateMessageIds
    cases hid : messageId e with
    | none => simp [hid, ih]
    | some id =>
      cases hfirst : first.lookup id with
      | some i =>
        simp only [hfirst, List.cons_ne_nil, hid, List.filterMap_cons, List.forall_mem_cons,
          reduceCtorEq, false_and, and_false]
      | none =>
        simp only [hfirst, ih, List.filterMap_cons, hid, List.nodup_cons, List.forall_mem_cons,
          true_and]
        constructor
        · rintro ⟨hnodup, hall⟩
          have hne : ∀ x ∈ events.filterMap messageId, x ≠ id ∧ first.lookup x = none := by
            intro x hx
            have hlookup := hall x hx
            rw [List.lookup_cons] at hlookup
            by_cases heq : x = id
            · simp [heq] at hlookup
            · rw [beq_false_of_ne heq] at hlookup
              exact ⟨heq, hlookup⟩
          exact ⟨⟨fun hmem => (hne id hmem).1 rfl, hnodup⟩, fun x hx => (hne x hx).2⟩
        · rintro ⟨⟨hnot, hnodup⟩, hall⟩
          refine ⟨hnodup, fun x hx => ?_⟩
          have hne : x ≠ id := fun heq => hnot (heq ▸ hx)
          rw [List.lookup_cons, beq_false_of_ne hne]
          exact hall x hx

/-! ## The validation of a batch -/

lemma validateEventBatch_of_events {events : List Doc} (h : HasEvents d events) :
    validateEventBatch isStr receivedAt d = do
      let errors ← validateEvents isStr receivedAt 0 events
      return errors ++ validateUniqueMessageIds events := by
  obtain ⟨body, rfl, hget, honly, hne, hle⟩ := h
  simp only [validateEventBatch, hget, unknown_eq_nil_iff.2 honly, ne_eq, not_true, if_false,
    List.length_eq_zero_iff, hne, not_lt.2 hle]

lemma validateEventBatch_of_shape (h : ∀ events, ¬ HasEvents d events) :
    ∃ e errors, validateEventBatch isStr receivedAt d = .ok (e :: errors) := by
  cases d with
  | obj body =>
    cases hget : Fields.get body "events" with
    | none =>
      simp only [validateEventBatch, hget]
      exact ⟨_, _, rfl⟩
    | some value =>
      by_cases hunknown : unknown ["events"] body = []
      · cases value with
        | arr events =>
          by_cases hempty : events = []
          · simp only [validateEventBatch, hget, hunknown, ne_eq, not_true, if_false, hempty,
              List.length_nil, if_true]
            exact ⟨_, _, rfl⟩
          · have hlong : maxBatchSize < events.length := by
              by_contra hle
              exact h events ⟨body, rfl, hget, unknown_eq_nil_iff.1 hunknown, hempty, not_lt.1 hle⟩
            simp only [validateEventBatch, hget, hunknown, ne_eq, not_true, if_false,
              List.length_eq_zero_iff, hempty, hlong, if_true]
            exact ⟨_, _, rfl⟩
        | _ =>
          simp only [validateEventBatch, hget, hunknown, ne_eq, not_true, if_false]
          exact ⟨_, _, rfl⟩
      · obtain ⟨key, rest, hcons⟩ := List.exists_cons_of_ne_nil hunknown
        simp only [validateEventBatch, hget, hcons, ne_eq, reduceCtorEq, not_false_eq_true, if_true,
          List.map_cons]
        exact ⟨_, _, rfl⟩
  | _ => exact ⟨_, _, rfl⟩

lemma HasEvents.unique {events events' : List Doc} (h : HasEvents d events)
    (h' : HasEvents d events') : events' = events := by
  obtain ⟨body, rfl, hget, -⟩ := h
  obtain ⟨_, ⟨⟩, hget', -⟩ := h'
  rw [hget] at hget'
  cases hget'
  rfl

theorem validateEventBatch_iff (d : Doc) :
    (validateEventBatch isStr receivedAt d = .ok [] ↔ BatchOk isStr receivedAt d) ∧
    ((∃ errors, validateEventBatch isStr receivedAt d = .ok errors) ↔
      BatchHarmless receivedAt d) := by
  by_cases h : ∃ events, HasEvents d events
  · obtain ⟨events, hevents⟩ := h
    obtain ⟨hnil, hreturns⟩ := @validateEvents_iff isStr receivedAt events 0
    have hunique : validateUniqueMessageIds events = [] ↔ (events.filterMap messageId).Nodup := by
      simp [validateUniqueMessageIds, duplicateMessageIds_eq_nil_iff]
    rw [validateEventBatch_of_events hevents]
    constructor
    · simp only [bind_eq_ok, pure_eq_ok, List.append_eq_nil_iff, ↓existsAndEq, true_and, hunique,
        hnil]
      constructor
      · rintro ⟨hall, hnodup⟩
        exact ⟨events, hevents, hnodup, hall⟩
      · rintro ⟨events', hevents', hnodup, hall⟩
        obtain rfl := hevents.unique hevents'
        exact ⟨hall, hnodup⟩
    · simp only [returns_bind, pure_eq_ok, exists_eq', and_true, hreturns]
      constructor
      · intro hall events' hevents'
        obtain rfl := hevents.unique hevents'
        exact hall
      · exact fun hall => hall events hevents
  · rw [not_exists] at h
    obtain ⟨e, errors, heq⟩ := @validateEventBatch_of_shape isStr receivedAt d h
    rw [heq]
    refine ⟨iff_of_false (by simp) ?_,
      iff_of_true ⟨_, rfl⟩ fun events hevents => absurd hevents (h events)⟩
    rintro ⟨events, hevents, -⟩
    exact h events hevents

/-- **The validation decides the contract** of a batch exactly when no value raises. -/
theorem validation_decides_iff (isStr : Text → Bool) (receivedAt : Datetime) (d : Doc) :
    (∃ errors, validateEventBatch isStr receivedAt d = .ok errors ∧
      (errors = [] ↔ BatchOk isStr receivedAt d)) ↔ BatchHarmless receivedAt d := by
  rw [← (@validateEventBatch_iff isStr receivedAt d).2]
  refine exists_congr fun errors => and_iff_left_of_imp fun h => ?_
  rw [← (validateEventBatch_iff d).1, h, Except.ok.injEq]

/-- A batch with an event whose error type is a list. -/
def listBatch : Doc :=
  .obj [(ofString "events", .arr [.obj [(ofString "event", .str (ofString "$frontend_error")),
    (ofString "properties", .obj [(ofString "error_type", .arr [])])]])]

def sampleReceipt : Datetime where
  year := 2025
  month := 6
  day := 15
  hour := 12
  minute := 30
  second := 45
  microsecond := 1
  year_range := by decide
  month_range := by decide
  day_range := by decide
  hour_range := by decide
  minute_range := by decide
  second_range := by decide
  microsecond_range := by decide

/-- On this batch the validation raises. -/
theorem validation_raises_on_list :
    validateEventBatch (fun _ => true) sampleReceipt listBatch = .error .unhashable := by
  decide +kernel

/-- The body of a request with these events. -/
def batchOf (events : List Doc) : Doc := .obj [(ofString "events", .arr events)]

lemma batchOf_accepted_iff {events : List Doc} :
    validateEventBatch isStr receivedAt (batchOf events) = .ok [] ↔
      events ≠ [] ∧ events.length ≤ maxBatchSize ∧ (events.filterMap messageId).Nodup ∧
        ∀ e ∈ events, ∃ event, e = .obj event ∧ EventOk isStr receivedAt event ∧ ReservedOk event := by
  have hget : Fields.get [(ofString "events", Doc.arr events)] "events" = some (.arr events) := by
    simp [Fields.get]
  rw [(validateEventBatch_iff (batchOf events)).1]
  constructor
  · rintro ⟨events', ⟨_, ⟨⟩, hget', -, hne, hle⟩, hnodup, hall⟩
    rw [hget] at hget'
    cases hget'
    exact ⟨hne, hle, hnodup, hall⟩
  · rintro ⟨hne, hle, hnodup, hall⟩
    exact ⟨events, ⟨_, rfl, hget, by simp [Only], hne, hle⟩, hnodup, hall⟩

/-- **Batches split**: a batch is accepted exactly when both of its parts are, no message ID occurs in
both, and it is not too long; so no event is refused for the events it is sent with. -/
theorem batch_splits (isStr : Text → Bool) (receivedAt : Datetime) (x y : Doc) (xs ys : List Doc) :
    validateEventBatch isStr receivedAt (batchOf (x :: xs ++ y :: ys)) = .ok [] ↔
      (x :: xs ++ y :: ys).length ≤ maxBatchSize ∧
      validateEventBatch isStr receivedAt (batchOf (x :: xs)) = .ok [] ∧
      validateEventBatch isStr receivedAt (batchOf (y :: ys)) = .ok [] ∧
      ∀ id ∈ (x :: xs).filterMap messageId, id ∉ (y :: ys).filterMap messageId := by
  rw [batchOf_accepted_iff, batchOf_accepted_iff, batchOf_accepted_iff, List.filterMap_append,
    List.nodup_append', List.length_append]
  constructor
  · rintro ⟨-, hle, ⟨hxs, hys, hdisjoint⟩, hall⟩
    refine ⟨hle, ⟨by simp, by omega, hxs, fun e he => hall e (List.mem_append_left _ he)⟩,
      ⟨by simp, by omega, hys, fun e he => hall e (List.mem_append_right _ he)⟩, hdisjoint⟩
  · rintro ⟨hle, ⟨-, -, hxs, hallx⟩, ⟨-, -, hys, hally⟩, hdisjoint⟩
    refine ⟨by simp, hle, ⟨hxs, hys, hdisjoint⟩, fun e he => ?_⟩
    exact (List.mem_append.1 he).elim (hallx e) (hally e)

end Apdl.Ingest
