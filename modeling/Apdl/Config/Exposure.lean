import Apdl.Flags.Evaluator
import Apdl.Lib.Jsonb
import Apdl.Lib.StepMachine
import Mathlib.Logic.Function.Basic

set_option autoImplicit false

/-!
# Exposures of server-side evaluations

`POST /v1/evaluate` evaluates a flag and, when the caller asks for it, records the exposure in one
Postgres transaction: a receipt under the caller's message id and an outbox row for the event
stream. A retry under the same message id must carry the same exposure.

## Main results

* `exposure_idempotency` — one outbox row for each message id, one payload for all that are served,
  and no change of what is stored by a request that fails.

## Design

The statements of a transaction are separate actions. An insert of a key that another open
transaction has inserted waits, so that action is not enabled. A statement may fail at any time,
which rolls the transaction back. `jsonb` is what Postgres makes of a JSON text: it may refuse it,
and what it gives back is read as an equal value as long as no number is so large that it is written
without its fraction.
-/

namespace Apdl.Config.Exposure

open PyJson
open Jsonb (moderate moderateFields)
open Doc (Fields)
open Flags (EvalContext EvalResult Reason ClientFlagConfig)

/-! ## Requests and events -/

structure GateEvaluateRequest where
  projectId : Text
  key : Text
  context : EvalContext
  logExposure : Bool
  sessionId : Text
  messageId : Text
  page : Text
  component : Text

/-- A row of `flags` as `get_flag` returns it; `version` is an `INTEGER` column. -/
structure StoredFlag where
  state : FlagState
  evaluationMode : EvaluationMode
  config : ClientFlagConfig
  version_le : config.version ≤ 2147483647

/-- `GateEvaluationReason`. -/
def reasonText : Reason → String
  | .notFound => "not_found"
  | .invalidConfig => "invalid_config"
  | .disabled => "disabled"
  | .error => "error"
  | .ruleMatch => "rule_match"
  | .ruleRollout => "rule_rollout"
  | .fallthrough => "fallthrough"
  | .fallthroughRollout => "fallthrough_rollout"

/-- A string literal. -/
def lit (s : String) : Doc := .str (Text.ofString s)

def field (name : String) (value : Doc) : Text × Doc := (Text.ofString name, value)

def strOrNull (v : Option Text) : Doc := (v.map Doc.str).getD .null

/-- An optional float, which is a double. -/
def floatOrNull (v : Option ℚ) : Doc := (v.map fun q => Doc.float (Doc.nearest q)).getD .null

/-- An optional integer. -/
def intOrNull (v : Option ℕ) : Doc := (v.map fun n => Doc.int n).getD .null

/-- `body.context.user_id`, empty when it was not given. -/
def userId (body : GateEvaluateRequest) : Text := body.context.userId.getD []

/-- `body.context.anonymous_id`, empty when it was not given. -/
def anonymousId (body : GateEvaluateRequest) : Text := body.context.anonymousId.getD []

/-- `body.session_id or f"server:{message_id}"`. -/
def sessionIdOf (body : GateEvaluateRequest) : Text :=
  if body.sessionId = [] then Text.ofString "server:" ++ body.messageId else body.sessionId

def exposureProperties (body : GateEvaluateRequest) (result : EvalResult) : Fields :=
  [field "flag_key" (.str result.key), field "variant" (strOrNull result.variant),
    field "reason" (lit (reasonText result.reason)), field "rule_id" (strOrNull result.ruleId),
    field "rollout_bucket" (floatOrNull result.rolloutBucket),
    field "variant_bucket" (floatOrNull result.variantBucket),
    field "rollout_percentage" (floatOrNull result.rolloutPercentage),
    field "bucket_by" (strOrNull result.bucketBy),
    field "config_version" (intOrNull result.configVersion), field "source" (lit "server"),
    field "page" (.str body.page), field "component" (.str body.component)]

def exposureContext : Doc :=
  .obj [field "library" (.obj [field "name" (lit "apdl-config"), field "version" (lit "server")])]

/-- The event of `_enqueue_exposure`. -/
def exposureEvent (body : GateEvaluateRequest) (result : EvalResult) (timestamp : Text) : Fields :=
  [field "event" (lit "$feature_flag_exposure"), field "type" (lit "track"),
    field "timestamp" (.str timestamp), field "server_timestamp" (.str timestamp),
    field "message_id" (.str body.messageId), field "session_id" (.str (sessionIdOf body)),
    field "context" exposureContext,
    field "properties" (.obj (exposureProperties body result))] ++
  (if userId body = [] then [] else [field "user_id" (.str (userId body))]) ++
  if anonymousId body = [] then [] else [field "anonymous_id" (.str (anonymousId body))]

/-- `f"events:raw:{body.project_id}"`. -/
def streamKey (projectId : Text) : Text := Text.ofString "events:raw:" ++ projectId

/-- The payload of the outbox row. -/
def exposurePayload (body : GateEvaluateRequest) (result : EvalResult) (timestamp : Text) : Doc :=
  .obj [field "stream_key" (.str (streamKey body.projectId)),
    field "event" (.obj (exposureEvent body result timestamp))]

/-- `_canonical_exposure_payload`; an error is one of `json.loads`. -/
def canonicalExposurePayload (payload : Doc) : Except LoadError (Option Doc) :=
  match payload with
  | .obj _ =>
    (parse payload).map fun canonical =>
      match canonical with
      | .obj fields =>
        match get fields (Text.ofString "stream_key"), get fields (Text.ofString "event") with
        | some (.str key), some (.obj event) =>
          if key = [] then none
          else
            some (.obj (set fields (Text.ofString "event") (.obj (event.filter fun f =>
              decide (f.1 ≠ Text.ofString "timestamp" ∧
                f.1 ≠ Text.ofString "server_timestamp")))))
        | _, _ => none
      | _ => none
  | _ => .ok none

/-! ## The transaction -/

/-- `IntegrityError`, by its message. -/
inductive IntegrityError
  | notCanonical
  | messageIdMismatch
  /-- "… is unique per exposure and was reused for a different canonical payload" -/
  | reused (messageId : Text)
  deriving DecidableEq

inductive Response
  | identityRequired
  | notFound (key : Text)
  | invalidEvaluationMode (key : Text)
  | messageIdConflict (e : IntegrityError)
  /-- `exposure_persistence_unavailable` -/
  | unavailable
  | raised
  /-- The assignment. -/
  | served (result : EvalResult)

/-- The exposure a request is about to record. -/
structure Intent where
  projectId : Text
  messageId : Text
  payload : Doc
  canonical : Doc
  result : EvalResult

/-- Where a request is: before each statement of the transaction, before the commit, or answered,
with the exposure that was recorded or confirmed. -/
inductive Phase
  | insertReceipt (x : Intent)
  | insertOutbox (x : Intent) (stored : Doc)
  | commitInsert (x : Intent) (stored payload : Doc)
  | compare (x : Intent)
  | commitSame (x : Intent)
  | answered (response : Response) (exposure : Option Intent)

/-- The checks of `enqueue_exposure` before its transaction. -/
def enqueueExposure (body : GateEvaluateRequest) (result : EvalResult) (timestamp : Text) : Phase :=
  let payload := exposurePayload body result timestamp
  match canonicalExposurePayload payload with
  | .error _ => .answered .unavailable none
  | .ok none => .answered (.messageIdConflict .notCanonical) none
  | .ok (some canonical) =>
    -- `canonical_payload["event"].get("message_id") != message_id`
    match canonical with
    | .obj fields =>
      match get fields (Text.ofString "event") with
      | some (.obj event) =>
        if equal ((get event (Text.ofString "message_id")).getD .null) (.str body.messageId) then
          .insertReceipt ⟨body.projectId, body.messageId, payload, canonical, result⟩
        else .answered (.messageIdConflict .messageIdMismatch) none
      | _ => .answered (.messageIdConflict .notCanonical) none
    | _ => .answered (.messageIdConflict .notCanonical) none

/-- `evaluate` up to the transaction. -/
def evaluateRoute (flag : Option StoredFlag) (body : GateEvaluateRequest) (timestamp : Text) :
    Phase :=
  if body.logExposure ∧ userId body = [] ∧ anonymousId body = [] then
    .answered .identityRequired none
  else
    match flag with
    | none => .answered (.notFound body.key) none
    | some flag =>
      if flag.evaluationMode = .client then .answered (.invalidEvaluationMode body.key) none
      else
        match Flags.ConfigService.evaluate (some flag.state) flag.config body.context with
        | none => .answered .raised none
        | some result =>
          if body.logExposure ∧ result.variant ≠ none ∧
              (result.reason = .ruleMatch ∨ result.reason = .fallthrough) then
            enqueueExposure body result timestamp
          else .answered (.served result) none

/-- A row of `config_exposure_receipts`. -/
structure Receipt where
  projectId : Text
  messageId : Text
  canonicalPayload : Doc

/-- A row of `config_outbox` of kind `exposure`; `dedup_key` is the message id. -/
structure OutboxRow where
  projectId : Text
  dedupKey : Text
  payload : Doc

def Receipt.key (r : Receipt) : Text × Text := (r.projectId, r.messageId)

def OutboxRow.key (r : OutboxRow) : Text × Text := (r.projectId, r.dedupKey)

def Intent.key (x : Intent) : Text × Text := (x.projectId, x.messageId)

/-- Postgres and the requests. `uncommitted` has the receipts inserted by open transactions. -/
structure World where
  flags : Text → Text → Option StoredFlag
  receipts : List Receipt
  outbox : List OutboxRow
  uncommitted : List (ℕ × Text × Text)
  requests : ℕ → Option Phase

/-- What can happen next. -/
inductive Act
  /-- A configuration command commits. -/
  | putFlag (projectId key : Text) (flag : Option StoredFlag)
  | evaluate (request : ℕ) (body : GateEvaluateRequest) (timestamp : Text)
  | advance (request : ℕ)
  | fail (request : ℕ)

namespace World

/-- A request moves on without a change of the tables. -/
def moves (w : World) (r : ℕ) (phase : Phase) : World :=
  { w with requests := Function.update w.requests r (some phase) }

/-- The transaction of a request ends. -/
def release (w : World) (r : ℕ) : World :=
  { w with uncommitted := w.uncommitted.filter fun u => decide (u.1 ≠ r) }

/-- A transaction is rolled back. -/
def rollback (w : World) (r : ℕ) (response : Response) : World :=
  (w.release r).moves r (.answered response none)

variable (jsonb : Doc → Option Doc)

/-- The next statement of a request; `none` when it waits or there is none. -/
def advance (w : World) (r : ℕ) : Phase → Option World
  | .insertReceipt x =>
    match jsonb x.canonical with
    | none => some (w.rollback r .unavailable)
    | some stored =>
      -- `ON CONFLICT DO NOTHING` waits for an open insert of the key
      if w.uncommitted.any fun u => decide (u.2 = x.key) then none
      else if x.key ∈ w.receipts.map Receipt.key then some (w.moves r (.compare x))
      else
        some { w.moves r (.insertOutbox x stored) with
          uncommitted := (r, x.key) :: w.uncommitted }
  | .insertOutbox x stored =>
    match jsonb x.payload with
    | none => some (w.rollback r .unavailable)
    | some payload =>
      if x.key ∈ w.outbox.map OutboxRow.key then some (w.rollback r .unavailable)
      else some (w.moves r (.commitInsert x stored payload))
  | .commitInsert x stored payload =>
    some { (w.release r).moves r (.answered (.served x.result) (some x)) with
      receipts := w.receipts ++ [⟨x.projectId, x.messageId, stored⟩]
      outbox := w.outbox ++ [⟨x.projectId, x.messageId, payload⟩] }
  | .compare x =>
    match w.receipts.find? fun row => decide (row.key = x.key) with
    | none => some (w.rollback r (.messageIdConflict (.reused x.messageId)))
    | some row =>
      match parse row.canonicalPayload with
      | .error _ => some (w.rollback r .unavailable)
      | .ok existing =>
        if equal existing x.canonical then some (w.moves r (.commitSame x))
        else some (w.rollback r (.messageIdConflict (.reused x.messageId)))
  | .commitSame x => some ((w.release r).moves r (.answered (.served x.result) (some x)))
  | .answered _ _ => none

end World

def step (jsonb : Doc → Option Doc) (w : World) : Act → Option World
  | .putFlag projectId key flag =>
    some { w with flags := fun p k => if p = projectId ∧ k = key then flag else w.flags p k }
  | .evaluate r body timestamp =>
    match w.requests r with
    | none => some (w.moves r (evaluateRoute (w.flags body.projectId body.key) body timestamp))
    | some _ => none
  | .advance r => (w.requests r).bind fun phase => w.advance jsonb r phase
  | .fail r =>
    match w.requests r with
    | none => none
    | some (.answered _ _) => none
    | some _ => some (w.rollback r .unavailable)

/-- The system from empty tables. -/
def machine (jsonb : Doc → Option Doc) : StepMachine World Act where
  init := ⟨fun _ _ => none, [], [], [], fun _ => none⟩
  step := step jsonb

/-! ## The canonical payload -/

def eventKeys : List Text :=
  ["event", "type", "message_id", "session_id", "context", "properties", "user_id",
    "anonymous_id"].map Text.ofString

def propertyKeys : List Text :=
  ["flag_key", "variant", "reason", "rule_id", "rollout_bucket", "variant_bucket",
    "rollout_percentage", "bucket_by", "config_version", "source", "page", "component"].map
    Text.ofString

def propertyValues (body : GateEvaluateRequest) (result : EvalResult) : List (Option Doc) :=
  [some (.str result.key), some (strOrNull result.variant),
    some (lit (reasonText result.reason)), some (strOrNull result.ruleId),
    some (floatOrNull result.rolloutBucket), some (floatOrNull result.variantBucket),
    some (floatOrNull result.rolloutPercentage), some (strOrNull result.bucketBy),
    some (intOrNull result.configVersion), some (lit "server"), some (.str body.page),
    some (.str body.component)]

/-- A string that is left out when it is empty. -/
def unlessEmpty (t : Text) : Option Doc := if t = [] then none else some (.str t)

def eventValues (body : GateEvaluateRequest) (result : EvalResult) : List (Option Doc) :=
  [some (lit "$feature_flag_exposure"), some (lit "track"), some (.str body.messageId),
    some (.str (sessionIdOf body)), some exposureContext,
    some (.obj (present (propertyKeys.zip (propertyValues body result)))),
    unlessEmpty (userId body), unlessEmpty (anonymousId body)]

/-- The canonical payload of an exposure. -/
def receiptDoc (body : GateEvaluateRequest) (result : EvalResult) : Doc :=
  .obj [field "stream_key" (.str (streamKey body.projectId)),
    field "event" (.obj (present (eventKeys.zip (eventValues body result))))]

lemma nearest_nearest (q : ℚ) : Doc.nearest (Doc.nearest q) = Doc.nearest q := by
  unfold Doc.nearest
  cases h : Double.round q with
  | none => simp [h]
  | some r => simp [Double.round_round h]

lemma parse_strOrNull (v : Option Text) : parse (strOrNull v) = .ok (strOrNull v) := by
  cases v <;> rfl

lemma parse_floatOrNull (v : Option ℚ) : parse (floatOrNull v) = .ok (floatOrNull v) := by
  cases v with
  | none => rfl
  | some q => simp [floatOrNull, parse, nearest_nearest]

lemma parse_intOrNull {v : Option ℕ} (h : ∀ n ∈ v, n ≤ 2147483647) :
    parse (intOrNull v) = .ok (intOrNull v) := by
  cases v with
  | none => rfl
  | some n =>
    have hn := h n rfl
    have hdigits : intDigits (n : ℤ) ≤ maxIntDigits := by
      have hlen : (Nat.toDigits 10 n).length ≤ 10 :=
        (Nat.length_toDigits_le_iff (by decide) (by decide)).2 (by omega)
      unfold intDigits maxIntDigits
      rw [Int.natAbs_natCast]
      omega
    simp [intOrNull, parse, hdigits]

variable {result : EvalResult}

lemma parse_exposureProperties (body : GateEvaluateRequest)
    (h : ∀ n ∈ result.configVersion, n ≤ 2147483647) :
    parse (.obj (exposureProperties body result)) =
      .ok (.obj (exposureProperties body result)) := by
  have hkeys : propertyKeys.Nodup := by decide
  refine parse_obj_of_fixed hkeys ?_
  simp only [exposureProperties, field, List.forall_mem_cons, List.not_mem_nil, false_implies,
    implies_true, and_true]
  exact ⟨rfl, parse_strOrNull _, rfl, parse_strOrNull _, parse_floatOrNull _, parse_floatOrNull _,
    parse_floatOrNull _, parse_strOrNull _, parse_intOrNull h, rfl, rfl, rfl⟩

lemma parse_exposureEvent (body : GateEvaluateRequest) (timestamp : Text)
    (h : ∀ n ∈ result.configVersion, n ≤ 2147483647) :
    parse (.obj (exposureEvent body result timestamp)) =
      .ok (.obj (exposureEvent body result timestamp)) := by
  have hcontext : parse exposureContext = .ok exposureContext := rfl
  have hproperties := parse_exposureProperties body h
  refine parse_obj_of_fixed ?_ ?_
  · unfold exposureEvent
    split_ifs <;> simp only [field, List.map_cons, List.map_nil, List.map_append] <;> decide
  · unfold exposureEvent
    intro f hf
    simp only [field, List.mem_append, List.mem_cons, List.not_mem_nil, or_false] at hf
    rcases hf with ((rfl | rfl | rfl | rfl | rfl | rfl | rfl | rfl) | hf) | hf
    · rfl
    · rfl
    · rfl
    · rfl
    · rfl
    · rfl
    · exact hcontext
    · exact hproperties
    · split_ifs at hf
      · cases hf
      · rw [List.mem_singleton.1 hf]
        rfl
    · split_ifs at hf
      · cases hf
      · rw [List.mem_singleton.1 hf]
        rfl

lemma filter_exposureEvent (body : GateEvaluateRequest) (result : EvalResult) (timestamp : Text) :
    ((exposureEvent body result timestamp).filter fun f =>
      decide (f.1 ≠ Text.ofString "timestamp" ∧ f.1 ≠ Text.ofString "server_timestamp")) =
    present (eventKeys.zip (eventValues body result)) := by
  unfold exposureEvent eventValues unlessEmpty
  split_ifs <;> rfl

theorem canonicalExposurePayload_eq (body : GateEvaluateRequest)
    (timestamp : Text) (h : ∀ n ∈ result.configVersion, n ≤ 2147483647) :
    canonicalExposurePayload (exposurePayload body result timestamp) =
      .ok (some (receiptDoc body result)) := by
  have hparse : parse (exposurePayload body result timestamp) =
      .ok (exposurePayload body result timestamp) := by
    have hkeys : [Text.ofString "stream_key", Text.ofString "event"].Nodup := by decide
    refine parse_obj_of_fixed ?_ ?_
    · simpa only [field, List.map_cons, List.map_nil] using hkeys
    · simp only [field, List.forall_mem_cons, List.not_mem_nil, false_implies, implies_true,
        and_true]
      exact ⟨rfl, parse_exposureEvent body timestamp h⟩
  have hstream : streamKey body.projectId ≠ [] :=
    List.append_ne_nil_of_left_ne_nil (by decide) _
  have hkey : get [field "stream_key" (.str (streamKey body.projectId)),
      field "event" (.obj (exposureEvent body result timestamp))] (Text.ofString "stream_key") =
      some (.str (streamKey body.projectId)) := rfl
  have hevent : get [field "stream_key" (.str (streamKey body.projectId)),
      field "event" (.obj (exposureEvent body result timestamp))] (Text.ofString "event") =
      some (.obj (exposureEvent body result timestamp)) := rfl
  unfold exposurePayload at hparse ⊢
  simp only [canonicalExposurePayload, hparse, Except.map, hkey, hevent, if_neg hstream,
    filter_exposureEvent]
  rfl

/-! ## Payloads that agree -/

/-- The numbers of a result are small: buckets and percentages. -/
structure Bounded (result : EvalResult) : Prop where
  rolloutBucket : ∀ q ∈ result.rolloutBucket, |q| ≤ 2 ^ 7
  variantBucket : ∀ q ∈ result.variantBucket, |q| ≤ 2 ^ 7
  rolloutPercentage : ∀ q ∈ result.rolloutPercentage, |q| ≤ 2 ^ 7
  configVersion : ∀ n ∈ result.configVersion, n ≤ 2147483647

lemma agree_strOrNull {v w : Option Text} (h : Agree (strOrNull v) (strOrNull w)) :
    strOrNull v = strOrNull w := by
  cases v with
  | none =>
    cases w with
    | none => rfl
    | some t => exact absurd h Agree.not_null_str
  | some s =>
    cases w with
    | none => exact absurd h.symm Agree.not_null_str
    | some t => exact congrArg Doc.str h.str

lemma number_nearest {q : ℚ} (h : |q| ≤ 2 ^ 7) :
    number (.float (Doc.nearest q)) = some (Doc.nearest q) ∧ |Doc.nearest q| ≤ 2 ^ 7 := by
  obtain ⟨r, hr, hle⟩ := Double.exists_round_le (by decide) h
  have hnearest : Doc.nearest q = r := by simp [Doc.nearest, hr]
  rw [hnearest]
  exact ⟨by simp [number, Double.round_round hr], hle⟩

lemma agree_floatOrNull {v w : Option ℚ} (hv : ∀ q ∈ v, |q| ≤ 2 ^ 7) (hw : ∀ q ∈ w, |q| ≤ 2 ^ 7)
    (h : Agree (floatOrNull v) (floatOrNull w)) : floatOrNull v = floatOrNull w := by
  cases v with
  | none =>
    cases w with
    | none => rfl
    | some q => exact absurd h (Agree.not_null_number (number_nearest (hw q rfl)).1)
  | some p =>
    cases w with
    | none => exact absurd h.symm (Agree.not_null_number (number_nearest (hv p rfl)).1)
    | some q =>
      exact congrArg Doc.float
        (h.number (number_nearest (hv p rfl)).1 (number_nearest (hw q rfl)).1)

lemma agree_intOrNull {v w : Option ℕ} (h : Agree (intOrNull v) (intOrNull w)) :
    intOrNull v = intOrNull w := by
  cases v with
  | none =>
    cases w with
    | none => rfl
    | some n => exact absurd h (Agree.not_null_number (p := ((n : ℤ) : ℚ)) rfl)
  | some m =>
    cases w with
    | none => exact absurd h.symm (Agree.not_null_number (p := ((m : ℤ) : ℚ)) rfl)
    | some n =>
      have heq := h.number (p := ((m : ℤ) : ℚ)) (q := ((n : ℤ) : ℚ)) rfl rfl
      exact congrArg Doc.int (by exact_mod_cast heq)

lemma leaf_some {a b : Doc} (h : Agree a b → a = b) :
    ∀ x ∈ some a, ∀ y ∈ some b, Agree x y → x = y := by
  intro x hx y hy
  cases hx
  cases hy
  exact h

lemma leaf_str (s t : Text) : ∀ x ∈ some (Doc.str s), ∀ y ∈ some (Doc.str t), Agree x y → x = y :=
  leaf_some fun h => congrArg Doc.str h.str

lemma leaf_unlessEmpty (s t : Text) :
    ∀ x ∈ unlessEmpty s, ∀ y ∈ unlessEmpty t, Agree x y → x = y := by
  intro x hx y hy h
  unfold unlessEmpty at hx hy
  split_ifs at hx hy
  · cases hx
  · cases hx
  · cases hy
  · exact leaf_str s t x hx y hy h

variable {b b' : GateEvaluateRequest} {r r' : EvalResult}

lemma eq_of_agree_properties (hr : Bounded r) (hr' : Bounded r')
    (h : Agree (.obj (present (propertyKeys.zip (propertyValues b r))))
      (.obj (present (propertyKeys.zip (propertyValues b' r'))))) :
    propertyValues b r = propertyValues b' r' := by
  refine agree_present (by decide) rfl rfl ?_ h
  unfold propertyValues
  refine .cons (leaf_str _ _) (.cons (leaf_some agree_strOrNull) (.cons (leaf_str _ _)
    (.cons (leaf_some agree_strOrNull) (.cons (leaf_some ?_) (.cons (leaf_some ?_)
    (.cons (leaf_some ?_) (.cons (leaf_some agree_strOrNull) (.cons (leaf_some agree_intOrNull)
    (.cons (leaf_str _ _) (.cons (leaf_str _ _) (.cons (leaf_str _ _) .nil)))))))))))
  · exact agree_floatOrNull hr.rolloutBucket hr'.rolloutBucket
  · exact agree_floatOrNull hr.variantBucket hr'.variantBucket
  · exact agree_floatOrNull hr.rolloutPercentage hr'.rolloutPercentage

lemma eq_of_agree_event (hr : Bounded r) (hr' : Bounded r')
    (h : Agree (.obj (present (eventKeys.zip (eventValues b r))))
      (.obj (present (eventKeys.zip (eventValues b' r'))))) :
    eventValues b r = eventValues b' r' := by
  refine agree_present (by decide) rfl rfl ?_ h
  unfold eventValues
  refine .cons (leaf_str _ _) (.cons (leaf_str _ _) (.cons (leaf_str _ _) (.cons (leaf_str _ _)
    (.cons (leaf_some fun _ => rfl) (.cons (leaf_some fun hagree => ?_)
    (.cons (leaf_unlessEmpty _ _) (.cons (leaf_unlessEmpty _ _) .nil)))))))
  rw [eq_of_agree_properties hr hr' hagree]

theorem eq_of_agree_receipt (hr : Bounded r) (hr' : Bounded r')
    (h : Agree (receiptDoc b r) (receiptDoc b' r')) : receiptDoc b r = receiptDoc b' r' := by
  have hkeys : (["stream_key", "event"].map Text.ofString).Nodup := by decide
  have hleaf : List.Forall₂ (fun x y => ∀ a ∈ x, ∀ b ∈ y, Agree a b → a = b)
      [some (.str (streamKey b.projectId)),
        some (.obj (present (eventKeys.zip (eventValues b r))))]
      [some (.str (streamKey b'.projectId)),
        some (.obj (present (eventKeys.zip (eventValues b' r'))))] := by
    refine .cons (leaf_str _ _) (.cons (leaf_some fun hagree => ?_) .nil)
    rw [eq_of_agree_event hr hr' hagree]
  have hvalues := agree_present hkeys rfl rfl hleaf h
  simp only [List.cons.injEq, Option.some.injEq, and_true] at hvalues
  rw [receiptDoc, receiptDoc, hvalues.1, hvalues.2]

/-! ## What Postgres keeps -/

lemma moderateFields_present {fields : List (Text × Option Doc)}
    (h : ∀ f ∈ fields, ∀ d ∈ f.2, moderate d = true) : moderateFields (present fields) = true := by
  induction fields with
  | nil => rfl
  | cons f fields ih =>
    obtain ⟨k, v⟩ := f
    obtain ⟨hf, hrest⟩ := List.forall_mem_cons.1 h
    cases v with
    | none => exact ih hrest
    | some d =>
      rw [present, moderateFields, hf d rfl, Bool.true_and]
      exact ih hrest

lemma moderate_strOrNull (v : Option Text) : moderate (strOrNull v) = true := by
  cases v <;> rfl

lemma moderate_floatOrNull {v : Option ℚ} (h : ∀ q ∈ v, |q| ≤ 2 ^ 7) :
    moderate (floatOrNull v) = true := by
  cases v with
  | none => rfl
  | some q =>
    have hle := (number_nearest (h q rfl)).2
    simp only [floatOrNull, Option.map_some, Option.getD_some, moderate, decide_eq_true_eq]
    exact lt_of_le_of_lt hle (by norm_num)

lemma moderate_receiptDoc (hr : Bounded r) : moderate (receiptDoc b r) = true := by
  have hversion : moderate (intOrNull r.configVersion) = true := by
    cases r.configVersion <;> rfl
  have hempty : ∀ t : Text, ∀ d ∈ unlessEmpty t, moderate d = true := by
    intro t d hd
    unfold unlessEmpty at hd
    split_ifs at hd
    · cases hd
    · cases hd
      rfl
  have hproperties : moderateFields (present (propertyKeys.zip (propertyValues b r))) = true := by
    refine moderateFields_present fun f hf d hd => ?_
    have hmem := (List.of_mem_zip hf).2
    rw [Option.mem_def.1 hd] at hmem
    simp only [propertyValues, List.mem_cons, Option.some.injEq, List.not_mem_nil, or_false] at hmem
    rcases hmem with rfl | rfl | rfl | rfl | rfl | rfl | rfl | rfl | rfl | rfl | rfl | rfl
    · rfl
    · exact moderate_strOrNull _
    · rfl
    · exact moderate_strOrNull _
    · exact moderate_floatOrNull hr.rolloutBucket
    · exact moderate_floatOrNull hr.variantBucket
    · exact moderate_floatOrNull hr.rolloutPercentage
    · exact moderate_strOrNull _
    · exact hversion
    · rfl
    · rfl
    · rfl
  have hevent : moderateFields (present (eventKeys.zip (eventValues b r))) = true := by
    refine moderateFields_present fun f hf d hd => ?_
    have hmem := (List.of_mem_zip hf).2
    simp only [eventValues, List.mem_cons, List.not_mem_nil, or_false] at hmem
    rcases hmem with h | h | h | h | h | h | h | h
    all_goals rw [h] at hd
    · cases hd; rfl
    · cases hd; rfl
    · cases hd; rfl
    · cases hd; rfl
    · cases hd; rfl
    · cases hd
      exact hproperties
    · exact hempty _ d hd
    · exact hempty _ d hd
  simp only [receiptDoc, field, moderate, moderateFields, hevent, Bool.and_true]

lemma parse_receiptDoc (b : GateEvaluateRequest) (hr : Bounded r) :
    parse (receiptDoc b r) = .ok (receiptDoc b r) := by
  obtain ⟨hnodup, hfixed⟩ :=
    fixed_of_parse_obj (parse_exposureEvent b [] hr.configVersion)
  have hevent : parse (.obj (present (eventKeys.zip (eventValues b r)))) =
      .ok (.obj (present (eventKeys.zip (eventValues b r)))) := by
    rw [← filter_exposureEvent b r []]
    refine parse_obj_of_fixed (hnodup.sublist (List.filter_sublist.map Prod.fst)) ?_
    exact fun f hf => hfixed f (List.mem_of_mem_filter hf)
  have hkeys : [Text.ofString "stream_key", Text.ofString "event"].Nodup := by decide
  refine parse_obj_of_fixed ?_ ?_
  · simpa only [field, List.map_cons, List.map_nil] using hkeys
  · simp only [field, List.forall_mem_cons, List.not_mem_nil, false_implies, implies_true,
      and_true]
    exact ⟨rfl, hevent⟩

lemma abs_percentageBucket_le {flagKey salt unitId : Text} {hash : ℕ}
    (h : Flags.Python.hashBucket flagKey salt unitId = some hash) :
    |Flags.percentageBucket hash| ≤ 2 ^ 7 := by
  have hle : hash ≤ Flags.uint32Max := by
    unfold Flags.Python.hashBucket at h
    obtain ⟨bytes, -, rfl⟩ := Option.map_eq_some_iff.1 h
    refine List.foldlRecOn bytes (motive := fun n => n ≤ Flags.uint32Max) _ (by decide) ?_
    exact fun n _ byte _ => Nat.and_le_right
  have hmax : (0 : ℚ) < (Flags.uint32Max : ℚ) := by norm_num [Flags.uint32Max]
  have hcast : (hash : ℚ) ≤ (Flags.uint32Max : ℚ) := by exact_mod_cast hle
  have hfrac : (hash : ℚ) / (Flags.uint32Max : ℚ) ≤ 1 := (div_le_one hmax).2 hcast
  have hpos : 0 ≤ (hash : ℚ) / (Flags.uint32Max : ℚ) := by positivity
  unfold Flags.percentageBucket
  rw [abs_of_nonneg (by positivity)]
  calc (hash : ℚ) / (Flags.uint32Max : ℚ) * 100 ≤ 1 * 100 := by gcongr
    _ ≤ 2 ^ 7 := by norm_num

lemma bounded_decideRollout {f : ClientFlagConfig} {ctx : EvalContext} {ruleId : Option Text}
    {rollout : RolloutConfig} {passed failed : Reason}
    (hrollout : rollout.validate = .ok ()) (hversion : f.version ≤ 2147483647)
    (h : Flags.decideRollout .python f ctx ruleId rollout passed failed = some result) :
    Bounded result := by
  have hpercentage : |rollout.percentage| ≤ 2 ^ 7 := by
    simp only [RolloutConfig.validate, Check.bind_eq_ok, Check.ensure_eq_ok, Bool.and_eq_true,
      decide_eq_true_eq] at hrollout
    obtain ⟨-, ⟨hlow, hhigh⟩, -⟩ := hrollout
    rw [abs_of_nonneg hlow]
    exact le_trans hhigh (by norm_num)
  -- the bucket of the rollout, when there is one
  have happly : ∀ a, Flags.applyRollout .python f rollout ctx = some a →
      (∀ q ∈ a.bucket, |q| ≤ 2 ^ 7) ∧ a.percentage = rollout.percentage := by
    intro a ha
    unfold Flags.applyRollout at ha
    split_ifs at ha
    · cases ha
      exact ⟨by simp, rfl⟩
    · obtain ⟨hash, hhash, rfl⟩ := Option.map_eq_some_iff.1 ha
      refine ⟨fun q hq => ?_, rfl⟩
      cases hq
      exact abs_percentageBucket_le hhash
  have hassign : ∀ bucketBy v q, Flags.assignVariant .python f ctx bucketBy = some (v, some q) →
      |q| ≤ 2 ^ 7 := by
    intro bucketBy v q hq
    unfold Flags.assignVariant at hq
    split_ifs at hq
    · cases hq
    · obtain ⟨hash, hhash, heq⟩ := Option.map_eq_some_iff.1 hq
      cases (Prod.mk.inj heq).2
      exact abs_percentageBucket_le hhash
  unfold Flags.decideRollout at h
  obtain ⟨a, ha, h⟩ := Option.bind_eq_some_iff.1 h
  obtain ⟨hbucket, hpct⟩ := happly a ha
  have hpct' : ∀ q ∈ some a.percentage, |q| ≤ 2 ^ 7 := by
    intro q hq
    cases hq
    exact hpct ▸ hpercentage
  have hver : ∀ n ∈ some f.version, n ≤ 2147483647 := by
    intro n hn
    cases hn
    exact hversion
  dsimp only at h
  split_ifs at h
  · cases h
    exact ⟨hbucket, by simp, hpct', hver⟩
  · obtain ⟨⟨variant, bucket⟩, hv, h⟩ := Option.bind_eq_some_iff.1 h
    cases h
    refine ⟨hbucket, fun q hq => ?_, hpct', hver⟩
    cases hq
    exact hassign _ _ _ hv
  · cases h
    exact ⟨hbucket, by simp, hpct', hver⟩

lemma bounded_evaluate {flag : StoredFlag} {ctx : EvalContext}
    (h : Flags.ConfigService.evaluate (some flag.state) flag.config ctx = some result) :
    Bounded result := by
  have hplain : ∀ key variant reason version, (∀ n ∈ version, n ≤ 2147483647) →
      Bounded (EvalResult.plain key variant reason version) :=
    fun _ _ _ _ hv => ⟨nofun, nofun, nofun, hv⟩
  have hver : ∀ n ∈ some flag.config.version, n ≤ 2147483647 := by
    intro n hn
    cases hn
    exact flag.version_le
  unfold Flags.ConfigService.evaluate at h
  split at h
  · cases h
    refine hplain _ _ _ _ fun n hn => ?_
    split_ifs at hn
    · exact hver n hn
    · cases hn
  · rename_i hvalid
    simp only [Flags.ConfigService.canonicalEvaluationFlag, Check.bind_eq_ok, Check.all_eq_ok]
      at hvalid
    obtain ⟨_, hrules, ⟨⟩, hfall, _⟩ := hvalid
    split_ifs at h
    · cases h
      exact hplain _ _ _ _ hver
    · cases h
      exact hplain _ _ _ _ hver
    · cases h
      exact hplain _ _ _ _ hver
    · unfold Flags.serve at h
      split at h
      · rename_i rule hfind
        exact bounded_decideRollout (hrules rule (List.mem_of_find?_eq_some hfind)) flag.version_le h
      · exact bounded_decideRollout hfall flag.version_le h

/-! ## The ledger -/

/-- The exposure comes from an evaluation. -/
def Intent.Valid (x : Intent) : Prop :=
  ∃ body, Bounded x.result ∧ x.canonical = receiptDoc body x.result

/-- A receipt of the exposure's key is read as a value that is equal to its payload. -/
def Intent.Recorded (x : Intent) (receipts : List Receipt) : Prop :=
  ∃ row ∈ receipts, row.key = x.key ∧
    ∃ u, parse row.canonicalPayload = .ok u ∧ equal u x.canonical = true

/-- What holds of a request in each phase. -/
def Phase.Ok (jsonb : Doc → Option Doc) (w : World) (r : ℕ) : Phase → Prop
  | .insertReceipt x => x.Valid
  | .insertOutbox x stored =>
    x.Valid ∧ jsonb x.canonical = some stored ∧ (r, x.key) ∈ w.uncommitted
  | .commitInsert x stored _ =>
    x.Valid ∧ jsonb x.canonical = some stored ∧ (r, x.key) ∈ w.uncommitted
  | .compare x => x.Valid
  | .commitSame x => x.Valid ∧ x.Recorded w.receipts
  | .answered _ none => True
  | .answered response (some x) =>
    response = .served x.result ∧ x.Valid ∧ x.Recorded w.receipts

/-- **The ledger**: receipts have distinct keys and one outbox row each, open inserts have distinct
keys without a receipt, and every request is as its phase says. -/
structure Ledger (jsonb : Doc → Option Doc) (w : World) : Prop where
  nodup : (w.receipts.map Receipt.key).Nodup
  paired : w.outbox.map OutboxRow.key = w.receipts.map Receipt.key
  unrecorded : ∀ u ∈ w.uncommitted, u.2 ∉ w.receipts.map Receipt.key
  distinct : (w.uncommitted.map Prod.snd).Nodup
  phases : ∀ r phase, w.requests r = some phase → phase.Ok jsonb w r

section Ledger

variable {jsonb : Doc → Option Doc} {w : World}

variable {x : Intent}

lemma Intent.Recorded.append {receipts : List Receipt} (h : x.Recorded receipts)
    (more : List Receipt) : x.Recorded (receipts ++ more) := by
  obtain ⟨row, hrow, hrest⟩ := h
  exact ⟨row, List.mem_append_left more hrow, hrest⟩

variable {w' : World} {phase : Phase}

lemma Phase.Ok.mono {r : ℕ} (h : phase.Ok jsonb w r)
    (hreceipts : ∃ more, w'.receipts = w.receipts ++ more)
    (hopen : ∀ k, (r, k) ∈ w.uncommitted → (r, k) ∈ w'.uncommitted) : phase.Ok jsonb w' r := by
  obtain ⟨more, hmore⟩ := hreceipts
  have hrec : ∀ x : Intent, x.Recorded w.receipts → x.Recorded w'.receipts :=
    fun x hx => hmore ▸ hx.append more
  cases phase with
  | insertReceipt x => exact h
  | insertOutbox x stored => exact ⟨h.1, h.2.1, hopen _ h.2.2⟩
  | commitInsert x stored payload => exact ⟨h.1, h.2.1, hopen _ h.2.2⟩
  | compare x => exact h
  | commitSame x => exact ⟨h.1, hrec x h.2⟩
  | answered response exposure =>
    cases exposure with
    | none => trivial
    | some x => exact ⟨h.1, h.2.1, hrec x h.2.2⟩

lemma Ledger.phases_update (h : Ledger jsonb w) {r : ℕ}
    (hrequests : w'.requests = Function.update w.requests r (some phase))
    (hphase : phase.Ok jsonb w' r) (hreceipts : ∃ more, w'.receipts = w.receipts ++ more)
    (hopen : ∀ r' k, r' ≠ r → (r', k) ∈ w.uncommitted → (r', k) ∈ w'.uncommitted) :
    ∀ r' phase', w'.requests r' = some phase' → phase'.Ok jsonb w' r' := by
  intro r' phase' hr'
  rw [hrequests, Function.update_apply] at hr'
  split_ifs at hr' with heq
  · cases hr'
    exact heq ▸ hphase
  · exact (h.phases r' phase' hr').mono hreceipts fun k => hopen r' k heq

lemma Ledger.moves (h : Ledger jsonb w) {r : ℕ} (hphase : phase.Ok jsonb w r) :
    Ledger jsonb (w.moves r phase) := by
  refine ⟨h.nodup, h.paired, h.unrecorded, h.distinct, ?_⟩
  refine h.phases_update rfl ?_ ⟨[], (List.append_nil _).symm⟩ fun _ _ _ hk => hk
  exact hphase.mono ⟨[], (List.append_nil _).symm⟩ fun _ hk => hk

lemma mem_release {w : World} {r r' : ℕ} {k : Text × Text} (hr : r' ≠ r)
    (h : (r', k) ∈ w.uncommitted) : (r', k) ∈ (w.release r).uncommitted :=
  List.mem_filter.2 ⟨h, decide_eq_true hr⟩

lemma Ledger.ends (h : Ledger jsonb w) {r : ℕ} {response : Response} {exposure : Option Intent}
    (hphase : (Phase.answered response exposure).Ok jsonb w r) :
    Ledger jsonb ((w.release r).moves r (.answered response exposure)) := by
  refine ⟨h.nodup, h.paired, fun u hu => h.unrecorded u (List.mem_of_mem_filter hu), ?_, ?_⟩
  · exact h.distinct.sublist (List.filter_sublist.map Prod.snd)
  · refine h.phases_update rfl ?_ ⟨[], (List.append_nil _).symm⟩ fun r' k hr hk =>
      mem_release hr hk
    cases exposure with
    | none => trivial
    | some x => exact hphase

lemma Ledger.rollback (h : Ledger jsonb w) (r : ℕ) (response : Response) :
    Ledger jsonb (w.rollback r response) := h.ends trivial

lemma ok_evaluateRoute (flag : Option StoredFlag) (body : GateEvaluateRequest) (timestamp : Text)
    (r : ℕ) : (evaluateRoute flag body timestamp).Ok jsonb w r := by
  unfold evaluateRoute
  split_ifs
  · trivial
  · split
    · trivial
    · rename_i flag
      split_ifs
      · trivial
      · split
        · trivial
        · rename_i result heval
          have hbounded := bounded_evaluate heval
          split_ifs
          · have hcanonical := canonicalExposurePayload_eq body timestamp hbounded.configVersion
            unfold enqueueExposure
            simp only [hcanonical]
            split
            · split
              · split_ifs
                · exact ⟨body, hbounded, rfl⟩
                · trivial
              · trivial
            · trivial
          · trivial

lemma Ledger.commitInsert (hjsonb : Jsonb.Faithful jsonb) (h : Ledger jsonb w) {r : ℕ}
    {stored payload : Doc} (hok : (Phase.commitInsert x stored payload).Ok jsonb w r)
    (hs : w.advance jsonb r (.commitInsert x stored payload) = some w') : Ledger jsonb w' := by
  obtain ⟨⟨body, hbounded, hcanonical⟩, hstored, hopen⟩ := hok
  have hnew := h.unrecorded _ hopen
  simp only [World.advance, Option.some.injEq] at hs
  subst hs
  refine ⟨?_, ?_, ?_, ?_, ?_⟩
  · simp only [List.map_append, List.map_cons, List.map_nil]
    refine h.nodup.append (List.nodup_singleton _) fun k hk hk' => ?_
    rw [List.mem_singleton.1 hk'] at hk
    exact hnew hk
  · simp only [List.map_append, List.map_cons, List.map_nil, h.paired]
    rfl
  · -- another open insert has another key
    intro u hu hmem
    obtain ⟨hmem', hne⟩ := List.mem_filter.1 hu
    simp only [List.map_append, List.map_cons, List.map_nil, List.mem_append,
      List.mem_singleton] at hmem
    rcases hmem with hold | heq
    · exact h.unrecorded u hmem' hold
    · have hsame := List.inj_on_of_nodup_map h.distinct hmem' hopen heq
      exact of_decide_eq_true hne (congrArg Prod.fst hsame)
  · exact h.distinct.sublist (List.filter_sublist.map Prod.snd)
  · refine h.phases_update rfl ?_ ⟨_, rfl⟩ fun r' k hr hk => mem_release hr hk
    refine ⟨rfl, ⟨body, hbounded, hcanonical⟩, ⟨x.projectId, x.messageId, stored⟩, ?_, rfl, ?_⟩
    · exact List.mem_append_right _ List.mem_cons_self
    · rw [hcanonical] at hstored ⊢
      exact hjsonb _ _ (parse_receiptDoc body hbounded) (moderate_receiptDoc hbounded) hstored

lemma Ledger.advance (hjsonb : Jsonb.Faithful jsonb) (h : Ledger jsonb w) {r : ℕ}
    (hr : w.requests r = some phase) (hs : w.advance jsonb r phase = some w') :
    Ledger jsonb w' := by
  have hok := h.phases r phase hr
  cases phase with
  | insertReceipt x =>
    simp only [World.advance] at hs
    split at hs
    · cases hs
      exact h.rollback r _
    · rename_i stored hstored
      split_ifs at hs with hwait hexists
      · cases hs
        exact h.moves hok
      · cases hs
        -- the key is neither recorded nor open
        have hfree : x.key ∉ w.uncommitted.map Prod.snd := by
          intro hmem
          obtain ⟨u, hu, heq⟩ := List.mem_map.1 hmem
          exact hwait (List.any_eq_true.2 ⟨u, hu, decide_eq_true heq⟩)
        refine ⟨h.nodup, h.paired, ?_, List.nodup_cons.2 ⟨hfree, h.distinct⟩, ?_⟩
        · exact List.forall_mem_cons.2 ⟨hexists, h.unrecorded⟩
        · refine h.phases_update rfl ?_ ⟨[], (List.append_nil _).symm⟩ fun r' k _ hk =>
            List.mem_cons_of_mem _ hk
          exact ⟨hok, hstored, List.mem_cons_self⟩
  | insertOutbox x stored =>
    simp only [World.advance] at hs
    split at hs
    · cases hs
      exact h.rollback r _
    · split_ifs at hs
      · cases hs
        exact h.rollback r _
      · cases hs
        exact h.moves hok
  | commitInsert x stored payload => exact h.commitInsert hjsonb hok hs
  | compare x =>
    simp only [World.advance] at hs
    split at hs
    · cases hs
      exact h.rollback r _
    · rename_i row hrow
      split at hs
      · cases hs
        exact h.rollback r _
      · rename_i existing hexisting
        split_ifs at hs with hequal
        · cases hs
          refine h.moves ⟨hok, row, List.mem_of_find?_eq_some hrow, ?_, existing, hexisting, hequal⟩
          simpa using List.find?_some hrow
        · cases hs
          exact h.rollback r _
  | commitSame x =>
    simp only [World.advance, Option.some.injEq] at hs
    subst hs
    exact h.ends ⟨rfl, hok.1, hok.2⟩
  | answered response exposure => cases hs

/-- **The step lemma.** -/
lemma Ledger.step (hjsonb : Jsonb.Faithful jsonb) (h : Ledger jsonb w) {a : Act}
    (hs : Exposure.step jsonb w a = some w') : Ledger jsonb w' := by
  cases a with
  | putFlag projectId key flag =>
    simp only [Exposure.step, Option.some.injEq] at hs
    subst hs
    refine ⟨h.nodup, h.paired, h.unrecorded, h.distinct, fun r phase hr => ?_⟩
    exact (h.phases r phase hr).mono ⟨[], (List.append_nil _).symm⟩ fun _ hk => hk
  | evaluate r body timestamp =>
    simp only [Exposure.step] at hs
    split at hs
    · cases hs
      exact h.moves (ok_evaluateRoute _ body timestamp r)
    · cases hs
  | advance r =>
    simp only [Exposure.step] at hs
    obtain ⟨phase, hr, hs⟩ := Option.bind_eq_some_iff.1 hs
    exact h.advance hjsonb hr hs
  | fail r =>
    simp only [Exposure.step] at hs
    split at hs
    · cases hs
    · cases hs
    · cases hs
      exact h.rollback r _

lemma reach_ledger (hjsonb : Jsonb.Faithful jsonb) (hr : (machine jsonb).Reach w) :
    Ledger jsonb w := by
  refine StepMachine.Reach.induct (P := Ledger jsonb) ?_
    (fun s a s' _ hp hst => hp.step hjsonb hst) hr
  refine ⟨List.nodup_nil, rfl, fun u hu => ?_, List.nodup_nil, fun r phase hr => ?_⟩
  · cases hu
  · cases hr

lemma Ledger.canonical_eq (h : Ledger jsonb w) {y : Intent} (hx : x.Valid) (hy : y.Valid)
    (hrx : x.Recorded w.receipts) (hry : y.Recorded w.receipts) (hkey : x.key = y.key) :
    x.canonical = y.canonical := by
  obtain ⟨row, hrow, hrk, u, hu, hux⟩ := hrx
  obtain ⟨row', hrow', hrk', u', hu', huy⟩ := hry
  have hsame : row = row' :=
    List.inj_on_of_nodup_map h.nodup hrow hrow' (hrk.trans (hkey.trans hrk'.symm))
  subst hsame
  obtain rfl : u = u' := Except.ok.inj (hu.symm.trans hu')
  obtain ⟨body, hb, hcx⟩ := hx
  obtain ⟨body', hb', hcy⟩ := hy
  rw [hcx] at hux
  rw [hcy] at huy
  rw [hcx, hcy]
  exact eq_of_agree_receipt hb hb' ⟨u, parse_parse hu, hux, huy⟩

lemma Ledger.compare_conflict (h : Ledger jsonb w) {r : ℕ} {y : Intent} (hx : x.Valid)
    (hrx : x.Recorded w.receipts) (hr : w.requests r = some (.compare y)) (hkey : x.key = y.key)
    (hne : x.canonical ≠ y.canonical) :
    Exposure.step jsonb w (.advance r) =
      some (w.rollback r (.messageIdConflict (.reused y.messageId))) := by
  obtain ⟨row, hrow, hrk, u, hu, hux⟩ := hrx
  have hfind : w.receipts.find? (fun row => decide (row.key = y.key)) = some row := by
    cases hf : w.receipts.find? fun row => decide (row.key = y.key) with
    | none =>
      exact absurd (decide_eq_true (hrk.trans hkey)) (by simpa using List.find?_eq_none.1 hf row hrow)
    | some row' =>
      have hk : row'.key = y.key := by simpa using List.find?_some hf
      rw [List.inj_on_of_nodup_map h.nodup (List.mem_of_find?_eq_some hf) hrow
        (hk.trans (hkey.symm.trans hrk.symm))]
  have hnot : ¬ equal u y.canonical = true := by
    intro hequal
    exact hne (h.canonical_eq hx (h.phases r _ hr) ⟨row, hrow, hrk, u, hu, hux⟩
      ⟨row, hrow, hrk.trans hkey, u, hu, hequal⟩ hkey)
  simp only [Exposure.step, hr, Option.bind_some, World.advance, hfind, hu, if_neg hnot]

lemma tables_of_step {a : Act} (hs : Exposure.step jsonb w a = some w') :
    (w'.receipts = w.receipts ∧ w'.outbox = w.outbox) ∨
      ∃ r x, a = .advance r ∧ w'.requests r = some (.answered (.served x.result) (some x)) := by
  cases a with
  | putFlag projectId key flag =>
    cases hs
    exact .inl ⟨rfl, rfl⟩
  | evaluate r body timestamp =>
    simp only [Exposure.step] at hs
    split at hs
    · cases hs
      exact .inl ⟨rfl, rfl⟩
    · cases hs
  | fail r =>
    simp only [Exposure.step] at hs
    split at hs
    · cases hs
    · cases hs
    · cases hs
      exact .inl ⟨rfl, rfl⟩
  | advance r =>
    simp only [Exposure.step] at hs
    obtain ⟨phase, hr, hs⟩ := Option.bind_eq_some_iff.1 hs
    cases phase with
    | insertReceipt x =>
      simp only [World.advance] at hs
      split at hs
      · cases hs
        exact .inl ⟨rfl, rfl⟩
      · split_ifs at hs
        · cases hs
          exact .inl ⟨rfl, rfl⟩
        · cases hs
          exact .inl ⟨rfl, rfl⟩
    | insertOutbox x stored =>
      simp only [World.advance] at hs
      split at hs
      · cases hs
        exact .inl ⟨rfl, rfl⟩
      · split_ifs at hs
        · cases hs
          exact .inl ⟨rfl, rfl⟩
        · cases hs
          exact .inl ⟨rfl, rfl⟩
    | commitInsert x stored payload =>
      simp only [World.advance, Option.some.injEq] at hs
      subst hs
      exact .inr ⟨r, x, rfl, Function.update_self _ _ _⟩
    | compare x =>
      simp only [World.advance] at hs
      split at hs
      · cases hs
        exact .inl ⟨rfl, rfl⟩
      · split at hs
        · cases hs
          exact .inl ⟨rfl, rfl⟩
        · split_ifs at hs
          · cases hs
            exact .inl ⟨rfl, rfl⟩
          · cases hs
            exact .inl ⟨rfl, rfl⟩
    | commitSame x =>
      simp only [World.advance, Option.some.injEq] at hs
      subst hs
      exact .inl ⟨rfl, rfl⟩
    | answered response exposure => cases hs

/-- **Exposure idempotency.** In every state that is reached there is at most one outbox row for a
project and a message id, and all requests that were served with an exposure under them have the same
canonical payload. A step that changes what is stored serves a request, so a request that fails has
changed nothing. A request that comes to compare another payload with a recorded one fails with a
conflict. -/
theorem exposure_idempotency (jsonb : Doc → Option Doc) (hjsonb : Jsonb.Faithful jsonb) :
    (∀ w, (machine jsonb).Reach w →
      (w.outbox.map OutboxRow.key).Nodup ∧
      (∀ r response x, w.requests r = some (.answered response (some x)) →
        response = .served x.result ∧ x.key ∈ w.outbox.map OutboxRow.key) ∧
      (∀ r r' response response' x y, w.requests r = some (.answered response (some x)) →
        w.requests r' = some (.answered response' (some y)) → x.key = y.key →
        x.canonical = y.canonical) ∧
      ∀ r r' response x y, w.requests r = some (.answered response (some x)) →
        w.requests r' = some (.compare y) → x.key = y.key → x.canonical ≠ y.canonical →
        ∃ w', step jsonb w (.advance r') = some w' ∧
          w'.requests r' = some (.answered (.messageIdConflict (.reused y.messageId)) none) ∧
          w'.receipts = w.receipts ∧ w'.outbox = w.outbox ∧ w'.flags = w.flags) ∧
    ∀ w w' a, step jsonb w a = some w' →
      (w'.receipts = w.receipts ∧ w'.outbox = w.outbox) ∨
        ∃ r x, a = .advance r ∧ w'.requests r = some (.answered (.served x.result) (some x)) := by
  refine ⟨fun w hr => ?_, fun w w' a hs => tables_of_step hs⟩
  have h := reach_ledger hjsonb hr
  refine ⟨h.paired ▸ h.nodup, fun r response x hx => ?_, fun r r' _ _ x y hx hy hkey => ?_,
    fun r r' _ x y hx hy hkey hne => ?_⟩
  · obtain ⟨hresponse, -, row, hrow, hkey, -⟩ := h.phases r _ hx
    refine ⟨hresponse, ?_⟩
    rw [h.paired, ← hkey]
    exact List.mem_map_of_mem hrow
  · obtain ⟨-, hvx, hrx⟩ := h.phases r _ hx
    obtain ⟨-, hvy, hry⟩ := h.phases r' _ hy
    exact h.canonical_eq hvx hvy hrx hry hkey
  · obtain ⟨-, hvx, hrx⟩ := h.phases r _ hx
    exact ⟨_, h.compare_conflict hvx hrx hy hkey hne, Function.update_self _ _ _, rfl, rfl, rfl⟩

end Ledger

/-- A flag that is served to everyone. -/
def launchedFlag : StoredFlag where
  state := .active
  evaluationMode := .server
  config := ⟨Text.ofString "f", true, Text.ofString "a", [⟨Text.ofString "a", 1⟩], [], [],
    ⟨⟨100, Text.ofString "user_id"⟩⟩, 1⟩
  version_le := by decide

/-- A logged evaluation of the flag. -/
def launchedRequest : GateEvaluateRequest where
  projectId := Text.ofString "p"
  key := Text.ofString "f"
  context := ⟨some (Text.ofString "u"), none, []⟩
  logExposure := true
  sessionId := []
  messageId := Text.ofString "m"
  page := []
  component := []

/-- The two requests of a world were served with exposures under one key, one row between them. -/
def World.servedTwice (w : World) : Bool :=
  match w.requests 0, w.requests 1 with
  | some (.answered _ (some x)), some (.answered _ (some y)) =>
    decide (x.key = y.key) && decide (w.outbox.length = 1)
  | _, _ => false

/-- Two evaluations under one message id, the second a retry. -/
theorem exposure_idempotency_retry :
    ∃ w x y, (machine Jsonb.store).Reach w ∧
      w.requests 0 = some (.answered (.served x.result) (some x)) ∧
      w.requests 1 = some (.answered (.served y.result) (some y)) ∧
      w.outbox.length = 1 ∧ x.canonical = y.canonical := by
  have heval : (((machine Jsonb.store).run (machine Jsonb.store).init
      [.putFlag (Text.ofString "p") (Text.ofString "f") (some launchedFlag),
        .evaluate 0 launchedRequest (Text.ofString "1"),
        .evaluate 1 launchedRequest (Text.ofString "2"),
        .advance 0, .advance 0, .advance 0, .advance 1, .advance 1, .advance 1]).map
      World.servedTwice) = some true := by decide +kernel
  obtain ⟨w, hrun, htwice⟩ := Option.map_eq_some_iff.1 heval
  have hreach := StepMachine.reach_of_run hrun
  obtain ⟨-, hserved, hsame, -⟩ :=
    (exposure_idempotency Jsonb.store Jsonb.faithful_store).1 w hreach
  unfold World.servedTwice at htwice
  split at htwice
  · rename_i response x response' y hx hy
    simp only [Bool.and_eq_true, decide_eq_true_eq] at htwice
    obtain rfl := (hserved 0 response x hx).1
    obtain rfl := (hserved 1 response' y hy).1
    exact ⟨w, x, y, hreach, hx, hy, htwice.2, hsame 0 1 _ _ x y hx hy htwice.1⟩
  · cases htwice

end Apdl.Config.Exposure
