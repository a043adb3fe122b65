import Apdl.Ingest.Contract
import Apdl.Pipeline.Writer.Event

set_option autoImplicit false

/-!
# From ingestion to the writer

Every event that the ingestion service accepts becomes a row: the writer accepts the entry that is
published for it, and the row has the values of the event.

## Main results

* `accepted_event_has_row` — an accepted event has a row.

## Design

A stream ID is a pair of 64-bit numbers; its text is the one Redis assigns.
-/

namespace Apdl.Pipeline.Writer

open Doc (Fields)
open Text (ofString)
open Ingest
open Check

/-! ## Contexts -/

variable {name path field : String} {fields : Fields} {d : Doc} {hi : ℕ} {s : Text}
  {nonEmpty : Bool}

lemma requireString_str {maximum : ℕ}
    (hlen : s.length ≤ maximum) (hne : nonEmpty = true → 1 ≤ s.length) :
    requireString (some (.str s)) path maximum nonEmpty = .ok () := by
  have hpass : (!(nonEmpty && decide (s = []))) = true := by
    cases nonEmpty with
    | false => rfl
    | true =>
      have hs : s ≠ [] := by
        rintro rfl
        exact absurd (hne rfl) (by decide)
      simp [hs]
  simp [requireString, hpass, hlen, ensure]

lemma requireString_of_isText {isStr : Text → Bool} {lo : ℕ} (hlo : nonEmpty = true → 1 ≤ lo)
    (h : ∃ d, fields.get name = some d ∧ IsText isStr lo hi d) :
    requireString (fields.get name) path hi nonEmpty = .ok () := by
  obtain ⟨_, hget, s, rfl, -, h1, h2⟩ := h
  rw [hget]
  exact requireString_str h2 fun hne => le_trans (hlo hne) h1

lemma requireDimension_of_isSize (h : ∃ d, fields.get name = some d ∧ IsSize 100000 d) :
    requireDimension (fields.get name) path = .ok () := by
  obtain ⟨_, hget, n, rfl, h1, h2⟩ := h
  have h3 : n ≤ 100000 := by exact_mod_cast h2
  rw [hget]
  simp [requireDimension, h1, h3, ensure]

lemma validateNestedObject_of_record {rules : Rules} (path : String)
    (hreq : ∀ r ∈ rules, r.2.1 = true) (h : Record rules d) :
    ∃ fields, validateNestedObject d (rules.map Prod.fst) path = .ok fields ∧
      Follows rules fields := by
  obtain ⟨fields, rfl, hfollows, honly⟩ := h
  refine ⟨fields, ?_, hfollows⟩
  have hmissing : missing (rules.map Prod.fst) fields = [] := by
    refine missing_eq_nil_iff.2 fun name hname => ?_
    obtain ⟨r, hr, rfl⟩ := List.mem_map.1 hname
    have hrule := hfollows r hr
    rw [Doc.Fields.has]
    cases hget : Fields.get fields r.1 with
    | none =>
      rw [show Fields.get fields r.1 = none from hget, hreq r hr] at hrule
      cases hrule
    | some d => rfl
  simp [validateNestedObject, rejectUnknownObjectFields, unknown_eq_nil_iff.2 honly, hmissing,
    ensure]

section Contexts

variable {isStr : Text → Bool}

lemma validateNamedVersion_of_record (field : String) (h : Record (namedVersionRules isStr) d) :
    validateNamedVersion field d = .ok () := by
  obtain ⟨fields, hobj, hfollows⟩ :=
    validateNestedObject_of_record ("context." ++ field) (by simp [namedVersionRules]) h
  obtain ⟨hname, hversion, -⟩ := by simpa only [namedVersionRules, follows_required] using hfollows
  simp only [validateNamedVersion, bind_eq_ok]
  exact ⟨fields, hobj, (), requireString_of_isText (fun _ => le_rfl) hname,
    requireString_of_isText (fun _ => le_rfl) hversion⟩

lemma validateDevice_of_record (h : Record [("type", true, IsText isStr 1 64)] d) :
    validateDevice d = .ok () := by
  obtain ⟨fields, hobj, hfollows⟩ := validateNestedObject_of_record "context.device" (by simp) h
  simp only [validateDevice, bind_eq_ok]
  exact ⟨fields, hobj, requireString_of_isText (fun _ => le_rfl) (follows_required.1 hfollows).1⟩

lemma validateDimensions_of_record (field : String) (h : Record dimensionsRules d) :
    validateDimensions field d = .ok () := by
  obtain ⟨fields, hobj, hfollows⟩ :=
    validateNestedObject_of_record ("context." ++ field) (by simp [dimensionsRules]) h
  obtain ⟨hwidth, hheight, -⟩ := by simpa only [dimensionsRules, follows_required] using hfollows
  simp only [validateDimensions, bind_eq_ok]
  exact ⟨fields, hobj, (), requireDimension_of_isSize hwidth, requireDimension_of_isSize hheight⟩

lemma validatePage_of_record (h : Record (pageRules isStr) d) : validatePage d = .ok () := by
  obtain ⟨fields, hobj, hfollows⟩ :=
    validateNestedObject_of_record "context.page" (by simp [pageRules]) h
  obtain ⟨hurl, htitle, hpath, hsearch, -⟩ := by
    simpa only [pageRules, follows_required] using hfollows
  simp only [validatePage, bind_eq_ok]
  exact ⟨fields, hobj, (), requireString_of_isText (by simp) hurl, (),
    requireString_of_isText (by simp) htitle, (), requireString_of_isText (by simp) hpath,
    requireString_of_isText (by simp) hsearch⟩

lemma whenPresent_of_orNull {context : Fields} {P : Doc → Prop}
    {check : Doc → Except ParseError Unit} (hnull : ∀ f ∈ context, f.2 ≠ .null)
    (h : ∀ d, context.get field = some d → OrNull P d) (hcheck : ∀ d, P d → check d = .ok ()) :
    whenPresent context field check = .ok () := by
  unfold whenPresent
  cases hget : context.get field with
  | none => rfl
  | some d =>
    have hmem : (ofString field, d) ∈ context := PyJson.mem_of_get hget
    exact hcheck d ((h d hget).resolve_left (hnull _ hmem))

theorem validateContext_of_contextOk (h : ContextOk isStr d) :
    ∃ context, d = .obj context ∧ validateContext context = .ok () := by
  obtain ⟨⟨context, rfl, hfollows, honly⟩, hnull⟩ := h
  replace hnull := hnull context rfl
  refine ⟨context, rfl, ?_⟩
  have hunknown : unknown canonicalContextFields context = [] := unknown_eq_nil_iff.2 honly
  simp only [contextRules, follows_cons] at hfollows
  obtain ⟨hlibrary, hbrowser, hos, hdevice, hscreen, hviewport, hpage, hlocale, htimezone,
    hreferrer, -⟩ := hfollows
  have hstring : ∀ {hi : ℕ} (field : String) (d : Doc), IsText isStr 0 hi d →
      requireString (some d) ("context." ++ field) hi false = .ok () := by
    rintro hi field _ ⟨s, rfl, -, -, hlen⟩
    exact requireString_str hlen (by simp)
  simp only [validateContext, bind_eq_ok, Check.all_eq_ok, List.mem_cons, List.not_mem_nil,
    or_false, forall_eq_or_imp, forall_eq]
  refine ⟨(), ?_, (), ⟨?_, ?_, ?_⟩, (), ?_, (), ⟨?_, ?_⟩, (), ?_, ?_, ?_, ?_⟩
  · simp [rejectUnknownObjectFields, hunknown, ensure]
  · exact whenPresent_of_orNull hnull hlibrary fun d => validateNamedVersion_of_record _
  · exact whenPresent_of_orNull hnull hbrowser fun d => validateNamedVersion_of_record _
  · exact whenPresent_of_orNull hnull hos fun d => validateNamedVersion_of_record _
  · exact whenPresent_of_orNull hnull hdevice fun d => validateDevice_of_record
  · exact whenPresent_of_orNull hnull hscreen fun d => validateDimensions_of_record _
  · exact whenPresent_of_orNull hnull hviewport fun d => validateDimensions_of_record _
  · exact whenPresent_of_orNull hnull hpage fun d => validatePage_of_record
  · exact whenPresent_of_orNull hnull hlocale fun d => hstring _ d
  · exact whenPresent_of_orNull hnull htimezone fun d => hstring _ d
  · exact whenPresent_of_orNull hnull hreferrer fun d => hstring _ d

end Contexts

/-- What the writer uses of an event that passes the model. -/
structure Contract (receivedAt : Datetime) (event : Fields) : Prop where
  name : ∃ s, event.get "event" = some (.str s) ∧ s ≠ []
  type : ∃ s, event.get "type" = some (.str s) ∧ s ∈ validEventTypes.map ofString
  identifiers : ∀ field ∈ ["user_id", "anonymous_id", "group_id", "session_id"],
    event.get field = none ∨ ∃ s, event.get field = some (.str s)
  messageId : ∃ s, event.get "message_id" = some (.str s) ∧ s ≠ []
  objects : ∀ field ∈ ["properties", "traits"],
    event.get field = none ∨ ∃ o, event.get field = some (.obj o)
  timestamp : ∃ s t, event.get "timestamp" = some (.str s) ∧ Ingest.parseTimestamp s = .ok t ∧
    timestampWindow t receivedAt = .ok []
  context : ∃ c, event.get "context" = some (.obj c) ∧ validateContext c = .ok ()
  known : ∀ k ∈ keys event, k ∈ (canonicalEventFields.take 11).map ofString
  envelope : Event.envelopeErrors event = []

lemma ne_nil_of_length (h : 1 ≤ s.length) : s ≠ [] := by
  rintro rfl
  exact absurd h (by decide)

theorem contract_of_eventOk {isStr : Text → Bool} {receivedAt : Datetime} {event : Fields}
    (h : EventOk isStr receivedAt event) : Contract receivedAt event := by
  obtain ⟨_, ⟨⟩, hfollows, honly⟩ := h.fields
  have hnull := h.noNull
  simp only [Event.optionalFields, List.forall_mem_cons] at hnull
  obtain ⟨hnuser, hnanon, hngroup, hnprops, hntraits, hnsession, -⟩ := hnull
  simp only [eventRules, rulesBefore, rulesAfter, List.cons_append, List.nil_append,
    follows_required, follows_cons] at hfollows
  obtain ⟨⟨_, hevent, name, rfl, hlen, -⟩, ⟨_, htype, type, hmem, rfl⟩, huser, hanon, hgroup,
    ⟨_, htimestamp, s, t, oldest, newest, rfl, hparse, hwindow⟩, hprops, htraits,
    ⟨_, hcontext, hcontextOk⟩, ⟨_, hmessage, id, rfl, -, hid, -⟩, hsession, -⟩ := hfollows
  have hoptional : ∀ {field : String} {P : Doc → Prop}, event.get field ≠ some .null →
      (∀ d, event.get field = some d → OrNull P d) →
      event.get field = none ∨ ∃ d, event.get field = some d ∧ P d := by
    intro field P hne hvalue
    cases hget : event.get field with
    | none => exact .inl rfl
    | some d =>
      refine .inr ⟨d, rfl, (hvalue d hget).resolve_left ?_⟩
      rintro rfl
      exact hne hget
  have hstring : ∀ {field : String}, event.get field ≠ some .null →
      (∀ d, event.get field = some d → OrNull (IsText isStr 1 128) d) →
      event.get field = none ∨ ∃ s, event.get field = some (.str s) := by
    intro field hne hvalue
    refine (hoptional hne hvalue).imp_right ?_
    rintro ⟨_, hget, s, rfl, -⟩
    exact ⟨s, hget⟩
  obtain ⟨context, rfl, hcheck⟩ := validateContext_of_contextOk hcontextOk
  refine ⟨⟨name, hevent, ne_nil_of_length hlen⟩, ⟨_, htype, List.mem_map_of_mem hmem⟩, ?_,
    ⟨id, hmessage, ne_nil_of_length hid⟩, ?_,
    ⟨s, t, htimestamp, hparse, timestampWindow_eq_nil_iff.2 ⟨oldest, newest, hwindow⟩⟩,
    ⟨context, hcontext, hcheck⟩, ?_,
    envelopeErrors_eq_nil_iff.2 ⟨h.identified, h.named, h.user, h.group⟩⟩
  · simp only [List.mem_cons, List.not_mem_nil, or_false, forall_eq_or_imp, forall_eq]
    exact ⟨hstring hnuser huser, hstring hnanon hanon, hstring hngroup hgroup,
      hstring hnsession hsession⟩
  · simp only [List.mem_cons, List.not_mem_nil, or_false, forall_eq_or_imp, forall_eq]
    constructor
    · refine (hoptional hnprops hprops).imp_right ?_
      rintro ⟨_, hget, o, rfl, -⟩
      exact ⟨o, hget⟩
    · refine (hoptional hntraits htraits).imp_right ?_
      rintro ⟨_, hget, o, rfl⟩
      exact ⟨o, hget⟩
  · intro k hk
    obtain ⟨f, hf, rfl⟩ := List.mem_map.1 hk
    exact honly f hf

/-! ## Batches -/

lemma keys_filterMap_sublist {α β γ : Type} {f : α → Option (β × γ)} {k : α → β}
    (h : ∀ a b, f a = some b → b.1 = k a) {l : List α} :
    ((l.filterMap f).map Prod.fst).Sublist (l.map k) := by
  induction l with
  | nil => simp
  | cons a l ih =>
    cases ha : f a with
    | none =>
      rw [List.filterMap_cons_none ha, List.map_cons]
      exact ih.cons _
    | some b =>
      rw [List.filterMap_cons_some ha, List.map_cons, List.map_cons, h a b ha]
      exact ih.cons_cons _

lemma canonical_safeProperties {properties : Option Doc} {name : Text}
    {schema : List (String × (Doc → Bool))} (hschema : autoCaptureProperties name = some schema)
    (h : ∀ d ∈ properties, PyJson.canonical d = true) :
    PyJson.canonical (.obj (safeProperties properties schema)) = true := by
  have hnodup : (schema.map fun entry => ofString entry.1).Nodup := by
    unfold autoCaptureProperties at hschema
    split_ifs at hschema
    · obtain rfl := Option.some.inj hschema
      decide
    · obtain rfl := Option.some.inj hschema
      decide
  unfold safeProperties
  split
  · rename_i fields
    obtain ⟨-, hvalues⟩ := PyJson.canonical_obj_iff.1 (h _ rfl)
    refine PyJson.canonical_obj_iff.2 ⟨?_, ?_⟩
    · -- the keys that are kept are keys of the schema, in its order
      refine hnodup.sublist (keys_filterMap_sublist fun entry f heq => ?_)
      obtain ⟨d, -, rfl⟩ := Option.map_eq_some_iff.1 heq
      rfl
    · intro f hf
      obtain ⟨entry, -, heq⟩ := List.mem_filterMap.1 hf
      obtain ⟨d, hd, rfl⟩ := Option.map_eq_some_iff.1 heq
      exact hvalues _ (PyJson.mem_of_get (Option.filter_eq_some_iff.1 hd).1)
  · rfl

lemma canonical_get (h : PyJson.canonical (.obj fields) = true) {key : Text}
    (hd : PyJson.get fields key = some d) : PyJson.canonical d = true :=
  (PyJson.canonical_obj_iff.1 h).2 _ (PyJson.mem_of_get hd)

lemma sanitizeEvent_cases (event : Fields) :
    sanitizeEvent (.obj event) = .obj event ∨
      ∃ name schema, autoCaptureProperties name = some schema ∧
        (sanitizeEvent (.obj event) = .obj (PyJson.set event (ofString "properties")
            (.obj (safeProperties (event.get "properties") schema))) ∨
          ∃ context, event.get "context" = some (.obj context) ∧
            sanitizeEvent (.obj event) = .obj (PyJson.set (PyJson.set event (ofString "properties")
              (.obj (safeProperties (event.get "properties") schema))) (ofString "context")
              (.obj (safeContext context)))) := by
  simp only [sanitizeEvent]
  split
  · exact .inl rfl
  rename_i name _
  split
  · exact .inl rfl
  rename_i schema hschema
  split
  · rename_i context hcontext
    split_ifs
    · exact .inr ⟨name, schema, hschema, .inr ⟨context, hcontext, rfl⟩⟩
    · exact .inr ⟨name, schema, hschema, .inl rfl⟩
    · exact .inl rfl
  · split_ifs
    · exact .inr ⟨name, schema, hschema, .inl rfl⟩
    · exact .inl rfl

lemma canonical_sanitizeEvent {event : Doc} (h : PyJson.canonical event = true) :
    PyJson.canonical (sanitizeEvent event) = true := by
  cases event with
  | obj event =>
    have hsafe : ∀ {name schema}, autoCaptureProperties name = some schema →
        PyJson.canonical (.obj (PyJson.set event (ofString "properties")
          (.obj (safeProperties (Fields.get event "properties") schema)))) = true :=
      fun hschema => PyJson.canonical_set h
        (canonical_safeProperties hschema fun d hd => canonical_get h hd)
    rcases sanitizeEvent_cases event with heq | ⟨name, schema, hschema, heq | ⟨context, hc, heq⟩⟩
    · rw [heq]
      exact h
    · rw [heq]
      exact hsafe hschema
    · rw [heq]
      exact PyJson.canonical_set (hsafe hschema)
        (PyJson.canonical_filter (canonical_get h hc) _)
  | _ => exact h

section Batches

variable {isStr : Text → Bool} {receivedAt : Datetime}

theorem accepted_events {raw : Doc} {events : List Fields}
    (h : acceptBatch isStr receivedAt raw = .ok events) :
    ∀ event ∈ events, PyJson.canonical (.obj event) = true ∧ Contract receivedAt event := by
  simp only [acceptBatch, bind_eq_ok, ensure_eq_ok, Except.ok.injEq] at h
  obtain ⟨body, hparse, _, hbounds, _, -, _, hbatch, rfl⟩ := h
  have hloads : PyJson.loads raw = .ok body := by
    unfold parseCanonicalJson at hparse
    split at hparse <;> cases hparse
    assumption
  have hvalid : validateEventBatch isStr receivedAt (sanitizeAutoCaptureEvents body) = .ok [] := by
    unfold checkBatch at hbatch
    split at hbatch
    · cases hbatch
    · assumption
    · cases hbatch
  obtain ⟨events', ⟨fields', hbody', hget', -⟩, -, hall⟩ := (validateEventBatch_iff _).1.1 hvalid
  -- the body has a list of events, and the sanitized body has the sanitized events
  obtain ⟨fields, items, rfl, hget, rfl⟩ : ∃ fields items, body = .obj fields ∧
      Fields.get fields "events" = some (.arr items) ∧ events' = items.map sanitizeEvent := by
    cases body with
    | obj fields =>
      obtain ⟨hnodup, -⟩ := PyJson.loads_obj hloads
      simp only [sanitizeAutoCaptureEvents] at hbody'
      split at hbody'
      · rename_i items hitems
        obtain rfl := Doc.obj.inj hbody'
        rw [PyJson.fieldsGet_eq, PyJson.get_set hnodup, if_pos rfl, Option.some.injEq] at hget'
        exact ⟨fields, items, rfl, hitems, (Doc.arr.inj hget').symm⟩
      · rename_i hno
        obtain rfl := Doc.obj.inj hbody'
        exact absurd hget' (hno events')
    | _ => cases hbody'
  have hfinite : ∀ d ∈ items, PyJson.finite d = true := by
    intro d hd
    simp only [checkBounds, hget, Check.all_eq_ok] at hbounds
    have hok := hbounds d hd
    have hbound : validateEventJsonBounds d = .ok () := by
      split at hok
      · assumption
      · cases hok
    simp only [validateEventJsonBounds, bind_eq_ok, ensure_eq_ok, Bool.and_eq_true] at hbound
    obtain ⟨_, -, _, ⟨hdumps, -⟩, -⟩ := hbound
    unfold PyJson.dumps at hdumps
    by_contra hno
    rw [if_neg hno] at hdumps
    cases hdumps
  have hcanonical : ∀ d ∈ items, PyJson.canonical d = true := by
    intro d hd
    obtain ⟨-, hvalues⟩ := PyJson.loads_obj hloads
    obtain ⟨e, he⟩ := hvalues _ (PyJson.mem_of_get hget)
    obtain ⟨e', he'⟩ := PyJson.loads_arr he d hd
    exact PyJson.canonical_of_loads he' (hfinite d hd)
  intro event hevent
  rw [hbody', bodyEvents, hget'] at hevent
  obtain ⟨d, hd, hdobj⟩ := List.mem_filterMap.1 hevent
  obtain ⟨event', rfl, hok, -⟩ := hall d hd
  obtain rfl : event' = event := Option.some.inj hdobj
  obtain ⟨d₀, hd₀, heq⟩ := List.mem_map.1 hd
  refine ⟨?_, contract_of_eventOk hok⟩
  rw [← heq]
  exact canonical_sanitizeEvent (hcanonical d₀ hd₀)

end Batches

/-! ## Stamps and stream IDs -/

structure EntryId where
  milliseconds : ℕ
  sequence : ℕ
  milliseconds_lt : milliseconds < 2 ^ 64
  sequence_lt : sequence < 2 ^ 64

def EntryId.text (id : EntryId) : Text :=
  Decimal.text id.milliseconds ++ 45 :: Decimal.text id.sequence

lemma canonicalDecimal_text (n : ℕ) : canonicalDecimal (Decimal.text n) = some (n : ℤ) := by
  have hdigits : canonicalDigits (Decimal.text n) = some n := by
    simp [canonicalDigits, Decimal.takeNumber_text]
  unfold canonicalDecimal
  split
  · rename_i digits heq
    have hsign := (Decimal.text_units (n := n) 45 (by rw [heq]; exact List.mem_cons_self)).1
    exact absurd hsign (by decide)
  · rw [hdigits]
    rfl

lemma streamIdParts_text (id : EntryId) :
    streamIdParts id.text = .ok (id.milliseconds, id.sequence) := by
  have hplain : ∀ u ∈ Decimal.text id.milliseconds, (u != 45) = true := by
    intro u hu
    have := (Decimal.text_units u hu).1
    rw [bne_iff_ne]
    rintro rfl
    exact absurd this (by decide)
  have htake : id.text.takeWhile (fun u => u != 45) = Decimal.text id.milliseconds := by
    rw [EntryId.text, List.takeWhile_append_of_pos hplain]
    simp
  have hdrop : id.text.drop (List.length (Decimal.text id.milliseconds) + 1) =
      Decimal.text id.sequence := by
    rw [EntryId.text, ← List.singleton_append, ← List.append_assoc]
    exact List.drop_left' (by simp)
  have hlt : List.length (Decimal.text id.milliseconds) < id.text.unitLength := by
    rw [EntryId.text, Text.unitLength, List.length_append, List.length_cons]
    omega
  have hms := id.milliseconds_lt
  have hseq := id.sequence_lt
  have hparts : (0 : ℤ) ≤ id.milliseconds ∧ (0 : ℤ) ≤ id.sequence ∧
      (id.milliseconds : ℤ) < 2 ^ 64 ∧ (id.sequence : ℤ) < 2 ^ 64 := by
    refine ⟨Int.natCast_nonneg _, Int.natCast_nonneg _, ?_, ?_⟩
    · exact_mod_cast hms
    · exact_mod_cast hseq
  have hsplit : splitStreamId id.text = some (id.milliseconds, id.sequence) := by
    unfold splitStreamId
    simp only [htake]
    refine Traverse.guard_intro hlt <| Traverse.bind_intro (canonicalDecimal_text _) <|
      Traverse.bind_intro ?_ <| Traverse.guard_intro hparts rfl
    rw [hdrop]
    exact canonicalDecimal_text _
  rw [streamIdParts, hsplit]

def serverFields : List String := ["server_timestamp", "ip", "project_id"]

section Stamps

variable {receivedAt : Datetime} {sourceIp projectId : Text} {event : Fields}

lemma get_stamp (h : (event.map Prod.fst).Nodup) (name : String) :
    (stamp receivedAt sourceIp projectId event).get name =
      if ofString name = ofString "project_id" then some (.str projectId)
      else if ofString name = ofString "ip" then some (.str sourceIp)
      else if ofString name = ofString "server_timestamp" then
        some (.str (Timestamp.format receivedAt))
      else event.get name := by
  have h1 := PyJson.nodup_keys_set h (ofString "server_timestamp") (.str (Timestamp.format receivedAt))
  have h2 := PyJson.nodup_keys_set h1 (ofString "ip") (.str sourceIp)
  rw [stamp, PyJson.fieldsGet_eq, PyJson.get_set h2, PyJson.get_set h1, PyJson.get_set h]
  rfl

lemma get_stamp_of_notMem (h : (event.map Prod.fst).Nodup) (name : String)
    (hname : ofString name ∉ serverFields.map ofString) :
    (stamp receivedAt sourceIp projectId event).get name = event.get name := by
  simp only [serverFields, List.map_cons, List.map_nil, List.mem_cons, List.not_mem_nil, or_false,
    not_or] at hname
  rw [get_stamp h, if_neg hname.2.2, if_neg hname.2.1, if_neg hname.1]

lemma mem_keys_stamp {k : Text} (hk : k ∈ keys (stamp receivedAt sourceIp projectId event)) :
    k ∈ keys event ∨ k ∈ serverFields.map ofString := by
  have hset : ∀ {fields : Fields} {key : Text} {value : Doc},
      k ∈ (PyJson.set fields key value).map Prod.fst → k ∈ fields.map Prod.fst ∨ k = key := by
    intro fields key value hmem
    rw [PyJson.keys_set] at hmem
    split_ifs at hmem
    · exact .inl hmem
    · simpa using hmem
  simp only [serverFields, List.map_cons, List.map_nil, List.mem_cons, List.not_mem_nil, or_false]
  rcases hset hk with hk | rfl
  · rcases hset hk with hk | rfl
    · rcases hset hk with hk | rfl
      · exact .inl hk
      · exact .inr (.inl rfl)
    · exact .inr (.inr (.inl rfl))
  · exact .inr (.inr (.inr rfl))

lemma canonical_stamp (h : PyJson.canonical (.obj event) = true) :
    PyJson.canonical (.obj (stamp receivedAt sourceIp projectId event)) = true :=
  PyJson.canonical_set (PyJson.canonical_set (PyJson.canonical_set h rfl) rfl) rfl

end Stamps

/-! ## Entries -/

lemma envelope_parts {event : Fields} {type name : Text} (h : Event.envelopeErrors event = [])
    (htype : event.get "type" = some (.str type)) (hname : event.get "event" = some (.str name)) :
    (truthy (event.get "user_id") || truthy (event.get "anonymous_id")) = true ∧
      (∀ expected, canonicalEventName type = some expected → name = expected) ∧
      (type = ofString "identify" → truthy (event.get "user_id") = true) ∧
      (type = ofString "group" → truthy (event.get "group_id") = true) := by
  obtain ⟨hid, hnamed, huser, hgroup⟩ := envelopeErrors_eq_nil_iff.1 h
  refine ⟨Bool.or_eq_true_iff.2 hid, fun expected he => ?_, ?_, ?_⟩
  · have hmem := List.mem_of_find?_eq_some he
    obtain rfl : expected = type := by simpa using List.find?_some he
    obtain ⟨known, hknown, rfl⟩ := List.mem_map.1 hmem
    exact Doc.str.inj (Option.some.inj (hname.symm.trans (hnamed known hknown htype)))
  · rintro rfl
    exact huser htype
  · rintro rfl
    exact hgroup htype

section Entries

variable {receivedAt : Datetime} {sourceIp projectId : Text} {event : Fields}

lemma checkEnvelope_stamp (h : Contract receivedAt event) (hnodup : (event.map Prod.fst).Nodup)
    (payload : Doc) :
    checkEnvelope [(ofString "event_json", payload)] (stamp receivedAt sourceIp projectId event)
      projectId = .ok () := by
  have hunknown : unknown canonicalEventFields (stamp receivedAt sourceIp projectId event) = [] := by
    refine unknown_eq_nil_iff.2 fun f hf => ?_
    rcases mem_keys_stamp (List.mem_map_of_mem hf) with hk | hk
    · obtain ⟨name, hname, heq⟩ := List.mem_map.1 (h.known _ hk)
      rw [← heq]
      exact List.mem_map_of_mem (List.mem_of_mem_take hname)
    · have hcanonical : ∀ name ∈ serverFields, name ∈ canonicalEventFields := by decide
      obtain ⟨name, hname, heq⟩ := List.mem_map.1 hk
      rw [← heq]
      exact List.mem_map_of_mem (hcanonical name hname)
  have hmissing :
      missing canonicalRequiredEventFields (stamp receivedAt sourceIp projectId event) = [] := by
    refine missing_eq_nil_iff.2 ?_
    simp only [canonicalRequiredEventFields, List.mem_cons, List.not_mem_nil, or_false,
      forall_eq_or_imp, forall_eq, Doc.Fields.has]
    obtain ⟨name, hname, -⟩ := h.name
    obtain ⟨type, htype, -⟩ := h.type
    obtain ⟨s, t, hts, -⟩ := h.timestamp
    obtain ⟨c, hcontext, -⟩ := h.context
    obtain ⟨id, hid, -⟩ := h.messageId
    refine ⟨?_, ?_, ?_, ?_, ?_, ?_⟩
    · rw [get_stamp_of_notMem hnodup _ (by decide), hname]
      rfl
    · rw [get_stamp_of_notMem hnodup _ (by decide), htype]
      rfl
    · rw [get_stamp_of_notMem hnodup _ (by decide), hts]
      rfl
    · rw [get_stamp hnodup, if_neg (by decide), if_neg (by decide), if_pos rfl]
      rfl
    · rw [get_stamp_of_notMem hnodup _ (by decide), hcontext]
      rfl
    · rw [get_stamp_of_notMem hnodup _ (by decide), hid]
      rfl
  have hnull : ∀ field ∈ nullableFields,
      rejectExplicitNull (stamp receivedAt sourceIp projectId event) field = .ok () := by
    intro field hfield
    have hfields : ∀ name ∈ nullableFields, ofString name ∉ serverFields.map ofString := by decide
    have hserver := hfields field hfield
    have hvalue : event.get field = none ∨ (∃ s, event.get field = some (.str s)) ∨
        ∃ o, event.get field = some (.obj o) := by
      have hids := h.identifiers
      have hobjects := h.objects
      simp only [List.mem_cons, List.not_mem_nil, or_false, forall_eq_or_imp, forall_eq]
        at hids hobjects
      simp only [nullableFields, List.mem_cons, List.not_mem_nil, or_false] at hfield
      rcases hfield with rfl | rfl | rfl | rfl | rfl | rfl
      · exact hids.1.imp_right .inl
      · exact hids.2.1.imp_right .inl
      · exact hids.2.2.1.imp_right .inl
      · exact hobjects.1.imp_right .inr
      · exact hobjects.2.imp_right .inr
      · exact hids.2.2.2.imp_right .inl
    rw [rejectExplicitNull, get_stamp_of_notMem hnodup field hserver]
    rcases hvalue with hv | ⟨s, hv⟩ | ⟨o, hv⟩ <;> simp [hv, ensure]
  have hproject : (stamp receivedAt sourceIp projectId event).get "project_id" =
      some (.str projectId) := by
    rw [get_stamp hnodup, if_pos rfl]
  have hdata : Fields.get [(ofString "event_json", payload)] "project_id" = none :=
    PyJson.get_eq_none_iff.2 (by simp only [List.map_cons, List.map_nil]; decide)
  simp only [checkEnvelope, bind_eq_ok, ensure_eq_ok, Check.all_eq_ok]
  refine ⟨(), by simp [hunknown], (), by simp [hmissing], (), hnull, ?_⟩
  simp [hdata, hproject, matchesProject]

lemma checkIdentity_stamp {type name : Text} (h : Contract receivedAt event)
    (hnodup : (event.map Prod.fst).Nodup) (htype : event.get "type" = some (.str type))
    (hname : event.get "event" = some (.str name)) :
    checkIdentity (stamp receivedAt sourceIp projectId event) type name = .ok () := by
  obtain ⟨hidentity, hexpected, hidentify, hgroup⟩ := envelope_parts h.envelope htype hname
  obtain ⟨id, hid, hne⟩ := h.messageId
  unfold checkIdentity
  rw [get_stamp_of_notMem hnodup "user_id" (by decide),
    get_stamp_of_notMem hnodup "anonymous_id" (by decide),
    get_stamp_of_notMem hnodup "group_id" (by decide),
    get_stamp_of_notMem hnodup "message_id" (by decide), hid]
  simp only [bind_eq_ok, ensure_eq_ok]
  refine ⟨(), ?_, (), hidentity, (), ?_, (), ?_, by simpa using hne⟩
  · unfold checkName
    cases hcanonical : canonicalEventName type with
    | none => rfl
    | some expected => exact ensure_eq_ok.2 (decide_eq_true (hexpected expected hcanonical))
  · by_cases ht : type = ofString "identify"
    · simp [hidentify ht]
    · simp [ht]
  · by_cases ht : type = ofString "group"
    · simp [hgroup ht]
    · simp [ht]

end Entries

lemma parseTimestamp_eq {t : Datetime} (field : String)
    (h : Ingest.parseTimestamp s = .ok t) : parseTimestamp (some (.str s)) field = .ok t := by
  unfold Ingest.parseTimestamp at h
  unfold parseTimestamp
  split at h
  · cases h
  rename_i g hg
  split_ifs at h with hyear
  split at h
  · cases h
  rename_i t' ht'
  cases h
  simp only [hg, if_neg hyear, ht']

lemma parseTimestamp_format (now : ClockReading) (field : String) :
    parseTimestamp (some (.str (Timestamp.format now.receivedAt))) field = .ok now.receivedAt := by
  have hgroups := Timestamp.groups_format now.receivedAt
  have hmicro : now.receivedAt.microsecond / 1000 * 1000 = now.receivedAt.microsecond := by
    change now.microsecond / 1000 * 1000 / 1000 * 1000 = now.microsecond / 1000 * 1000
    omega
  have hyear : ¬ now.receivedAt.year < 1000 := by
    have := now.epoch
    change ¬ now.year < 1000
    omega
  rw [hmicro] at hgroups
  unfold parseTimestamp
  simp only [hgroups, if_neg hyear, Timestamp.Groups.datetime?, Datetime.make?_fields]

lemma validateEventTimestampWindow_of {t receivedAt : Datetime}
    (h : timestampWindow t receivedAt = .ok []) :
    validateEventTimestampWindow t receivedAt = .ok () := by
  obtain ⟨oldest, newest, hold, hnew, h1, h2⟩ := timestampWindow_eq_nil_iff.1 h
  simp only [validateEventTimestampWindow, hold, hnew, if_neg (not_lt.2 h1), if_neg (not_lt.2 h2)]

/-- A row has the values of a stamped event; a field that is not there is empty. -/
structure RowOf (event : Fields) (row : Row) : Prop where
  projectId : event.get "project_id" = some (.str row.projectId)
  messageId : event.get "message_id" = some (.str row.messageId)
  eventType : event.get "type" = some (.str row.eventType)
  eventName : event.get "event" = some (.str row.eventName)
  userId : (event.get "user_id").getD (.str []) = .str row.userId
  anonymousId : (event.get "anonymous_id").getD (.str []) = .str row.anonymousId
  groupId : (event.get "group_id").getD (.str []) = .str row.groupId
  sessionId : (event.get "session_id").getD (.str []) = .str row.sessionId
  timestamp : ∃ s, event.get "timestamp" = some (.str s) ∧
    Ingest.parseTimestamp s = .ok row.timestamp
  receivedAt : event.get "server_timestamp" = some (.str (Timestamp.format row.receivedAt))
  properties : (event.get "properties").getD (.obj []) = row.properties
  traits : (event.get "traits").getD (.obj []) = row.traits
  context : event.get "context" = some row.context
  ip : event.get "ip" = some (.str row.ip)

lemma optionalString_eq {event : Fields}
    (h : event.get field = none ∨ ∃ s, event.get field = some (.str s)) :
    ∃ s, optionalString event field = .ok s ∧ (event.get field).getD (.str []) = .str s := by
  unfold optionalString
  rcases h with h | ⟨s, h⟩
  · exact ⟨[], by rw [h], by rw [h]; rfl⟩
  · exact ⟨s, by rw [h], by rw [h]; rfl⟩

lemma optionalObject_eq {event : Fields}
    (h : event.get field = none ∨ ∃ o, event.get field = some (.obj o)) :
    ∃ o, optionalObject event field = .ok o ∧ (event.get field).getD (.obj []) = .obj o := by
  unfold optionalObject
  rcases h with h | ⟨o, h⟩
  · exact ⟨[], by rw [h], by rw [h]; rfl⟩
  · exact ⟨o, by rw [h], by rw [h]; rfl⟩

lemma column_eq (h : PyJson.canonical (.obj fields) = true) :
    column fields = .ok (.obj fields) := by
  rw [column, PyJson.dumps_of_canonical h]

lemma obj_of_validateNestedObject {value : Doc} {names : List String}
    {members : Fields} (h : validateNestedObject value names path = .ok members) :
    value = .obj members := by
  cases value with
  | obj fields =>
    simp only [validateNestedObject, bind_eq_ok, Except.ok.injEq] at h
    obtain ⟨_, -, _, -, rfl⟩ := h
    rfl
  | _ => simp [validateNestedObject, raise] at h

lemma str_of_requireString {value : Option Doc} {maximum : ℕ}
    (h : requireString value path maximum nonEmpty = .ok ()) : ∃ s, value = some (.str s) := by
  unfold requireString at h
  split at h
  · exact ⟨_, rfl⟩
  · cases h

lemma contextObject_eq {context : Fields}
    (h : ∀ d, context.get field = some d → ∃ members s, d = .obj members ∧
      Fields.get members name = some (.str s)) :
    ∃ members s, contextObject context field = .ok members ∧
      optionalString members name = .ok s := by
  unfold contextObject
  cases hget : context.get field with
  | none => exact ⟨[], [], rfl, rfl⟩
  | some d =>
    obtain ⟨members, s, rfl, hs⟩ := h d hget
    cases members with
    | nil => cases hs
    | cons m ms =>
      refine ⟨m :: ms, s, rfl, ?_⟩
      rw [optionalString, hs]

lemma members_of_validateContext {context : Fields} (h : validateContext context = .ok ()) :
    (∃ browser s, contextObject context "browser" = .ok browser ∧
      optionalString browser "name" = .ok s) ∧
    ∃ device s, contextObject context "device" = .ok device ∧
      optionalString device "type" = .ok s := by
  simp only [validateContext, bind_eq_ok, Check.all_eq_ok, List.mem_cons, List.not_mem_nil,
    or_false, forall_eq_or_imp, forall_eq] at h
  obtain ⟨_, -, _, ⟨-, hbrowser, -⟩, _, hdevice, -⟩ := h
  constructor
  · refine contextObject_eq fun d hd => ?_
    simp only [whenPresent, hd, validateNamedVersion, bind_eq_ok] at hbrowser
    obtain ⟨members, hobj, _, hname, -⟩ := hbrowser
    obtain ⟨s, hs⟩ := str_of_requireString hname
    exact ⟨members, s, obj_of_validateNestedObject hobj, hs⟩
  · refine contextObject_eq fun d hd => ?_
    simp only [whenPresent, hd, validateDevice, bind_eq_ok] at hdevice
    obtain ⟨members, hobj, htype⟩ := hdevice
    obtain ⟨s, hs⟩ := str_of_requireString htype
    exact ⟨members, s, obj_of_validateNestedObject hobj, hs⟩

lemma parseEvent_stamp {now : ClockReading} {sourceIp : Text} {project : ProjectId}
    {event : Fields} (hcanonical : PyJson.canonical (.obj event) = true)
    (h : Contract now.receivedAt event) (id : EntryId) :
    ∃ row, parseEvent
        [(ofString "event_json", .obj (stamp now.receivedAt sourceIp project.text event))]
        project.text (streamKey project.text) id.text = .ok row ∧
      RowOf (stamp now.receivedAt sourceIp project.text event) row ∧
      row.receivedAt = now.receivedAt := by
  obtain ⟨hnodup, -⟩ := PyJson.canonical_obj_iff.1 hcanonical
  have hstamped : PyJson.canonical (.obj (stamp now.receivedAt sourceIp project.text event)) =
      true := canonical_stamp hcanonical
  set stamped := stamp now.receivedAt sourceIp project.text event with hdef
  have hget : ∀ name : String, ofString name ∉ serverFields.map ofString →
      stamped.get name = event.get name := fun name hname => get_stamp_of_notMem hnodup name hname
  obtain ⟨name, hname, hne⟩ := h.name
  obtain ⟨type, htype, hvalid⟩ := h.type
  obtain ⟨ts, t, hts, hparse, hwindow⟩ := h.timestamp
  obtain ⟨context, hcontext, hcheck⟩ := h.context
  obtain ⟨messageId, hmessage, -⟩ := h.messageId
  have henvelope : checkEnvelope [(ofString "event_json", .obj stamped)] stamped project.text =
      .ok () := checkEnvelope_stamp h hnodup (.obj stamped)
  have hidentity : checkIdentity stamped type name = .ok () :=
    checkIdentity_stamp h hnodup htype hname
  have hids := h.identifiers
  have hobjects := h.objects
  simp only [List.mem_cons, List.not_mem_nil, or_false, forall_eq_or_imp, forall_eq]
    at hids hobjects
  have hserver : stamped.get "server_timestamp" =
      some (.str (Timestamp.format now.receivedAt)) := by
    rw [hdef, get_stamp hnodup, if_neg (by decide), if_neg (by decide), if_pos rfl]
  have hip : stamped.get "ip" = some (.str sourceIp) := by
    rw [hdef, get_stamp hnodup, if_neg (by decide), if_pos rfl]
  have hproject : stamped.get "project_id" = some (.str project.text) := by
    rw [hdef, get_stamp hnodup, if_pos rfl]
  rw [← hget _ (by decide)] at hname htype hts hcontext hmessage
  rw [← hget "user_id" (by decide), ← hget "anonymous_id" (by decide),
    ← hget "group_id" (by decide), ← hget "session_id" (by decide)] at hids
  rw [← hget "properties" (by decide), ← hget "traits" (by decide)] at hobjects
  obtain ⟨userId, huser, huserRow⟩ := optionalString_eq hids.1
  obtain ⟨anonymousId, hanon, hanonRow⟩ := optionalString_eq hids.2.1
  obtain ⟨groupId, hgroup, hgroupRow⟩ := optionalString_eq hids.2.2.1
  obtain ⟨sessionId, hsession, hsessionRow⟩ := optionalString_eq hids.2.2.2
  obtain ⟨properties, hprops, hpropsRow⟩ := optionalObject_eq hobjects.1
  obtain ⟨traits, htraits, htraitsRow⟩ := optionalObject_eq hobjects.2
  obtain ⟨⟨browser, browserName, hbrowser, hbrowserName⟩, device, deviceType, hdevice,
    hdeviceType⟩ := members_of_validateContext hcheck
  have hdecode : decodeEvent [(ofString "event_json", .obj stamped)] = .ok stamped := by
    have hentry : Fields.get [(ofString "event_json", Doc.obj stamped)] "event_json" =
        some (.obj stamped) := by
      simp [Doc.Fields.get]
    simp only [decodeEvent, hentry, PyJson.loads_of_canonical hstamped]
  have hnameOk : eventName stamped = .ok name := by
    simp only [eventName, hname, if_neg hne]
  have htypeOk : eventType stamped = .ok type := by
    simp only [eventType, htype, List.contains_iff_mem.2 hvalid, if_true]
  have hreceived : parseTimestamp (stamped.get "server_timestamp") "server_timestamp" =
      .ok now.receivedAt := by
    rw [hserver]
    exact parseTimestamp_format now _
  have htimestamp : parseTimestamp (stamped.get "timestamp") "timestamp" = .ok t := by
    rw [hts]
    exact parseTimestamp_eq _ hparse
  have hsource : sourcePosition project.text (streamKey project.text) id.text =
      .ok (id.milliseconds, id.sequence) := by
    have hkey : streamKey project.text ≠ [] :=
      List.append_ne_nil_of_left_ne_nil (by decide) project.text
    rw [sourcePosition, if_pos hkey, project.canonical]
    simp [ensure, streamIdParts_text]
  have hcontextOk : contextOf stamped = .ok context := by
    simp only [contextOf, hcontext]
  have hmessageOk : optionalString stamped "message_id" = .ok messageId := by
    simp only [optionalString, hmessage]
  have hipOk : optionalString stamped "ip" = .ok sourceIp := by
    simp only [optionalString, hip]
  have hcolumn : ∀ {field : String} {fields : Fields},
      (stamped.get field).getD (.obj []) = .obj fields → column fields = .ok (.obj fields) := by
    intro field fields hfields
    refine column_eq ?_
    rw [← hfields]
    cases hvalue : stamped.get field with
    | none => rfl
    | some d => exact canonical_get hstamped hvalue
  refine ⟨_, Check.bind_intro hdecode <| Check.bind_intro henvelope <|
    Check.bind_intro hnameOk <| Check.bind_intro htypeOk <| Check.bind_intro hidentity <|
    Check.bind_intro hreceived <| Check.bind_intro htimestamp <|
    Check.bind_intro (validateEventTimestampWindow_of hwindow) <| Check.bind_intro hsource <|
    Check.bind_intro hcontextOk <| Check.bind_intro hcheck <| Check.bind_intro hprops <|
    Check.bind_intro htraits <| Check.bind_intro hbrowser <| Check.bind_intro hdevice <|
    Check.bind_intro hmessageOk <| Check.bind_intro huser <| Check.bind_intro hanon <|
    Check.bind_intro hgroup <| Check.bind_intro hsession <|
    Check.bind_intro (hcolumn hpropsRow) <| Check.bind_intro (hcolumn htraitsRow) <|
    Check.bind_intro (column_eq (canonical_get hstamped hcontext)) <| Check.bind_intro hipOk <|
    Check.bind_intro hdeviceType <| Check.bind_intro hbrowserName rfl, ?_, rfl⟩
  exact ⟨hproject, hmessage, htype, hname, huserRow, hanonRow, hgroupRow, hsessionRow,
    ⟨ts, hts, hparse⟩, hserver, hpropsRow, htraitsRow, hcontext, hip⟩

/-- Every event that ingestion accepts is published, and the writer turns its entry into a row with
its values.

**Proof sketch.** An accepted event is the value of a document and satisfies the model, sanitizing
included; the stamps add the server fields. Such an event is written and read back as itself, and
each check of the writer is one that the model has made: the fields, the nested objects of the
context with their bounds, the timestamp in the window around the same time of receipt. -/
theorem accepted_event_has_row {isStr : Text → Bool} {now : ClockReading} {sourceIp : Text}
    {project : ProjectId} {raw : Doc} {published : Option (List Doc)}
    (h : ingestEvents isStr now sourceIp project raw = .ok published) :
    ∃ events, acceptBatch isStr now.receivedAt raw = .ok events ∧
      published = some (events.map fun event =>
        .obj (stamp now.receivedAt sourceIp project.text event)) ∧
      ∀ event ∈ events, ∀ id : EntryId, ∃ row,
        parseEvent [(ofString "event_json",
            .obj (stamp now.receivedAt sourceIp project.text event))]
          project.text (streamKey project.text) id.text = .ok row ∧
        RowOf (stamp now.receivedAt sourceIp project.text event) row ∧
        row.receivedAt = now.receivedAt := by
  simp only [ingestEvents, bind_eq_ok, Except.ok.injEq] at h
  obtain ⟨events, haccept, rfl⟩ := h
  have hevents := accepted_events haccept
  refine ⟨events, haccept, ?_, fun event hevent id => ?_⟩
  · exact Traverse.mapM_map_of_forall fun event hevent =>
      PyJson.dumps_of_canonical (canonical_stamp (hevents event hevent).1)
  · exact parseEvent_stamp (hevents event hevent).1 (hevents event hevent).2 id

def pageRequest : Doc :=
  .obj [(ofString "events", .arr [.obj [(ofString "event", .str (ofString "page")),
    (ofString "type", .str (ofString "page")), (ofString "user_id", .str (ofString "u")),
    (ofString "timestamp", .str (ofString "2026-01-02T03:04:05.678Z")),
    (ofString "context", .obj [(ofString "locale", .str (ofString "en"))]),
    (ofString "message_id", .str (ofString "m"))]])]

/-- A second after the event. -/
def pageClock : ClockReading where
  year := 2026
  month := 1
  day := 2
  hour := 3
  minute := 4
  second := 6
  microsecond := 0
  year_range := by decide
  month_range := by decide
  day_range := by decide
  hour_range := by decide
  minute_range := by decide
  second_range := by decide
  microsecond_range := by decide
  epoch := by decide

/-- The page event has a row. -/
theorem accepted_event_has_row_page :
    ∃ events, acceptBatch Flags.wellFormed pageClock.receivedAt pageRequest = .ok events ∧
      ∀ event ∈ events, ∀ id : EntryId, ∃ row,
        parseEvent [(ofString "event_json",
            .obj (stamp pageClock.receivedAt [] (ofString "demo") event))]
          (ofString "demo") (streamKey (ofString "demo")) id.text = .ok row ∧
        RowOf (stamp pageClock.receivedAt [] (ofString "demo") event) row := by
  have hok : (ingestEvents Flags.wellFormed pageClock [] ⟨ofString "demo", by decide⟩
      pageRequest).toOption.isSome = true := by
    decide +kernel
  cases h : ingestEvents Flags.wellFormed pageClock [] ⟨ofString "demo", by decide⟩ pageRequest with
  | error e =>
    rw [h] at hok
    cases hok
  | ok published =>
    obtain ⟨events, haccept, -, hrows⟩ := accepted_event_has_row h
    refine ⟨events, haccept, fun event hevent id => ?_⟩
    obtain ⟨row, hrow, hof, -⟩ := hrows event hevent id
    exact ⟨row, hrow, hof⟩

end Apdl.Pipeline.Writer
