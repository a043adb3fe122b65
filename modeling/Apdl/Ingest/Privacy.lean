import Apdl.Ingest.Route

set_option autoImplicit false

/-!
# Auto-capture events are sanitized

`sanitize_auto_capture_events` keeps what it does not sanitize, and a sanitized event says nothing
but safe values under allow-listed names.

## Main results

* `auto_capture_sanitizing` — events are sanitized one by one, once and for all.
-/

namespace Apdl.Ingest

open Doc (Fields)
open Text (ofString)

/-- Allow-lists: names with the check of their values. -/
abbrev Allowed := List (String × (Doc → Bool))

/-- A dictionary has every key once. -/
def DistinctKeys : Doc → Prop
  | .obj fields => (keys fields).Nodup
  | _ => True

/-- A value of Python in the list of events: its dictionaries have every key once. -/
def PythonEvent (d : Doc) : Prop :=
  DistinctKeys d ∧ ∀ event, d = .obj event → ∀ f ∈ event, DistinctKeys f.2

/-- The allow-list of an event that is a dictionary with the name of a click event. -/
def clickSchema (d : Doc) : Option Allowed :=
  d.toFields.bind fun event =>
    ((Fields.get event "event").bind Doc.toText).bind autoCaptureProperties

/-- The fields are on the list, with values that pass their checks. -/
structure SafeFields (schema : Allowed) (fields : Fields) : Prop where
  nodup : (keys fields).Nodup
  safe : ∀ f ∈ fields, ∃ entry ∈ schema, f.1 = ofString entry.1 ∧ entry.2 f.2 = true

/-- The context has no page and no referrer. -/
def SafeContext (event : Fields) : Prop :=
  ∀ fields, event.get "context" = some (.obj fields) →
    ∀ f ∈ fields, f.1 ∉ ["page", "referrer"].map ofString

/-- The properties and the context are safe. -/
structure SafeEvent (schema : Allowed) (event : Fields) : Prop where
  properties : ∃ fields, event.get "properties" = some (.obj fields) ∧ SafeFields schema fields
  context : SafeContext event

/-- What becomes of an event: a click event is made safe and keeps its other fields, every other
event stays as it is. -/
def Sanitized (d d' : Doc) : Prop :=
  (clickSchema d = none → d' = d) ∧
    ∀ schema, clickSchema d = some schema → ∃ event event', d = .obj event ∧ d' = .obj event' ∧
      SafeEvent schema event' ∧
      ∀ name, name ≠ ofString "properties" → name ≠ ofString "context" →
        PyJson.get event' name = PyJson.get event name

variable {schema : Allowed} {event fields : Fields} {d : Doc}

lemma nodup_schema {name : Text} (h : autoCaptureProperties name = some schema) :
    (schema.map fun entry => ofString entry.1).Nodup := by
  unfold autoCaptureProperties at h
  split_ifs at h
  all_goals
    obtain rfl := Option.some.inj h
    decide

lemma safeFields_safeProperties {name : Text} (h : autoCaptureProperties name = some schema)
    (properties : Option Doc) : SafeFields schema (safeProperties properties schema) := by
  unfold safeProperties
  split
  · refine ⟨List.pairwise_map.2 (List.pairwise_filterMap.2 ?_), ?_⟩
    · refine (List.pairwise_map.1 (nodup_schema h)).imp fun hne f hf g hg heq => hne ?_
      obtain ⟨_, _, rfl⟩ := Option.map_eq_some_iff.1 hf
      obtain ⟨_, _, rfl⟩ := Option.map_eq_some_iff.1 hg
      exact heq
    · intro f hf
      obtain ⟨entry, hentry, heq⟩ := List.mem_filterMap.1 hf
      obtain ⟨d, hd, rfl⟩ := Option.map_eq_some_iff.1 heq
      exact ⟨entry, hentry, rfl, (Option.filter_eq_some_iff.1 hd).2⟩
  · exact ⟨List.nodup_nil, by simp⟩

lemma propertiesChanged_eq_false_iff {properties : Option Doc}
    (hp : ∀ fields, properties = some (.obj fields) → (keys fields).Nodup) :
    propertiesChanged properties (safeProperties properties schema) = false ↔
      ∃ fields, properties = some (.obj fields) ∧ SafeFields schema fields := by
  constructor
  · intro hsame
    unfold propertiesChanged at hsame
    split at hsame
    · next fields =>
      refine ⟨fields, rfl, hp fields rfl, fun f hf => ?_⟩
      have hkey : f.1 ∈ keys (safeProperties (some (.obj fields)) schema) := by
        simpa using List.any_eq_false.1 hsame f hf
      obtain ⟨g, hg, hfg⟩ := List.mem_map.1 hkey
      obtain ⟨entry, hentry, heq⟩ := List.mem_filterMap.1 hg
      obtain ⟨d, hd, rfl⟩ := Option.map_eq_some_iff.1 heq
      obtain ⟨hget, hsafe⟩ := Option.filter_eq_some_iff.1 hd
      have hvalue : f.2 = d := by
        refine Option.some.inj (((PyJson.get_eq_some_iff (hp fields rfl)).2 hf).symm.trans ?_)
        rw [← hfg]
        exact hget
      exact ⟨entry, hentry, hfg.symm, hvalue ▸ hsafe⟩
    · cases hsame
  · rintro ⟨fields, rfl, hsafe⟩
    refine List.any_eq_false.2 fun f hf => ?_
    obtain ⟨entry, hentry, hname, hcheck⟩ := hsafe.safe f hf
    have hget : Fields.get fields entry.1 = some f.2 :=
      (PyJson.get_eq_some_iff hsafe.nodup).2 (hname ▸ hf)
    have hmem : (ofString entry.1, f.2) ∈ safeProperties (some (.obj fields)) schema :=
      List.mem_filterMap.2 ⟨entry, hentry, by simp [hget, hcheck]⟩
    have hkey := List.mem_map_of_mem (f := Prod.fst) hmem
    simpa [hname, keys] using hkey

lemma safeContext_length_iff :
    (safeContext fields).length = fields.length ↔
      ∀ f ∈ fields, f.1 ∉ ["page", "referrer"].map ofString := by
  rw [safeContext, List.length_filter_eq_length_iff]
  simp

lemma mem_safeContext : ∀ f ∈ safeContext fields, f.1 ∉ ["page", "referrer"].map ofString := by
  intro f hf
  simpa using (List.mem_filter.1 hf).2

/-! ## One event -/

lemma clickSchema_obj (h : clickSchema (.obj event) = some schema) :
    ∃ name, (Fields.get event "event").bind Doc.toText = some name ∧
      autoCaptureProperties name = some schema :=
  Option.bind_eq_some_iff.1 h

/-- The properties that a click event keeps. -/
def keptProperties (schema : Allowed) (event : Fields) : Fields :=
  safeProperties (event.get "properties") schema

lemma sanitizeEvent_click (h : clickSchema (.obj event) = some schema) :
    (sanitizeEvent (.obj event) = .obj event ∧ SafeContext event ∧
        propertiesChanged (event.get "properties") (keptProperties schema event) = false) ∨
      (sanitizeEvent (.obj event) =
          .obj (PyJson.set event (ofString "properties") (.obj (keptProperties schema event))) ∧
        SafeContext event ∧
        propertiesChanged (event.get "properties") (keptProperties schema event) = true) ∨
      ¬SafeContext event ∧ ∃ fields, sanitizeEvent (.obj event) = .obj (PyJson.set
        (PyJson.set event (ofString "properties") (.obj (keptProperties schema event)))
        (ofString "context") (.obj (safeContext fields))) := by
  obtain ⟨name, hname, hschema⟩ := clickSchema_obj h
  simp only [sanitizeEvent, hname, hschema]
  split
  · next fields hfields =>
    have hsafe : SafeContext event ↔ (safeContext fields).length = fields.length := by
      rw [safeContext_length_iff]
      refine ⟨fun hs => hs fields hfields, fun hs other hother => ?_⟩
      rwa [Doc.obj.inj (Option.some.inj (hother.symm.trans hfields))]
    split_ifs with hlength hchanged
    · exact .inr (.inr ⟨fun hs => hlength (hsafe.1 hs), fields, rfl⟩)
    · exact .inr (.inl ⟨rfl, hsafe.2 (not_not.1 hlength), hchanged⟩)
    · exact .inl ⟨rfl, hsafe.2 (not_not.1 hlength), Bool.not_eq_true _ ▸ hchanged⟩
  · next hnone =>
    have hsafe : SafeContext event := fun fields hfields => absurd hfields (hnone fields)
    split_ifs with hchanged
    · exact .inr (.inl ⟨rfl, hsafe, hchanged⟩)
    · exact .inl ⟨rfl, hsafe, Bool.not_eq_true _ ▸ hchanged⟩

lemma sanitizeEvent_of_safe (h : clickSchema (.obj event) = some schema)
    (hsafe : SafeEvent schema event) : sanitizeEvent (.obj event) = .obj event := by
  obtain ⟨fields, hfields, hprops⟩ := hsafe.properties
  have hsame : propertiesChanged (event.get "properties") (keptProperties schema event) = false := by
    refine (propertiesChanged_eq_false_iff fun other hother => ?_).2 ⟨fields, hfields, hprops⟩
    obtain rfl := Doc.obj.inj (Option.some.inj (hother.symm.trans hfields))
    exact hprops.nodup
  obtain ⟨heq, -⟩ | ⟨-, -, hchanged⟩ | ⟨hcontext, -⟩ := sanitizeEvent_click h
  · exact heq
  · rw [hsame] at hchanged
    cases hchanged
  · exact absurd hsafe.context hcontext

lemma sanitizeEvent_safe (hpython : PythonEvent (.obj event))
    (h : clickSchema (.obj event) = some schema) :
    ∃ event', sanitizeEvent (.obj event) = .obj event' ∧
      clickSchema (.obj event') = some schema ∧ SafeEvent schema event' ∧
      ∀ name, name ≠ ofString "properties" → name ≠ ofString "context" →
        PyJson.get event' name = PyJson.get event name := by
  obtain ⟨hnodup, hvalues⟩ := hpython
  obtain ⟨name, -, hschema⟩ := clickSchema_obj h
  have hkept := safeFields_safeProperties hschema (event.get "properties")
  -- what the fields are after one and after both assignments
  have hone := PyJson.get_set hnodup (ofString "properties")
  have hboth := PyJson.get_set (PyJson.nodup_keys_set hnodup (ofString "properties")
    (.obj (keptProperties schema event))) (ofString "context")
  have hclick {event' : Fields} (hget : ∀ name, name ≠ ofString "properties" →
      name ≠ ofString "context" → PyJson.get event' name = PyJson.get event name) :
      clickSchema (.obj event') = some schema := by
    rw [← h]
    exact congrArg (fun d => (d.bind Doc.toText).bind autoCaptureProperties)
      (hget (ofString "event") (by decide) (by decide))
  obtain ⟨heq, hcontext, hsame⟩ | ⟨heq, hcontext, -⟩ | ⟨-, fields, heq⟩ := sanitizeEvent_click h
  · refine ⟨event, heq, h, ⟨?_, hcontext⟩, fun _ _ _ => rfl⟩
    refine (propertiesChanged_eq_false_iff fun fields hfields => ?_).1 hsame
    exact hvalues event rfl _ (PyJson.mem_of_get hfields)
  · have hget : ∀ name, name ≠ ofString "properties" → name ≠ ofString "context" →
        PyJson.get (PyJson.set event (ofString "properties") (.obj (keptProperties schema event)))
          name = PyJson.get event name := fun name hne _ => by rw [hone, if_neg hne]
    refine ⟨_, heq, hclick hget, ⟨⟨_, (hone _ _).trans (if_pos rfl), hkept⟩, fun fields hf => ?_⟩,
      hget⟩
    exact hcontext fields (((hone _ _).trans (if_neg (by decide))).symm.trans hf)
  · have hget : ∀ name, name ≠ ofString "properties" → name ≠ ofString "context" →
        PyJson.get (PyJson.set (PyJson.set event (ofString "properties")
          (.obj (keptProperties schema event))) (ofString "context") (.obj (safeContext fields)))
          name = PyJson.get event name := fun name hne hne' => by
      rw [hboth, if_neg hne', hone, if_neg hne]
    refine ⟨_, heq, hclick hget, ⟨⟨_, (hboth _ _).trans ((if_neg (by decide)).trans
      ((hone _ _).trans (if_pos rfl))), hkept⟩, fun other hother => ?_⟩, hget⟩
    have hother' : some (Doc.obj (safeContext fields)) = some (.obj other) :=
      ((hboth _ _).trans (if_pos rfl)).symm.trans hother
    rw [← Doc.obj.inj (Option.some.inj hother')]
    exact mem_safeContext

lemma sanitizeEvent_of_other (h : clickSchema d = none) : sanitizeEvent d = d := by
  cases d with
  | obj event =>
    simp only [sanitizeEvent]
    split
    · rfl
    · next name hname =>
      have hschema : autoCaptureProperties name = none := by
        rw [← h]
        exact (congrArg (Option.bind · autoCaptureProperties) hname).symm
      rw [hschema]
  | _ => rfl

theorem sanitizeEvent_spec (hpython : PythonEvent d) :
    Sanitized d (sanitizeEvent d) ∧ sanitizeEvent (sanitizeEvent d) = sanitizeEvent d := by
  cases hclick : clickSchema d with
  | none =>
    rw [sanitizeEvent_of_other hclick]
    refine ⟨⟨fun _ => rfl, fun schema h => ?_⟩, sanitizeEvent_of_other hclick⟩
    rw [hclick] at h
    cases h
  | some schema =>
    cases d with
    | obj event =>
      obtain ⟨event', heq, hclick', hsafe, hget⟩ := sanitizeEvent_safe hpython hclick
      rw [heq]
      refine ⟨⟨fun h => ?_, fun other h => ?_⟩, sanitizeEvent_of_safe hclick' hsafe⟩
      · rw [hclick] at h
        cases h
      · obtain rfl := Option.some.inj (hclick.symm.trans h)
        exact ⟨event, event', rfl, rfl, hsafe, hget⟩
    | _ => cases hclick

/-! ## All events -/

lemma set_eq_self {key : Text} (hnodup : (keys fields).Nodup)
    (hget : PyJson.get fields key = some d) : PyJson.set fields key d = fields := by
  have hmem := (PyJson.get_eq_some_iff hnodup).1 hget
  rw [PyJson.set, if_pos (List.mem_map.2 ⟨_, hmem, rfl⟩)]
  conv_rhs => rw [← List.map_id fields]
  refine List.map_congr_left fun f hf => ?_
  by_cases hkey : f.1 = key
  · have hf' := (PyJson.get_eq_some_iff hnodup).2 (hkey ▸ hf : (key, f.2) ∈ fields)
    rw [if_pos hkey, Option.some.inj (hget.symm.trans hf'), ← hkey]
    rfl
  · exact if_neg hkey

/-- **Auto-capture sanitizing.** The events of a body are sanitized one by one, in their order;
the other fields of the body stay, and a second pass changes nothing. -/
theorem auto_capture_sanitizing {body : Fields} {events : List Doc} (hbody : (keys body).Nodup)
    (hevents : Fields.get body "events" = some (.arr events)) (h : ∀ d ∈ events, PythonEvent d) :
    ∃ (body' : Fields) (events' : List Doc), sanitizeAutoCaptureEvents (.obj body) = .obj body' ∧
      Fields.get body' "events" = some (.arr events') ∧ List.Forall₂ Sanitized events events' ∧
      (∀ name, name ≠ ofString "events" → PyJson.get body' name = PyJson.get body name) ∧
      sanitizeAutoCaptureEvents (.obj body') = .obj body' := by
  have hget := PyJson.get_set hbody (ofString "events")
  have hevents' : Fields.get (PyJson.set body (ofString "events")
      (.arr (events.map sanitizeEvent))) "events" = some (.arr (events.map sanitizeEvent)) :=
    (hget _ _).trans (if_pos rfl)
  have hfixed : (events.map sanitizeEvent).map sanitizeEvent = events.map sanitizeEvent := by
    rw [List.map_map]
    exact List.map_congr_left fun d hd => (sanitizeEvent_spec (h d hd)).2
  refine ⟨_, events.map sanitizeEvent, by rw [sanitizeAutoCaptureEvents, hevents], hevents', ?_,
    fun name hne => (hget _ _).trans (if_neg hne), ?_⟩
  · rw [List.forall₂_map_right_iff, List.forall₂_same]
    exact fun d hd => (sanitizeEvent_spec (h d hd)).1
  · rw [sanitizeAutoCaptureEvents, hevents']
    dsimp only
    rw [hfixed, set_eq_self (PyJson.nodup_keys_set hbody _ _) hevents']

def clickEvent : Fields :=
  [(ofString "event", .str (ofString "$click")),
    (ofString "properties", .obj [(ofString "text", .str []), (ofString "tag", .str [97])]),
    (ofString "context", .obj [(ofString "page", .null)])]

theorem auto_capture_sanitizing_click : ∃ (body' : Fields) (events' : List Doc),
    sanitizeAutoCaptureEvents (.obj [(ofString "events", .arr [.obj clickEvent])]) = .obj body' ∧
      Fields.get body' "events" = some (.arr events') ∧
      List.Forall₂ Sanitized [.obj clickEvent] events' := by
  have hpython : ∀ d ∈ [Doc.obj clickEvent], PythonEvent d := by
    intro d hd
    obtain rfl := List.mem_singleton.1 hd
    refine ⟨show (keys clickEvent).Nodup by decide, fun event heq f hf => ?_⟩
    obtain rfl := Doc.obj.inj heq
    simp only [clickEvent, List.mem_cons, List.not_mem_nil, or_false] at hf
    rcases hf with rfl | rfl | rfl
    · exact trivial
    · exact show (keys [(ofString "text", _), (ofString "tag", _)]).Nodup by
        rw [keys, List.map_cons, List.map_cons]
        decide
    · exact List.nodup_singleton _
  obtain ⟨body', events', heq, hget, hall, -⟩ :=
    @auto_capture_sanitizing [(ofString "events", .arr [.obj clickEvent])] _
      (List.nodup_singleton _) rfl hpython
  exact ⟨body', events', heq, hget, hall⟩

end Apdl.Ingest
