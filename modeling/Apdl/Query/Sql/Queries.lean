import Apdl.Query.Sql.Selectors

set_option autoImplicit false

/-!
# Query builders

The builders of `queries.py` that use selectors. Each returns the text of a query with the
parameters it assigns; the routers assign the others before they call it.

## Main definitions

* `Request`, `Request.query` — a request with selectors, and the query of its router.
-/

namespace Apdl.Query.Sql

def canonicalActorSql (tableAlias identityAlias : String) : String :=
  let pfx := tableAlias ++ "."
  let resolvedPfx := identityAlias ++ "."
  "if(" ++ pfx ++ "user_id != '', concat('u:', " ++ pfx ++ "user_id), if(" ++ resolvedPfx ++
    "resolved_user_id != '', concat('u:', " ++ resolvedPfx ++ "resolved_user_id), if(" ++ pfx ++
    "anonymous_id != '', concat('a:', " ++ pfx ++ "anonymous_id), '')))"

def identityAliasJoinSql (tableAlias identityAlias : String) : String :=
  "
LEFT ANY JOIN (
    SELECT project_id, anonymous_id, resolved_user_id, has_conflict
    FROM resolved_identity_aliases
    WHERE project_id = " ++ placeholder "project_id" ++ "
) AS " ++ identityAlias ++ "
    ON " ++ identityAlias ++ ".project_id = " ++ tableAlias ++ ".project_id
   AND " ++ identityAlias ++ ".anonymous_id = " ++ tableAlias ++ ".anonymous_id
"

variable {N : Type} (numberStr : N → String)

/-- The rows of one selector in `build_event_count_query`. -/
def countSubquery (pfx condition : String) : String :=
  let actor := canonicalActorSql "e" "actor_identity"
  let identityJoin := identityAliasJoinSql "e" "actor_identity"
  "
SELECT
    0 AS is_total,
    " ++ placeholder (pfx ++ "_label") ++ " AS selector,
    " ++ placeholder (pfx ++ "_event_name") ++ " AS event_name,
    count() AS event_count,
    uniqExactIf(" ++ actor ++ ", " ++ actor ++ " != '') AS unique_users
FROM events AS e FINAL
" ++ identityJoin ++ "
WHERE e.project_id = " ++ placeholder "project_id" ++ "
  AND e.event_date BETWEEN " ++ placeholder "start_date" ++ " AND " ++ placeholder "end_date" ++ "
  AND " ++ condition ++ "
"

/-- The total row of `build_event_count_query`. -/
def countTotal (totalCondition : String) : String :=
  let actor := canonicalActorSql "e" "actor_identity"
  let identityJoin := identityAliasJoinSql "e" "actor_identity"
  "
SELECT
    1 AS is_total,
    '' AS selector,
    '' AS event_name,
    count() AS event_count,
    uniqExactIf(" ++ actor ++ ", " ++ actor ++ " != '') AS unique_users
FROM events AS e FINAL
" ++ identityJoin ++ "
WHERE e.project_id = " ++ placeholder "project_id" ++ "
  AND e.event_date BETWEEN " ++ placeholder "start_date" ++ " AND " ++ placeholder "end_date" ++ "
  AND (
      " ++ totalCondition ++ "
  )
"

/-- The text of `build_event_count_query` around its subqueries. -/
def eventCountText (subqueries : List String) : String :=
  "
SELECT *
FROM (
" ++ String.intercalate "\nUNION ALL\n" subqueries ++ "
)
ORDER BY is_total, event_count DESC
"

def buildEventCountQuery (selectors : List (EventSelector N)) : String × List (String × Param N) :=
  let parts := selectors.zipIdx.map fun (selector, index) =>
    let pfx := "count_" ++ toString index
    let condition := buildSelectorCondition selector pfx
    (countSubquery pfx condition.1, condition.1,
      (pfx ++ "_label", Param.text (selectorLabel numberStr selector)) :: condition.2)
  let totalCondition := String.intercalate "\n      OR "
    (parts.map fun part => "(" ++ part.2.1 ++ ")")
  let subqueries := parts.map Prod.fst ++ [countTotal totalCondition]
  (eventCountText subqueries, parts.flatMap fun part => part.2.2)

inductive TimeInterval
  | hour
  | day
  | week
  | month
  deriving DecidableEq, Repr

/-- The value of a `TimeInterval`. -/
def TimeInterval.value : TimeInterval → String
  | .hour => "1 HOUR"
  | .day => "1 DAY"
  | .week => "1 WEEK"
  | .month => "1 MONTH"

/-- The text of `build_event_timeseries_query`. -/
def eventTimeseriesText (interval condition : String) : String :=
  let actor := canonicalActorSql "e" "actor_identity"
  let identityJoin := identityAliasJoinSql "e" "actor_identity"
  "
SELECT
    " ++ placeholder "selector_label" ++ " AS selector,
    toStartOfInterval(e.timestamp, INTERVAL " ++ interval ++ ") AS bucket,
    count() AS event_count,
    uniqExactIf(" ++ actor ++ ", " ++ actor ++ " != '') AS unique_users
FROM events AS e FINAL
" ++ identityJoin ++ "
WHERE e.project_id = " ++ placeholder "project_id" ++ "
  AND e.event_date BETWEEN " ++ placeholder "start_date" ++ " AND " ++ placeholder "end_date" ++ "
  AND " ++ condition ++ "
GROUP BY bucket
ORDER BY bucket
"

def buildEventTimeseriesQuery (selector : EventSelector N) (interval : String) :
    String × List (String × Param N) :=
  let condition := buildSelectorCondition selector "timeseries"
  (eventTimeseriesText interval condition.1,
    ("selector_label", .text (selectorLabel numberStr selector)) :: condition.2)

/-- The text of `build_event_breakdown_query`. -/
def eventBreakdownText (condition : String) : String :=
  let actor := canonicalActorSql "e" "actor_identity"
  let identityJoin := identityAliasJoinSql "e" "actor_identity"
  "
SELECT
    selector,
    property_type,
    property_value,
    count() AS event_count,
    uniqExactIf(actor_id, actor_id != '') AS unique_users
FROM (
    SELECT
        selector,
        actor_id,
        multiIf(
            property_json_type = 'String', 'string',
            property_json_type IN ('Int64', 'UInt64'), 'integer',
            property_json_type = 'Double', 'float',
            property_json_type = 'Bool', 'boolean',
            ''
        ) AS property_type,
        multiIf(
            property_json_type = 'String',
                JSONExtractString(properties, " ++ placeholder "property" ++ "),
            property_json_type = 'Int64',
                toString(JSONExtractInt(properties, " ++ placeholder "property" ++ ")),
            property_json_type = 'UInt64',
                toString(JSONExtractUInt(properties, " ++ placeholder "property" ++ ")),
            property_json_type = 'Double',
                toString(JSONExtractFloat(properties, " ++ placeholder "property" ++ ")),
            property_json_type = 'Bool',
                if(JSONExtractBool(properties, " ++ placeholder "property" ++ "), 'true', 'false'),
            ''
        ) AS property_value
    FROM (
        SELECT
            " ++ placeholder "selector_label" ++ " AS selector,
            e.properties AS properties,
            JSONType(e.properties, " ++ placeholder "property" ++ ") AS property_json_type,
            " ++ actor ++ " AS actor_id
        FROM events AS e FINAL
        " ++ identityJoin ++ "
        WHERE e.project_id = " ++ placeholder "project_id" ++ "
          AND e.event_date BETWEEN " ++ placeholder "start_date" ++ " AND " ++
    placeholder "end_date" ++ "
          AND " ++ condition ++ "
    )
    WHERE property_json_type
        IN ('String', 'Int64', 'UInt64', 'Double', 'Bool')
)
GROUP BY selector, property_type, property_value
ORDER BY event_count DESC
LIMIT " ++ placeholder "limit" ++ "
"

def buildEventBreakdownQuery (selector : EventSelector N) : String × List (String × Param N) :=
  let condition := buildSelectorCondition selector "breakdown"
  (eventBreakdownText condition.1,
    ("selector_label", .text (selectorLabel numberStr selector)) :: condition.2)

/-- The text of `build_funnel_query`. -/
def funnelText (windowMilliseconds : ℕ) (stepConditions : List String) : String :=
  let conditions := String.intercalate ",\n            " stepConditions
  let prefilter := String.intercalate "\n          OR "
    (stepConditions.map fun condition => "(" ++ condition ++ ")")
  let actor := canonicalActorSql "e" "actor_identity"
  let identityJoin := identityAliasJoinSql "e" "actor_identity"
  "
WITH funnel AS (
    SELECT
        " ++ actor ++ " AS actor_id,
        windowFunnel(" ++ toString windowMilliseconds ++ ")(
            toUInt64(toUnixTimestamp64Milli(e.timestamp)),
            " ++ conditions ++ "
        ) AS depth
    FROM events AS e FINAL
    " ++ identityJoin ++ "
    WHERE e.project_id = " ++ placeholder "project_id" ++ "
      AND e.event_date BETWEEN " ++ placeholder "start_date" ++ " AND " ++
    placeholder "end_date" ++ "
      AND " ++ actor ++ " != ''
      AND (
          " ++ prefilter ++ "
      )
    GROUP BY actor_id
)
SELECT
    step_number,
    count() AS users
FROM (
    SELECT
        arrayJoin(range(1, depth + 1)) AS step_number
    FROM funnel
    WHERE depth >= 1
)
GROUP BY step_number
ORDER BY step_number
"

def buildFunnelQuery (steps : List (EventSelector N)) (windowSeconds : ℕ) :
    String × List (String × Param N) :=
  let parts := steps.zipIdx.map fun (step, index) =>
    buildSelectorCondition step ("funnel_step_" ++ toString index)
  let windowMilliseconds := windowSeconds * 1000
  (funnelText windowMilliseconds (parts.map Prod.fst), parts.flatMap Prod.snd)

/-- The texts in which `_build_retention_day_query` and `_build_retention_week_query` differ. -/
structure RetentionTexts where
  cohortDate : String
  cohortColumn : String
  activityDate : String
  activityColumn : String
  unit : String

/-- The texts of `_build_retention_day_query`. -/
def dayTexts : RetentionTexts :=
  ⟨"min(e.event_date)", "cohort_date", "e.event_date", "activity_date", "day"⟩

/-- The texts of `_build_retention_week_query`. -/
def weekTexts : RetentionTexts :=
  ⟨"toMonday(min(e.event_date))", "cohort_week", "toMonday(e.event_date)", "activity_week", "week"⟩

/-- What `_build_retention_day_query` and `_build_retention_week_query` share. -/
def buildRetentionText (texts : RetentionTexts) (cohortCondition returnCondition : String) :
    String :=
  let cohortActor := canonicalActorSql "e" "cohort_identity"
  let cohortIdentityJoin := identityAliasJoinSql "e" "cohort_identity"
  let activityActor := canonicalActorSql "e" "activity_identity"
  let activityIdentityJoin := identityAliasJoinSql "e" "activity_identity"
  "
WITH
    cohort AS (
        SELECT
            " ++ cohortActor ++ " AS actor_id,
            " ++ texts.cohortDate ++ " AS " ++ texts.cohortColumn ++ "
        FROM events AS e FINAL
        " ++ cohortIdentityJoin ++ "
        WHERE e.project_id = " ++ placeholder "project_id" ++ "
          AND " ++ cohortCondition ++ "
          AND e.event_date BETWEEN " ++ placeholder "start_date" ++ " AND " ++
    placeholder "end_date" ++ "
          AND " ++ cohortActor ++ " != ''
        GROUP BY actor_id
    ),
    activity AS (
        SELECT DISTINCT
            " ++ activityActor ++ " AS actor_id,
            " ++ texts.activityDate ++ " AS " ++ texts.activityColumn ++ "
        FROM events AS e FINAL
        " ++ activityIdentityJoin ++ "
        WHERE e.project_id = " ++ placeholder "project_id" ++ "
          AND " ++ returnCondition ++ "
          AND e.event_date BETWEEN " ++ placeholder "start_date" ++ " AND " ++
    placeholder "end_date" ++ "
          AND " ++ activityActor ++ " != ''
    ),
    cohort_sizes AS (
        SELECT " ++ texts.cohortColumn ++ ", uniqExact(actor_id) AS cohort_size
        FROM cohort
        GROUP BY " ++ texts.cohortColumn ++ "
    )
SELECT
    c." ++ texts.cohortColumn ++ ",
    cs.cohort_size,
    dateDiff('" ++ texts.unit ++ "', c." ++ texts.cohortColumn ++ ", a." ++
    texts.activityColumn ++ ") AS period_offset,
    uniqExact(a.actor_id) AS active_users
FROM cohort c
INNER JOIN cohort_sizes cs ON cs." ++ texts.cohortColumn ++ " = c." ++ texts.cohortColumn ++ "
LEFT JOIN activity a ON c.actor_id = a.actor_id
GROUP BY c." ++ texts.cohortColumn ++ ", cs.cohort_size, period_offset
ORDER BY c." ++ texts.cohortColumn ++ ", period_offset
"

def buildRetentionDayQuery : String → String → String := buildRetentionText dayTexts

def buildRetentionWeekQuery : String → String → String := buildRetentionText weekTexts

def buildRetentionQuery (cohortSelector returnSelector : EventSelector N) (weekly : Bool) :
    String × List (String × Param N) :=
  let cohortCondition := buildSelectorCondition cohortSelector "retention_cohort"
  let returnCondition := buildSelectorCondition returnSelector "retention_return"
  (if weekly then buildRetentionWeekQuery cohortCondition.1 returnCondition.1
    else buildRetentionDayQuery cohortCondition.1 returnCondition.1,
    cohortCondition.2 ++ returnCondition.2)

/-- The text of `build_cohort_query`. -/
def cohortText (condition : String) : String :=
  let actor := canonicalActorSql "e" "actor_identity"
  let identityJoin := identityAliasJoinSql "e" "actor_identity"
  "
WITH
    matched AS (
        SELECT
            JSONExtractString(e.properties, " ++ placeholder "cohort_property" ++ ") AS cohort_value,
            toStartOfInterval(e.timestamp, INTERVAL 1 DAY) AS day,
            " ++ actor ++ " AS actor_id
        FROM events AS e FINAL
        " ++ identityJoin ++ "
        WHERE e.project_id = " ++ placeholder "project_id" ++ "
          AND e.event_date BETWEEN " ++ placeholder "start_date" ++ " AND " ++
    placeholder "end_date" ++ "
          AND " ++ condition ++ "
          AND JSONHas(e.properties, " ++ placeholder "cohort_property" ++ ")
          AND " ++ actor ++ " != ''
    ),
    daily AS (
        SELECT
            cohort_value,
            day,
            count() AS event_count,
            uniqExact(actor_id) AS unique_users
        FROM matched
        GROUP BY cohort_value, day
    ),
    totals AS (
        SELECT cohort_value, uniqExact(actor_id) AS total_users
        FROM matched
        GROUP BY cohort_value
    )
SELECT
    daily.cohort_value,
    daily.day,
    daily.event_count,
    daily.unique_users,
    totals.total_users
FROM daily
INNER JOIN totals USING (cohort_value)
ORDER BY daily.cohort_value, daily.day
"

def buildCohortQuery (metricSelector : EventSelector N) : String × List (String × Param N) :=
  let condition := buildSelectorCondition metricSelector "cohort_metric"
  (cohortText condition.1, condition.2)

/-! ## Requests -/

/-- A request to an endpoint whose query uses selectors. -/
inductive Request (N : Type)
  | eventCount (selectors : List (EventSelector N))
  | timeseries (selector : EventSelector N) (interval : TimeInterval)
  | breakdown (selector : EventSelector N) (property : String) (limit : ℕ)
  | funnel (steps : List (EventSelector N)) (windowDays : ℕ)
  | retention (cohortSelector returnSelector : EventSelector N) (weekly : Bool)
  | cohort (metricSelector : EventSelector N) (cohortProperty : String)

/-- The project and the dates of a request. -/
structure Range where
  projectId : String
  startDate : String
  endDate : String

/-- The parameters that the router of a request assigns before it calls the builder. -/
def Request.routerParams (range : Range) : Request N → List (String × Param N)
  | .breakdown _ property limit =>
    [("project_id", .text range.projectId), ("property", .text property),
      ("start_date", .text range.startDate), ("end_date", .text range.endDate),
      ("limit", .flag limit)]
  | .cohort _ cohortProperty =>
    [("project_id", .text range.projectId), ("cohort_property", .text cohortProperty),
      ("start_date", .text range.startDate), ("end_date", .text range.endDate)]
  | _ =>
    [("project_id", .text range.projectId), ("start_date", .text range.startDate),
      ("end_date", .text range.endDate)]

/-- The query of a request and the parameters that its builder assigns. -/
def Request.built (numberStr : N → String) : Request N → String × List (String × Param N)
  | .eventCount selectors => buildEventCountQuery numberStr selectors
  | .timeseries selector interval => buildEventTimeseriesQuery numberStr selector interval.value
  | .breakdown selector _ _ => buildEventBreakdownQuery numberStr selector
  | .funnel steps windowDays => buildFunnelQuery steps (windowDays * 86400)
  | .retention cohortSelector returnSelector weekly =>
    buildRetentionQuery cohortSelector returnSelector weekly
  | .cohort metricSelector _ => buildCohortQuery metricSelector

def Request.query (numberStr : N → String) (r : Request N) : String := (r.built numberStr).1

/-- All parameters of a request, in the order of their assignment. -/
def Request.params (numberStr : N → String) (range : Range) (r : Request N) :
    List (String × Param N) :=
  r.routerParams range ++ (r.built numberStr).2

end Apdl.Query.Sql
