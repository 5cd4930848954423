import Mathlib.Data.List.Infix
import Mathlib.Data.Rat.Defs
import Mathlib.Data.String.Basic
import OnlinetLabs.Lib.Json
import OnlinetLabs.Users.DataExport

/-!
# The registry of the data browser

Which columns of each table an administrator sees, may sort by and searches, and how a row is shown.
-/

namespace OnlinetLabs.Admin

open Users (RegistryTable)

structure TableSpec where
  columns : List String
  sortable : List String
  searchable : List String
  masked : List String := []
  defaultSort : String
deriving Repr, DecidableEq

/-- `ADMIN_TABLES`. -/
def adminSpec : RegistryTable → TableSpec
  | .mcpAudit => {
      columns := ["id", "user_id", "session_id", "tool", "kind", "ts", "success", "error",
        "consent_ref", "lab_slug"]
      sortable := ["id", "ts", "user_id", "session_id", "kind", "tool"]
      searchable := ["id", "user_id", "session_id", "tool", "kind", "lab_slug"]
      defaultSort := "ts" }
  | .agentActivityEvents => {
      columns := ["id", "session_id", "user_id", "ts", "source", "kind", "agent",
        "severity", "summary"]
      sortable := ["id", "ts", "session_id", "user_id", "severity"]
      searchable :=
        ["id", "session_id", "user_id", "source", "kind", "agent", "severity", "summary"]
      defaultSort := "ts" }
  | .platformEvents => {
      columns := ["id", "event_name", "user_id", "session_id", "device_id", "properties",
        "client_ts", "server_ts"]
      sortable := ["id", "server_ts", "user_id", "session_id", "event_name"]
      searchable := ["id", "event_name", "user_id", "session_id", "device_id"]
      defaultSort := "server_ts" }
  | .behavioralEvents => {
      columns := ["id", "session_id", "user_id", "lab_slug", "timestamp", "event_type",
        "component_id", "component_type", "action", "raw_command", "success", "severity", "message"]
      sortable := ["id", "timestamp", "session_id", "user_id", "event_type"]
      searchable :=
        ["id", "session_id", "user_id", "lab_slug", "event_type", "component_id", "component_type",
          "action", "raw_command", "severity", "message"]
      defaultSort := "timestamp" }
  | .chatMessages => {
      columns := ["id", "session_id", "role", "created_at"]
      sortable := ["id", "created_at", "session_id", "role"]
      searchable := ["id", "session_id", "role"]
      defaultSort := "created_at" }
  | .validationRuns => {
      columns := ["id", "session_id", "lab_slug", "status", "started_at", "finished_at"]
      sortable := ["id", "started_at", "session_id", "status"]
      searchable := ["id", "session_id", "lab_slug", "status"]
      defaultSort := "started_at" }
  | .learningSessions => {
      columns := ["id", "user_id", "lab_slug", "status", "started_at", "ended_at", "model_id"]
      sortable := ["id", "started_at", "user_id", "status"]
      searchable := ["id", "user_id", "lab_slug", "status", "model_id"]
      defaultSort := "started_at" }
  | .consents => {
      columns := ["id", "user_id", "scope", "observe", "act", "granted_at", "revoked_at",
        "data_policy"]
      sortable := ["id", "granted_at", "user_id", "scope"]
      searchable := ["id", "user_id", "scope", "data_policy"]
      defaultSort := "granted_at" }
  | .labProgress => {
      columns := ["id", "user_id", "lab_slug", "status", "score", "current_step", "started_at",
        "completed_at", "updated_at"]
      sortable := ["id", "updated_at", "user_id", "status"]
      searchable := ["id", "user_id", "lab_slug", "status"]
      defaultSort := "updated_at" }
  | .courseProgress => {
      columns := ["id", "user_id", "course_slug", "status", "score", "started_at", "completed_at",
        "updated_at"]
      sortable := ["id", "updated_at", "user_id", "status"]
      searchable := ["id", "user_id", "course_slug", "status"]
      defaultSort := "updated_at" }
  | .stepAttempts => {
      columns := ["id", "user_id", "lab_slug", "step_slug", "attempt_number", "result", "score",
        "started_at", "ended_at"]
      sortable := ["id", "started_at", "user_id", "result"]
      searchable := ["id", "user_id", "lab_slug", "step_slug", "result"]
      defaultSort := "started_at" }
  | .processStateSamples => {
      columns := ["id", "session_id", "user_id", "lab_slug", "ts", "regime", "dwell_seconds",
        "created_at"]
      sortable := ["id", "ts", "session_id", "user_id"]
      searchable := ["id", "session_id", "user_id", "lab_slug", "regime"]
      defaultSort := "ts" }
  | .experimentMetrics => {
      columns := ["id", "session_id", "user_id", "lab_slug", "experiment_group", "agent_backend",
        "total_time_seconds", "steps_completed", "total_errors", "repeated_errors",
          "unique_error_types",
        "interventions_received", "interventions_succeeded", "interventions_failed",
          "interventions_accepted",
        "control_arm", "base_arm", "escalations", "would_interventions", "l1_interventions",
          "l2_unassisted_pass",
        "final_score", "completed", "completed_at", "created_at"]
      sortable := ["id", "created_at", "session_id", "user_id", "final_score"]
      searchable :=
        ["id", "session_id", "user_id", "lab_slug", "experiment_group", "agent_backend",
          "control_arm",
        "base_arm"]
      defaultSort := "created_at" }
  | .interventionDecisions => {
      columns := ["id", "session_id", "user_id", "lab_slug", "spell_id", "ts", "regime",
        "dwell_seconds", "t_k_applied", "assignment", "subsequent_exit_ts", "censored",
        "created_at"]
      sortable := ["id", "ts", "user_id", "session_id", "regime"]
      searchable := ["id", "user_id", "session_id", "lab_slug", "regime", "assignment"]
      defaultSort := "ts" }
  | .sessionEvidenceSnapshots => {
      columns := ["id", "session_id", "user_id", "lab_slug", "ts", "kind", "payload", "created_at"]
      sortable := ["id", "ts", "user_id", "session_id", "kind"]
      searchable := ["id", "user_id", "session_id", "lab_slug", "kind"]
      defaultSort := "ts" }
  | .regimeAnnotations => {
      columns := ["id", "session_id", "coder_id", "window_index", "regime_label", "is_gold",
        "created_at"]
      sortable := ["id", "created_at", "session_id", "regime_label"]
      searchable := ["id", "session_id", "coder_id", "regime_label"]
      defaultSort := "created_at" }
  | .groundingComparisons => {
      columns := ["id", "session_id", "grounded_text", "ungrounded_text", "ts", "created_at"]
      sortable := ["id", "ts", "session_id"]
      searchable := ["id", "session_id"]
      defaultSort := "ts" }
  | .cycleLatencySamples => {
      columns := ["id", "session_id", "stage", "duration_ms", "ts", "created_at"]
      sortable := ["id", "ts", "session_id", "stage"]
      searchable := ["id", "session_id", "stage"]
      defaultSort := "ts" }
  | .studyParticipants => {
      columns := ["id", "user_id", "pseudonym", "enrolled_at", "withdrawn_at"]
      sortable := ["id", "enrolled_at", "user_id"]
      searchable := ["id", "user_id", "pseudonym"]
      defaultSort := "enrolled_at" }

/-- Every table shows its id and may be sorted by it, sorts by a column it offers, and searches
columns it shows. -/
theorem adminSpec_wellFormed (table : RegistryTable) :
    "id" ∈ (adminSpec table).columns ∧ "id" ∈ (adminSpec table).sortable ∧
      (adminSpec table).defaultSort ∈ (adminSpec table).sortable ∧
      (adminSpec table).sortable ⊆ (adminSpec table).columns ∧ (adminSpec table).searchable ≠ [] ∧
      (adminSpec table).searchable ⊆ (adminSpec table).columns := by
  cases table <;> decide +kernel

/-! ### How a row is shown -/

/-- What a column holds. A double is an exact fraction. -/
inductive Value where
  | null
  | bool (value : Bool)
  | int (value : Int)
  | real (value : ℚ)
  | text (value : String)
  | datetime (value : Nat)
  | json (value : Json)

/-- A row of a table of the registry. Its id is the text of a UUID unless something else was stored,
and is short. -/
structure Row where
  id : String
  id_length : id.length ≤ 200
  value : String → Value

/-- `getattr(row, column)`. -/
def Row.get (row : Row) (column : String) :
    Value := if column = "id" then .text row.id else row.value column

/-- `SECRET_RE`, on the names of columns. -/
def isSecret (column : String) : Bool :=
  ["token", "secret", "key", "jwt", "password"].any fun word =>
    decide (word.toList <:+: column.toList.map Char.toLower)

def truncate (text : String) : String :=
  if text.length > 200 then String.ofList (text.toList.take 200) ++ "…" else text

section Serialize

-- `datetime.isoformat` and `str` of a JSON value.
variable (isoformat : Nat → String) (str : Json → String)

def serializeValue : Value → Value
  | .datetime value => .text (truncate (isoformat value))
  | .json value => .text (truncate (str value))
  | .text value => .text (truncate value)
  | value => value

/-- `serialize_row`. No column of the registry holds an `Enum` or a `UUID`. -/
def serializeRow (spec : TableSpec) (row : Row) : List (String × Value) :=
  spec.columns.map fun column =>
    (column, if column ∈ spec.masked ∨ isSecret column = true then .text "***"
      else serializeValue isoformat str (row.get column))

end Serialize

/-- No column of the registry is masked. -/
theorem not_masked (table : RegistryTable) :
    ∀ column ∈ (adminSpec table).columns,
      ¬ (column ∈ (adminSpec table).masked ∨ isSecret column = true) := by
  cases table <;> decide +kernel

/-- A row that is shown can be told by its id. -/
theorem id_of_serializeRow {isoformat : Nat → String} {str : Json → String} {table : RegistryTable}
    {row row' : Row}
    (h : serializeRow isoformat str (adminSpec table) row
      = serializeRow isoformat str (adminSpec table) row') :
    row.id = row'.id := by
  have hid := (adminSpec_wellFormed table).1
  have hshown := List.map_inj_left.mp h "id" hid
  rw [Prod.mk.injEq, if_neg (not_masked table "id" hid),
    if_neg (not_masked table "id" hid)] at hshown
  have htext : truncate row.id = truncate row'.id := by
    have heq := hshown.2
    simp only [Row.get, if_true, serializeValue, Value.text.injEq] at heq
    exact heq
  have hshort : ∀ row : Row, truncate row.id = row.id := fun row =>
      if_neg (not_lt.mpr row.id_length)
  rwa [hshort, hshort] at htext

end OnlinetLabs.Admin
