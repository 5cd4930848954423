import Mathlib.Data.PNat.Defs
import Mathlib.Data.Prod.Lex
import Mathlib.Data.String.Basic
import OnlinetLabs.Lib.IsoTime
import OnlinetLabs.Lib.Json
import OnlinetLabs.Lib.Paging
import OnlinetLabs.Sessions.Models

/-!
# Feeds that are read page by page

The activity of a session, the log of tool calls and the activity of the agent. Each is paged by the
time of the last row, which the next query excludes, and rows may share a time. The database is free
in the order of rows that its `ORDER BY` does not tell apart, anew in every query.
-/

namespace OnlinetLabs.Observability

open OrderDual Paging
open Sessions (SessionId UserId Slug)

/-- `datetime.isoformat` of a time in UTC, in microseconds since the epoch. -/
def isoformat (t : Nat) : String := String.ofList (IsoTime.write t)

/-- `datetime.fromisoformat`, which reads back what `isoformat` writes. What else it reads depends
on the version of the language. -/
structure IsoFormat where
  fromisoformat : String → Option Nat
  fromisoformat_isoformat : ∀ t, fromisoformat (isoformat t) = some t

theorem isoformat_ne_empty (t : Nat) : isoformat t ≠ "" := by
  intro h
  have hempty : IsoTime.write t = [] := by
    rw [← String.toList_ofList (l := IsoTime.write t)]
    exact congrArg String.toList h
  exact IsoTime.write_ne_nil t hempty

/-- The reader of nothing else. -/
def isoFormat : IsoFormat where
  fromisoformat text := (IsoTime.read text.toList).filter fun t => isoformat t = text
  fromisoformat_isoformat t := by
    unfold isoformat
    rw [String.toList_ofList, IsoTime.read_write, Option.filter_some, if_pos (decide_eq_true rfl)]

structure HTTPException where
  statusCode : Nat
  detail : String
deriving Repr, DecidableEq

/-! ### The activity of a session -/

/-- The row of `history_events`. -/
structure HistoryEventRow where
  id : Nat
  sessionId : Nat
  eventType : String
  componentId : Option String
  data : Json
  timestamp : Nat

structure HistoryEvent where
  timestamp : Nat
  eventType : String
  componentId : Option String
  data : Json

structure ActivityResponse where
  events : List HistoryEvent
  nextCursor : Option String

def HistoryEventRow.event (row : HistoryEventRow) : HistoryEvent where
  timestamp := row.timestamp
  eventType := row.eventType
  componentId := row.componentId
  data := row.data

def invalidCursor : HTTPException := ⟨400, "Invalid cursor format; expected ISO 8601 timestamp"⟩

def readCursor (iso : IsoFormat) (cursor : Option String) : Except HTTPException (Option Nat) :=
  match cursor with
  | none => .ok none
  | some text =>
      if text = "" then .ok none
      else
        match iso.fromisoformat text with
        | none => .error invalidCursor
        | some cursorDt => .ok (some cursorDt)

/-- `ORDER BY timestamp DESC`. -/
def newest (row : HistoryEventRow) : ℕᵒᵈ := toDual row.timestamp

def getSessionActivity (iso : IsoFormat) (orderBy : OrderBy newest) (table : List HistoryEventRow)
    (sessionId : Nat)
    (limit : Nat) (cursor : Option String) : Except HTTPException ActivityResponse := do
  let before ← readCursor iso cursor
  let matching := table.filter fun row =>
    decide (row.sessionId = sessionId) && before.all fun cursorDt =>
      decide (row.timestamp < cursorDt)
  let rows := (orderBy.arrange matching).take (limit + 1)
  let hasMore := decide (limit < rows.length)
  let rows := if hasMore then rows.take limit else rows
  let nextCursor := if hasMore then rows.getLast?.map fun row => isoformat row.timestamp else none
  return { events := rows.map HistoryEventRow.event, nextCursor := nextCursor }

/-! ### The log of tool calls -/

structure MCPAudit where
  id : String
  userId : UserId
  sessionId : String
  tool : String
  kind : String
  ts : Nat
  success : Bool
  error : Option String
  consentRef : Option String
  labSlug : Option Slug
deriving Repr, DecidableEq

section Audit

-- The database compares ids by a collation of its own.
variable {ι : Type} [LinearOrder ι] (collation : String → ι)

/-- `ORDER BY ts DESC, id DESC`. -/
def newestCall (row : MCPAudit) : ℕᵒᵈ ×ₗ ιᵒᵈ := toLex (toDual row.ts, toDual (collation row.id))

variable {collation}

def getMcpAudit (orderBy : OrderBy (newestCall collation)) (table : List MCPAudit)
    (sessionId kind : Option String)
    (before : Option Nat) (limit : Nat) : List MCPAudit :=
  let q := table.filter fun row =>
    sessionId.all (fun sessionId => decide (row.sessionId = sessionId)) &&
      kind.all (fun kind => decide (row.kind = kind)) && before.all fun before =>
        decide (row.ts < before)
  (orderBy.arrange q).take limit

end Audit

/-! ### The activity of the agent -/

inductive ActivitySource where
  | chat
  | intervention
deriving Repr, DecidableEq

inductive ActivityKind where
  | modelSelected
  | mcpContextFetched
  | toolCall
  | toolResult
  | fallback
  | responseFinished
  | struggleDetected
  | cooldownSkip
  | agentInvoked
  | hintGenerated
  | dispatched
  | error
deriving Repr, DecidableEq

/-- The row of `agent_activity_events`. The columns `source` and `kind` hold the values of the two
enumerations, which `AgentActivityEvent` reads back. -/
structure AgentActivityEventRow where
  id : String
  sessionId : String
  userId : UserId
  ts : Nat
  source : ActivitySource
  kind : ActivityKind
  agent : Option String
  severity : String
  summary : String
  detail : Option Json

structure AgentActivityEvent where
  id : String
  sessionId : String
  userId : UserId
  ts : Nat
  source : ActivitySource
  kind : ActivityKind
  agent : Option String
  severity : String
  summary : String
  detail : Option Json

def AgentActivityEventRow.event (r : AgentActivityEventRow) : AgentActivityEvent where
  id := r.id
  sessionId := r.sessionId
  userId := r.userId
  ts := r.ts
  source := r.source
  kind := r.kind
  agent := r.agent
  severity := r.severity
  summary := r.summary
  detail := r.detail

/-- `AgentActivityLog.history`. -/
def history (orderBy : OrderBy AgentActivityEventRow.ts) (table : List AgentActivityEventRow)
    (sessionId : String)
    (since : Option Nat) (limit : Nat) : List AgentActivityEvent :=
  let stmt := table.filter fun row =>
    decide (row.sessionId = sessionId) && since.all fun since => decide (since < row.ts)
  ((orderBy.arrange stmt).take limit).map AgentActivityEventRow.event

/-! ### Reading them -/

/-- A client follows `next_cursor` until it is null. -/
def activityFeed (iso : IsoFormat) (table : List HistoryEventRow) (sessionId limit : Nat)
    (cursor : Option String)
    (page : List HistoryEvent) (next : Option String) : Prop :=
  ∃ orderBy, getSessionActivity iso orderBy table sessionId limit cursor = .ok ⟨page, next⟩

/-- A client passes the `ts` of the last row as `before` until no row comes. -/
def auditLog {ι : Type} [LinearOrder ι] (collation : String → ι) (table : List MCPAudit)
    (sessionId kind : Option String) (limit : Nat) (before : Option Nat) (page : List MCPAudit)
    (next : Option Nat) :
    Prop :=
  ∃ orderBy : OrderBy (newestCall collation),
    page = getMcpAudit orderBy table sessionId kind before limit ∧ next = page.getLast?.map (·.ts)

/-- A client passes the `ts` of the last event as `since` until no event comes. -/
def agentFeed (table : List AgentActivityEventRow) (sessionId : String) (limit : Nat)
    (since : Option Nat)
    (page : List AgentActivityEvent) (next : Option Nat) : Prop :=
  ∃ orderBy, page = history orderBy table sessionId since limit ∧ next = page.getLast?.map (·.ts)

def sessionHistory (table : List HistoryEventRow) (sessionId : Nat) : List HistoryEventRow :=
  table.filter fun row => decide (row.sessionId = sessionId)

def matchingCalls (table : List MCPAudit) (sessionId kind : Option String) : List MCPAudit :=
  table.filter fun row => sessionId.all (fun sessionId => decide (row.sessionId = sessionId)) &&
    kind.all fun kind => decide (row.kind = kind)

def sessionActivity (table : List AgentActivityEventRow) (sessionId : String) :
    List AgentActivityEventRow :=
  table.filter fun row => decide (row.sessionId = sessionId)

section Feeds

variable {iso : IsoFormat} {ι : Type} [LinearOrder ι] {collation : String → ι}
  {history : List HistoryEventRow}
  {calls : List MCPAudit} {activity : List AgentActivityEventRow} {limit : Nat}

def isoCursor (t : ℕᵒᵈ) : String := isoformat (ofDual t)

theorem readCursor_map (cursor : Option ℕᵒᵈ) :
    readCursor iso (cursor.map isoCursor) = .ok (cursor.map ofDual) := by
  cases cursor with
  | none => rfl
  | some t => simp [readCursor, isoCursor, isoformat_ne_empty, iso.fromisoformat_isoformat]

theorem getSessionActivity_eq (orderBy : OrderBy newest) (sessionId : Nat) (cursor : Option ℕᵒᵈ) :
    getSessionActivity iso orderBy history sessionId limit (cursor.map isoCursor)
      = .ok { events :=
                ((orderBy.arrange (after newest (sessionHistory history sessionId) cursor)).take
                  limit).map HistoryEventRow.event
              nextCursor :=
                if limit < (orderBy.arrange
                  (after newest (sessionHistory history sessionId) cursor)).length then
                  ((orderBy.arrange (after newest (sessionHistory history sessionId) cursor)).take
                    limit).getLast?.map
                    fun row => isoCursor (newest row)
                else none } := by
  have hmatching : history.filter (fun row => decide (row.sessionId = sessionId) &&
      (cursor.map ofDual).all fun cursorDt => decide (row.timestamp < cursorDt))
      = after newest (sessionHistory history sessionId) cursor := by
    rw [after, sessionHistory, List.filter_filter]
    apply List.filter_congr
    intro row _
    cases cursor with
    | none => simp
    | some t => simp [newest, Bool.and_comm, OrderDual.lt_toDual]
  unfold getSessionActivity
  rw [readCursor_map]
  simp only [bind, Except.bind, pure, Except.pure, hmatching]
  generalize orderBy.arrange (after newest (sessionHistory history sessionId) cursor) = listing
  by_cases hmore : limit < listing.length
  · have hone : limit < (listing.take (limit + 1)).length := by
      rw [List.length_take]
      omega
    have hpage : (listing.take (limit + 1)).take limit = listing.take limit := by
      rw [List.take_take, min_eq_left (Nat.le_succ limit)]
    simp only [hone, hmore, hpage, decide_true, if_true]
    rfl
  · have hnone : ¬ limit < (listing.take (limit + 1)).length := by
      rw [List.length_take]
      omega
    have hwhole : listing.take (limit + 1) = listing.take limit := by
      rw [List.take_of_length_le (by omega), List.take_of_length_le (by omega)]
    simp [hmore, hwhole]

theorem activityFeed_keyset (hlimit : 0 < limit) (sessionId : Nat) :
    Keyset newest newest isoCursor limit (sessionHistory history sessionId) HistoryEventRow.event
      (activityFeed iso history sessionId limit) := by
  constructor
  · rintro cursor page next ⟨orderBy, hquery⟩
    rw [getSessionActivity_eq] at hquery
    cases hquery
    refine ⟨_, orderBy.listing _, rfl, fun hnone => ?_, fun c hc => ?_⟩
    · by_contra hmore
      rw [if_pos (not_le.mp hmore), Option.map_eq_none_iff, List.getLast?_eq_none_iff,
        List.take_eq_nil_iff] at hnone
      rcases hnone with hzero | hnil
      · omega
      · exact hmore (by rw [hnil]; exact Nat.zero_le _)
    · split at hc
      · obtain ⟨row, hrow, rfl⟩ := Option.map_eq_some_iff.mp hc
        exact ⟨row, hrow, rfl⟩
      · cases hc
  · intro cursor
    exact ⟨_, _, OrderBy.sorted newest, getSessionActivity_eq _ sessionId cursor⟩

theorem auditLog_keyset (hlimit : 0 < limit) (sessionId kind : Option String) :
    Keyset (newestCall collation) (fun row : MCPAudit => toDual row.ts) ofDual limit
      (matchingCalls calls sessionId kind) id (auditLog collation calls sessionId kind limit) := by
  apply keyset_of_last hlimit
  intro cursor page next
  have hmatching : calls.filter (fun row =>
      sessionId.all (fun sessionId => decide (row.sessionId = sessionId)) &&
        kind.all (fun kind => decide (row.kind = kind)) &&
          (cursor.map ofDual).all fun before => decide (row.ts < before))
      = after (fun row : MCPAudit => toDual row.ts)
        (matchingCalls calls sessionId kind) cursor := by
    rw [after, matchingCalls, List.filter_filter]
    apply List.filter_congr
    intro row _
    cases cursor with
    | none => simp
    | some t => simp [Bool.and_comm, OrderDual.lt_toDual]
  simp only [auditLog, getMcpAudit, hmatching, List.map_id]
  constructor
  · rintro ⟨orderBy, rfl, rfl⟩
    exact ⟨orderBy, rfl, rfl⟩
  · rintro ⟨orderBy, rfl, rfl⟩
    exact ⟨orderBy, rfl, rfl⟩

theorem agentFeed_keyset (hlimit : 0 < limit) (sessionId : String) :
    Keyset AgentActivityEventRow.ts AgentActivityEventRow.ts id limit
      (sessionActivity activity sessionId)
      AgentActivityEventRow.event (agentFeed activity sessionId limit) := by
  apply keyset_of_last hlimit
  intro cursor page next
  have hmatching : activity.filter (fun row => decide (row.sessionId = sessionId) &&
      cursor.all fun since => decide (since < row.ts))
      = after AgentActivityEventRow.ts (sessionActivity activity sessionId) cursor := by
    rw [after, sessionActivity, List.filter_filter]
    apply List.filter_congr
    intro row _
    exact Bool.and_comm _ _
  simp only [agentFeed, Observability.history, Option.map_id, id_eq, hmatching]
  constructor
  · rintro ⟨orderBy, rfl, rfl⟩
    refine ⟨orderBy, rfl, ?_⟩
    rw [List.getLast?_map, Option.map_map]
    rfl
  · rintro ⟨orderBy, rfl, rfl⟩
    refine ⟨orderBy, rfl, ?_⟩
    rw [List.getLast?_map, Option.map_map]
    rfl

theorem ts_le_of_newestCall_le (row row' : MCPAudit)
    (h : newestCall collation row ≤ newestCall collation row') :
    toDual row.ts ≤ toDual row'.ts := by
  rcases Prod.Lex.le_iff.mp h with hlt | ⟨heq, -⟩
  · exact hlt.le
  · exact heq.le

/-- **Paging by a time is complete** exactly if no page ends between two rows of the same time. -/
theorem feeds_complete_iff (sessionId : Nat) (session kind : Option String) (agentSession : String)
    (limit : ℕ+) :
    (Complete newest (sessionHistory history sessionId) HistoryEventRow.event
      (activityFeed iso history sessionId limit)
      ↔ NoCut newest limit (sessionHistory history sessionId)) ∧
    (Complete (newestCall collation) (matchingCalls calls session kind) id
        (auditLog collation calls session kind limit)
      ↔ NoCut (fun row : MCPAudit => toDual row.ts) limit (matchingCalls calls session kind)) ∧
    (Complete AgentActivityEventRow.ts (sessionActivity activity agentSession)
      AgentActivityEventRow.event
        (agentFeed activity agentSession limit)
      ↔ NoCut AgentActivityEventRow.ts limit (sessionActivity activity agentSession)) :=
  ⟨(activityFeed_keyset limit.pos sessionId).complete_iff fun _ _ h => h,
    (auditLog_keyset limit.pos session kind).complete_iff ts_le_of_newestCall_le,
    (agentFeed_keyset limit.pos agentSession).complete_iff fun _ _ h => h⟩

def polls : List HistoryEventRow :=
  [⟨1, 7, "node.updated", some "n1", .obj [], 1743262155070607⟩,
    ⟨2, 7, "link.created", none, .obj [], 1743262185370607⟩,
    ⟨3, 7, "node.updated", some "n2", .obj [], 1743262186000000⟩]

example : isoformat 1743262155070607 = "2025-03-29T15:29:15.070607+00:00" := by decide +kernel

def burst : List HistoryEventRow :=
  [⟨1, 7, "node.updated", some "n1", .obj [], 100⟩, ⟨2, 7, "node.updated", some "n2", .obj [], 100⟩]

def twoCalls : List MCPAudit :=
  [⟨"a1", "ann", "s7", "get_logs", "observe", 100, true, none, none, none⟩,
    ⟨"a2", "ann", "s7", "list_nodes", "observe", 100, true, none, none, none⟩]

def twoEvents : List AgentActivityEventRow :=
  [⟨"e1", "s7", "ann", 100, .chat, .toolCall, some "tutor", "info", "get_logs", none⟩,
    ⟨"e2", "s7", "ann", 100, .chat, .toolResult, some "tutor", "info", "ok", none⟩]

/-- Pages of two are complete where the two rows of a time are on one of them. -/
theorem complete_pagesOfTwo :
    Complete newest (sessionHistory polls 7) HistoryEventRow.event
      (activityFeed isoFormat polls 7 2) ∧
    Complete (newestCall id)
      (matchingCalls twoCalls none none) id (auditLog id twoCalls none none 2) ∧
    Complete AgentActivityEventRow.ts (sessionActivity twoEvents "s7") AgentActivityEventRow.event
        (agentFeed twoEvents "s7" 2) := by
  have hiff :
      (Complete newest (sessionHistory polls 7) HistoryEventRow.event
        (activityFeed isoFormat polls 7 2) ↔ NoCut newest 2 (sessionHistory polls 7)) ∧
      (Complete (newestCall id) (matchingCalls twoCalls none none) id
        (auditLog id twoCalls none none 2)
        ↔ NoCut (fun row : MCPAudit => toDual row.ts) 2 (matchingCalls twoCalls none none)) ∧
      (Complete AgentActivityEventRow.ts (sessionActivity twoEvents "s7")
        AgentActivityEventRow.event
          (agentFeed twoEvents "s7" 2)
        ↔ NoCut AgentActivityEventRow.ts 2 (sessionActivity twoEvents "s7")) :=
    feeds_complete_iff 7 none none "s7" 2
  have hids : ((sessionHistory polls 7).map (·.id)).Nodup := by decide +kernel
  have htimes : ∀ a ∈ sessionHistory polls 7, ∀ b ∈ sessionHistory polls 7, newest a = newest b →
      a = b := by
    simp [sessionHistory, polls, newest]
  exact ⟨hiff.1.mpr (noCut_of_injective htimes (List.Nodup.of_map _ hids)),
    hiff.2.1.mpr (noCut_of_length_le (by decide +kernel)),
      hiff.2.2.mpr (noCut_of_length_le (by decide +kernel))⟩

/-- The second of two rows of one time is never shown where pages have one row. -/
theorem not_complete_sharedTime :
    (∀ iso, ¬ Complete newest (sessionHistory burst 7) HistoryEventRow.event
      (activityFeed iso burst 7 1)) ∧
    ¬ Complete (newestCall id)
      (matchingCalls twoCalls none none) id (auditLog id twoCalls none none 1) ∧
    ¬ Complete AgentActivityEventRow.ts (sessionActivity twoEvents "s7") AgentActivityEventRow.event
        (agentFeed twoEvents "s7" 1) := by
  refine ⟨fun iso h => ?_, fun h => ?_, fun h => ?_⟩
  · have hcut := ((activityFeed_keyset Nat.one_pos 7).complete_iff fun _ _ h => h).mp h 1
    exact hcut ⟨_, List.mem_cons_self, by decide +kernel, by decide +kernel⟩
  · have hcut :=
      ((auditLog_keyset Nat.one_pos none none).complete_iff ts_le_of_newestCall_le).mp h 1
    exact hcut ⟨_, List.mem_cons_self, by decide +kernel, by decide +kernel⟩
  · have hcut := ((agentFeed_keyset Nat.one_pos "s7").complete_iff fun _ _ h => h).mp h 1
    exact hcut ⟨_, List.mem_cons_self, by decide +kernel, by decide +kernel⟩

end Feeds

end OnlinetLabs.Observability
