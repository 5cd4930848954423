import OnlinetLabs.Analytics.Collector
import OnlinetLabs.Lib.Journal

/-!
# What is collected once

A cycle commits what it reads for the first time, and the memory of keys decides what that is. It
holds the key of an entry, not the entry, and holds it from before the write on: it can know an
entry that was never committed, and it can have forgotten one that was.
-/

namespace OnlinetLabs.Analytics

/-! ### The law -/

def sources (rows : List (Option SourceEntry × CollectedEvent)) :
    List SourceEntry := rows.filterMap Prod.fst

namespace BehavioralCollector

variable (b : BehavioralCollector)

def Normalizes : SourceEntry → CollectedEvent → Prop
  | .action _ a, event => ∃ types, event = b.normalizeUserAction a types
  | .log _ l, event => event = b.normalizeLogEntry l

/-- Every entry that was due has been committed, no entry was twice, and each row tells its
entry. -/
structure ExactlyOnce (s : Collection) : Prop where
  due : ∀ e ∈ s.due, e ∈ sources s.rows
  never_twice : (sources s.rows).Nodup
  tells : ∀ row ∈ s.rows, ∀ e, row.1 = some e → b.Normalizes e row.2

/-- Every cycle leaves everything collected once. -/
def CollectsOnce (cycles : List PollCycle) : Prop :=
  Everywhere b.pollCycle (fun s io => b.ExactlyOnce (b.pollCycle s io)) {} cycles

/-! ### The condition -/

def reads (s : Collection) (io : PollCycle) : List SourceEntry :=
  (if io.actionsRead then b.actionsWindow (s.actions ++ io.actions) else [])
    ++ (if io.logsRead then b.logsWindow (s.logs ++ io.logs) else [])

/-- The memory holds the key of the entry when the cycle comes to it. -/
def Knows (s : Collection) (io : PollCycle) (e : SourceEntry) : Prop :=
  Recent.Knows b.dedupMaxSize b.entryKey s.seen (b.reads s io) e

/-- The memory tells what was committed: no row is added for an entry that has one, and where all
calls succeed, a row is for every entry read that has none. -/
structure MemoryTells (s : Collection) (io : PollCycle) : Prop where
  committed : io.committed = true → ∀ e ∈ b.reads s io, e ∈ sources s.rows → b.Knows s io e
  new : b.succeeds s io = true → ∀ e ∈ b.reads s io, e ∉ sources s.rows → ¬ b.Knows s io e

variable {b : BehavioralCollector} {s : Collection} {io : PollCycle} {e : SourceEntry}
  {entries : List SourceEntry} {rows rows' : List (Option SourceEntry × CollectedEvent)}

@[simp] theorem sources_append : sources (rows ++ rows') = sources rows ++ sources rows' :=
  List.filterMap_append

/-! ### What a cycle reads -/

def place : SourceEntry → Nat
  | .action place _ | .log place _ => place

theorem nodup_zipIdx_map {α : Type} (entry : Nat → α → SourceEntry) (place : SourceEntry → Nat)
    (hplace : ∀ n a, place (entry n a) = n) (l : List α) :
    (l.zipIdx.map fun a => entry a.2 a.1).Nodup := by
  apply List.Nodup.of_map place
  have hmap : (l.zipIdx.map fun a => entry a.2 a.1).map place = l.zipIdx.map Prod.snd := by
    simp [List.map_map, Function.comp_def, hplace]
  rw [hmap, List.zipIdx_map_snd]
  exact List.nodup_range'

theorem nodup_actionsWindow (actions : List UserAction) : (b.actionsWindow actions).Nodup := by
  have hall := nodup_zipIdx_map .action place (fun _ _ => rfl) actions
  exact List.nodup_reverse.mpr (hall.sublist (List.drop_sublist _ _))

theorem nodup_logsWindow (logs : List LogEntry) : (b.logsWindow logs).Nodup := by
  have hall := nodup_zipIdx_map .log place (fun _ _ => rfl) logs
  exact hall.sublist (List.drop_sublist _ _)

theorem mem_actionsWindow {actions : List UserAction} (h : e ∈ b.actionsWindow actions) :
    ∃ place a, e = .action place a := by
  obtain ⟨a, -, rfl⟩ := List.mem_map.mp (List.mem_of_mem_drop (List.mem_reverse.mp h))
  exact ⟨a.2, a.1, rfl⟩

theorem mem_logsWindow {logs : List LogEntry} (h : e ∈ b.logsWindow logs) :
    ∃ place l, e = .log place l := by
  obtain ⟨l, -, rfl⟩ := List.mem_map.mp (List.mem_of_mem_drop h)
  exact ⟨l.2, l.1, rfl⟩

theorem nodup_reads : (b.reads s io).Nodup := by
  have hactions : (if io.actionsRead then b.actionsWindow (s.actions ++ io.actions)
      else []).Nodup := by
    split
    · exact nodup_actionsWindow _
    · exact List.nodup_nil
  have hlogs : (if io.logsRead then b.logsWindow (s.logs ++ io.logs) else []).Nodup := by
    split
    · exact nodup_logsWindow _
    · exact List.nodup_nil
  refine List.Nodup.append hactions hlogs fun e haction hlog => ?_
  split at haction
  · split at hlog
    · obtain ⟨_, _, rfl⟩ := mem_actionsWindow haction
      obtain ⟨_, _, hne⟩ := mem_logsWindow hlog
      cases hne
    · cases hlog
  · cases haction

/-! ### What a cycle takes -/

theorem takeActions_spec {component : String → Option String}
    (hall : ∀ e ∈ entries, ∃ place a, e = .action place a) (seen : List String)
    (types : Dict String String) :
    sources (b.takeActions component entries seen types).1
        = Recent.sift b.dedupMaxSize b.entryKey seen entries
      ∧ (b.takeActions component entries seen types).2.1
        = Recent.after b.dedupMaxSize b.entryKey seen entries
      ∧ ∀ row ∈ (b.takeActions component entries seen types).1, ∀ e, row.1 = some e →
        b.Normalizes e row.2 := by
  induction entries generalizing seen types with
  | nil => exact ⟨rfl, rfl, List.forall_mem_nil _⟩
  | cons e entries ih =>
      obtain ⟨⟨place, a, rfl⟩, hrest⟩ := List.forall_mem_cons.mp hall
      have hkey : b.entryKey (.action place a) = b.dedupKey a.timestamp a.action a.componentId :=
        rfl
      rw [takeActions, Recent.sift, Recent.after, List.foldl_cons, hkey]
      split
      · rename_i hmem
        rw [Recent.remember_of_mem hmem]
        exact ih hrest _ _
      · obtain ⟨hsources, hseen, htells⟩ := ih hrest
          (Recent.remember b.dedupMaxSize seen (b.dedupKey a.timestamp a.action a.componentId))
          (resolveType component a.componentId types)
        refine ⟨congrArg _ hsources, hseen, List.forall_mem_cons.mpr ⟨?_, htells⟩⟩
        rintro _ ⟨⟩
        exact ⟨_, rfl⟩

theorem takeLogs_spec (hall : ∀ e ∈ entries, ∃ place l, e = .log place l) (seen : List String) :
    sources (b.takeLogs entries seen).1 = Recent.sift b.dedupMaxSize b.entryKey seen entries
      ∧ (b.takeLogs entries seen).2 = Recent.after b.dedupMaxSize b.entryKey seen entries
      ∧ ∀ row ∈ (b.takeLogs entries seen).1, ∀ e, row.1 = some e → b.Normalizes e row.2 := by
  induction entries generalizing seen with
  | nil => exact ⟨rfl, rfl, List.forall_mem_nil _⟩
  | cons e entries ih =>
      obtain ⟨⟨place, l, rfl⟩, hrest⟩ := List.forall_mem_cons.mp hall
      have hkey : b.entryKey (.log place l) = b.dedupKey l.timestamp "log" (some l.source) := rfl
      rw [takeLogs, Recent.sift, Recent.after, List.foldl_cons, hkey]
      split
      · rename_i hmem
        rw [Recent.remember_of_mem hmem]
        exact ih hrest _
      · obtain ⟨hsources, hseen, htells⟩ := ih hrest (Recent.remember b.dedupMaxSize seen
          (b.dedupKey l.timestamp "log" (some l.source)))
        refine ⟨congrArg _ hsources, hseen, List.forall_mem_cons.mpr ⟨?_, htells⟩⟩
        rintro _ ⟨⟩
        rfl

theorem fetchActions_spec (b : BehavioralCollector) (s : Collection) (io : PollCycle) :
    sources (b.fetchActions s io).1 = Recent.sift b.dedupMaxSize b.entryKey s.seen
        (if io.actionsRead then b.actionsWindow (s.actions ++ io.actions) else [])
      ∧ (b.fetchActions s io).2.1 = Recent.after b.dedupMaxSize b.entryKey s.seen
        (if io.actionsRead then b.actionsWindow (s.actions ++ io.actions) else [])
      ∧ ∀ row ∈ (b.fetchActions s io).1, ∀ e, row.1 = some e → b.Normalizes e row.2 := by
  rw [fetchActions]
  split
  · exact takeActions_spec (fun e he => mem_actionsWindow he) _ _
  · exact ⟨rfl, rfl, List.forall_mem_nil _⟩

theorem fetchLogs_spec (b : BehavioralCollector) (s : Collection) (io : PollCycle)
    (seen : List String) :
    sources (b.fetchLogs s io seen).1 = Recent.sift b.dedupMaxSize b.entryKey seen
        (if io.logsRead then b.logsWindow (s.logs ++ io.logs) else [])
      ∧ ∀ row ∈ (b.fetchLogs s io seen).1, ∀ e, row.1 = some e → b.Normalizes e row.2 := by
  rw [fetchLogs]
  split
  · have hall : ∀ e ∈ b.logsWindow (s.logs ++ io.logs), ∃ place l, e = .log place l :=
      fun e he => mem_logsWindow he
    obtain ⟨hsources, -, htells⟩ := takeLogs_spec hall seen
    exact ⟨hsources, htells⟩
  · exact ⟨rfl, List.forall_mem_nil _⟩

theorem sources_fetchErrors : sources (b.fetchErrors io) = [] := by
  simp [sources, fetchErrors, List.filterMap_map]

/-- **What a cycle takes.** What the memory did not know of what is read. -/
theorem sources_fetch :
    sources (b.fetch s io).1 = Recent.sift b.dedupMaxSize b.entryKey s.seen (b.reads s io) := by
  obtain ⟨hactions, hseen, -⟩ := fetchActions_spec b s io
  obtain ⟨hlogs, -⟩ := fetchLogs_spec b s io (b.fetchActions s io).2.1
  rw [fetch, sources_append, sources_append, sources_fetchErrors, List.append_nil, hactions,
    hlogs, hseen, reads, Recent.sift_append]

theorem tells_fetch : ∀ row ∈ (b.fetch s io).1, ∀ e, row.1 = some e → b.Normalizes e row.2 := by
  obtain ⟨-, -, hactions⟩ := fetchActions_spec b s io
  obtain ⟨-, hlogs⟩ := fetchLogs_spec b s io (b.fetchActions s io).2.1
  intro row hrow e he
  rcases List.mem_append.mp hrow with hrow | hrow
  · rcases List.mem_append.mp hrow with hrow | hrow
    · exact hactions row hrow e he
    · exact hlogs row hrow e he
  · obtain ⟨error, -, rfl⟩ := List.mem_map.mp hrow
    cases he

theorem nodup_sources_fetch : (sources (b.fetch s io).1).Nodup := by
  rw [sources_fetch]
  exact nodup_reads.sublist Recent.sift_sublist

/-- An entry that is read is taken unless the memory knows it. -/
theorem mem_sources_fetch_iff :
    e ∈ sources (b.fetch s io).1 ↔ e ∈ b.reads s io ∧ ¬ b.Knows s io e := by
  rw [sources_fetch]
  constructor
  · intro h
    have hread : e ∈ b.reads s io := Recent.sift_sublist.subset h
    exact ⟨hread, fun hknown => (Recent.not_mem_sift_iff nodup_reads hread).mpr hknown h⟩
  · rintro ⟨hread, hunknown⟩
    by_contra hnot
    exact hunknown ((Recent.not_mem_sift_iff nodup_reads hread).mp hnot)

/-! ### All runs -/

theorem sources_pollCycle : sources (b.pollCycle s io).rows
    = sources s.rows ++ if io.committed then sources (b.fetch s io).1 else [] := by
  rw [pollCycle]
  split
  · exact sources_append
  · exact (List.append_nil _).symm

theorem never_twice_pollCycle_iff (h : (sources s.rows).Nodup) :
    (sources (b.pollCycle s io).rows).Nodup
      ↔ (io.committed = true → ∀ e ∈ b.reads s io, e ∈ sources s.rows → b.Knows s io e) := by
  rw [sources_pollCycle]
  by_cases hcommitted : io.committed = true
  · rw [if_pos hcommitted, List.nodup_append', and_iff_right h, and_iff_right nodup_sources_fetch]
    constructor
    · intro hdisjoint _ e hread hsource
      by_contra hunknown
      exact hdisjoint hsource (mem_sources_fetch_iff.mpr ⟨hread, hunknown⟩)
    · intro hknown e hsource hfetched
      obtain ⟨hread, hunknown⟩ := mem_sources_fetch_iff.mp hfetched
      exact hunknown (hknown hcommitted e hread hsource)
  · simp [hcommitted, h]

theorem reads_of_succeeds (h : b.succeeds s io = true) :
    b.reads s io
      = b.actionsWindow (s.actions ++ io.actions) ++ b.logsWindow (s.logs ++ io.logs) := by
  simp only [succeeds, Bool.and_eq_true] at h
  obtain ⟨⟨⟨⟨hactions, hlogs⟩, -⟩, -⟩, -⟩ := h
  rw [reads, if_pos hactions, if_pos hlogs]

/-- A cycle that succeeds has committed what it took. -/
theorem sources_pollCycle_of_succeeds (h : b.succeeds s io = true) :
    sources (b.pollCycle s io).rows = sources s.rows ++ sources (b.fetch s io).1 := by
  simp only [succeeds, Bool.and_eq_true, Bool.or_eq_true, List.isEmpty_iff] at h
  obtain ⟨-, hnone | hcommitted⟩ := h
  · rw [sources_pollCycle, hnone]
    simp [sources]
  · rw [sources_pollCycle, if_pos hcommitted]

theorem due_pollCycle_iff (h : ∀ e ∈ s.due, e ∈ sources s.rows) :
    (∀ e ∈ (b.pollCycle s io).due, e ∈ sources (b.pollCycle s io).rows)
      ↔ (b.succeeds s io = true → ∀ e ∈ b.reads s io, e ∉ sources s.rows → ¬ b.Knows s io e) := by
  have hold : ∀ e ∈ s.due, e ∈ sources (b.pollCycle s io).rows := by
    intro e he
    rw [sources_pollCycle]
    exact List.mem_append_left _ (h e he)
  by_cases hsucceeds : b.succeeds s io = true
  · have hdue : (b.pollCycle s io).due = s.due ++ b.reads s io := by
      rw [pollCycle, reads_of_succeeds hsucceeds]
      exact if_pos hsucceeds
    rw [hdue, List.forall_mem_append, and_iff_right hold, sources_pollCycle_of_succeeds hsucceeds]
    constructor
    · intro hall _ e hread hnew hknown
      rcases List.mem_append.mp (hall e hread) with hsource | hfetched
      · exact hnew hsource
      · exact (mem_sources_fetch_iff.mp hfetched).2 hknown
    · intro hall e hread
      by_cases hsource : e ∈ sources s.rows
      · exact List.mem_append_left _ hsource
      · exact List.mem_append_right _
          (mem_sources_fetch_iff.mpr ⟨hread, hall hsucceeds e hread hsource⟩)
  · have hdue : (b.pollCycle s io).due = s.due := if_neg hsucceeds
    rw [hdue]
    exact iff_of_true hold fun h => absurd h hsucceeds

theorem tells_pollCycle (h : ∀ row ∈ s.rows, ∀ e, row.1 = some e → b.Normalizes e row.2) :
    ∀ row ∈ (b.pollCycle s io).rows, ∀ e, row.1 = some e → b.Normalizes e row.2 := by
  rw [pollCycle]
  dsimp only
  split
  · exact List.forall_mem_append.mpr ⟨h, tells_fetch⟩
  · exact h

theorem exactlyOnce_pollCycle_iff (h : b.ExactlyOnce s) :
    b.ExactlyOnce (b.pollCycle s io) ↔ b.MemoryTells s io := by
  constructor
  · rintro ⟨hdue, htwice, -⟩
    exact ⟨(never_twice_pollCycle_iff h.never_twice).mp htwice, (due_pollCycle_iff h.due).mp hdue⟩
  · rintro ⟨hcommitted, hnew⟩
    exact ⟨(due_pollCycle_iff h.due).mpr hnew,
      (never_twice_pollCycle_iff h.never_twice).mpr hcommitted, tells_pollCycle h.tells⟩

/-- **When collection is exactly-once**: exactly where in every cycle the memory tells what was
committed. -/
theorem collects_once_iff (b : BehavioralCollector) (cycles : List PollCycle) :
    b.CollectsOnce cycles ↔ Everywhere b.pollCycle b.MemoryTells {} cycles :=
  everywhere_iff (fun _ _ h => exactlyOnce_pollCycle_iff h)
    ⟨List.forall_mem_nil _, List.nodup_nil, List.forall_mem_nil _⟩

end BehavioralCollector

/-- The two entries have one timestamp, and one key. -/
def twoLogs : List LogEntry :=
  [{ timestamp := 0, level := .error, source := "gns3", message := "PC1: node is stopped" },
    { timestamp := 0, level := .info, source := "gns3", message := "PC2: node is started" }]

def gns3Collector : BehavioralCollector where
  isoformat _ := "2026-01-01T00:00:00+00:00"
  md5 raw := if raw = "2026-01-01T00:00:00+00:00:log:gns3"
    then "60c780dbbd902871e642974142a156cc" else raw
  mcpActionsLimit := 50
  mcpLogsLimit := 100
  dedupMaxSize := 10000
  sessionId := 0
  userId := "ada"
  labSlug := "lan-static-ip"

/-- **An entry that is never collected.** Everything succeeds, and the second log is not
committed. -/
theorem second_log_lost : ¬ gns3Collector.CollectsOnce [{ logs := twoLogs }] := by
  intro h
  have honce := h [] { logs := twoLogs } [] rfl
  have hdue := honce.due (.log 1 twoLogs[1]) (by decide +kernel)
  revert hdue
  decide +kernel

end OnlinetLabs.Analytics
