import OnlinetLabs.Users.DataExport
import Mathlib.Data.List.Basic
import Mathlib.Data.List.Perm.Basic

/-!
# What is shown of a subject, and what is erased

Export and erasure find the rows of a subject by the same filter. Erasure deletes table by table,
and the deletion of sessions takes rows of other tables with it or lets go of them. What is left in
the end is what one look at each row tells: whether it is one that the export shows, and if not,
which of its references are gone.
-/

namespace OnlinetLabs.Users

open Sessions (UserId SessionId)

namespace Store

/-- The rows that one turn of `collect_subject_data` selects. -/
def exported (s : Store) (userId : UserId) (table : RegistryTable) : List Row :=
  match subjectFilter table userId (s.sessionIds userId) with
  | none => []
  | some condition => s.rows.filter fun row => row.table == table && condition row

/-- `collect_subject_data`, before the rows are serialized. -/
def collectSubjectData (s : Store) (userId : UserId) : List (String × List Row) :=
  RegistryTable.adminTables.map fun table => (table.name, s.exported userId table)

end Store

def Row.belongs (userId : UserId) (sessionIds : List SessionId) (row : Row) : Bool :=
  if row.table.hasUserId then row.userId == some userId
  else row.table.hasSessionId && row.sessionId.any (· ∈ sessionIds)

def Row.erased (userId : UserId) (sessionIds : List SessionId) (row : Row) : Option Row :=
  if row.belongs userId sessionIds then none else row.releaseSessions sessionIds

variable {s : Store} {row row' : Row} {table : RegistryTable} {userId other : UserId}
  {sessionIds : List SessionId}

/-! ### One table -/

def ownRows (userId : UserId) (sessionIds : List SessionId) (rows : List Row)
    (table : RegistryTable) : List Row :=
  rows.filter fun row => row.table == table && row.belongs userId sessionIds

theorem Row.belongs_session (h : row.table = .learningSessions) :
    row.belongs userId sessionIds = (row.userId == some userId) := by
  unfold belongs
  rw [h]
  rfl

/-- Where the filter cannot say, no row is the subject's. -/
theorem Row.belongs_eq (htable : row.table = table) :
    row.belongs userId sessionIds
      = match Store.subjectFilter table userId sessionIds with
        | none => false
        | some condition => condition row := by
  subst htable
  unfold belongs Store.subjectFilter
  cases row.table.hasUserId with
  | true => rfl
  | false =>
      cases row.table.hasSessionId with
      | false => rfl
      | true =>
          cases sessionIds with
          | nil => cases row.sessionId <;> rfl
          | cons sessionId sessionIds => rfl

theorem filter_table_congr {rows : List Row} {p q : Row → Bool}
    (h : ∀ row, row.table = table → p row = q row) :
    (rows.filter fun row => row.table == table && p row)
      = rows.filter fun row => row.table == table && q row := by
  apply List.filter_congr
  intro row _
  cases htable : row.table == table with
  | false => rfl
  | true => rw [h row (beq_iff_eq.mp htable)]

theorem Store.exported_eq (s : Store) (userId : UserId) (table : RegistryTable) :
    s.exported userId table = ownRows userId (s.sessionIds userId) s.rows table := by
  unfold exported ownRows
  cases hfilter : subjectFilter table userId (s.sessionIds userId) with
  | none =>
      symm
      rw [List.filter_eq_nil_iff]
      intro row _ hown
      rw [Bool.and_eq_true, beq_iff_eq] at hown
      rw [Row.belongs_eq hown.1, hfilter] at hown
      cases hown.2
  | some condition =>
      apply filter_table_congr
      intro row htable
      rw [Row.belongs_eq htable, hfilter]

/-- A turn of the loops takes the subject's rows of the table, and counts them. -/
theorem Store.eraseTable_eq {erasing : Store × List (String × Nat)}
    (htable : table ≠ .learningSessions) :
    eraseTable userId sessionIds erasing table
      = ({ erasing.1 with
          rows := erasing.1.rows.filter fun row =>
            !(row.table == table && row.belongs userId sessionIds) },
        erasing.2 ++ [(table.name, (ownRows userId sessionIds erasing.1.rows table).length)]) := by
  unfold eraseTable ownRows
  cases hfilter : subjectFilter table userId sessionIds with
  | none =>
      have hnone : ∀ row : Row, (row.table == table && row.belongs userId sessionIds) = false := by
        intro row
        cases heq : row.table == table with
        | false => rfl
        | true => rw [Row.belongs_eq (beq_iff_eq.mp heq), hfilter]; rfl
      simp only [hnone, Bool.not_false, List.filter_true, List.filter_false, List.length_nil]
  | some condition =>
      have hsome : ∀ row : Row, row.table = table →
          row.belongs userId sessionIds = condition row := by
        intro row heq
        rw [Row.belongs_eq heq, hfilter]
      dsimp only [deleteRows]
      rw [if_neg htable, filter_table_congr hsome]
      congr 2
      apply List.filter_congr
      intro row _
      cases heq : row.table == table with
      | false => rfl
      | true => rw [hsome row (beq_iff_eq.mp heq)]

/-- The first loop, over any tables but that of the sessions. -/
theorem Store.foldl_eraseTable {tables : List RegistryTable} {erasing : Store × List (String × Nat)}
    (hsessions : .learningSessions ∉ tables) (hnodup : tables.Nodup) :
    tables.foldl (eraseTable userId sessionIds) erasing
      = ({ erasing.1 with
          rows := erasing.1.rows.filter fun row =>
            !(tables.contains row.table && row.belongs userId sessionIds) },
        erasing.2
          ++ tables.map fun table =>
            (table.name, (ownRows userId sessionIds erasing.1.rows table).length)) := by
  induction tables generalizing erasing with
  | nil => simp
  | cons table tables ih =>
      obtain ⟨hhead, hrest⟩ := List.nodup_cons.mp hnodup
      obtain ⟨hne, hnot⟩ := not_or.mp (mt List.mem_cons.mpr hsessions)
      rw [List.foldl_cons, eraseTable_eq (Ne.symm hne), ih hnot hrest]
      have hlater : ∀ later ∈ tables,
          ownRows userId sessionIds
              (erasing.1.rows.filter fun row =>
                !(row.table == table && row.belongs userId sessionIds)) later
            = ownRows userId sessionIds erasing.1.rows later := by
        intro later hmem
        unfold ownRows
        rw [List.filter_filter]
        apply List.filter_congr
        intro row _
        by_cases heq : row.table = later
        · have hother : row.table ≠ table := fun hsame => hhead (hsame ▸ heq ▸ hmem)
          simp [hother]
        · simp [heq]
      rw [List.map_cons, List.append_assoc, List.singleton_append]
      congr 2
      · dsimp only
        rw [List.filter_filter]
        congr 1
        apply List.filter_congr
        intro row _
        rw [List.contains_cons]
        cases row.table == table <;> cases tables.contains row.table
          <;> cases row.belongs userId sessionIds <;> rfl
      · congr 1
        apply List.map_congr_left
        intro later hmem
        rw [hlater later hmem]

/-! ### All tables -/

theorem Row.releaseSessions_nil (row : Row) : row.releaseSessions [] = some row := by
  unfold releaseSessions
  cases row.sessionId <;> rfl

theorem Row.userId_releaseSessions (h : row.releaseSessions sessionIds = some row') :
    row'.userId = row.userId := by
  unfold releaseSessions at h
  split at h
  · split at h
    · cases h
    · cases h
      rfl
    · cases h
      rfl
  · cases h
    rfl

theorem RegistryTable.keys_of_not_hasUserId (h : table.hasUserId = false) :
    table.userKey = none ∧ (table.hasSessionId = true → table.sessionKey = some .cascade) := by
  revert h
  cases table <;> decide

/-- Rows that are found by their sessions go with them as they are. -/
theorem Row.eq_of_releaseSessions (huser : row.table.hasUserId = false)
    (hsession : row.table.hasSessionId = true)
    (h : row.releaseSessions sessionIds = some row') : row' = row := by
  unfold releaseSessions at h
  rw [(RegistryTable.keys_of_not_hasUserId huser).2 hsession] at h
  split at h
  · cases h
  · exact (Option.some.inj h).symm

/-- A row is still of its subject where sessions are gone. -/
theorem Row.belongs_releaseSessions {sessionIds' : List SessionId}
    (h : row.releaseSessions sessionIds' = some row') :
    row'.belongs userId sessionIds = row.belongs userId sessionIds := by
  unfold belongs
  rw [table_releaseSessions h, userId_releaseSessions h]
  cases huser : row.table.hasUserId with
  | true => rw [if_pos rfl, if_pos rfl]
  | false =>
      cases hsession : row.table.hasSessionId with
      | false => rfl
      | true => rw [eq_of_releaseSessions huser hsession h]

/-- The deletion of the user finds nothing more to do. -/
theorem Row.releaseUser_of_not_belongs (h : row.belongs userId sessionIds = false) :
    row.releaseUser userId = some row := by
  unfold releaseUser
  cases htable : row.table.hasUserId with
  | true =>
      unfold belongs at h
      rw [htable, if_pos rfl, beq_eq_false_iff_ne] at h
      rw [if_neg h]
  | false =>
      rw [(RegistryTable.keys_of_not_hasUserId htable).1]
      split <;> rfl

namespace Store

def undeferred : List RegistryTable := RegistryTable.adminTables.filter (· ∉ RegistryTable.deferred)

theorem mem_undeferred (table : RegistryTable) :
    undeferred.contains table = (table != .learningSessions && table != .studyParticipants) := by
  cases table <;> decide

theorem ownRows_filter {rows : List Row} {p : Row → Bool}
    (h : ∀ row, row.table = table → p row = true) :
    ownRows userId sessionIds (rows.filter p) table = ownRows userId sessionIds rows table := by
  unfold ownRows
  rw [List.filter_filter]
  apply List.filter_congr
  intro row _
  by_cases heq : row.table = table
  · rw [h row heq, Bool.and_true]
  · rw [beq_false_of_ne heq, Bool.false_and, Bool.false_and]

/-- The ids of the sessions that are deleted are those that were listed. -/
theorem ownId_ownRows (s : Store) (userId : UserId) (sessionIds : List SessionId) :
    (ownRows userId sessionIds s.rows .learningSessions).filterMap Row.ownId
      = s.sessionIds userId := by
  unfold Store.sessionIds ownRows
  congr 1
  exact filter_table_congr fun row htable => Row.belongs_session htable

theorem eraseTable_sessions {erasing : Store × List (String × Nat)} :
    eraseTable userId sessionIds erasing .learningSessions
      = ({ erasing.1 with
          rows := (erasing.1.rows.filter fun row =>
              !(row.table == .learningSessions && row.belongs userId sessionIds)).filterMap
            (Row.releaseSessions
              ((ownRows userId sessionIds erasing.1.rows .learningSessions).filterMap Row.ownId)) },
        erasing.2
          ++ [(RegistryTable.learningSessions.name,
            (ownRows userId sessionIds erasing.1.rows .learningSessions).length)]) := by
  unfold ownRows
  rw [filter_table_congr fun row htable => Row.belongs_session htable]
  have hfilter : subjectFilter .learningSessions userId sessionIds = some fun row =>
      row.userId == some userId := rfl
  unfold eraseTable
  rw [hfilter]
  dsimp only [deleteRows]
  rw [if_pos rfl]
  congr 3
  apply List.filter_congr
  intro row _
  cases heq : row.table == .learningSessions with
  | false => rfl
  | true => rw [Row.belongs_session (beq_iff_eq.mp heq)]

/-- The sessions are no matter to the row of a participant. -/
theorem releaseSessions_participant (h : row.table = .studyParticipants) :
    row.releaseSessions sessionIds = some row := by
  unfold Row.releaseSessions
  rw [h]
  split <;> rfl

theorem ownRows_releaseSessions {rows : List Row} {sessionIds' : List SessionId} :
    ownRows userId sessionIds (rows.filterMap (Row.releaseSessions sessionIds')) .studyParticipants
      = ownRows userId sessionIds rows .studyParticipants := by
  unfold ownRows
  rw [List.filter_filterMap, ← List.filterMap_eq_filter]
  apply List.filterMap_congr
  intro row _
  by_cases htable : row.table = .studyParticipants
  · rw [releaseSessions_participant htable, Option.filter_some, Option.guard]
  · have hother : (row.table == .studyParticipants && row.belongs userId sessionIds) = false := by
      rw [beq_false_of_ne htable, Bool.false_and]
    rw [Option.guard, hother]
    cases hrow : row.releaseSessions sessionIds' with
    | none => rfl
    | some row' =>
        rw [Option.filter_some, Row.table_releaseSessions hrow, beq_false_of_ne htable,
          Bool.false_and]
        rfl

/-- What the turns of the loops, one after the other, make of a row. -/
theorem erased_eq (row : Row) :
    (if !(row.table == .learningSessions && row.belongs userId sessionIds)
        && !(undeferred.contains row.table && row.belongs userId sessionIds)
          then row.releaseSessions sessionIds
      else none).filter
        (fun row => !(row.table == .studyParticipants && row.belongs userId sessionIds))
      = row.erased userId sessionIds := by
  unfold Row.erased
  cases hbelongs : row.belongs userId sessionIds with
  | false =>
      simp only [Bool.and_false, Bool.not_false, Bool.and_self, if_true,
        Bool.false_eq_true, if_false]
      cases hrow : row.releaseSessions sessionIds with
      | none => rfl
      | some row' =>
          rw [Option.filter_some, if_pos]
          cases htable : row'.table == .studyParticipants with
          | false => rfl
          | true =>
              rw [Row.belongs_releaseSessions hrow, hbelongs]
              rfl
  | true =>
      rw [mem_undeferred, if_pos rfl]
      by_cases hsessions : row.table = .learningSessions
      · rw [hsessions]
        rfl
      · by_cases hparticipants : row.table = .studyParticipants
        · rw [releaseSessions_participant hparticipants, hparticipants]
          simp [hbelongs, hparticipants]
        · simp [hsessions, hparticipants]

/-- The rows and the counts after the two loops. -/
theorem eraseLoops (s : Store) (userId : UserId) :
    RegistryTable.deferred.foldl (eraseTable userId (s.sessionIds userId))
        (undeferred.foldl (eraseTable userId (s.sessionIds userId)) (s, []))
      = ({ s with rows := s.rows.filterMap (Row.erased userId (s.sessionIds userId)) },
        (undeferred ++ RegistryTable.deferred).map fun table =>
          (table.name, (s.exported userId table).length)) := by
  have hfirst : undeferred.foldl (eraseTable userId (s.sessionIds userId)) (s, [])
      = ({ s with
          rows := s.rows.filter fun row =>
            !(undeferred.contains row.table && row.belongs userId (s.sessionIds userId)) },
        undeferred.map fun table => (table.name, (s.exported userId table).length)) := by
    rw [foldl_eraseTable (by decide) (by decide)]
    simp only [exported_eq]
    rfl
  rw [hfirst]
  unfold RegistryTable.deferred
  rw [List.foldl_cons, List.foldl_cons, List.foldl_nil, eraseTable_sessions,
    eraseTable_eq (by decide)]
  dsimp only
  have hsessions : ownRows userId (s.sessionIds userId)
      (s.rows.filter fun row =>
        !(undeferred.contains row.table && row.belongs userId (s.sessionIds userId)))
      .learningSessions = ownRows userId (s.sessionIds userId) s.rows .learningSessions := by
    apply ownRows_filter
    intro row htable
    rw [mem_undeferred, htable]
    rfl
  have hparticipants : ownRows userId (s.sessionIds userId)
      (((s.rows.filter fun row =>
        !(undeferred.contains row.table && row.belongs userId (s.sessionIds userId))).filter
          fun row => !(row.table == .learningSessions
            && row.belongs userId (s.sessionIds userId))).filterMap
        (Row.releaseSessions (s.sessionIds userId))) .studyParticipants
      = ownRows userId (s.sessionIds userId) s.rows .studyParticipants := by
    rw [ownRows_releaseSessions, ownRows_filter, ownRows_filter]
    · intro row htable
      rw [mem_undeferred, htable]
      rfl
    · intro row htable
      rw [htable]
      rfl
  rw [hsessions, ownId_ownRows, hparticipants]
  congr 1
  · congr 1
    rw [List.filter_filter, List.filterMap_filter, List.filter_filterMap]
    apply List.filterMap_congr
    exact fun row _ => erased_eq row
  · simp only [exported_eq, List.map_append, List.map_cons, List.map_nil, List.append_assoc,
      List.singleton_append]

end Store

/-! ### What is left -/

theorem Row.of_erased (h : row.erased userId sessionIds = some row') :
    row.belongs userId sessionIds = false ∧ row.releaseSessions sessionIds = some row' := by
  unfold erased at h
  split at h
  · cases h
  · rename_i hbelongs
    exact ⟨eq_false_of_ne_true hbelongs, h⟩

theorem Row.belongs_nil (h : row.belongs userId [] = true) :
    row.belongs userId sessionIds = true := by
  unfold belongs at h ⊢
  cases huser : row.table.hasUserId with
  | true =>
      rw [huser] at h
      exact h
  | false =>
      rw [huser, if_neg Bool.false_ne_true, Bool.and_eq_true] at h
      obtain ⟨-, hany⟩ := h
      cases hid : row.sessionId <;> rw [hid] at hany <;> cases hany

/-- What is left of anybody's rows is what is left, of them. -/
theorem ownRows_erased {rows : List Row} {sessionIds' : List SessionId} :
    ownRows other sessionIds' (rows.filterMap (Row.erased userId sessionIds)) table
      = (ownRows other sessionIds' rows table).filterMap (Row.erased userId sessionIds) := by
  unfold ownRows
  rw [List.filter_filterMap, List.filterMap_filter]
  apply List.filterMap_congr
  intro row _
  cases herased : row.erased userId sessionIds with
  | none => split <;> rfl
  | some row' =>
      have hrow := (Row.of_erased herased).2
      rw [Option.filter_some, Row.table_releaseSessions hrow, Row.belongs_releaseSessions hrow]

theorem filterMap_erased_eq_nil {rows : List Row}
    (h : ∀ row ∈ rows, row.belongs userId sessionIds = true) :
    rows.filterMap (Row.erased userId sessionIds) = [] := by
  rw [List.filterMap_eq_nil_iff]
  intro row hrow
  exact if_pos (h row hrow)

namespace Store

variable {users : List UserId}

theorem sessionIds_erased_self :
    Store.sessionIds ⟨users, s.rows.filterMap (Row.erased userId sessionIds)⟩ userId = [] := by
  rw [← ownId_ownRows _ userId sessionIds, ownRows_erased, filterMap_erased_eq_nil]
  · rfl
  · intro row hrow
    exact (Bool.and_eq_true_iff.mp (List.mem_filter.mp hrow).2).2

/-- Another subject keeps the sessions. -/
theorem sessionIds_erased_of_ne (h : other ≠ userId) :
    Store.sessionIds ⟨users, s.rows.filterMap (Row.erased userId sessionIds)⟩ other
      = s.sessionIds other := by
  rw [← ownId_ownRows _ other [], ← ownId_ownRows s other [], ownRows_erased]
  congr 1
  calc (ownRows other [] s.rows .learningSessions).filterMap (Row.erased userId sessionIds)
      = (ownRows other [] s.rows .learningSessions).filterMap some := by
        apply List.filterMap_congr
        intro row hrow
        obtain ⟨htable, hother⟩ := Bool.and_eq_true_iff.mp (List.mem_filter.mp hrow).2
        have hsession : row.table = .learningSessions := beq_iff_eq.mp htable
        rw [Row.belongs_session hsession, beq_iff_eq] at hother
        unfold Row.erased
        rw [Row.belongs_session hsession, hother, if_neg]
        · exact Row.releaseSessions_session hsession
        · rw [beq_iff_eq, Option.some.injEq]
          exact h
    _ = ownRows other [] s.rows .learningSessions := List.filterMap_some

/-- The deletion of the user finds nothing to take but the account. -/
theorem deleteUser_eq (s : Store) (h : ∀ row ∈ s.rows, row.releaseUser userId = some row)
    (hsessions : s.sessionIds userId = []) :
    s.deleteUser userId = ({ s with users := s.users.filter (· != userId) }, if userId ∈ s.users
      then 1 else 0) := by
  unfold deleteUser
  have hrows : (s.rows.filterMap (Row.releaseUser userId)).filterMap
      (Row.releaseSessions (s.sessionIds userId))
      = s.rows := by
    rw [hsessions, List.filterMap_filterMap]
    calc s.rows.filterMap (fun row => (row.releaseUser userId).bind (Row.releaseSessions []))
        = s.rows.filterMap some := by
          apply List.filterMap_congr
          intro row hrow
          rw [h row hrow, Option.bind_some, Row.releaseSessions_nil]
      _ = s.rows := List.filterMap_some
  dsimp only
  rw [hrows]
  split
  · rfl
  · rename_i hnot
    have husers : s.users.filter (· != userId) = s.users := by
      apply List.filter_eq_self.mpr
      intro user huser
      exact bne_iff_ne.mpr fun heq => hnot (heq ▸ huser)
    rw [husers]

def after (s : Store) (userId : UserId) : Store :=
  (s.eraseSubject userId).1

/-- **One look at each row.** What the deletions leave, and what they count. -/
theorem eraseSubject_eq (s : Store) (userId : UserId) :
    s.eraseSubject userId
      = ({ users := s.users.filter (· != userId)
           rows := s.rows.filterMap (Row.erased userId (s.sessionIds userId)) },
        (undeferred ++ RegistryTable.deferred).map
          (fun table => (table.name, (s.exported userId table).length))
          ++ [("users", if userId ∈ s.users then 1 else 0)]) := by
  unfold eraseSubject
  dsimp only
  rw [if_pos rfl, show RegistryTable.adminTables.filter (· ∉ RegistryTable.deferred)
    = undeferred from rfl, eraseLoops, deleteUser_eq]
  · intro row hrow
    obtain ⟨row₀, -, herased⟩ := List.mem_filterMap.mp hrow
    obtain ⟨hbelongs, hreleased⟩ := Row.of_erased herased
    exact Row.releaseUser_of_not_belongs ((Row.belongs_releaseSessions hreleased).trans hbelongs)
  · exact sessionIds_erased_self

theorem after_eq (s : Store) (userId : UserId) :
    s.after userId
      = { users := s.users.filter (· != userId)
          rows := s.rows.filterMap (Row.erased userId (s.sessionIds userId)) } :=
  congrArg Prod.fst (eraseSubject_eq s userId)

theorem exported_after_self (s : Store) (userId : UserId) (table : RegistryTable) :
    (s.after userId).exported userId table = [] := by
  rw [exported_eq, after_eq, sessionIds_erased_self, ownRows_erased, filterMap_erased_eq_nil]
  intro row hrow
  exact Row.belongs_nil (Bool.and_eq_true_iff.mp (List.mem_filter.mp hrow).2).2

theorem exported_after_of_ne (h : other ≠ userId) :
    (s.after userId).exported other table
      = (s.exported other table).filterMap (Row.erased userId (s.sessionIds userId)) := by
  rw [exported_eq, exported_eq, after_eq, sessionIds_erased_of_ne h, ownRows_erased]

end Store

/-! ### Several subjects -/

theorem Row.releaseSessions_bind (row : Row) (sessionIds sessionIds' : List SessionId) :
    (row.releaseSessions sessionIds).bind (Row.releaseSessions sessionIds')
      = row.releaseSessions (sessionIds ++ sessionIds') := by
  cases hid : row.sessionId with
  | none => simp [releaseSessions, hid]
  | some sessionId =>
      cases hkey : row.table.sessionKey with
      | none =>
          have hall : ∀ ids, row.releaseSessions ids = some row := by
            intro ids
            unfold releaseSessions
            rw [hkey]
            split <;> rfl
          rw [hall, hall, Option.bind_some, hall]
      | some key =>
          by_cases hmem : sessionId ∈ sessionIds
          · cases key <;> simp [releaseSessions, hid, hkey, hmem]
          · have hkept : row.releaseSessions sessionIds = some row := by
              simp [releaseSessions, hid, hmem]
            rw [hkept, Option.bind_some]
            simp [releaseSessions, hid, hmem]

/-- Two erasures of a row are one, of both subjects. -/
theorem Row.erased_bind (row : Row) (userId other : UserId)
    (sessionIds sessionIds' : List SessionId) :
    (row.erased userId sessionIds).bind (Row.erased other sessionIds')
      = if row.belongs userId sessionIds || row.belongs other sessionIds' then none
        else row.releaseSessions (sessionIds ++ sessionIds') := by
  rw [← releaseSessions_bind]
  unfold erased
  cases row.belongs userId sessionIds with
  | true => rfl
  | false =>
      rw [if_neg Bool.false_ne_true, Bool.false_or]
      cases hrow : row.releaseSessions sessionIds with
      | none => split <;> rfl
      | some row' => rw [Option.bind_some, Option.bind_some, belongs_releaseSessions hrow]

theorem Row.releaseSessions_comm (row : Row) (sessionIds sessionIds' : List SessionId) :
    row.releaseSessions (sessionIds ++ sessionIds')
      = row.releaseSessions (sessionIds' ++ sessionIds) := by
  unfold releaseSessions
  simp only [List.mem_append, Or.comm]

namespace Store

theorem after_comm (s : Store) (userId other : UserId) :
    (s.after userId).after other = (s.after other).after userId := by
  by_cases h : userId = other
  · rw [h]
  · rw [after_eq (s.after userId), after_eq (s.after other), after_eq s userId, after_eq s other,
      sessionIds_erased_of_ne (Ne.symm h), sessionIds_erased_of_ne h, List.filterMap_filterMap,
      List.filterMap_filterMap, List.filter_filter, List.filter_filter]
    congr 1
    · exact List.filter_congr fun user _ => Bool.and_comm _ _
    · apply List.filterMap_congr
      intro row _
      rw [Row.erased_bind, Row.erased_bind, Bool.or_comm, Row.releaseSessions_comm]

theorem mem_collectSubjectData {shown : String × List Row} :
    shown ∈ s.collectSubjectData userId
      ↔ ∃ table, shown = (table.name, s.exported userId table) := by
  unfold collectSubjectData
  rw [List.mem_map]
  constructor
  · rintro ⟨table, -, rfl⟩
    exact ⟨table, rfl⟩
  · rintro ⟨table, rfl⟩
    exact ⟨table, by cases table <;> decide, rfl⟩

/-- **Erasure takes what the export shows.** Of the rows of the registry those that are shown of a
subject are those that erasure takes and counts, and of the others those go or lose a reference that
refer to a session of the subject. Nothing is shown of the subject then, and of another what was
shown before, but for that. The order of erasures makes no difference. The account goes too: it is
counted under `users`, and the database takes its provider accounts and login sessions along, none
of which the registry lists or the export shows. -/
theorem erasure_mirrors_export (s : Store) (userId : UserId) :
    (∀ row, (∃ shown ∈ s.collectSubjectData userId, row ∈ shown.2)
        ↔ row ∈ s.rows ∧ row.belongs userId (s.sessionIds userId))
      ∧ (s.eraseSubject userId).1
        = { users := s.users.filter (· != userId),
            rows := s.rows.filterMap (Row.erased userId (s.sessionIds userId)) }
      ∧ (s.eraseSubject userId).2.Perm
        ((s.collectSubjectData userId).map (fun shown => (shown.1, shown.2.length))
          ++ [("users", if userId ∈ s.users then 1 else 0)])
      ∧ (∀ shown ∈ (s.after userId).collectSubjectData userId, shown.2 = [])
      ∧ (∀ other, other ≠ userId → (s.after userId).collectSubjectData other
        = (s.collectSubjectData other).map fun shown =>
          (shown.1, shown.2.filterMap (Row.erased userId (s.sessionIds userId))))
      ∧ ∀ subjects subjects' : List UserId, subjects.Perm subjects' →
        subjects.foldl after s = subjects'.foldl after s := by
  refine ⟨fun row => ?_, after_eq s userId, ?_, ?_, fun other h =>
    ?_, fun subjects subjects' h => ?_⟩
  · constructor
    · rintro ⟨shown, hshown, hrow⟩
      obtain ⟨table, rfl⟩ := mem_collectSubjectData.mp hshown
      dsimp only at hrow
      rw [exported_eq] at hrow
      obtain ⟨hmem, hown⟩ := List.mem_filter.mp hrow
      exact ⟨hmem, (Bool.and_eq_true_iff.mp hown).2⟩
    · rintro ⟨hmem, hown⟩
      refine ⟨_, mem_collectSubjectData.mpr ⟨row.table, rfl⟩, ?_⟩
      dsimp only
      rw [exported_eq]
      exact List.mem_filter.mpr ⟨hmem, by rw [beq_self_eq_true, hown]; rfl⟩
  · rw [eraseSubject_eq]
    unfold collectSubjectData
    rw [List.map_map]
    have htables : (undeferred ++ RegistryTable.deferred).Perm RegistryTable.adminTables := by
      decide
    exact (htables.map _).append_right _
  · intro shown hshown
    obtain ⟨table, rfl⟩ := mem_collectSubjectData.mp hshown
    exact exported_after_self s userId table
  · unfold collectSubjectData
    rw [List.map_map]
    apply List.map_congr_left
    intro table _
    dsimp only [Function.comp_apply]
    rw [exported_after_of_ne h]
  · exact h.foldl_eq' (fun userId _ other _ s => after_comm s userId other) s

end Store

end OnlinetLabs.Users
