import Mathlib.Data.Prod.Lex
import Mathlib.Data.String.Basic
import OnlinetLabs.Lib.GroupBy
import OnlinetLabs.Lib.Paging
import OnlinetLabs.Sessions.Models

/-!
# The roster of the study

`get_participants` lists everybody who is enrolled, with the number of their sessions and what their
newest metrics row says. It asks three questions about everybody and puts the answers together; a
question about one participant alone would be answered the same.
-/

namespace OnlinetLabs.Experiment.Participants

open Sessions (UserId)
open GroupBy (Order answer ofPairs members lastOf)

variable {S ι : Type} [LinearOrder ι]

structure User where
  id : UserId
  email : String
  name : String
  controlArm : Option String
deriving Repr, DecidableEq

structure ExperimentMetrics (S : Type) where
  userId : UserId
  completed : Bool
  totalTimeSeconds : S
  createdAt : Nat

/-- Of a session only its user is read. -/
structure Database (S : Type) where
  users : List User
  sessions : List UserId
  metrics : List (ExperimentMetrics S)
  userIds : (users.map (·.id)).Nodup

def isEnrolled (user : User) : Bool := user.controlArm.isSome

/-- The join with `users`, where the user is enrolled. -/
def enrolled (db : Database S) (userId : UserId) : Bool :=
  db.users.any fun user => decide (user.id = userId) && isEnrolled user

/-- What a query leaves to the database. `ORDER BY user_id, created_at` compares ids by a
collation. -/
structure Engine (S : Type) (collation : UserId → ι) where
  users : List User → List User
  perm : ∀ users', (users users').Perm users'
  sessions : Order UserId UserId
  metrics : Paging.OrderBy fun row : ExperimentMetrics S =>
    toLex (collation row.userId, row.createdAt)

/-- Every query answered in the order of the tables. -/
def Engine.inserted (collation : UserId → ι) : Engine S collation where
  users users' := users'
  perm users' := List.Perm.refl users'
  sessions := .distinct
  metrics := .inserted _

structure ParticipantRow (S : Type) where
  userId : UserId
  email : String
  name : String
  controlArm : Option String
  sessionsCount : Nat
  completed : Bool
  totalTimeSeconds : Option S

def getParticipants {collation : UserId → ι} (e : Engine S collation) (db : Database S) :
    List (ParticipantRow S) :=
  let users := e.users (db.users.filter isEnrolled)
  let counts := ofPairs (answer e.sessions id List.length (db.sessions.filter (enrolled db)))
  let latest := lastOf ExperimentMetrics.userId
    (e.metrics.arrange (db.metrics.filter fun row => enrolled db row.userId))
  users.map fun user =>
    { userId := user.id
      email := user.email
      name := user.name
      controlArm := user.controlArm
      sessionsCount := (counts.get? user.id).getD 0
      completed := ((latest.get? user.id).map (·.completed)).getD false
      totalTimeSeconds := (latest.get? user.id).map (·.totalTimeSeconds) }

def IsLatest (metrics : List (ExperimentMetrics S)) (userId : UserId) :
    Option (ExperimentMetrics S) → Prop
  | none => ∀ row ∈ metrics, row.userId ≠ userId
  | some row => row ∈ metrics ∧ row.userId = userId ∧ ∀ other ∈ metrics, other.userId = userId →
      other.createdAt ≤ row.createdAt

variable {db : Database S} {userId : UserId} {collation : UserId → ι}

theorem enrolled_of_mem {user : User} (h : user ∈ db.users) (henrolled : isEnrolled user = true) :
    enrolled db user.id = true :=
  List.any_eq_true.mpr ⟨user, h, by simp [henrolled]⟩

theorem members_enrolled {α : Type} {key : α → UserId} (h : enrolled db userId = true)
    (rows : List α) :
    members key (rows.filter fun row => enrolled db (key row)) userId
      = members key rows userId := by
  rw [GroupBy.members_filter, List.filter_eq_self]
  intro row hrow
  rw [(GroupBy.mem_members.mp hrow).2]
  exact h

variable (orderBy : Paging.OrderBy fun row : ExperimentMetrics S =>
  toLex (collation row.userId, row.createdAt))

/-- The rows of a user are sorted by their times. -/
theorem pairwise_members (userId : UserId) (rows : List (ExperimentMetrics S)) :
    (members ExperimentMetrics.userId (orderBy.arrange rows) userId).Pairwise fun a b =>
      a.createdAt ≤ b.createdAt := by
  refine List.Pairwise.imp_of_mem ?_ ((orderBy.listing rows).sorted.sublist List.filter_sublist)
  intro a b ha hb hle
  have hsame : collation a.userId = collation b.userId := by
    rw [(GroupBy.mem_members.mp ha).2, (GroupBy.mem_members.mp hb).2]
  rcases Prod.Lex.toLex_le_toLex.mp hle with hlt | ⟨-, hcreated⟩
  · exact absurd hlt (by rw [hsame]; exact lt_irrefl _)
  · exact hcreated

theorem isLatest_lastOf (h : enrolled db userId = true) :
    IsLatest db.metrics userId ((lastOf ExperimentMetrics.userId
      (orderBy.arrange (db.metrics.filter fun row => enrolled db row.userId))).get? userId) := by
  have hsorted :=
    pairwise_members orderBy userId (db.metrics.filter fun row => enrolled db row.userId)
  have hperm : (members ExperimentMetrics.userId
      (orderBy.arrange (db.metrics.filter fun row => enrolled db row.userId)) userId).Perm
      (members ExperimentMetrics.userId db.metrics userId) := by
    rw [← members_enrolled h db.metrics]
    exact GroupBy.members_perm (orderBy.listing _).perm
  rw [GroupBy.get?_lastOf]
  generalize members ExperimentMetrics.userId (orderBy.arrange _) userId = own at hsorted hperm
  have hmem : ∀ row, row ∈ own ↔ row ∈ db.metrics ∧ row.userId = userId := fun row =>
    hperm.mem_iff.trans GroupBy.mem_members
  cases hlast : own.getLast? with
  | none =>
      rw [List.getLast?_eq_none_iff] at hlast
      subst hlast
      intro row hrow howner
      exact absurd ((hmem row).mpr ⟨hrow, howner⟩) List.not_mem_nil
  | some row =>
      obtain ⟨earlier, rfl⟩ := List.getLast?_eq_some_iff.mp hlast
      obtain ⟨hrow, howner⟩ := (hmem row).mp (by simp)
      refine ⟨hrow, howner, fun other hother hsame => ?_⟩
      rcases List.mem_append.mp ((hmem other).mpr ⟨hother, hsame⟩) with hbefore | hself
      · exact (List.pairwise_append.mp hsorted).2.2 other hbefore row List.mem_cons_self
      · rw [List.mem_singleton.mp hself]

/-- **The roster.** Everybody who is enrolled has one row, with all their sessions counted and what
their newest metrics row says, or the defaults if they have none. -/
theorem roster_current (e : Engine S collation) (db : Database S) :
    ((getParticipants e db).map (·.userId)).Perm ((db.users.filter isEnrolled).map (·.id))
      ∧ ((getParticipants e db).map (·.userId)).Nodup
      ∧ ∀ row ∈ getParticipants e db,
          row.sessionsCount = db.sessions.countP (fun userId => decide (userId = row.userId))
          ∧ ∃ latest, IsLatest db.metrics row.userId latest
            ∧ row.completed = (latest.map (·.completed)).getD false
            ∧ row.totalTimeSeconds = latest.map (·.totalTimeSeconds) := by
  have hperm :
      ((getParticipants e db).map (·.userId)).Perm ((db.users.filter isEnrolled).map (·.id)) := by
    unfold getParticipants
    rw [List.map_map]
    exact (e.perm _).map _
  refine ⟨hperm, hperm.nodup_iff.mpr (db.userIds.sublist (List.filter_sublist.map _)),
    fun row hrow => ?_⟩
  obtain ⟨user, huser, rfl⟩ := List.mem_map.mp hrow
  obtain ⟨hstored, henrolled⟩ := List.mem_filter.mp ((e.perm _).mem_iff.mp huser)
  have hjoined := enrolled_of_mem hstored henrolled
  refine ⟨?_, _, isLatest_lastOf e.metrics hjoined, rfl, rfl⟩
  have hown : members id (db.sessions.filter (enrolled db)) user.id
      = members id db.sessions user.id :=
    members_enrolled hjoined db.sessions
  have hcount :
      ((ofPairs (answer e.sessions id List.length (db.sessions.filter (enrolled db)))).get?
        user.id).getD 0
      = (members id (db.sessions.filter (enrolled db)) user.id).length :=
        GroupBy.getD_answer e.sessions List.length
  rw [hown, members, ← List.countP_eq_length_filter] at hcount
  exact hcount

/-- Ann was measured twice, bob never, and eve is not enrolled. -/
def twoEnrolled : Database Nat where
  users := [⟨"bob", "bob@lab", "Bob", some "off"⟩, ⟨"eve", "eve@lab", "Eve", none⟩,
    ⟨"ann", "ann@lab", "Ann", some "on"⟩]
  sessions := ["ann", "eve", "ann"]
  metrics := [⟨"ann", true, 120, 9⟩, ⟨"eve", true, 60, 11⟩, ⟨"ann", false, 300, 4⟩]
  userIds := by decide

def listed : Engine Nat (fun userId : UserId => userId) := .inserted _

theorem roster_current_twoEnrolled :
    (getParticipants listed twoEnrolled).map
      (fun row => (row.userId, row.sessionsCount, row.totalTimeSeconds))
        = [("bob", 0, none), ("ann", 2, some 120)]
      ∧ ∀ row ∈ getParticipants listed twoEnrolled,
          row.sessionsCount
            = twoEnrolled.sessions.countP (fun userId => decide (userId = row.userId))
          ∧ ∃ latest, IsLatest twoEnrolled.metrics row.userId latest
            ∧ row.completed = (latest.map (·.completed)).getD false
            ∧ row.totalTimeSeconds = latest.map (·.totalTimeSeconds) :=
  ⟨by decide +kernel, (roster_current listed twoEnrolled).2.2⟩

end OnlinetLabs.Experiment.Participants
