import OnlinetLabs.Gns3.Models
import OnlinetLabs.Lib.Runs

/-!
# What a failed launch leaves behind

`create_session` makes an account behind the gate while a task of its own duplicates the project. It
knows what it has to clean up only once both are there: the ids are assigned after the task was
awaited, and from the commit of the row on, cleaning up takes the account and the project from under
it.

A call of the GNS3 client may try more than once, so a call that raises may have made something, and
one that returns may have made more than what it returns.
-/

namespace OnlinetLabs.Gns3

/-- The calls between the project and the row, in their order. -/
inductive Provision where
  | openProject
  | userRole
  | auditorRole
  | enterGate
  | projectAcl
  | listAcl
  | leaveGate
  | userToken
deriving Repr, DecidableEq

def Provision.next : Provision → Option Provision
  | .openProject => some .userRole
  | .userRole => some .auditorRole
  | .auditorRole => some .enterGate
  | .enterGate => some .projectAcl
  | .projectAcl => some .listAcl
  | .listAcl => some .leaveGate
  | .leaveGate => some .userToken
  | .userToken => none

inductive Failure where
  | enterGate
  | findUser
  | createUser
  | leaveGate
  | projectTask
  | provision (p : Provision) (user : AccountId) (project : ProjectId)
  /-- The commit raised, and the row is there or not. -/
  | commit (took : Bool) (user : AccountId) (project : ProjectId)
  | refresh (user : AccountId) (project : ProjectId)
deriving Repr, DecidableEq

/-- `created_user_id` and `created_project_id` when the exception is caught. -/
def Failure.created : Failure → Option (AccountId × ProjectId)
  | .enterGate | .findUser | .createUser | .leaveGate | .projectTask => none
  | .provision _ user project | .commit _ user project | .refresh user project =>
      some (user, project)

inductive CreatePc where
  | enteringGate
  | finding
  | deletingOrphan
  | creatingUser
  | leavingGate (user : AccountId)
  | awaitingProject (user : AccountId)
  | providing (p : Provision) (user : AccountId) (project : ProjectId)
  | committing (user : AccountId) (project : ProjectId)
  | refreshing (user : AccountId) (project : ProjectId)
  | startingProxy (user : AccountId) (project : ProjectId)
  | returned (user : AccountId) (project : ProjectId)
  /-- `_rollback_created_resources`. -/
  | deletingProject (failure : Failure) (user : AccountId) (project : ProjectId)
  | deletingUser (failure : Failure) (user : AccountId)
  | raised (failure : Failure)
deriving Repr, DecidableEq

inductive ProjectTask where
  | running
  | ended (project : Option ProjectId)
deriving Repr, DecidableEq

/-- One call, with its task, and what it made. -/
structure Creation where
  pc : CreatePc := .enteringGate
  task : ProjectTask := .running
  /-- The accounts and projects made by the call that exist. -/
  users : List AccountId := []
  projects : List ProjectId := []
  /-- The row of the call. It is committed as an active one. -/
  row : Option SessionStatus := none
  madeUsers : List AccountId := []
  madeProjects : List ProjectId := []
  cleanUpFailed : Bool := false
deriving Repr, DecidableEq

inductive CreateStep where
  /-- What is awaited returns, or raises. -/
  | call (ok : Bool)
  /-- `find_user_by_name` returns. -/
  | found (orphan : Option AccountId)
  | createUser (made : List AccountId) (user : Option AccountId)
  | commit (ok took : Bool)
  /-- The step of the project task. -/
  | duplicate (made : List ProjectId) (project : Option ProjectId)
deriving Repr, DecidableEq

namespace Creation

variable (c : Creation)

/-- The exception is caught, and what is known is cleaned up. -/
def fail (failure : Failure) : Creation :=
  { c with pc := match failure.created with
      | none => .raised failure
      | some (user, project) => .deletingProject failure user project }

def main : CreateStep → Option Creation
  | .call ok =>
      match c.pc with
      | .enteringGate => if ok then some { c with pc := .finding } else some (c.fail .enterGate)
      | .finding => if ok then none else some (c.fail .findUser)
      -- An orphan that cannot be deleted is logged.
      | .deletingOrphan => some { c with pc := .creatingUser }
      | .leavingGate user =>
          if ok then some { c with pc := .awaitingProject user } else some (c.fail .leaveGate)
      | .awaitingProject user =>
          match c.task with
          | .running => none
          | .ended none => if ok then none else some (c.fail .projectTask)
          | .ended (some project) =>
              if ok then some { c with pc := .providing .openProject user project } else none
      | .providing p user project =>
          if ok then
            match p.next with
            | some p => some { c with pc := .providing p user project }
            | none => some { c with pc := .committing user project }
          else some (c.fail (.provision p user project))
      | .refreshing user project =>
          if ok then some { c with pc := .startingProxy user project }
          else some (c.fail (.refresh user project))
      -- A forwarder that does not start is logged.
      | .startingProxy user project => some { c with pc := .returned user project }
      | .deletingProject failure user project =>
          if ok then some { c with
            pc := .deletingUser failure user, projects := c.projects.filter (· ≠ project) }
          else some { c with pc := .deletingUser failure user, cleanUpFailed := true }
      | .deletingUser failure user =>
          if ok then some { c with pc := .raised failure, users := c.users.filter (· ≠ user) }
          else some { c with pc := .raised failure, cleanUpFailed := true }
      | .creatingUser | .committing .. | .returned .. | .raised _ => none
  | .found orphan =>
      match c.pc with
      | .finding => some { c with pc := if orphan.isSome then .deletingOrphan else .creatingUser }
      | _ => none
  | .createUser made user =>
      match c.pc with
      | .creatingUser =>
          let c := { c with users := c.users ++ made, madeUsers := c.madeUsers ++ made }
          match user with
          | none => some (c.fail .createUser)
          | some user => if user ∈ made then some { c with pc := .leavingGate user } else none
      | _ => none
  | .commit ok took =>
      match c.pc with
      | .committing user project =>
          if ok then
            if took then some { c with pc := .refreshing user project, row := some .active }
            else none
          else
            some (fail { c with row := if took then some .active else none }
              (.commit took user project))
      | _ => none
  | .duplicate .. => none

def step : CreateStep → Option Creation
  | .duplicate made project =>
      match c.task with
      | .running =>
          if ∀ p ∈ project, p ∈ made then
            some { c with
              task := .ended project
              projects := c.projects ++ made
              madeProjects := c.madeProjects ++ made }
          else none
      | .ended _ => none
  | a => c.main a

/-! ### The law -/

/-- No account, no project and no active row of the call is left. -/
structure NothingLeft : Prop where
  users : c.users = []
  projects : c.projects = []
  row : c.row ≠ some .active

end Creation

/-- Nothing was made when the exception came, or nothing but what the call knew of, and the row was
not committed. -/
def Failure.Recoverable (madeUsers : List AccountId) (madeProjects : List ProjectId) :
    Failure → Prop
  | .enterGate | .findUser | .createUser => madeUsers = [] ∧ madeProjects = []
  | .leaveGate | .projectTask | .commit true .. | .refresh .. => False
  | .provision _ user project | .commit false user project =>
      (∀ u ∈ madeUsers, u = user) ∧ ∀ p ∈ madeProjects, p = project

/-! ### What a call has made -/

def Failure.row : Failure → Option SessionStatus
  | .commit true .. | .refresh .. => some .active
  | _ => none

namespace Creation

variable {c c' : Creation} {a : CreateStep} {failure : Failure} {user : AccountId}
  {project : ProjectId}

/-- The call knows the account and the project it has made. -/
structure Knows (c : Creation) (user : AccountId) (project : ProjectId) : Prop where
  users : c.users = c.madeUsers
  user : user ∈ c.madeUsers
  projects : c.projects = c.madeProjects
  project : project ∈ c.madeProjects
  ended : c.task ≠ .running

/-- What is left once the exception is with the caller. -/
def Leaves (c : Creation) (failure : Failure) : Prop :=
  match failure.created with
  | none => c.users = c.madeUsers ∧ c.projects = c.madeProjects
      ∧ (failure = .leaveGate ∨ failure = .projectTask → c.madeUsers ≠ [])
  | some (user, project) => user ∈ c.madeUsers ∧ project ∈ c.madeProjects ∧ c.task ≠ .running
      ∧ (c.cleanUpFailed = false →
        c.users = c.madeUsers.filter (· ≠ user) ∧ c.projects = c.madeProjects.filter (· ≠ project))

def At (c : Creation) : CreatePc → Prop
  | .enteringGate | .finding | .deletingOrphan | .creatingUser =>
      c.users = [] ∧ c.madeUsers = [] ∧ c.projects = c.madeProjects ∧ c.row = none
  | .leavingGate user | .awaitingProject user =>
      c.users = c.madeUsers ∧ user ∈ c.madeUsers ∧ c.projects = c.madeProjects ∧ c.row = none
  | .providing _ user project | .committing user project => c.Knows user project ∧ c.row = none
  | .refreshing user project => c.Knows user project ∧ c.row = some .active
  | .startingProxy .. | .returned .. => True
  | .deletingProject failure user project =>
      c.Knows user project ∧ failure.created = some (user, project) ∧ c.row = failure.row
  | .deletingUser failure user =>
      ∃ project, failure.created = some (user, project) ∧ c.row = failure.row
      ∧ user ∈ c.madeUsers ∧ project ∈ c.madeProjects ∧ c.task ≠ .running ∧ c.users = c.madeUsers
      ∧ (c.cleanUpFailed = false → c.projects = c.madeProjects.filter (· ≠ project))
  | .raised failure => c.Leaves failure ∧ c.row = failure.row

structure Sound (c : Creation) : Prop where
  task : ∀ project, c.task = .ended (some project) → project ∈ c.madeProjects
  pc : c.At c.pc

theorem Knows.fail (h : c.Knows user project) (hcreated : failure.created = some (user, project))
    (hrow : c.row = failure.row) : (c.fail failure).At (c.fail failure).pc := by
  simp only [Creation.fail, hcreated]
  exact ⟨⟨h.users, h.user, h.projects, h.project, h.ended⟩, hcreated, hrow⟩

/-- An exception before both are known is raised at once. -/
theorem at_fail_of_unknown (hcreated : failure.created = none) (husers : c.users = c.madeUsers)
    (hprojects : c.projects = c.madeProjects) (hrow : c.row = none)
    (hmade : failure = .leaveGate ∨ failure = .projectTask → c.madeUsers ≠ []) :
    (c.fail failure).At (c.fail failure).pc := by
  have hnone : failure.row = none := by
    cases failure <;> first | rfl | cases hcreated
  simp only [Creation.fail, hcreated, At, Leaves]
  exact ⟨⟨husers, hprojects, hmade⟩, hrow.trans hnone.symm⟩

theorem Sound.call {ok : Bool} (h : c.Sound) (hmain : c.main (.call ok) = some c') : c'.Sound := by
  obtain ⟨htask, hpc⟩ := h
  simp only [Creation.main] at hmain
  cases hat : c.pc with
  | enteringGate =>
      rw [hat] at hpc
      simp only [hat] at hmain
      obtain ⟨husers, hmade, hprojects, hrow⟩ := hpc
      cases ok with
      | true =>
          cases hmain
          exact ⟨htask, husers, hmade, hprojects, hrow⟩
      | false =>
          cases hmain
          exact ⟨htask, at_fail_of_unknown rfl (husers.trans hmade.symm) hprojects hrow (by simp)⟩
  | finding =>
      rw [hat] at hpc
      simp only [hat] at hmain
      obtain ⟨husers, hmade, hprojects, hrow⟩ := hpc
      cases ok with
      | true => cases hmain
      | false =>
          cases hmain
          exact ⟨htask, at_fail_of_unknown rfl (husers.trans hmade.symm) hprojects hrow (by simp)⟩
  | deletingOrphan =>
      rw [hat] at hpc
      simp only [hat] at hmain
      cases hmain
      exact ⟨htask, hpc⟩
  | leavingGate user =>
      rw [hat] at hpc
      simp only [hat] at hmain
      obtain ⟨husers, huser, hprojects, hrow⟩ := hpc
      cases ok with
      | true =>
          cases hmain
          exact ⟨htask, husers, huser, hprojects, hrow⟩
      | false =>
          cases hmain
          exact ⟨htask, at_fail_of_unknown rfl husers hprojects hrow fun _ =>
            List.ne_nil_of_mem huser⟩
  | awaitingProject user =>
      rw [hat] at hpc
      simp only [hat] at hmain
      obtain ⟨husers, huser, hprojects, hrow⟩ := hpc
      cases hended : c.task with
      | running => simp [hended] at hmain
      | ended made =>
          simp only [hended] at hmain
          cases made with
          | none =>
              cases ok with
              | true => cases hmain
              | false =>
                  cases hmain
                  exact ⟨htask, at_fail_of_unknown rfl husers hprojects hrow fun _ =>
                    List.ne_nil_of_mem huser⟩
          | some project =>
              cases ok with
              | true =>
                  cases hmain
                  exact ⟨fun p hp => htask p (hended.trans hp),
                    ⟨husers, huser, hprojects, htask project hended, nofun⟩, hrow⟩
              | false => cases hmain
  | providing p user project =>
      rw [hat] at hpc
      simp only [hat] at hmain
      obtain ⟨hknows, hrow⟩ := hpc
      cases ok with
      | true =>
          simp only [if_true] at hmain
          split at hmain
          · cases hmain
            exact ⟨htask,
              ⟨hknows.users, hknows.user, hknows.projects, hknows.project, hknows.ended⟩, hrow⟩
          · cases hmain
            exact ⟨htask,
              ⟨hknows.users, hknows.user, hknows.projects, hknows.project, hknows.ended⟩, hrow⟩
      | false =>
          cases hmain
          exact ⟨htask, hknows.fail rfl hrow⟩
  | refreshing user project =>
      rw [hat] at hpc
      simp only [hat] at hmain
      obtain ⟨hknows, hrow⟩ := hpc
      cases ok with
      | true =>
          cases hmain
          exact ⟨htask, trivial⟩
      | false =>
          cases hmain
          exact ⟨htask, hknows.fail rfl hrow⟩
  | startingProxy user project =>
      rw [hat] at hpc
      simp only [hat] at hmain
      cases hmain
      exact ⟨htask, trivial⟩
  | deletingProject failure user project =>
      rw [hat] at hpc
      simp only [hat] at hmain
      obtain ⟨hknows, hcreated, hrow⟩ := hpc
      cases ok with
      | true =>
          cases hmain
          refine ⟨htask, project, hcreated, hrow, hknows.user, hknows.project, hknows.ended,
            hknows.users, fun _ => ?_⟩
          rw [hknows.projects]
      | false =>
          cases hmain
          refine ⟨htask, project, hcreated, hrow, hknows.user, hknows.project, hknows.ended,
            hknows.users, ?_⟩
          rintro ⟨⟩
  | deletingUser failure user =>
      rw [hat] at hpc
      simp only [hat] at hmain
      obtain ⟨project, hcreated, hrow, huser, hproject, hended, husers, hprojects⟩ := hpc
      cases ok with
      | true =>
          cases hmain
          refine ⟨htask, ?_, hrow⟩
          simp only [Leaves, hcreated]
          exact ⟨huser, hproject, hended, fun hclean => ⟨by rw [husers], hprojects hclean⟩⟩
      | false =>
          cases hmain
          refine ⟨htask, ?_, hrow⟩
          simp only [Leaves, hcreated]
          refine ⟨huser, hproject, hended, ?_⟩
          rintro ⟨⟩
  | creatingUser | committing | returned | raised => simp [hat] at hmain

theorem Sound.main (h : c.Sound) (hmain : c.main a = some c') : c'.Sound := by
  cases a with
  | call ok => exact h.call hmain
  | found orphan =>
      obtain ⟨htask, hpc⟩ := h
      simp only [Creation.main] at hmain
      split at hmain
      · rename_i hat
        rw [hat] at hpc
        cases hmain
        cases orphan with
        | none => exact ⟨htask, hpc⟩
        | some orphan => exact ⟨htask, hpc⟩
      · cases hmain
  | createUser made user =>
      obtain ⟨htask, hpc⟩ := h
      simp only [Creation.main] at hmain
      split at hmain
      · rename_i hat
        rw [hat] at hpc
        obtain ⟨husers, hmade, hprojects, hrow⟩ := hpc
        have hsame : c.users ++ made = c.madeUsers ++ made := by rw [husers, hmade]
        cases user with
        | none =>
            cases hmain
            exact ⟨htask, at_fail_of_unknown rfl hsame hprojects hrow (by simp)⟩
        | some user =>
            simp only at hmain
            split at hmain
            · rename_i huser
              cases hmain
              exact ⟨htask, hsame, List.mem_append_right _ huser, hprojects, hrow⟩
            · cases hmain
      · cases hmain
  | commit ok took =>
      obtain ⟨htask, hpc⟩ := h
      simp only [Creation.main] at hmain
      split at hmain
      · rename_i user project hat
        rw [hat] at hpc
        obtain ⟨hknows, hrow⟩ := hpc
        cases ok with
        | true =>
            cases took with
            | true =>
                cases hmain
                exact ⟨htask,
                  ⟨hknows.users, hknows.user, hknows.projects, hknows.project, hknows.ended⟩, rfl⟩
            | false => cases hmain
        | false =>
            cases hmain
            refine ⟨htask,
              Knows.fail (c := { c with row := if took then some .active else none }) ?_ rfl ?_⟩
            · exact ⟨hknows.users, hknows.user, hknows.projects, hknows.project, hknows.ended⟩
            · cases took <;> rfl
      · cases hmain
  | duplicate made project => cases hmain

/-- The project task ends while the call does something else. -/
theorem Sound.duplicate {made : List ProjectId} {project : Option ProjectId} (h : c.Sound)
    (hrunning : c.task = .running) (hmade : ∀ p ∈ project, p ∈ made) :
    Sound { c with
      task := .ended project
      projects := c.projects ++ made
      madeProjects := c.madeProjects ++ made } := by
  obtain ⟨htask, hpc⟩ := h
  refine ⟨?_, ?_⟩
  · rintro p ⟨⟩
    exact List.mem_append_right _ (hmade p rfl)
  · cases hat : c.pc with
    | enteringGate | finding | deletingOrphan | creatingUser =>
        rw [hat] at hpc
        obtain ⟨husers, hnone, hprojects, hrow⟩ := hpc
        exact ⟨husers, hnone, congrArg (· ++ made) hprojects, hrow⟩
    | leavingGate user | awaitingProject user =>
        rw [hat] at hpc
        obtain ⟨husers, huser, hprojects, hrow⟩ := hpc
        exact ⟨husers, huser, congrArg (· ++ made) hprojects, hrow⟩
    | providing p user project | committing user project | refreshing user project =>
        rw [hat] at hpc
        exact absurd hrunning hpc.1.ended
    | startingProxy user project | returned user project => trivial
    | deletingProject failure user project =>
        rw [hat] at hpc
        exact absurd hrunning hpc.1.ended
    | deletingUser failure user =>
        rw [hat] at hpc
        obtain ⟨project, -, -, -, -, hended, -⟩ := hpc
        exact absurd hrunning hended
    | raised failure =>
        rw [hat] at hpc
        obtain ⟨hleaves, hrow⟩ := hpc
        refine ⟨?_, hrow⟩
        cases hcreated : failure.created with
        | none =>
            simp only [Leaves, hcreated] at hleaves ⊢
            exact ⟨hleaves.1, congrArg (· ++ made) hleaves.2.1, hleaves.2.2⟩
        | some created =>
            simp only [Leaves, hcreated] at hleaves
            exact absurd hrunning hleaves.2.2.1

theorem Sound.step (h : c.Sound) (hstep : c.step a = some c') : c'.Sound := by
  cases a with
  | duplicate made project =>
      simp only [Creation.step] at hstep
      split at hstep
      · rename_i hrunning
        split at hstep
        · rename_i hmade
          cases hstep
          exact h.duplicate hrunning hmade
        · cases hstep
      · cases hstep
  | call ok => exact h.main (a := .call ok) hstep
  | found orphan => exact h.main (a := .found orphan) hstep
  | createUser made user => exact h.main (a := .createUser made user) hstep
  | commit ok took => exact h.main (a := .commit ok took) hstep

theorem sound_start : Sound {} :=
  ⟨by rintro _ ⟨⟩, rfl, rfl, rfl, rfl⟩

theorem filter_ne_eq_nil_iff {l : List Nat} {n : Nat} : l.filter (· ≠ n) = [] ↔ ∀ m ∈ l, m = n := by
  simp [List.filter_eq_nil_iff]

/-- **When a failed launch leaves nothing**: exactly where the exception came before anything was
made, or with only the known account and project made and no row committed. -/
theorem rolls_back_iff {ls : List CreateStep} (hrun : Runs.run Creation.step {} ls = some c)
    (hraised : c.pc = .raised failure) (hclean : c.cleanUpFailed = false) :
    c.NothingLeft ↔ failure.Recoverable c.madeUsers c.madeProjects := by
  have hsound : c.Sound := Runs.invariant (fun _ _ _ h hstep => h.step hstep) hrun sound_start
  have hat : c.Leaves failure ∧ c.row = failure.row := by
    have hpc := hsound.pc
    rwa [hraised] at hpc
  obtain ⟨hleaves, hrow⟩ := hat
  have hnothing : c.NothingLeft ↔ c.users = [] ∧ c.projects = [] ∧ failure.row ≠ some .active := by
    rw [← hrow]
    exact ⟨fun h => ⟨h.users, h.projects, h.row⟩, fun h => ⟨h.1, h.2.1, h.2.2⟩⟩
  rw [hnothing]
  cases failure with
  | enterGate | findUser | createUser =>
      obtain ⟨husers, hprojects, -⟩ := hleaves
      simp [husers, hprojects, Failure.row, Failure.Recoverable]
  | leaveGate | projectTask =>
      obtain ⟨husers, -, hmade⟩ := hleaves
      simp [husers, hmade, Failure.Recoverable]
  | provision p user project =>
      obtain ⟨-, -, -, hleft⟩ := hleaves
      obtain ⟨husers, hprojects⟩ := hleft hclean
      rw [husers, hprojects, filter_ne_eq_nil_iff, filter_ne_eq_nil_iff]
      simp [Failure.row, Failure.Recoverable]
  | commit took user project =>
      obtain ⟨-, -, -, hleft⟩ := hleaves
      obtain ⟨husers, hprojects⟩ := hleft hclean
      rw [husers, hprojects, filter_ne_eq_nil_iff, filter_ne_eq_nil_iff]
      cases took <;> simp [Failure.row, Failure.Recoverable]
  | refresh user project => simp [Failure.row, Failure.Recoverable]

/-- GNS3 makes the account and refuses the project. -/
def projectRefused : List CreateStep :=
  [.call true, .found none, .createUser [7] (some 7), .call true, .duplicate [] none, .call false]

theorem rolls_back_iff_projectRefused : Runs.run Creation.step {} projectRefused
      = some { pc := .raised .projectTask, task := .ended none, users := [7], madeUsers := [7] }
    ∧ (NothingLeft
      { pc := .raised .projectTask, task := .ended none, users := [7], madeUsers := [7] }
      ↔ Failure.projectTask.Recoverable [7] []) :=
  have hrun : Runs.run Creation.step {} projectRefused
      = some { pc := .raised .projectTask, task := .ended none, users := [7], madeUsers := [7] } :=
        rfl
  ⟨hrun, rolls_back_iff hrun rfl rfl⟩

/-- **An account nobody deletes.** -/
theorem account_left_behind : ∃ c, Runs.run Creation.step {} projectRefused = some c
    ∧ c.pc = .raised .projectTask ∧ c.task = .ended none ∧ c.cleanUpFailed = false
      ∧ ¬ c.NothingLeft :=
  ⟨_, rfl, rfl, rfl, rfl, fun h => nomatch h.users⟩

end Creation

end OnlinetLabs.Gns3
