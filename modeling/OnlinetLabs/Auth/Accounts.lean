import OnlinetLabs.Lib.Interleaving
import OnlinetLabs.Lib.Runs
import Mathlib.Data.List.Nodup

/-!
# Accounts, and who is let in

Accounts are registered, brought by GitHub, activated, changed by administrators and erased, side by
side. Whoever has one exchanges a session for a token, which tells for five minutes what the row
said, and requests are let in by what the token tells. Only where the token says that the account is
inactive is the row read again.

A token that is presented is one that was issued, or it does not decode. No code gives a first
administrator: whoever runs the platform may put a row in by hand, as a simulation does.
-/

namespace OnlinetLabs.Auth.Accounts

open Interleaving (mem_of_getElem? forall_mem_set forall_mem_append)

inductive UserRole where
  | student
  | instructor
  | admin
deriving Repr, DecidableEq

structure User (Email : Type) where
  id : Nat
  email : Email
  role : UserRole := .student
  isActive : Bool := false
  canSelectModel : Option Bool := none
  canViewAgentLogs : Option Bool := none
deriving Repr, DecidableEq

/-- The claims of a token, its expiry in whole seconds, when it was issued, and when the row was
read for it. -/
structure Token where
  sub : Nat
  role : UserRole
  canSelect : Bool
  canViewLogs : Bool
  isActive : Bool
  exp : Int
  issuedAt : Int
  readAt : Int
deriving Repr, DecidableEq

/-- `selectable_roles` and `viewer_roles` of the settings. -/
structure Settings where
  selectableRoles : List UserRole
  viewerRoles : List UserRole

/-- `may_select_model` and `may_view_agent_logs`: the toggle of the user, or else the role. -/
def may (role : UserRole) (toggle : Option Bool) (roles : List UserRole) :
    Bool := toggle.getD (roles.contains role)

def second : Int := 1000000

/-- `TOKEN_EXPIRE_MINUTES`, in microseconds. -/
def tokenLifetime : Int := 5 * 60 * second

section Model

variable {Email : Type}

/-- `create_backend_token`, with the claims of `exchange`. -/
def createBackendToken (settings : Settings) (now readAt : Int) (user : User Email) : Token where
  sub := user.id
  role := user.role
  canSelect := may user.role user.canSelectModel settings.selectableRoles
  canViewLogs := may user.role user.canViewAgentLogs settings.viewerRoles
  isActive := user.isActive
  exp := (now + tokenLifetime) / second
  issuedAt := now
  readAt := readAt

/-- The body of `update_user`. -/
structure UserUpdate where
  role : Option UserRole := none
  canSelectModel : Option Bool := none
  canViewAgentLogs : Option Bool := none
  isActive : Option Bool := none
deriving Repr, DecidableEq

/-- The columns that differ from the row as it was loaded are written, and no others. -/
def UserUpdate.write (body : UserUpdate) (loaded user : User Email) : User Email :=
  { user with
    role := (body.role.filter (· ≠ loaded.role)).getD user.role
    canSelectModel :=
      (body.canSelectModel.filter (some · ≠ loaded.canSelectModel)).or user.canSelectModel
    canViewAgentLogs :=
      (body.canViewAgentLogs.filter (some · ≠ loaded.canViewAgentLogs)).or user.canViewAgentLogs
    isActive := (body.isActive.filter (· ≠ loaded.isActive)).getD user.isActive }

/-! ### Calls -/

/-- `register`, between its look for the email and `create_user`. -/
inductive RegisterPc where
  | hashing
  | created (userId : Nat)
  | taken
deriving Repr, DecidableEq

/-- `github_callback`, between its look for the email and its commit. Of a user that it finds, it
writes the name, the image and the account. -/
inductive CallbackPc where
  | found (userId : Nat)
  | missing
  | created (userId : Nat)
  | raised
deriving Repr, DecidableEq

/-- `exchange`, between the row that it reads and the token. -/
structure Exchange (Email : Type) where
  user : User Email
  readAt : Int
  issued : Bool
deriving Repr, DecidableEq

/-- What is asked for: an endpoint under `require_active_user` or `require_instructor`,
`update_user`, `delete_user_endpoint`, or `erase_my_data`. -/
inductive Endpoint where
  | active
  | instructor
  | updateUser (target : Nat) (body : UserUpdate)
  | deleteUser (target : Nat)
  | eraseMyData
deriving Repr, DecidableEq

def Endpoint.allows : Endpoint → UserRole → Bool → Bool
  | active, _, isActive => isActive
  | instructor, role, _ => role != .student
  | updateUser _ _, role, _ => role == .admin
  | deleteUser _, role, _ => role == .admin
  | eraseMyData, _, _ => true

inductive RequestPc (Email : Type) where
  | unauthorized
  | decoded
  | loaded (user : User Email)
  | admitted (readAt : Int)
  | refused (readAt : Int)
  | raised
deriving Repr, DecidableEq

structure Request (Email : Type) where
  token : Token
  endpoint : Endpoint
  decodedAt : Int
  pc : RequestPc Email
deriving Repr, DecidableEq

/-- Who gave whom a role, by which token, decoded when. -/
structure Grant where
  token : Token
  decodedAt : Int
  target : Nat
  role : UserRole
deriving Repr, DecidableEq

structure World (Email : Type) where
  now : Int := 0
  drawn : Nat := 0
  users : List (User Email) := []
  registrations : List (Email × RegisterPc) := []
  callbacks : List (Email × CallbackPc) := []
  exchanges : List (Exchange Email) := []
  tokens : List Token := []
  requests : List (Request Email) := []
  /-- The roles of the rows put in by hand, and those that administrators have granted. -/
  seeded : List (Nat × UserRole) := []
  grants : List Grant := []
  /-- The rows after every step so far, and when. -/
  history : List (Int × List (User Email)) := [(0, [])]

inductive Move (Email : Type) where
  | tick (elapsed : Nat)
  | seed (email : Email) (role : UserRole) (isActive : Bool)
  | register (email : Email)
  | createUser (registration : Nat)
  | githubCallback (email : Email)
  | upsertGithubUser (callback : Nat)
  | activate (email : Email)
  | exchange (email : Email)
  | issue (exchange : Nat)
  | present (token : Nat) (endpoint : Endpoint)
  | go (request : Nat)

namespace World

variable (settings : Settings)

def userById (w : World Email) (userId : Nat) : Option (User Email) := w.users.find? fun user =>
    user.id = userId

def insert (w : World Email) (email : Email) (role : UserRole) (isActive : Bool) : World Email :=
  { w with drawn := w.drawn + 1, users := w.users ++ [{ id := w.drawn, email, role, isActive }] }

def update (w : World Email) (userId : Nat) (f : User Email → User Email) : World Email :=
  { w with users := w.users.map fun user => if user.id = userId then f user else user }

/-- `erase_subject` -/
def erase (w : World Email) (userId : Nat) : World Email :=
  { w with users := w.users.filter fun user => user.id ≠ userId }

/-- The dependencies of a decoded request, with what its handler reads. -/
def resolve (w : World Email) (r : Request Email) : World Email × RequestPc Email :=
  match r.endpoint with
  | .active =>
      if r.token.isActive || (w.userById r.token.sub).any (·.isActive) then (w, .admitted w.now)
      else (w, .refused w.now)
  | .instructor => (w, if r.token.role = .student then .refused w.now else .admitted w.now)
  | .updateUser target body =>
      match w.userById target with
      | some user =>
          if r.token.role ≠ .admin || body.role.isSome && target = r.token.sub
            then (w, .refused w.now)
          else (w, .loaded user)
      | none => (w, .refused w.now)
  | .deleteUser target =>
      match w.userById target with
      | some user => if r.token.role ≠ .admin then (w, .refused w.now) else (w, .loaded user)
      | none => (w, .refused w.now)
  | .eraseMyData => (w.erase r.token.sub, .admitted w.now)

/-- What `update_user` commits. -/
def writeUser (w : World Email) (r : Request Email) (loaded : User Email) (target : Nat)
    (body : UserUpdate) :
    World Email :=
  { w.update target (body.write loaded) with
    grants := w.grants
      ++ ((body.role.filter (· ≠ loaded.role)).map fun role =>
        ⟨r.token, r.decodedAt, target, role⟩).toList }

/-- The commit of a handler that has loaded the row. It raises where the row is gone. -/
def commit (w : World Email) (r : Request Email) (loaded : User Email) :
    World Email × RequestPc Email :=
  match r.endpoint with
  | .updateUser target body =>
      if (w.userById target).isNone then (w, .raised)
      else (w.writeUser r loaded target body, .admitted w.now)
  | .deleteUser target => (w.erase target, .admitted w.now)
  | _ => (w, .raised)

variable [DecidableEq Email]

def userByEmail (w : World Email) (email : Email) : Option (User Email) := w.users.find? fun user =>
    user.email = email

def act (w : World Email) : Move Email → Option (World Email)
  | .tick elapsed => some { w with now := w.now + elapsed }
  | .seed email role isActive =>
      if (w.userByEmail email).isSome then none
      else some { w.insert email role isActive with seeded := w.seeded ++ [(w.drawn, role)] }
  | .register email =>
      some { w with
        registrations :=
          w.registrations ++ [(email, if (w.userByEmail email).isSome then .taken else .hashing)] }
  | .createUser i =>
      match w.registrations[i]? with
      | some (email, .hashing) =>
          if (w.userByEmail email).isSome
            then some { w with registrations := w.registrations.set i (email, .taken) }
          else some { w.insert email .student false with
            registrations := w.registrations.set i (email, .created w.drawn) }
      | _ => none
  | .githubCallback email =>
      some { w with
        callbacks :=
          w.callbacks ++ [(email,
            ((w.userByEmail email).map (CallbackPc.found ·.id)).getD .missing)] }
  | .upsertGithubUser i =>
      match w.callbacks[i]? with
      | some (email, .missing) =>
          if (w.userByEmail email).isSome
            then some { w with callbacks := w.callbacks.set i (email, .raised) }
          else some { w.insert email .student false with
            callbacks := w.callbacks.set i (email, .created w.drawn) }
      | _ => none
  | .activate email =>
      match w.userByEmail email with
      | none => none
      | some user => some (w.update user.id fun user => { user with isActive := true })
  | .exchange email =>
      match w.userByEmail email with
      | none => none
      | some user => some { w with exchanges := w.exchanges ++ [⟨user, w.now, false⟩] }
  | .issue i =>
      match w.exchanges[i]? with
      | some ⟨user, readAt, false⟩ =>
          some { w with
            exchanges := w.exchanges.set i ⟨user, readAt, true⟩
            tokens := w.tokens ++ [createBackendToken settings w.now readAt user] }
      | _ => none
  | .present i endpoint =>
      match w.tokens[i]? with
      | none => none
      | some token =>
          some { w with
            requests := w.requests
              ++ [⟨token, endpoint, w.now, if w.now < token.exp * second then .decoded
                else .unauthorized⟩] }
  | .go i =>
      match w.requests[i]? with
      | none => none
      | some r =>
          match r.pc with
          | .decoded =>
              some { (w.resolve r).1 with
                requests := w.requests.set i { r with pc := (w.resolve r).2 } }
          | .loaded user =>
              some { (w.commit r user).1 with
                requests := w.requests.set i { r with pc := (w.commit r user).2 } }
          | _ => none

def record (w : World Email) : World Email := { w with history := w.history ++ [(w.now, w.users)] }

def step (w : World Email) (move : Move Email) :
    Option (World Email) := (w.act settings move).map record

/-- Whether the rows of some moment had one of which `P` holds. -/
def Said (w : World Email) (at_ : Int) (P : User Email → Prop) : Prop :=
  ∃ rows, (at_, rows) ∈ w.history ∧ ∃ user ∈ rows, P user

end World

def Token.Tells (settings : Settings) (token : Token) (user : User Email) : Prop :=
  user.id = token.sub ∧ user.role = token.role ∧ user.isActive = token.isActive
    ∧ may user.role user.canSelectModel settings.selectableRoles = token.canSelect
    ∧ may user.role user.canViewAgentLogs settings.viewerRoles = token.canViewLogs

/-! ### The rows -/

/-- One row for each id and each email, and a role from whoever may give it. -/
structure RowsKept (drawn : Nat) (users : List (User Email)) (seeded : List (Nat × UserRole))
    (grants : List Grant) :
    Prop where
  ids : (users.map (·.id)).Nodup
  emails : (users.map (·.email)).Nodup
  before : ∀ user ∈ users, user.id < drawn
  roles : ∀ user ∈ users, user.role ≠ .student →
    (user.id, user.role) ∈ seeded ∨ ∃ grant ∈ grants, grant.target = user.id
      ∧ grant.role = user.role

section Rows

variable {drawn : Nat} {users : List (User Email)} {seeded : List (Nat × UserRole)}
  {grants : List Grant}

theorem RowsKept.insert {email : Email} {role : UserRole} {isActive : Bool}
    {added : List (Nat × UserRole)}
    (h : RowsKept drawn users seeded grants) (hfree : ∀ user ∈ users, user.email ≠ email)
    (hrole : role ≠ .student → (drawn, role) ∈ added) :
    RowsKept (drawn + 1) (users ++ [{ id := drawn, email, role, isActive }])
      (seeded ++ added) grants where
  ids := by
    rw [List.map_append, List.nodup_append]
    refine ⟨h.ids, by simp, ?_⟩
    intro userId hid userId' hid'
    obtain ⟨user, huser, rfl⟩ := List.mem_map.mp hid
    have hlt := h.before user huser
    simp only [List.map_cons, List.map_nil, List.mem_singleton] at hid'
    omega
  emails := by
    rw [List.map_append, List.nodup_append]
    refine ⟨h.emails, by simp, ?_⟩
    intro email₁ hemail₁ email₂ hemail₂
    obtain ⟨user, huser, rfl⟩ := List.mem_map.mp hemail₁
    simp only [List.map_cons, List.map_nil, List.mem_singleton] at hemail₂
    exact hemail₂ ▸ hfree user huser
  before := forall_mem_append (fun user huser => Nat.lt_succ_of_lt (h.before user huser))
    (Nat.lt_succ_self _)
  roles := by
    apply forall_mem_append
    · intro user huser hrole'
      exact (h.roles user huser hrole').imp_left (List.mem_append_left _)
    · exact fun hrole' => Or.inl (List.mem_append_right _ (hrole hrole'))

theorem RowsKept.update {userId : Nat} {f : User Email → User Email} {granted : List Grant}
    (h : RowsKept drawn users seeded grants) (hid : ∀ user, (f user).id = user.id)
    (hemail : ∀ user, (f user).email = user.email)
    (hrole : ∀ user, user.id = userId → (f user).role = user.role
      ∨ ∃ grant ∈ granted, grant.target = userId ∧ grant.role = (f user).role) :
    RowsKept drawn (users.map fun user => if user.id = userId then f user else user) seeded
      (grants ++ granted) where
  ids := by
    have hsame : ((users.map fun user => if user.id = userId then f user else user).map (·.id))
        = users.map (·.id) := by
      rw [List.map_map]
      apply List.map_congr_left
      intro user _
      simp only [Function.comp_apply]
      split
      · exact hid user
      · rfl
    rw [hsame]
    exact h.ids
  emails := by
    have hsame : ((users.map fun user => if user.id = userId then f user else user).map (·.email))
        = users.map (·.email) := by
      rw [List.map_map]
      apply List.map_congr_left
      intro user _
      simp only [Function.comp_apply]
      split
      · exact hemail user
      · rfl
    rw [hsame]
    exact h.emails
  before := by
    intro user huser
    obtain ⟨user, hold, rfl⟩ := List.mem_map.mp huser
    split
    · rw [hid]
      exact h.before user hold
    · exact h.before user hold
  roles := by
    intro user huser hnot
    obtain ⟨user, hold, rfl⟩ := List.mem_map.mp huser
    have hkept : user.role ≠ .student → (user.id, user.role) ∈ seeded
        ∨ ∃ grant ∈ grants ++ granted, grant.target = user.id ∧ grant.role = user.role := by
      intro hnot'
      rcases h.roles user hold hnot' with hseeded | ⟨grant, hgrant, heq⟩
      · exact Or.inl hseeded
      · exact Or.inr ⟨grant, List.mem_append_left _ hgrant, heq⟩
    split at hnot
    · rename_i heq
      rw [if_pos heq, hid]
      rcases hrole user heq with hsame | ⟨grant, hgrant, htarget, hgranted⟩
      · rw [hsame] at hnot ⊢
        exact hkept hnot
      · exact Or.inr ⟨grant, List.mem_append_right _ hgrant, htarget.trans heq.symm, hgranted⟩
    · rename_i hne
      rw [if_neg hne]
      exact hkept hnot

theorem RowsKept.filter {q : User Email → Bool} (h : RowsKept drawn users seeded grants) :
    RowsKept drawn (users.filter q) seeded grants where
  ids := h.ids.sublist (List.filter_sublist.map _)
  emails := h.emails.sublist (List.filter_sublist.map _)
  before user huser := h.before user (List.mem_of_mem_filter huser)
  roles user huser := h.roles user (List.mem_of_mem_filter huser)

end Rows

/-! ### What every step preserves -/

section Kept

variable (settings : Settings)

def TokenKept (w : World Email) (token : Token) : Prop :=
  token.readAt ≤ token.issuedAt ∧ token.issuedAt ≤ w.now
    ∧ token.exp = (token.issuedAt + tokenLifetime) / second
    ∧ w.Said token.readAt (token.Tells settings)

def ExchangeKept (w : World Email) (e : Exchange Email) :
    Prop := e.readAt ≤ w.now ∧ w.Said e.readAt (· = e.user)

/-- What a request has come to, by what its token tells or by what the row said then. -/
def RequestPc.Holds (w : World Email) (token : Token) (endpoint : Endpoint) (decodedAt : Int) :
    RequestPc Email → Prop
  | .unauthorized | .decoded | .raised => True
  | .loaded _ => endpoint.allows token.role token.isActive
      ∧ ∀ target body, endpoint = .updateUser target body → body.role.isSome → target ≠ token.sub
  | .admitted readAt => decodedAt ≤ readAt ∧ readAt ≤ w.now
      ∧ (endpoint.allows token.role token.isActive
        ∨ endpoint = .active ∧ w.Said readAt fun user => user.id = token.sub ∧ user.isActive)
  | .refused readAt => decodedAt ≤ readAt ∧ readAt ≤ w.now
      ∧ (endpoint = .active → token.isActive = false
        ∧ ∃ rows, (readAt, rows) ∈ w.history ∧ ∀ user ∈ rows, user.id = token.sub →
          user.isActive = false)

def RequestKept (w : World Email) (r : Request Email) : Prop :=
  r.token ∈ w.tokens ∧ r.decodedAt ≤ w.now
    ∧ (r.pc ≠ .unauthorized → r.decodedAt < r.token.issuedAt + tokenLifetime)
    ∧ r.pc.Holds w r.token r.endpoint r.decodedAt

def GrantKept (w : World Email) (grant : Grant) : Prop :=
  grant.token ∈ w.tokens ∧ grant.token.role = .admin ∧ grant.token.sub ≠ grant.target
    ∧ grant.decodedAt < grant.token.issuedAt + tokenLifetime

structure Kept (w : World Email) : Prop where
  rows : RowsKept w.drawn w.users w.seeded w.grants
  recorded : (w.now, w.users) ∈ w.history
  exchanges : ∀ e ∈ w.exchanges, ExchangeKept w e
  tokens : ∀ token ∈ w.tokens, TokenKept settings w token
  requests : ∀ r ∈ w.requests, RequestKept w r
  grants : ∀ grant ∈ w.grants, GrantKept w grant
  plain : (∀ seed ∈ w.seeded, seed.2 ≠ .admin) → ∀ rows, rows ∈ w.history → ∀ user ∈ rows.2,
    user.role ≠ .admin

structure Grown (w w' : World Email) : Prop where
  now : w.now ≤ w'.now
  history : ∀ rows ∈ w.history, rows ∈ w'.history
  tokens : ∀ token ∈ w.tokens, token ∈ w'.tokens

variable {settings : Settings} {w w' : World Email}

theorem World.Said.grown {at_ : Int} {P : User Email → Prop} (h : w.Said at_ P)
    (hgrown : Grown w w') :
    w'.Said at_ P := by
  obtain ⟨rows, hrows, huser⟩ := h
  exact ⟨rows, hgrown.history _ hrows, huser⟩

theorem World.Said.mono {at_ : Int} {P Q : User Email → Prop} (h : w.Said at_ P)
    (hle : ∀ user, P user → Q user) :
    w.Said at_ Q := by
  obtain ⟨rows, hrows, user, huser, hP⟩ := h
  exact ⟨rows, hrows, user, huser, hle user hP⟩

theorem TokenKept.grown {token : Token} (h : TokenKept settings w token) (hgrown : Grown w w') :
    TokenKept settings w' token := by
  obtain ⟨hread, hissued, hexp, hsaid⟩ := h
  exact ⟨hread, Int.le_trans hissued hgrown.now, hexp, hsaid.grown hgrown⟩

theorem ExchangeKept.grown {e : Exchange Email} (h : ExchangeKept w e) (hgrown : Grown w w') :
    ExchangeKept w' e :=
  ⟨Int.le_trans h.1 hgrown.now, h.2.grown hgrown⟩

theorem RequestKept.grown {r : Request Email} (h : RequestKept w r) (hgrown : Grown w w') :
    RequestKept w' r := by
  obtain ⟨htoken, hdecoded, hfresh, hpc⟩ := h
  refine ⟨hgrown.tokens _ htoken, Int.le_trans hdecoded hgrown.now, hfresh, ?_⟩
  revert hpc
  cases r.pc with
  | unauthorized | decoded | raised => exact id
  | loaded user => exact id
  | admitted readAt =>
      rintro ⟨hafter, hbefore, hallows⟩
      refine ⟨hafter, Int.le_trans hbefore hgrown.now, ?_⟩
      exact hallows.imp_right fun hread => ⟨hread.1, hread.2.grown hgrown⟩
  | refused readAt =>
      rintro ⟨hafter, hbefore, hinactive⟩
      refine ⟨hafter, Int.le_trans hbefore hgrown.now, fun heq => ?_⟩
      obtain ⟨htold, rows, hrows, hnone⟩ := hinactive heq
      exact ⟨htold, rows, hgrown.history _ hrows, hnone⟩

theorem GrantKept.grown {grant : Grant} (h : GrantKept w grant) (hgrown : Grown w w') :
    GrantKept w' grant :=
  ⟨hgrown.tokens _ h.1, h.2⟩

/-- A token that decodes was issued less than its lifetime ago. -/
theorem TokenKept.fresh {token : Token} {now : Int} (h : TokenKept settings w token)
    (hexp : now < token.exp * second) :
    now < token.issuedAt + tokenLifetime := by
  have hle : token.exp * second ≤ token.issuedAt + tokenLifetime := by
    rw [h.2.2.1]
    exact Int.ediv_mul_le _ (by decide)
  exact Int.lt_of_lt_of_le hexp hle

/-- A state whose parts hold of the state before it, once its rows are recorded. -/
theorem Kept.next {u : World Email} (h : Kept settings w) (hnow : w.now ≤ u.now)
    (hhistory : u.history = w.history)
    (hold : ∀ token ∈ w.tokens, token ∈ u.tokens)
    (hrows : RowsKept u.drawn u.users u.seeded u.grants)
    (hexchanges : ∀ e ∈ u.exchanges, ExchangeKept w e)
    (htokens : ∀ token ∈ u.tokens, TokenKept settings w token)
    (hrequests : ∀ r ∈ u.requests, RequestKept w r)
    (hgrants : ∀ grant ∈ u.grants, GrantKept w grant) (hseeded : ∀ seed ∈ w.seeded, seed ∈ u.seeded)
    (hplain : (∀ seed ∈ u.seeded, seed.2 ≠ .admin) → ∀ user ∈ u.users, user.role ≠ .admin) :
    Kept settings u.record := by
  have hgrown : Grown w u.record := by
    refine ⟨hnow, fun rows hmem => ?_, hold⟩
    exact List.mem_append_left _ (hhistory ▸ hmem)
  refine ⟨hrows, ?_, ?_, ?_, ?_, ?_, ?_⟩
  · exact List.mem_append_right _ List.mem_cons_self
  · exact fun e he => (hexchanges e he).grown hgrown
  · exact fun token htoken => (htokens token htoken).grown hgrown
  · exact fun r hr => (hrequests r hr).grown hgrown
  · exact fun grant hgrant => (hgrants grant hgrant).grown hgrown
  · intro hnone
    apply forall_mem_append
    · intro rows hmem
      exact h.plain (fun seed hseed => hnone seed (hseeded seed hseed)) rows (hhistory ▸ hmem)
    · exact hplain hnone

/-- As `Kept.next`, where only the rows change. -/
theorem Kept.onRows {drawn : Nat} {users : List (User Email)} {seeded : List (Nat × UserRole)}
    {registrations : List (Email × RegisterPc)} {callbacks : List (Email × CallbackPc)}
    (h : Kept settings w)
    (hrows : RowsKept drawn users seeded w.grants) (hseeded : ∀ seed ∈ w.seeded, seed ∈ seeded)
    (hplain : (∀ seed ∈ seeded, seed.2 ≠ .admin) → ∀ user ∈ users, user.role ≠ .admin) :
    Kept settings ({ w with drawn, users, seeded, registrations, callbacks } : World
      Email).record :=
  h.next (Int.le_refl _) rfl (fun _ => id) hrows h.exchanges h.tokens h.requests h.grants
    hseeded hplain

theorem Kept.plainUsers (h : Kept settings w) (hnone : ∀ seed ∈ w.seeded, seed.2 ≠ .admin) :
    ∀ user ∈ w.users, user.role ≠ .admin :=
  h.plain hnone _ h.recorded

theorem Kept.activate {userId : Nat} (h : Kept settings w) :
    Kept settings (w.update userId fun user => { user with isActive := true }).record := by
  have hrows :
      RowsKept w.drawn (w.update userId fun user => { user with isActive := true }).users w.seeded
      (w.grants ++ []) := h.rows.update (fun _ => rfl) (fun _ => rfl) fun _ _ => Or.inl rfl
  rw [List.append_nil] at hrows
  apply h.onRows hrows (fun _ => id)
  intro hnone user huser
  obtain ⟨user, hold, rfl⟩ := List.mem_map.mp huser
  split
  · exact h.plainUsers hnone user hold
  · exact h.plainUsers hnone user hold

theorem Kept.exchange {user : User Email} (h : Kept settings w) (huser : user ∈ w.users) :
    Kept settings ({ w with exchanges := w.exchanges ++ [⟨user, w.now, false⟩] } : World
      Email).record := by
  refine h.next (Int.le_refl _) rfl (fun _ => id) h.rows ?_ h.tokens h.requests h.grants
    (fun _ => id) h.plainUsers
  exact forall_mem_append h.exchanges ⟨Int.le_refl _, _, h.recorded, user, huser, rfl⟩

theorem Kept.issue {i : Nat} {user : User Email} {readAt : Int} (h : Kept settings w)
    (hexchange : w.exchanges[i]? = some ⟨user, readAt, false⟩) :
    Kept settings ({ w with
      exchanges := w.exchanges.set i ⟨user, readAt, true⟩
      tokens := w.tokens ++ [createBackendToken settings w.now readAt user] } :
        World Email).record := by
  obtain ⟨hread, hsaid⟩ := h.exchanges _ (mem_of_getElem? hexchange)
  refine h.next (Int.le_refl _) rfl (fun _ htoken => List.mem_append_left _ htoken) h.rows ?_ ?_
    h.requests h.grants
    (fun _ => id) h.plainUsers
  · exact forall_mem_set h.exchanges ⟨hread, hsaid⟩
  · apply forall_mem_append h.tokens
    refine ⟨hread, Int.le_refl _, rfl, hsaid.mono ?_⟩
    rintro _ rfl
    exact ⟨rfl, rfl, rfl, rfl, rfl⟩

theorem Kept.present {token : Token} {endpoint : Endpoint} (h : Kept settings w)
    (htoken : token ∈ w.tokens) :
    Kept settings ({ w with
      requests := w.requests
        ++ [⟨token, endpoint, w.now, if w.now < token.exp * second then .decoded
          else .unauthorized⟩] } :
      World Email).record := by
  refine h.next (Int.le_refl _) rfl (fun _ => id) h.rows h.exchanges h.tokens ?_ h.grants
    (fun _ => id) h.plainUsers
  apply forall_mem_append h.requests
  split
  · rename_i hexp
    exact ⟨htoken, Int.le_refl _, fun _ => (h.tokens token htoken).fresh hexp, trivial⟩
  · exact ⟨htoken, Int.le_refl _, fun hne => absurd rfl hne, trivial⟩

/-! ### Requests -/

/-- A request that goes on, to something that holds, and with what its handler writes. -/
theorem Kept.goOn {i : Nat} {r : Request Email} (h : Kept settings w) (pc : RequestPc Email)
    (users : List (User Email)) (grants : List Grant) (hr : w.requests[i]? = some r)
    (hne : r.pc ≠ .unauthorized)
    (hholds : pc.Holds w r.token r.endpoint r.decodedAt)
    (hrows : RowsKept w.drawn users w.seeded grants)
    (hgrants : ∀ grant ∈ grants, GrantKept w grant)
    (hplain : (∀ seed ∈ w.seeded, seed.2 ≠ .admin) → ∀ user ∈ users, user.role ≠ .admin) :
    Kept settings ({ w with users, grants, requests := w.requests.set i { r with pc } } : World
      Email).record := by
  refine h.next (Int.le_refl _) rfl (fun _ => id) hrows h.exchanges h.tokens ?_ hgrants
    (fun _ => id) hplain
  obtain ⟨htoken, hdecoded, hfresh, -⟩ := h.requests r (mem_of_getElem? hr)
  exact forall_mem_set h.requests ⟨htoken, hdecoded, fun _ => hfresh hne, hholds⟩

theorem World.of_userById {userId : Nat} {user : User Email} (h : w.userById userId = some user) :
    user ∈ w.users ∧ user.id = userId :=
  ⟨List.mem_of_find?_eq_some h, by simpa using List.find?_some h⟩

/-- The row that is read is the only one of its user. -/
theorem Kept.isActive_iff {userId : Nat} (h : Kept settings w) :
    (w.userById userId).any (·.isActive) ↔ ∃ user ∈ w.users, user.id = userId ∧ user.isActive := by
  constructor
  · intro hany
    cases hfound : w.userById userId with
    | none =>
        rw [hfound] at hany
        cases hany
    | some user =>
        rw [hfound] at hany
        obtain ⟨huser, hid⟩ := World.of_userById hfound
        exact ⟨user, huser, hid, hany⟩
  · rintro ⟨user, huser, hid, hactive⟩
    cases hfound : w.userById userId with
    | none => exact absurd (decide_eq_true hid) (List.find?_eq_none.mp hfound user huser)
    | some found =>
        obtain ⟨hmem, hid'⟩ := World.of_userById hfound
        rw [List.inj_on_of_nodup_map h.rows.ids hmem huser (hid'.trans hid.symm)]
        exact hactive

/-- What the dependencies let in is what the endpoint allows, by the token or by the row as it is
now. -/
theorem Kept.resolve_holds {r : Request Email} (h : Kept settings w) (hr : RequestKept w r) :
    (w.resolve r).2.Holds w r.token r.endpoint r.decodedAt := by
  obtain ⟨-, hdecoded, -, -⟩ := hr
  unfold World.resolve
  cases hendpoint : r.endpoint with
  | active =>
      dsimp only
      split
      · rename_i hin
        refine ⟨hdecoded, Int.le_refl _, ?_⟩
        rcases Bool.or_eq_true_iff.mp hin with htold | hread
        · exact Or.inl htold
        · exact Or.inr ⟨rfl, _, h.recorded, h.isActive_iff.mp hread⟩
      · rename_i hout
        rw [Bool.not_eq_true, Bool.or_eq_false_iff] at hout
        refine ⟨hdecoded, Int.le_refl _, fun _ => ⟨hout.1, _, h.recorded, ?_⟩⟩
        intro user huser hid
        rw [Bool.eq_false_iff]
        intro hactive
        rw [h.isActive_iff.mpr ⟨user, huser, hid, hactive⟩] at hout
        cases hout.2
  | instructor =>
      dsimp only
      split
      · exact ⟨hdecoded, Int.le_refl _, fun heq => nomatch heq⟩
      · rename_i hrole
        exact ⟨hdecoded, Int.le_refl _, Or.inl (bne_iff_ne.mpr hrole)⟩
  | updateUser target body =>
      dsimp only
      split
      · split
        · exact ⟨hdecoded, Int.le_refl _, fun heq => nomatch heq⟩
        · rename_i hallowed
          rw [Bool.or_eq_true_iff, not_or, decide_eq_true_iff, Decidable.not_not] at hallowed
          refine ⟨beq_iff_eq.mpr hallowed.1, ?_⟩
          rintro _ _ ⟨⟩ hsome heq
          exact hallowed.2 (by rw [hsome, decide_eq_true heq]; rfl)
      · exact ⟨hdecoded, Int.le_refl _, fun heq => nomatch heq⟩
  | deleteUser target =>
      dsimp only
      split
      · split
        · exact ⟨hdecoded, Int.le_refl _, fun heq => nomatch heq⟩
        · rename_i hallowed
          exact ⟨beq_iff_eq.mpr (Decidable.not_not.mp hallowed), fun _ _ heq => nomatch heq⟩
      · exact ⟨hdecoded, Int.le_refl _, fun heq => nomatch heq⟩
  | eraseMyData => exact ⟨hdecoded, Int.le_refl _, Or.inl rfl⟩

theorem World.resolve_users {r : Request Email} :
    (w.resolve r).1 = w ∨ (w.resolve r).1 = w.erase r.token.sub := by
  unfold World.resolve
  cases r.endpoint with
  | active => exact Or.inl (by dsimp only; split <;> rfl)
  | instructor => exact Or.inl rfl
  | updateUser target body => exact Or.inl (by dsimp only; split <;> [split <;> rfl; rfl])
  | deleteUser target => exact Or.inl (by dsimp only; split <;> [split <;> rfl; rfl])
  | eraseMyData => exact Or.inr rfl

theorem Kept.plainFilter {q : User Email → Bool} (h : Kept settings w)
    (hnone : ∀ seed ∈ w.seeded, seed.2 ≠ .admin) :
    ∀ user ∈ w.users.filter q, user.role ≠ .admin :=
  fun user huser => h.plainUsers hnone user (List.mem_of_mem_filter huser)

theorem Kept.goResolve {i : Nat} {r : Request Email} (h : Kept settings w)
    (hr : w.requests[i]? = some r)
    (hpc : r.pc = .decoded) :
    Kept settings
      ({ (w.resolve r).1 with
        requests := w.requests.set i { r with pc := (w.resolve r).2 } } : World Email).record := by
  have hholds := h.resolve_holds (h.requests r (mem_of_getElem? hr))
  have hne : r.pc ≠ .unauthorized := by
    rw [hpc]
    exact fun heq => nomatch heq
  rcases w.resolve_users (r := r) with heq | heq
  · rw [heq]
    exact h.goOn _ w.users w.grants hr hne hholds h.rows h.grants h.plainUsers
  · rw [heq]
    exact h.goOn _ _ w.grants hr hne hholds h.rows.filter h.grants h.plainFilter

/-- The roles that a commit grants. -/
theorem UserUpdate.write_role (body : UserUpdate) (loaded user : User Email) :
    (body.write loaded user).role = user.role
      ∨ body.role.filter (· ≠ loaded.role) = some (body.write loaded user).role := by
  unfold UserUpdate.write
  dsimp only
  cases hrole : body.role.filter (· ≠ loaded.role) with
  | none => exact Or.inl rfl
  | some role => exact Or.inr rfl

/-- Where nobody was put in as an administrator, no token tells of one. -/
theorem Kept.token_plain {token : Token} (h : Kept settings w) (htoken : token ∈ w.tokens)
    (hnone : ∀ seed ∈ w.seeded, seed.2 ≠ .admin) : token.role ≠ .admin := by
  obtain ⟨-, -, -, rows, hrows, user, huser, -, hrole, -⟩ := h.tokens token htoken
  rw [← hrole]
  exact h.plain hnone _ hrows user huser

theorem World.commit_cases (r : Request Email) (loaded : User Email) :
    w.commit r loaded = (w, .raised)
      ∨ (∃ target body, r.endpoint = .updateUser target body
        ∧ w.commit r loaded = (w.writeUser r loaded target body, .admitted w.now))
      ∨ ∃ target, r.endpoint = .deleteUser target
        ∧ w.commit r loaded = (w.erase target, .admitted w.now) := by
  unfold World.commit
  cases r.endpoint with
  | updateUser target body =>
      dsimp only
      split
      · exact Or.inl rfl
      · exact Or.inr (Or.inl ⟨target, body, rfl, rfl⟩)
  | deleteUser target => exact Or.inr (Or.inr ⟨target, rfl, rfl⟩)
  | active | instructor | eraseMyData => exact Or.inl rfl

theorem Kept.goCommit {i : Nat} {r : Request Email} {loaded : User Email} (h : Kept settings w)
    (hr : w.requests[i]? = some r) (hpc : r.pc = .loaded loaded) :
    Kept settings
      ({ (w.commit r loaded).1 with
        requests := w.requests.set i { r with pc := (w.commit r loaded).2 } } :
          World Email).record := by
  obtain ⟨htoken, hdecoded, hfresh, hholds⟩ := h.requests r (mem_of_getElem? hr)
  have hne : r.pc ≠ .unauthorized := by
    rw [hpc]
    exact fun heq => nomatch heq
  rw [hpc] at hholds
  obtain ⟨hallows, hother⟩ := hholds
  have hadmitted : (RequestPc.admitted w.now).Holds w r.token r.endpoint r.decodedAt :=
    ⟨hdecoded, Int.le_refl _, Or.inl hallows⟩
  rcases w.commit_cases r loaded with heq | ⟨target, body, hendpoint, heq⟩ | ⟨target, -, heq⟩
  · rw [heq]
    exact h.goOn .raised w.users w.grants hr hne trivial h.rows h.grants h.plainUsers
  · have hadmin : r.token.role = .admin := by
      rw [hendpoint] at hallows
      exact beq_iff_eq.mp hallows
    rw [heq]
    refine h.goOn _ _ _ hr hne hadmitted ?_ ?_ ?_
    · refine h.rows.update (fun _ => rfl) (fun _ => rfl) ?_
      intro user _
      apply (body.write_role loaded user).imp_right
      intro hrole
      refine ⟨⟨r.token, r.decodedAt, target, (body.write loaded user).role⟩, ?_, rfl, rfl⟩
      rw [hrole]
      exact List.mem_cons_self
    · intro grant hgrant
      rcases List.mem_append.mp hgrant with hold | hnew
      · exact h.grants grant hold
      · obtain ⟨role, hrole, rfl⟩ := Option.map_eq_some_iff.mp (Option.mem_toList.mp hnew)
        have hsome : body.role.isSome := by
          rw [Option.isSome_iff_exists]
          exact ⟨role, (Option.filter_eq_some_iff.mp hrole).1⟩
        exact ⟨htoken, hadmin, (hother target body hendpoint hsome).symm, hfresh hne⟩
    · exact fun hnone => absurd hadmin (h.token_plain htoken hnone)
  · rw [heq]
    exact h.goOn _ _ w.grants hr hne hadmitted h.rows.filter h.grants h.plainFilter

theorem Kept.init : Kept settings ({} : World Email) where
  rows := ⟨List.nodup_nil, List.nodup_nil, by simp, by simp⟩
  recorded := List.mem_cons_self
  exchanges _ he := nomatch he
  tokens _ htoken := nomatch htoken
  requests _ hr := nomatch hr
  grants _ hgrant := nomatch hgrant
  plain _ rows hrows user huser := by
    rw [List.mem_singleton.mp hrows] at huser
    cases huser

section Steps

variable [DecidableEq Email]

theorem World.ne_of_userByEmail_none {email : Email} (hnone : ¬ (w.userByEmail email).isSome) :
    ∀ user ∈ w.users, user.email ≠ email := by
  rw [Bool.not_eq_true, Option.isSome_eq_false_iff, Option.isNone_iff_eq_none] at hnone
  intro user huser heq
  exact List.find?_eq_none.mp hnone user huser (decide_eq_true heq)

/-- A new row, of a student or put in by hand. -/
theorem Kept.insert {email : Email} {role : UserRole} {isActive : Bool}
    {added : List (Nat × UserRole)}
    {registrations : List (Email × RegisterPc)} {callbacks : List (Email × CallbackPc)}
    (h : Kept settings w)
    (hnone : ¬ (w.userByEmail email).isSome) (hrole : role ≠ .student → (w.drawn, role) ∈ added) :
    Kept settings
      ({ w.insert email role isActive with
        seeded := w.seeded ++ added, registrations, callbacks } : World Email).record := by
  apply h.onRows (h.rows.insert (w.ne_of_userByEmail_none hnone) hrole)
  · exact fun seed hseed => List.mem_append_left _ hseed
  · intro hplain
    apply forall_mem_append
    · exact h.plainUsers fun seed hseed => hplain seed (List.mem_append_left _ hseed)
    · dsimp only
      rintro rfl
      exact hplain _ (List.mem_append_right _ (hrole (by decide))) rfl

theorem Kept.insertStudent {email : Email} {registrations : List (Email × RegisterPc)}
    {callbacks : List (Email × CallbackPc)} (h : Kept settings w)
    (hnone : ¬ (w.userByEmail email).isSome) :
    Kept settings ({ w.insert email .student false with registrations, callbacks } : World
      Email).record := by
  have hkept : Kept settings
      ({ w.insert email .student false with
        seeded := w.seeded ++ [], registrations, callbacks } : World Email).record :=
    h.insert hnone fun hrole => absurd rfl hrole
  rw [List.append_nil] at hkept
  exact hkept

theorem Kept.act {move : Move Email} (h : Kept settings w) (hact : w.act settings move = some w') :
    Kept settings w'.record := by
  cases move with
  | tick elapsed =>
      cases hact
      exact h.next (Int.le_add_of_nonneg_right (Int.natCast_nonneg _)) rfl (fun _ => id) h.rows
        h.exchanges h.tokens
        h.requests h.grants (fun _ => id) h.plainUsers
  | seed email role isActive =>
      simp only [World.act] at hact
      split at hact
      · cases hact
      · rename_i hnone
        cases hact
        exact h.insert hnone fun _ => List.mem_cons_self
  | register email =>
      cases hact
      exact h.onRows h.rows (fun _ => id) h.plainUsers
  | createUser i =>
      simp only [World.act] at hact
      split at hact
      · split at hact
        · cases hact
          exact h.onRows h.rows (fun _ => id) h.plainUsers
        · rename_i hnone
          cases hact
          exact h.insertStudent hnone
      · cases hact
  | githubCallback email =>
      cases hact
      exact h.onRows h.rows (fun _ => id) h.plainUsers
  | upsertGithubUser i =>
      simp only [World.act] at hact
      split at hact
      · split at hact
        · cases hact
          exact h.onRows h.rows (fun _ => id) h.plainUsers
        · rename_i hnone
          cases hact
          exact h.insertStudent hnone
      · cases hact
  | activate email =>
      simp only [World.act] at hact
      split at hact
      · cases hact
      · cases hact
        exact h.activate
  | exchange email =>
      simp only [World.act] at hact
      split at hact
      · cases hact
      · rename_i user hfound
        cases hact
        exact h.exchange (List.mem_of_find?_eq_some hfound)
  | issue i =>
      simp only [World.act] at hact
      split at hact
      · rename_i hexchange
        cases hact
        exact h.issue hexchange
      · cases hact
  | present i endpoint =>
      simp only [World.act] at hact
      split at hact
      · cases hact
      · rename_i htoken
        cases hact
        exact h.present (mem_of_getElem? htoken)
  | go i =>
      simp only [World.act] at hact
      split at hact
      · cases hact
      · rename_i hr
        split at hact
        · rename_i hpc
          cases hact
          exact h.goResolve hr hpc
        · rename_i hpc
          cases hact
          exact h.goCommit hr hpc
        · cases hact

theorem Kept.step {move : Move Email} (h : Kept settings w)
    (hstep : w.step settings move = some w') :
    Kept settings w' := by
  obtain ⟨u, hact, rfl⟩ := Option.map_eq_some_iff.mp hstep
  exact h.act hact

end Steps

end Kept

/-! ### The result -/

variable [DecidableEq Email]

/-- **Who is let in.** However accounts are registered, changed and erased beside one another, there
is one row for each id and each email, and a role other than a student's was put in by hand or
granted. A token tells what the row said when it was read for it. A request that has got past its
token did so within five minutes of the token's issue, and it is let in only where the token, or the
row as it is read then, allows the endpoint; one is turned away as inactive only where both say so.
Whoever grants a role was an administrator when the token was made, and grants it to somebody else;
while none has been put in by hand, there has never been an administrator. -/
theorem always_admitted (settings : Settings) :
    Runs.Always (World.step settings) ({} : World Email) fun w =>
      (w.users.map (·.id)).Nodup ∧ (w.users.map (·.email)).Nodup
        ∧ (∀ user ∈ w.users, user.role ≠ .student →
          (user.id, user.role) ∈ w.seeded ∨ ∃ grant ∈ w.grants, grant.target = user.id
            ∧ grant.role = user.role)
        ∧ (∀ token ∈ w.tokens, token.readAt ≤ token.issuedAt
          ∧ w.Said token.readAt (token.Tells settings))
        ∧ (∀ r ∈ w.requests,
          (r.pc ≠ .unauthorized → r.decodedAt < r.token.issuedAt + tokenLifetime)
            ∧ (∀ readAt, r.pc = .admitted readAt →
              w.Said r.token.readAt
                (fun user => user.id = r.token.sub ∧ r.endpoint.allows user.role user.isActive)
                ∨ r.endpoint = .active ∧ w.Said readAt fun user => user.id = r.token.sub
                  ∧ user.isActive)
            ∧ (∀ readAt, r.pc = .refused readAt → r.endpoint = .active →
              w.Said r.token.readAt (fun user => user.id = r.token.sub ∧ user.isActive = false)
                ∧ ∃ rows, (readAt, rows) ∈ w.history ∧ ∀ user ∈ rows, user.id = r.token.sub →
                  user.isActive = false))
        ∧ (∀ grant ∈ w.grants, grant.token.sub ≠ grant.target
          ∧ grant.decodedAt < grant.token.issuedAt + tokenLifetime
          ∧ w.Said grant.token.readAt fun user => user.id = grant.token.sub ∧ user.role = .admin)
        ∧ ((∀ seed ∈ w.seeded, seed.2 ≠ .admin) → ∀ rows ∈ w.history, ∀ user ∈ rows.2,
          user.role ≠ .admin) := by
  refine Runs.always_of_invariant (I := Kept settings) (fun _ _ _ h hstep => h.step hstep) Kept.init
    fun w h => ?_
  refine ⟨h.rows.ids, h.rows.emails, h.rows.roles, ?_, ?_, ?_, h.plain⟩
  · exact fun token htoken => ⟨(h.tokens token htoken).1, (h.tokens token htoken).2.2.2⟩
  · intro r hr
    obtain ⟨htoken, -, hfresh, hholds⟩ := h.requests r hr
    obtain ⟨-, -, -, hsaid⟩ := h.tokens r.token htoken
    refine ⟨hfresh, fun readAt hpc => ?_, fun readAt hpc hendpoint => ?_⟩
    · rw [hpc] at hholds
      apply hholds.2.2.imp_left
      intro hallows
      apply hsaid.mono
      rintro user ⟨hid, hrole, hactive, -⟩
      rw [hrole, hactive]
      exact ⟨hid, hallows⟩
    · rw [hpc] at hholds
      obtain ⟨htold, hread⟩ := hholds.2.2 hendpoint
      exact ⟨hsaid.mono fun user htells => ⟨htells.1, htells.2.2.1.trans htold⟩, hread⟩
  · intro grant hgrant
    obtain ⟨htoken, hadmin, hother, hfresh⟩ := h.grants grant hgrant
    obtain ⟨-, -, -, hsaid⟩ := h.tokens grant.token htoken
    exact ⟨hother, hfresh, hsaid.mono fun user htells => ⟨htells.1, htells.2.1.trans hadmin⟩⟩

end Model

end OnlinetLabs.Auth.Accounts
