import OnlinetLabs.Lib.Dict
import OnlinetLabs.Lib.Interleaving

/-!
# The connection pool of the MCP SDK

`ConnectionPool` keeps the connections to the students' environments by environment, user and
credential. A task of its event loop runs one of its three methods, and a step of a task is what it
does between two awaits. The pool's own lock is never held over an await, so nobody ever waits for
it; the lock of a key is held from before the idle connections are dropped until the call returns.
Connecting, a health check and closing a connection take any time and may fail.
-/

namespace OnlinetLabs.McpSdk

open Interleaving

structure SessionContext where
  userId : String
  environmentUrl : String
  metadata : Dict String String := {}
deriving Repr, DecidableEq

structure Key where
  environmentUrl : String
  userId : String
  credential : String
deriving Repr, DecidableEq

/-- `hexdigest` is the hexadecimal SHA-256 digest of the text. -/
def credentialFingerprint (hexdigest : String → String) (ctx : SessionContext) : String :=
  let jwt := (ctx.metadata.get? "gns3_jwt").getD ""
  let raw := if jwt = "" then (ctx.metadata.get? "token").getD "" else jwt
  if raw = "" then "" else ((hexdigest raw).take 16).toString

def key (hexdigest : String → String) (ctx : SessionContext) : Key :=
  ⟨ctx.environmentUrl, ctx.userId, credentialFingerprint hexdigest ctx⟩

structure Entry where
  conn : Nat
  lastUsed : Int
  lastChecked : Int
deriving Repr, DecidableEq

structure PoolConfig where
  maxSize : Nat := 50
  idleTtl : Int := 600
  healthCheckInterval : Int := 60
  minEvictIdle : Int := 30
deriving Repr, DecidableEq

/-- The pool and what its manager has seen: `opened` has, for every connection `connect` returned,
the key it was opened for, and a connection is its place there. The entries stand with the least
recently used first. A key lock is a number, and `locked` are those that are locked. -/
structure Pool where
  clock : Int := 0
  entries : Dict Key Entry := {}
  keyLocks : Dict Key Nat := {}
  nextLock : Nat := 0
  locked : List Nat := []
  opened : List Key := []
  disconnected : List Nat := []
deriving Repr, DecidableEq

namespace Pool

def keyLock (s : Pool) (key : Key) : Pool × Nat :=
  match s.keyLocks.get? key with
  | some lock => (s, lock)
  | none =>
      ({ s with keyLocks := s.keyLocks.set key s.nextLock, nextLock := s.nextLock + 1 }, s.nextLock)

def lock (s : Pool) (lock : Nat) : Pool := { s with locked := lock :: s.locked }

def unlock (s : Pool) (lock : Nat) : Pool := { s with locked := s.locked.filter (· ≠ lock) }

def close (s : Pool) (key : Key) : Pool :=
  match s.entries.get? key with
  | none => s
  | some entry =>
      { s with entries := s.entries.erase key, disconnected := s.disconnected ++ [entry.conn] }

def stale (cfg : PoolConfig) (s : Pool) (now : Int) : List Key :=
  (s.entries.entries.filter fun entry => decide (now - entry.2.lastUsed > cfg.idleTtl)).map Prod.fst

def pruneLocks (s : Pool) : Pool :=
  { s with
    keyLocks := s.keyLocks.filter fun row =>
      (s.entries.get? row.1).isSome || decide (row.2 ∈ s.locked) }

/-- The entry object of a task has changed, and the entry of its key moves to the end. The two are
the same object when they are of the same connection. -/
def touch (s : Pool) (key : Key) (entry : Entry) : Pool :=
  match s.entries.get? key with
  | none => s
  | some held =>
      { s with
        entries := (s.entries.erase key).set key (if held.conn = entry.conn then entry else held) }

def store (s : Pool) (key : Key) (now : Int) : Pool :=
  { s with
    entries := (s.entries.erase key).set key ⟨s.opened.length, now, now⟩
    opened := s.opened ++ [key] }

def clear (s : Pool) : Pool := { s with entries := {}, keyLocks := {} }

theorem touch_disconnected (s : Pool) (key : Key) (entry : Entry) :
    (s.touch key entry).disconnected = s.disconnected := by
  unfold touch
  split <;> rfl

theorem keyLock_locked (s : Pool) (key : Key) : (s.keyLock key).1.locked = s.locked := by
  unfold keyLock
  split <;> rfl

end Pool

inductive Request where
  | getConnection (ctx : SessionContext)
  | release (ctx : SessionContext)
  | close
deriving Repr, DecidableEq

inductive Call where
  | getConnection (key : Key)
  | release (key : Key)
  | close
deriving Repr, DecidableEq

def Call.key? : Call → Option Key
  | .getConnection key => some key
  | .release key => some key
  | .close => none

/-- Where a task is. A returned connection comes with whether `disconnect` had already been called
with it. -/
inductive TaskPc where
  | start
  | waiting
  | dropping (stale : List Key)
  | checking (entry : Entry)
  | making
  | connecting
  | releasing
  | ending
  | closing (keys : List Key)
  | returned (conn : Nat) (disconnected : Bool)
  | raised
  | done
deriving Repr, DecidableEq

structure Task where
  call : Call
  lock : Nat := 0
  now : Int := 0
  pc : TaskPc := .start
deriving Repr, DecidableEq

/-- What a task goes on with: nothing, or the answer of the manager. A health check may raise. -/
inductive Answer where
  | go
  | verdict (alive : Option Bool)
  | connected
  | failed
deriving Repr, DecidableEq

namespace Task

def enter (cfg : PoolConfig) (s : Pool) (t : Task) : Pool × Task :=
  match t.call with
  | .getConnection _ =>
      (s.lock t.lock, { t with now := s.clock, pc := .dropping (s.stale cfg s.clock) })
  | _ => (s.lock t.lock, { t with pc := .releasing })

/-- An unlocked lock is taken at once. Who of those that wait for a locked one is next is left
open. -/
def acquire (cfg : PoolConfig) (s : Pool) (t : Task) (key : Key) : Pool × Task :=
  let (s, lock) := s.keyLock key
  if lock ∈ s.locked then (s, { t with lock, pc := .waiting }) else enter cfg s { t with lock }

def leave (s : Pool) (t : Task) (pc : TaskPc) : Pool × Task := (s.unlock t.lock, { t with pc })

def returns (s : Pool) (t : Task) (conn : Nat) : Pool × Task :=
  t.leave s (.returned conn (decide (conn ∈ s.disconnected)))

def look (cfg : PoolConfig) (s : Pool) (t : Task) (key : Key) : Pool × Task :=
  match s.entries.get? key with
  | none => (s, { t with pc := .making })
  | some entry =>
      if t.now - entry.lastChecked < cfg.healthCheckInterval then
        t.returns (s.touch key { entry with lastUsed := t.now }) entry.conn
      else (s, { t with pc := .checking entry })

def makeRoom (cfg : PoolConfig) (s : Pool) (t : Task) : Pool × Task :=
  if s.entries.entries.length < cfg.maxSize then (s, { t with pc := .connecting })
  else
    match s.entries.entries.head? with
    | none => t.leave s .raised
    | some (key, entry) =>
        if t.now - entry.lastUsed < cfg.minEvictIdle then t.leave s .raised
        else (s.close key, { t with pc := .making })

def getConnection (cfg : PoolConfig) (s : Pool) (t : Task) (key : Key) :
    Answer → Option (Pool × Task)
  | .go =>
      match t.pc with
      | .start => some (t.acquire cfg s key)
      | .waiting => if t.lock ∈ s.locked then none else some (t.enter cfg s)
      | .dropping (key' :: stale) => some (s.close key', { t with pc := .dropping stale })
      | .dropping [] => some (t.look cfg s.pruneLocks key)
      | .making => some (t.makeRoom cfg s)
      | _ => none
  | .verdict alive =>
      match t.pc with
      | .checking entry =>
          if alive = some true then
            some (t.returns (s.touch key ⟨entry.conn, t.now, t.now⟩) entry.conn)
          else some (s.close key, { t with pc := .making })
      | _ => none
  | .connected =>
      match t.pc with
      | .connecting => some (t.returns (s.store key t.now) s.opened.length)
      | _ => none
  | .failed =>
      match t.pc with
      | .connecting => some (t.leave s .raised)
      | _ => none

def release (cfg : PoolConfig) (s : Pool) (t : Task) (key : Key) : Option (Pool × Task) :=
  match t.pc with
  | .start => some (t.acquire cfg s key)
  | .waiting => if t.lock ∈ s.locked then none else some (t.enter cfg s)
  | .releasing => some (s.close key, { t with pc := .ending })
  | .ending => some (t.leave s .done)
  | _ => none

def close (s : Pool) (t : Task) : Option (Pool × Task) :=
  match t.pc with
  | .start => some (s, { t with pc := .closing s.entries.keys })
  | .closing (key :: keys) => some (s.close key, { t with pc := .closing keys })
  | .closing [] => some (s.clear, { t with pc := .done })
  | _ => none

def step (cfg : PoolConfig) (s : Pool) (t : Task) (a : Answer) : Option (Pool × Task) :=
  match t.call with
  | .getConnection key => t.getConnection cfg s key a
  | .release key => if a = .go then t.release cfg s key else none
  | .close => if a = .go then t.close s else none

end Task

/-- The tasks of one pool. The clock goes on by any amount between their steps. -/
def connectionPool (hexdigest : String → String) (cfg : PoolConfig) :
    System Pool Task Nat Request Answer where
  env s seconds := some { s with clock := s.clock + seconds }
  spawn
    | .getConnection ctx => { call := .getConnection (key hexdigest ctx) }
    | .release ctx => { call := .release (key hexdigest ctx) }
    | .close => { call := .close }
  step s t a := t.step cfg s a

def student (name : String) :
    SessionContext := { userId := name, environmentUrl := "http://gns3:3080" }

/-! ### What a step can do -/

def TaskPc.inBody : TaskPc → Bool
  | .dropping _ | .checking _ | .making | .connecting | .releasing | .ending => true
  | _ => false

namespace Task

variable {cfg : PoolConfig} {s s' : Pool} {t t' : Task} {a : Answer}

/-- Whose entry a step closes, and where the task is after it. -/
inductive Closes (cfg : PoolConfig) (s : Pool) (t : Task) : Key → TaskPc → Prop
  | idle {key : Key} {stale : List Key} (hpc : t.pc = .dropping (key :: stale)) : Closes cfg s t key
      (.dropping stale)
  | dead {key : Key} {entry : Entry} (hkey : t.call.key? = some key)
      (hpc : t.pc = .checking entry) :
      Closes cfg s t key .making
  | evicted {key : Key} {entry : Entry} (hpc : t.pc = .making)
      (hfull : cfg.maxSize ≤ s.entries.entries.length)
      (hhead : s.entries.entries.head? = some (key, entry))
        (hcold : cfg.minEvictIdle ≤ t.now - entry.lastUsed) :
      Closes cfg s t key .making
  | released {key : Key} (hkey : t.call.key? = some key) (hpc : t.pc = .releasing) : Closes cfg s t
      key .ending
  | closed {key : Key} {keys : List Key} (hpc : t.pc = .closing (key :: keys)) : Closes cfg s t key
      (.closing keys)

inductive Moves (cfg : PoolConfig) (s : Pool) (t : Task) : Pool → Task → Prop
  | asks {key : Key} (hkey : t.call.key? = some key) (hpc : t.pc = .start) :
      Moves cfg s t (s.keyLock key).1 { t with lock := (s.keyLock key).2, pc := .waiting }
  | comesIn {key : Key} {now : Int} {pc : TaskPc} (hkey : t.call.key? = some key)
      (hpc : t.pc = .start)
      (hfree : (s.keyLock key).2 ∉ s.locked)
        (hfirst : pc = .releasing ∨ ∃ stale, pc = .dropping stale) :
      Moves cfg s t ((s.keyLock key).1.lock (s.keyLock key).2)
        { t with lock := (s.keyLock key).2, now, pc }
  | enters {now : Int} {pc : TaskPc} (hpc : t.pc = .waiting) (hfree : t.lock ∉ s.locked)
      (hfirst : pc = .releasing ∨ ∃ stale, pc = .dropping stale) : Moves cfg s t (s.lock t.lock)
        { t with now, pc }
  | closes {key : Key} {pc : TaskPc} (h : t.Closes cfg s key pc) : Moves cfg s t (s.close key)
      { t with pc }
  | misses {key : Key} (hkey : t.call.key? = some key) (hpc : t.pc = .dropping [])
      (hnone : s.entries.get? key = none) : Moves cfg s t s.pruneLocks { t with pc := .making }
  | checks {key : Key} {entry : Entry} (hkey : t.call.key? = some key) (hpc : t.pc = .dropping [])
      (hentry : s.entries.get? key = some entry) : Moves cfg s t s.pruneLocks
        { t with pc := .checking entry }
  | trusts {key : Key} {entry : Entry} {now : Int} (hkey : t.call.key? = some key)
      (hpc : t.pc = .dropping [])
      (hentry : s.entries.get? key = some entry) :
      Moves cfg s t ((s.pruneLocks.touch key { entry with lastUsed := now }).unlock t.lock)
        { t with pc := .returned entry.conn (decide (entry.conn ∈ s.disconnected)) }
  | passes {key : Key} {entry : Entry} {now : Int} (hkey : t.call.key? = some key)
      (hpc : t.pc = .checking entry) :
      Moves cfg s t ((s.touch key ⟨entry.conn, now, now⟩).unlock t.lock)
        { t with pc := .returned entry.conn (decide (entry.conn ∈ s.disconnected)) }
  | reaches (hpc : t.pc = .making) (hroom : s.entries.entries.length < cfg.maxSize) :
      Moves cfg s t s { t with pc := .connecting }
  | connects {key : Key} {now : Int} (hkey : t.call.key? = some key) (hpc : t.pc = .connecting) :
      Moves cfg s t ((s.store key now).unlock t.lock)
        { t with pc := .returned s.opened.length (decide (s.opened.length ∈ s.disconnected)) }
  | leaves {pc : TaskPc} (hpc : t.pc = .making ∨ t.pc = .connecting ∨ t.pc = .ending)
      (hleft : pc = .raised ∨ pc = .done) : Moves cfg s t (s.unlock t.lock) { t with pc }
  | lists (hpc : t.pc = .start) : Moves cfg s t s { t with pc := .closing s.entries.keys }
  | clears (hpc : t.pc = .closing []) : Moves cfg s t s.clear { t with pc := .done }

theorem acquire_moves {key : Key} (hkey : t.call.key? = some key) (hpc : t.pc = .start) :
    t.Moves cfg s (t.acquire cfg s key).1 (t.acquire cfg s key).2 := by
  unfold acquire
  simp only [Pool.keyLock_locked]
  split
  · exact .asks hkey hpc
  · rename_i hfree
    unfold enter
    split
    · exact .comesIn hkey hpc hfree (Or.inr ⟨_, rfl⟩)
    · exact .comesIn hkey hpc hfree (Or.inl rfl)

theorem enter_moves (hpc : t.pc = .waiting) (hfree : t.lock ∉ s.locked) :
    t.Moves cfg s (t.enter cfg s).1 (t.enter cfg s).2 := by
  unfold enter
  split
  · exact .enters hpc hfree (Or.inr ⟨_, rfl⟩)
  · exact .enters hpc hfree (Or.inl rfl)

theorem look_moves {key : Key} (hkey : t.call.key? = some key) (hpc : t.pc = .dropping []) :
    t.Moves cfg s (t.look cfg s.pruneLocks key).1 (t.look cfg s.pruneLocks key).2 := by
  unfold look
  split
  · rename_i hnone
    exact .misses (s := s) hkey hpc hnone
  · rename_i entry hentry
    split
    · rw [returns, Pool.touch_disconnected]
      exact .trusts (s := s) hkey hpc hentry
    · exact .checks (s := s) hkey hpc hentry

theorem makeRoom_moves (hpc : t.pc = .making) :
    t.Moves cfg s (t.makeRoom cfg s).1 (t.makeRoom cfg s).2 := by
  unfold makeRoom
  split
  · rename_i hroom
    exact .reaches hpc hroom
  · rename_i hfull
    split
    · exact .leaves (Or.inl hpc) (Or.inl rfl)
    · rename_i key entry hhead
      split
      · exact .leaves (Or.inl hpc) (Or.inl rfl)
      · rename_i hcold
        exact .closes (.evicted hpc (by omega) hhead (by omega))

theorem moves_of_eq {r : Pool × Task} (hmoves : t.Moves cfg s r.1 r.2)
    (h : some r = some (s', t')) :
    t.Moves cfg s s' t' := by
  rw [Option.some.inj h] at hmoves
  exact hmoves

theorem getConnection_moves {key : Key} (hkey : t.call.key? = some key)
    (h : t.getConnection cfg s key a = some (s', t')) : t.Moves cfg s s' t' := by
  cases a with
  | go =>
      cases hpc : t.pc with
      | start =>
          simp only [getConnection, hpc] at h
          exact moves_of_eq (acquire_moves hkey hpc) h
      | waiting =>
          simp only [getConnection, hpc] at h
          split at h
          · cases h
          · rename_i hfree
            exact moves_of_eq (enter_moves hpc hfree) h
      | dropping stale =>
          cases stale with
          | nil =>
              simp only [getConnection, hpc] at h
              exact moves_of_eq (look_moves hkey hpc) h
          | cons key' stale =>
              simp only [getConnection, hpc] at h
              cases h
              exact .closes (.idle hpc)
      | making =>
          simp only [getConnection, hpc] at h
          exact moves_of_eq (makeRoom_moves hpc) h
      | _ => simp [getConnection, hpc] at h
  | verdict alive =>
      cases hpc : t.pc with
      | checking entry =>
          simp only [getConnection, hpc] at h
          split at h
          · cases h
            rw [Pool.touch_disconnected]
            exact .passes hkey hpc
          · cases h
            exact .closes (.dead hkey hpc)
      | _ => simp [getConnection, hpc] at h
  | connected =>
      cases hpc : t.pc with
      | connecting =>
          simp only [getConnection, hpc] at h
          cases h
          exact .connects hkey hpc
      | _ => simp [getConnection, hpc] at h
  | failed =>
      cases hpc : t.pc with
      | connecting =>
          simp only [getConnection, hpc] at h
          cases h
          exact .leaves (Or.inr (Or.inl hpc)) (Or.inl rfl)
      | _ => simp [getConnection, hpc] at h

theorem release_moves {key : Key} (hkey : t.call.key? = some key)
    (h : t.release cfg s key = some (s', t')) :
    t.Moves cfg s s' t' := by
  cases hpc : t.pc with
  | start =>
      simp only [release, hpc] at h
      exact moves_of_eq (acquire_moves hkey hpc) h
  | waiting =>
      simp only [release, hpc] at h
      split at h
      · cases h
      · rename_i hfree
        exact moves_of_eq (enter_moves hpc hfree) h
  | releasing =>
      simp only [release, hpc] at h
      cases h
      exact .closes (.released hkey hpc)
  | ending =>
      simp only [release, hpc] at h
      cases h
      exact .leaves (Or.inr (Or.inr hpc)) (Or.inr rfl)
  | _ => simp [release, hpc] at h

theorem close_moves (h : t.close s = some (s', t')) : t.Moves cfg s s' t' := by
  cases hpc : t.pc with
  | start =>
      simp only [close, hpc] at h
      cases h
      exact .lists hpc
  | closing keys =>
      cases keys with
      | nil =>
          simp only [close, hpc] at h
          cases h
          exact .clears hpc
      | cons key keys =>
          simp only [close, hpc] at h
          cases h
          exact .closes (.closed hpc)
  | _ => simp [close, hpc] at h

theorem step_moves (h : t.step cfg s a = some (s', t')) : t.Moves cfg s s' t' := by
  cases hcall : t.call with
  | getConnection key =>
      simp only [step, hcall] at h
      exact getConnection_moves (by rw [hcall]; rfl) h
  | release key =>
      simp only [step, hcall] at h
      split at h
      · exact release_moves (by rw [hcall]; rfl) h
      · cases h
  | close =>
      simp only [step, hcall] at h
      split at h
      · exact close_moves h
      · cases h

end Task

end OnlinetLabs.McpSdk
