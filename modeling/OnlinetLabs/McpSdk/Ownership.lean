import OnlinetLabs.McpSdk.ConnectionPool

/-!
# Whose connection is whose

Three things can come between a call and its connection. The table of key locks forgets a lock that
looks unlocked while a call already waits for it, and `close` forgets them all. `close` also empties
the entries without closing them. And an entry is closed by the calls of other keys while its own
call awaits the health check on it.
-/

namespace OnlinetLabs.McpSdk

open Interleaving

def Pool.holding (s : Pool) (key : Key) : Option Nat := (s.entries.get? key).map Entry.conn

def Accounted (s : Pool) (key : Key) (conn : Nat) : Prop :=
  (s.holding key = some conn ∧ s.disconnected.count conn = 0)
    ∨ (s.holding key ≠ some conn ∧ s.disconnected.count conn = 1)

structure Owned (c : Conf Pool Task) : Prop where
  one : ∀ key, Exclusive (fun t : Task => t.call.key? = some key ∧ t.pc.inBody = true) c.procs
  accounted : ∀ conn key, c.shared.opened[conn]? = some key → Accounted c.shared key conn
  returned : ∀ t ∈ c.procs, ∀ conn disconnected, t.pc = .returned conn disconnected →
    disconnected = false

def TaskPc.isChecking : TaskPc → Bool
  | .checking _ => true
  | _ => false

/-- The key whose entry the next step of a task closes without having to be of that key. -/
def Task.closesOf (cfg : PoolConfig) (s : Pool) (t : Task) : Option Key :=
  match t.pc with
  | .dropping (key :: _) => some key
  | .closing (key :: _) => some key
  | .making =>
      if s.entries.entries.length < cfg.maxSize then none
      else (s.entries.entries.head?.filter fun lru =>
        decide (cfg.minEvictIdle ≤ t.now - lru.2.lastUsed)).map Prod.fst
  | _ => none

/-- No entry is closed under the health check of its own call, no lock is forgotten that a call
waits for, and `close` ends only when the pool is empty and nobody uses it. -/
def Spares (cfg : PoolConfig) (c : Conf Pool Task) : Label Nat Request Answer → Prop
  | .run pid _ =>
      ∀ t ∈ c.procs[pid]?,
        (∀ key ∈ t.closesOf cfg c.shared, ∀ q ∈ c.procs, q.pc.isChecking = true →
          q.call.key? ≠ some key)
        ∧ (t.pc = .dropping [] → ∀ q ∈ c.procs, q.pc = .waiting → ∀ key ∈ q.call.key?,
            (c.shared.entries.get? key).isSome = true ∨ q.lock ∈ c.shared.locked)
        ∧ (t.pc = .closing [] →
            c.shared.entries = {} ∧ ∀ q ∈ c.procs, q.pc ≠ .waiting ∧ q.pc.inBody = false)
  | _ => True

namespace Pool

variable {s : Pool}

theorem holding_close (key k : Key) :
    (s.close key).holding k = if k = key then none else s.holding k := by
  unfold close
  split
  · rename_i hnone
    split
    · rename_i heq
      rw [heq, holding, hnone]
      rfl
    · rfl
  · unfold holding
    simp only [Dict.get?_erase]
    split <;> rfl

theorem holding_store (key k : Key) (now : Int) :
    (s.store key now).holding k = if k = key then some s.opened.length else s.holding k := by
  unfold holding store
  simp only [Dict.get?_set, Dict.get?_erase]
  split <;> rfl

theorem holding_touch (key k : Key) (entry : Entry) :
    (s.touch key entry).holding k = s.holding k := by
  unfold touch
  split
  · rfl
  · rename_i held hheld
    unfold holding
    simp only [Dict.get?_set, Dict.get?_erase]
    split
    · rename_i heq
      rw [heq, hheld, Option.map_some, Option.map_some]
      split
      · rename_i hsame
        rw [hsame]
      · rfl
    · rfl

theorem touch_opened (key : Key) (entry : Entry) : (s.touch key entry).opened = s.opened := by
  unfold touch
  split <;> rfl

theorem close_opened (key : Key) : (s.close key).opened = s.opened := by
  unfold close
  split <;> rfl

/-- The entries hold open connections of their keys, and what is not held was closed once. -/
structure Sound (s : Pool) : Prop where
  owner : ∀ {key conn}, s.holding key = some conn → s.opened[conn]? = some key
  ids : ∀ conn ∈ s.disconnected, conn < s.opened.length
  accounted : ∀ {conn key}, s.opened[conn]? = some key → Accounted s key conn

theorem Sound.congr {s' : Pool} (h : s.Sound) (hholding : ∀ key, s'.holding key = s.holding key)
    (hopened : s'.opened = s.opened) (hdisconnected : s'.disconnected = s.disconnected) :
    s'.Sound := by
  refine ⟨fun {key conn} hheld => ?_, ?_, fun {conn key} hconn => ?_⟩
  · rw [hopened]
    exact h.owner (hholding key ▸ hheld)
  · rw [hopened, hdisconnected]
    exact h.ids
  · rw [hopened] at hconn
    rw [Accounted, hholding, hdisconnected]
    exact h.accounted hconn

/-- What an entry holds is open. -/
theorem Sound.isOpen (h : s.Sound) {key : Key} {conn : Nat} (hheld : s.holding key = some conn) :
    conn ∉ s.disconnected := by
  rcases h.accounted (h.owner hheld) with ⟨-, hcount⟩ | ⟨hnot, -⟩
  · exact List.count_eq_zero.mp hcount
  · exact absurd hheld hnot

theorem Sound.close (h : s.Sound) (key : Key) : (s.close key).Sound := by
  rcases Option.eq_none_or_eq_some (s.entries.get? key) with hnone | ⟨entry, hentry⟩
  · have hsame : s.close key = s := by
      unfold Pool.close
      rw [hnone]
    rw [hsame]
    exact h
  · have hheld : s.holding key = some entry.conn := by rw [holding, hentry]; rfl
    have hdisconnected : (s.close key).disconnected = s.disconnected ++ [entry.conn] := by
      unfold Pool.close
      rw [hentry]
    refine ⟨fun {k conn} hk => ?_, fun conn hconn => ?_, fun {conn k} hconn => ?_⟩
    · rw [holding_close] at hk
      rw [close_opened]
      split at hk
      · cases hk
      · exact h.owner hk
    · rw [hdisconnected] at hconn
      rw [close_opened]
      rcases List.mem_append.mp hconn with hold | hnew
      · exact h.ids conn hold
      · rw [List.mem_singleton.mp hnew]
        exact (List.getElem?_eq_some_iff.mp (h.owner hheld)).1
    · rw [close_opened] at hconn
      rw [Accounted, holding_close, hdisconnected, List.count_append, List.count_singleton]
      rcases h.accounted hconn with ⟨hk, hcount⟩ | ⟨hk, hcount⟩
      · by_cases hkey : k = key
        · have hconnEq : entry.conn = conn := by
            rw [hkey, hheld] at hk
            exact Option.some.inj hk
          right
          simp [hkey, hcount, hconnEq]
        · left
          have hne : entry.conn ≠ conn := by
            intro heq
            have hother := h.owner hheld
            rw [heq, hconn] at hother
            exact hkey (Option.some.inj hother)
          simp [hkey, hk, hcount, hne]
      · right
        have hne : entry.conn ≠ conn := by
          intro heq
          have hopen := h.isOpen hheld
          rw [heq, ← List.count_eq_zero, hcount] at hopen
          cases hopen
        refine ⟨?_, by simp [hcount, hne]⟩
        split
        · rintro ⟨⟩
        · exact hk

theorem Sound.store (h : s.Sound) {key : Key} (hnone : s.holding key = none) (now : Int) :
    (s.store key now).Sound := by
  have hnew : s.opened.length ∉ s.disconnected := fun hmem => absurd (h.ids _ hmem)
      (Nat.lt_irrefl _)
  refine ⟨fun {k conn} hk => ?_, fun conn hconn => ?_, fun {conn k} hconn => ?_⟩
  · rw [holding_store] at hk
    show (s.opened ++ [key])[conn]? = some k
    split at hk
    · rename_i heq
      cases hk
      rw [heq, List.getElem?_concat_length]
    · rw [List.getElem?_append_left (List.getElem?_eq_some_iff.mp (h.owner hk)).1]
      exact h.owner hk
  · show conn < (s.opened ++ [key]).length
    have hlt := h.ids conn hconn
    rw [List.length_append]
    omega
  · change (s.opened ++ [key])[conn]? = some k at hconn
    have hdisconnected : (s.store key now).disconnected = s.disconnected := rfl
    rw [Accounted, holding_store, hdisconnected]
    rw [List.getElem?_append] at hconn
    split at hconn
    · rename_i hlt
      rcases h.accounted hconn with ⟨hk, hcount⟩ | ⟨hk, hcount⟩
      · left
        have hkey : k ≠ key := by
          rintro rfl
          rw [hnone] at hk
          cases hk
        rw [if_neg hkey]
        exact ⟨hk, hcount⟩
      · right
        refine ⟨?_, hcount⟩
        split
        · intro heq
          have := Option.some.inj heq
          omega
        · exact hk
    · rename_i hge
      rw [List.getElem?_singleton] at hconn
      split at hconn
      · rename_i hzero
        have hconnEq : conn = s.opened.length := by omega
        cases hconn
        left
        rw [if_pos rfl, hconnEq]
        exact ⟨rfl, List.count_eq_zero.mpr hnew⟩
      · cases hconn

end Pool

/-! ### The locks of the keys -/

def Task.usesLock (t : Task) : Prop := t.pc = .waiting ∨ t.pc.inBody = true

/-- The table knows every lock in use, whoever is in a body has locked his lock, and no two have the
same. -/
structure LocksKept (s : Pool) (tasks : List Task) : Prop where
  known : ∀ t ∈ tasks, t.usesLock → ∀ key, t.call.key? = some key →
    s.keyLocks.get? key = some t.lock
  locked : ∀ t ∈ tasks, t.pc.inBody = true → t.lock ∈ s.locked
  one : ∀ lock, Exclusive (fun t : Task => t.pc.inBody = true ∧ t.lock = lock) tasks

namespace LocksKept

variable {cfg : PoolConfig} {s s' : Pool} {tasks : List Task} {pid : Nat} {t t' : Task}

theorem oneOfKey (h : LocksKept s tasks) (key : Key) :
    Exclusive (fun t : Task => t.call.key? = some key ∧ t.pc.inBody = true) tasks := by
  rintro i j p q hi hj ⟨hpkey, hp⟩ ⟨hqkey, hq⟩
  have hplock := h.known p (mem_of_getElem? hi) (Or.inr hp) key hpkey
  have hqlock := h.known q (mem_of_getElem? hj) (Or.inr hq) key hqkey
  have hsame : q.lock = p.lock := Option.some.inj (hqlock.symm.trans hplock)
  exact h.one p.lock i j p q hi hj ⟨hp, rfl⟩ ⟨hq, hsame⟩

theorem shared (h : LocksKept s tasks) (hlocked : s'.locked = s.locked)
    (hknown : ∀ t ∈ tasks, t.usesLock → ∀ key, t.call.key? = some key →
      s.keyLocks.get? key = some t.lock → s'.keyLocks.get? key = some t.lock) :
        LocksKept s' tasks := by
  refine ⟨fun t ht huses key hkey =>
    hknown t ht huses key hkey (h.known t ht huses key hkey), ?_, h.one⟩
  rw [hlocked]
  exact h.locked

/-- A step that stays where it is with its lock, or never had one. -/
theorem stays (h : LocksKept s tasks) (hpid : tasks[pid]? = some t) {pc : TaskPc}
    (hpc : pc ≠ .waiting)
    (hbody : pc.inBody = true → t.pc.inBody = true) :
    LocksKept s (tasks.set pid { t with pc }) := by
  have ht := mem_of_getElem? hpid
  refine ⟨forall_mem_set h.known ?_, forall_mem_set h.locked ?_, fun lock =>
    (h.one lock).set hpid ?_⟩
  · intro huses key hkey
    exact h.known t ht (Or.inr (hbody (huses.resolve_left hpc))) key hkey
  · exact fun hin => h.locked t ht (hbody hin)
  · exact fun hin => ⟨hbody hin.1, hin.2⟩

theorem waits (h : LocksKept s tasks) (hpid : tasks[pid]? = some t) {key : Key}
    (hkey : t.call.key? = some key) :
    LocksKept (s.keyLock key).1 (tasks.set pid
      { t with lock := (s.keyLock key).2, pc := .waiting }) := by
  have hgrow : (s.keyLock key).1.keyLocks.get? key = some (s.keyLock key).2
      ∧ ∀ k lock, s.keyLocks.get? k = some lock →
        (s.keyLock key).1.keyLocks.get? k = some lock := by
    unfold Pool.keyLock
    split
    · rename_i lock hlock
      exact ⟨hlock, fun _ _ hk => hk⟩
    · rename_i hnone
      refine ⟨by simp only [Dict.get?_set, if_true], fun k lock hk => ?_⟩
      have hne : k ≠ key := by
        rintro rfl
        rw [hnone] at hk
        cases hk
      simp only [Dict.get?_set, if_neg hne, hk]
  refine ⟨forall_mem_set ?_ ?_, forall_mem_set ?_ (by rintro ⟨⟩), fun lock =>
    (h.one lock).set hpid ?_⟩
  · exact fun q hq huses k hk => hgrow.2 k q.lock (h.known q hq huses k hk)
  · intro _ k hk
    rw [hkey, Option.some.injEq] at hk
    rw [← hk]
    exact hgrow.1
  · rw [Pool.keyLock_locked]
    exact h.locked
  · rintro ⟨⟨⟩, -⟩

theorem enters (h : LocksKept s tasks) (hpid : tasks[pid]? = some t) (hwaiting : t.pc = .waiting)
    (hfree : t.lock ∉ s.locked) (now : Int) (pc : TaskPc) :
    LocksKept (s.lock t.lock) (tasks.set pid { t with now, pc }) := by
  have ht := mem_of_getElem? hpid
  refine ⟨forall_mem_set h.known ?_, forall_mem_set ?_ ?_, fun lock => ?_⟩
  · exact fun _ => h.known t ht (Or.inl hwaiting)
  · exact fun q hq hin => List.mem_cons_of_mem _ (h.locked q hq hin)
  · exact fun _ => List.mem_cons_self
  · by_cases hlock : t.lock = lock
    · apply Exclusive.of_none
      rintro q hq ⟨hin, hqlock⟩
      exact hfree (hlock.trans hqlock.symm ▸ h.locked q hq hin)
    · exact (h.one lock).set hpid fun hin => absurd hin.2 hlock

theorem leaves (h : LocksKept s tasks) (hpid : tasks[pid]? = some t) (hin : t.pc.inBody = true)
    {pc : TaskPc}
    (hpc : pc ≠ .waiting) (hout : pc.inBody = false) :
    LocksKept (s.unlock t.lock) (tasks.set pid { t with pc }) := by
  have hnot : ¬ pc.inBody = true := by
    rw [hout]
    exact Bool.false_ne_true
  refine ⟨forall_mem_set h.known fun huses => absurd huses (not_or.mpr ⟨hpc, hnot⟩), ?_,
    fun lock => ?_⟩
  · refine forall_mem_set_of_ne (fun i q hi hne hq => ?_) fun hbody => absurd hbody hnot
    have hother : q.lock ≠ t.lock := fun heq =>
        hne (h.one t.lock i pid q t hi hpid ⟨hq, heq⟩ ⟨hin, rfl⟩)
    exact List.mem_filter.mpr ⟨h.locked q (mem_of_getElem? hi) hq, decide_eq_true hother⟩
  · exact (h.one lock).set hpid fun hbody => absurd hbody.1 hnot

/-- Pruning forgets no lock that is locked, and none that a waiting call still has in the pool. -/
theorem pruned (h : LocksKept s tasks)
    (hspares : ∀ q ∈ tasks, q.pc = .waiting → ∀ key ∈ q.call.key?,
      (s.entries.get? key).isSome = true ∨ q.lock ∈ s.locked) : LocksKept s.pruneLocks tasks := by
  refine h.shared rfl fun q hq huses key hkey hlock => ?_
  refine Dict.get?_filter hlock ?_
  simp only [Bool.or_eq_true, decide_eq_true_eq]
  rcases huses with hwaiting | hin
  · exact hspares q hq hwaiting key hkey
  · exact Or.inr (h.locked q hq hin)

end LocksKept

section Steps

variable {hexdigest : String → String} {cfg : PoolConfig} {s s' : Pool} {tasks : List Task}
  {pid : Nat}
  {t t' : Task} {a : Answer}

theorem Task.Closes.pc {key : Key} {pc : TaskPc} (h : t.Closes cfg s key pc) :
    pc ≠ .waiting ∧ (pc.inBody = true → t.pc.inBody = true) := by
  cases h with
  | idle hpc | dead _ hpc | evicted hpc | released _ hpc =>
      exact ⟨by rintro ⟨⟩, fun _ => by rw [hpc]; rfl⟩
  | closed hpc => exact ⟨by rintro ⟨⟩, by rintro ⟨⟩⟩

theorem locksKept_step (h : LocksKept s tasks) (hpid : tasks[pid]? = some t)
    (hspares : Spares cfg ⟨s, tasks⟩ (.run pid a)) (hmoves : t.Moves cfg s s' t') :
    LocksKept s' (tasks.set pid t') := by
  have hlt : pid < tasks.length := (List.getElem?_eq_some_iff.mp hpid).1
  obtain ⟨-, hprune, hclear⟩ := hspares t hpid
  have htouch : ∀ (s₀ : Pool) (key : Key) (entry : Entry),
      LocksKept s₀ tasks → LocksKept (s₀.touch key entry) tasks := by
    intro s₀ key entry h₀
    refine h₀.shared ?_ fun _ _ _ _ _ hlock => ?_
    all_goals
      unfold Pool.touch
      split
    · rfl
    · rfl
    · exact hlock
    · exact hlock
  cases hmoves with
  | asks hkey hpc => exact h.waits hpid hkey
  | @comesIn key now pc hkey hpc hfree hfirst =>
      have hwaits := h.waits hpid hkey
      have hat := List.getElem?_set_self (a :=
        { t with lock := (s.keyLock key).2, pc := .waiting }) hlt
      have henters := hwaits.enters hat rfl (by rw [Pool.keyLock_locked]; exact hfree) now pc
      rw [List.set_set] at henters
      exact henters
  | enters hpc hfree hfirst => exact h.enters hpid hpc hfree _ _
  | @closes key pc hcloses =>
      have hstays := h.stays hpid hcloses.pc.1 hcloses.pc.2
      refine hstays.shared ?_ fun _ _ _ _ _ hlock => ?_
      all_goals
        unfold Pool.close
        split
      · rfl
      · rfl
      · exact hlock
      · exact hlock
  | misses hkey hpc hnone =>
      exact (h.pruned (hprune hpc)).stays hpid (by rintro ⟨⟩) fun _ => by rw [hpc]; rfl
  | checks hkey hpc hentry =>
      exact (h.pruned (hprune hpc)).stays hpid (by rintro ⟨⟩) fun _ => by rw [hpc]; rfl
  | trusts hkey hpc hentry =>
      exact (htouch _ _ _ (h.pruned (hprune hpc))).leaves hpid (by rw [hpc]; rfl) (by rintro ⟨⟩) rfl
  | passes hkey hpc => exact (htouch _ _ _ h).leaves hpid (by rw [hpc]; rfl) (by rintro ⟨⟩) rfl
  | reaches hpc hroom => exact h.stays hpid (by rintro ⟨⟩) fun _ => by rw [hpc]; rfl
  | @connects key now hkey hpc =>
      have hstored : LocksKept (s.store key now) tasks := h.shared rfl fun _ _ _ _ _ hlock => hlock
      exact hstored.leaves hpid (by rw [hpc]; rfl) (by rintro ⟨⟩) rfl
  | leaves hpc hleft =>
      have hin : t.pc.inBody = true := by
        rcases hpc with hpc | hpc | hpc <;> rw [hpc] <;> rfl
      rcases hleft with rfl | rfl
      · exact h.leaves hpid hin (by rintro ⟨⟩) rfl
      · exact h.leaves hpid hin (by rintro ⟨⟩) rfl
  | lists hpc => exact h.stays hpid (by rintro ⟨⟩) (by rintro ⟨⟩)
  | clears hpc =>
      obtain ⟨-, hidle⟩ := hclear hpc
      have hstays : LocksKept s (tasks.set pid { t with pc := .done }) :=
        h.stays hpid (by rintro ⟨⟩) (by rintro ⟨⟩)
      refine hstays.shared rfl ?_
      refine forall_mem_set (fun q hq huses => ?_) ?_
      · rcases huses with hwaiting | hin
        · exact absurd hwaiting (hidle q hq).1
        · rw [(hidle q hq).2] at hin
          cases hin
      · rintro (⟨⟨⟩⟩ | ⟨⟨⟩⟩)

/-! ### What a task finds under its key -/

/-- The pcs with nothing to find, and the return of an open connection. -/
def TaskPc.isFree : TaskPc → Bool
  | .checking _ | .making | .connecting => false
  | .returned _ disconnected => !disconnected
  | _ => true

structure Task.Finds (s : Pool) (t : Task) : Prop where
  checking : ∀ entry, t.pc = .checking entry → ∀ key, t.call.key? = some key →
    s.holding key = some entry.conn
  absent : t.pc = .making ∨ t.pc = .connecting → ∀ key, t.call.key? = some key →
    s.holding key = none
  returned : ∀ conn disconnected, t.pc = .returned conn disconnected → disconnected = false

/-- Where a task that looks at its entry finds the same. -/
theorem Task.Finds.frame (h : t.Finds s)
    (hsame : t.pc.inBody = true → ∀ key, t.call.key? = some key → s'.holding key = s.holding key) :
    t.Finds s' := by
  refine ⟨fun entry hpc key hkey => ?_, fun hpc key hkey => ?_, h.returned⟩
  · rw [hsame (by rw [hpc]; rfl) key hkey]
    exact h.checking entry hpc key hkey
  · have hin : t.pc.inBody = true := by
      rcases hpc with hpc | hpc <;> rw [hpc] <;> rfl
    rw [hsame hin key hkey]
    exact h.absent hpc key hkey

theorem Task.finds_of (hpc : t.pc.isFree = true) : t.Finds s := by
  refine ⟨fun entry heq => ?_, fun heq => ?_, fun conn disconnected heq => ?_⟩
  · rw [heq] at hpc
    cases hpc
  · rcases heq with heq | heq
    · rw [heq] at hpc
      cases hpc
    · rw [heq] at hpc
      cases hpc
  · rw [heq] at hpc
    cases disconnected with
    | false => rfl
    | true => cases hpc

/-- What closing an entry leaves for the others: an entry being checked is not the one closed. -/
theorem Task.Finds.close {key : Key} (h : t.Finds s)
    (hother : t.pc.isChecking = true → t.call.key? ≠ some key) :
    t.Finds (s.close key) := by
  refine ⟨fun entry hpc k hk => ?_, fun hpc k hk => ?_, h.returned⟩
  · have hne : k ≠ key := by
      rintro rfl
      exact hother (by rw [hpc]; rfl) hk
    rw [Pool.holding_close, if_neg hne]
    exact h.checking entry hpc k hk
  · rw [Pool.holding_close, h.absent hpc k hk]
    exact ite_self none

/-- **What a step finds and leaves.** -/
theorem finds_step (hlocks : LocksKept s tasks) (hsound : s.Sound) (h : ∀ t ∈ tasks, t.Finds s)
    (hpid : tasks[pid]? = some t) (hspares : Spares cfg ⟨s, tasks⟩ (.run pid a))
    (hmoves : t.Moves cfg s s' t') :
    s'.Sound ∧ ∀ q ∈ tasks.set pid t', q.Finds s' := by
  have ht := h t (mem_of_getElem? hpid)
  obtain ⟨hchecked, -, hclear⟩ := hspares t hpid
  -- The steps that leave every key what it has.
  have hsame : ∀ {s' : Pool} {t' : Task}, (∀ key, s'.holding key = s.holding key) →
      s'.opened = s.opened →
      s'.disconnected = s.disconnected → t'.Finds s → s'.Sound ∧ ∀ q ∈ tasks.set pid t',
        q.Finds s' := by
    intro s' t' hholding hopened hdisconnected ht'
    exact ⟨hsound.congr hholding hopened hdisconnected,
      forall_mem_set (fun q hq => (h q hq).frame fun _ key _ => hholding key)
        (ht'.frame fun _ key _ => hholding key)⟩
  have hkeyLock : ∀ key, (s.keyLock key).1.entries = s.entries ∧ (s.keyLock key).1.opened = s.opened
      ∧ (s.keyLock key).1.disconnected = s.disconnected := by
    intro key
    unfold Pool.keyLock
    split <;> exact ⟨rfl, rfl, rfl⟩
  cases hmoves with
  | @asks key hkey hpc =>
      obtain ⟨hentries, hopened, hdisconnected⟩ := hkeyLock key
      refine hsame (fun k => by unfold Pool.holding; rw [hentries]) hopened hdisconnected ?_
      exact Task.finds_of rfl
  | @comesIn key now pc hkey hpc hfree hfirst =>
      obtain ⟨hentries, hopened, hdisconnected⟩ := hkeyLock key
      refine hsame (fun k => ?_) hopened hdisconnected ?_
      · show ((s.keyLock key).1.entries.get? k).map Entry.conn = _
        rw [hentries]
        rfl
      · rcases hfirst with rfl | ⟨stale, rfl⟩
        · exact Task.finds_of rfl
        · exact Task.finds_of rfl
  | enters hpc hfree hfirst =>
      refine hsame (fun _ => rfl) rfl rfl ?_
      rcases hfirst with rfl | ⟨stale, rfl⟩
      · exact Task.finds_of rfl
      · exact Task.finds_of rfl
  | @closes key pc hcloses =>
      refine ⟨hsound.close key, forall_mem_set_of_ne (fun i q hi hne => ?_) ?_⟩
      · refine (h q (mem_of_getElem? hi)).close fun hchecking => ?_
        have hq : q.pc.inBody = true := by
          cases hqpc : q.pc with
          | checking => rfl
          | _ => rw [hqpc] at hchecking; cases hchecking
        cases hcloses with
        | idle hpc =>
            exact hchecked key (by rw [Task.closesOf, hpc]; rfl) q (mem_of_getElem? hi) hchecking
        | evicted hpc hfull hhead hcold =>
            refine hchecked key ?_ q (mem_of_getElem? hi) hchecking
            simp only [Task.closesOf, hpc, if_neg (Nat.not_lt.mpr hfull), hhead, Option.filter_some,
              decide_eq_true hcold]
            rfl
        | closed hpc =>
            exact hchecked key (by rw [Task.closesOf, hpc]; rfl) q (mem_of_getElem? hi) hchecking
        | dead hkey hpc =>
            exact fun hqkey =>
              hne (hlocks.oneOfKey key i pid q t hi hpid ⟨hqkey, hq⟩ ⟨hkey, by rw [hpc]; rfl⟩)
        | released hkey hpc =>
            exact fun hqkey =>
              hne (hlocks.oneOfKey key i pid q t hi hpid ⟨hqkey, hq⟩ ⟨hkey, by rw [hpc]; rfl⟩)
      · cases hcloses with
        | idle | released | closed =>
            exact Task.finds_of rfl
        | dead hkey hpc =>
            refine ⟨by rintro _ ⟨⟩, fun _ k hk => ?_, by rintro _ _ ⟨⟩⟩
            have hsameKey : key = k := Option.some.inj (hkey.symm.trans hk)
            rw [Pool.holding_close, if_pos hsameKey.symm]
        | evicted hpc hfull hhead hcold =>
            refine ⟨by rintro _ ⟨⟩, fun _ k hk => ?_, by rintro _ _ ⟨⟩⟩
            rw [Pool.holding_close, ht.absent (Or.inl hpc) k hk]
            exact ite_self none
  | misses hkey hpc hnone =>
      refine hsame (fun _ => rfl) rfl rfl ⟨by rintro _ ⟨⟩, fun _ k hk => ?_, by rintro _ _ ⟨⟩⟩
      have hsameKey := Option.some.inj (hkey.symm.trans hk)
      rw [Pool.holding, ← hsameKey, hnone]
      rfl
  | checks hkey hpc hentry =>
      refine hsame (fun _ => rfl) rfl rfl ⟨fun e he k hk => ?_, (by rintro (h | h) <;> cases h), by
        rintro _ _ ⟨⟩⟩
      cases he
      have hsameKey := Option.some.inj (hkey.symm.trans hk)
      rw [Pool.holding, ← hsameKey, hentry]
      rfl
  | @trusts key entry now hkey hpc hentry =>
      have hheld : s.holding key = some entry.conn := by rw [Pool.holding, hentry]; rfl
      refine hsame (Pool.holding_touch _ · _) (Pool.touch_opened _ _)
        (Pool.touch_disconnected _ _ _) ?_
      rw [decide_eq_false (hsound.isOpen hheld)]
      exact Task.finds_of rfl
  | passes hkey hpc =>
      have hheld := ht.checking _ hpc _ hkey
      refine hsame (Pool.holding_touch _ · _) (Pool.touch_opened _ _)
        (Pool.touch_disconnected _ _ _) ?_
      rw [decide_eq_false (hsound.isOpen hheld)]
      exact Task.finds_of rfl
  | reaches hpc hroom =>
      exact hsame (fun _ => rfl) rfl rfl ⟨by rintro _ ⟨⟩, fun _ => ht.absent (Or.inl hpc), by
        rintro _ _ ⟨⟩⟩
  | @connects key now hkey hpc =>
      have hnew : s.opened.length ∉ s.disconnected := fun hmem => absurd (hsound.ids _ hmem)
          (Nat.lt_irrefl _)
      have hstored : (s.store key now).Sound := hsound.store (ht.absent (Or.inr hpc) key hkey) now
      refine ⟨hstored.congr (fun _ => rfl) rfl rfl, forall_mem_set_of_ne (fun i q hi hne => ?_) ?_⟩
      · refine (h q (mem_of_getElem? hi)).frame fun hq k hk => ?_
        have hother : k ≠ key := by
          rintro rfl
          exact hne (hlocks.oneOfKey k i pid q t hi hpid ⟨hk, hq⟩ ⟨hkey, by rw [hpc]; rfl⟩)
        exact (s.holding_store key k now).trans (if_neg hother)
      · rw [decide_eq_false hnew]
        exact Task.finds_of rfl
  | leaves hpc hleft =>
      refine hsame (fun _ => rfl) rfl rfl ?_
      rcases hleft with rfl | rfl
      · exact Task.finds_of rfl
      · exact Task.finds_of rfl
  | lists hpc =>
      refine hsame (fun _ => rfl) rfl rfl ?_
      exact Task.finds_of rfl
  | clears hpc =>
      refine hsame (fun k => ?_) rfl rfl ?_
      · rw [Pool.holding, Pool.holding, (hclear hpc).1]
        rfl
      · exact Task.finds_of rfl

end Steps

/-! ### All runs -/

structure Kept (c : Conf Pool Task) : Prop where
  locks : LocksKept c.shared c.procs
  sound : c.shared.Sound
  finds : ∀ t ∈ c.procs, t.Finds c.shared

variable {hexdigest : String → String} {cfg : PoolConfig} {c c' : Conf Pool Task}
  {l : Label Nat Request Answer}

theorem Kept.owned (h : Kept c) : Owned c :=
  ⟨h.locks.oneOfKey, fun _ _ => h.sound.accounted, fun t ht => (h.finds t ht).returned⟩

theorem kept_next (h : Kept c) (hspares : Spares cfg c l)
    (hnext : (connectionPool hexdigest cfg).next c l = some c') : Kept c' := by
  rcases (connectionPool hexdigest cfg).next_cases hnext with ⟨e, s, rfl, henv, rfl⟩
    | ⟨request, rfl, rfl⟩
    | ⟨pid, a, t, s, t', rfl, hpid, hstep, rfl⟩
  · cases henv
    refine ⟨⟨h.locks.known, h.locks.locked, h.locks.one⟩, h.sound.congr (fun _ => rfl) rfl rfl,
      fun t ht => ?_⟩
    exact (h.finds t ht).frame fun _ _ _ => rfl
  · have hpc : ((connectionPool hexdigest cfg).spawn request).pc = .start := by
      cases request <;> rfl
    have hout : ¬ ((connectionPool hexdigest cfg).spawn request).pc.inBody = true := by
      rw [hpc]
      exact Bool.false_ne_true
    refine ⟨⟨forall_mem_append h.locks.known ?_, forall_mem_append h.locks.locked fun hin =>
      absurd hin hout, ?_⟩, h.sound, forall_mem_append h.finds (Task.finds_of (by rw [hpc]; rfl))⟩
    · rintro (hwaiting | hin)
      · rw [hpc] at hwaiting
        cases hwaiting
      · exact absurd hin hout
    · exact fun lock => (h.locks.one lock).append fun hin => hout hin.1
  · have hmoves := Task.step_moves hstep
    have hfinds := finds_step h.locks h.sound h.finds hpid hspares hmoves
    exact ⟨locksKept_step h.locks hpid hspares hmoves, hfinds.1, hfinds.2⟩

theorem kept_start : Kept ⟨{}, []⟩ := by
  refine ⟨⟨List.forall_mem_nil _, List.forall_mem_nil _, fun _ => exclusive_nil _⟩,
    ⟨?_, List.forall_mem_nil _, ?_⟩, List.forall_mem_nil _⟩
  · rintro key conn ⟨⟩
  · intro conn key hconn
    cases hconn

/-- **When connections have their owners.** As long as no entry is closed under its health check, no
lock is forgotten that a call waits for, and `close` ends on an empty pool that nobody uses, the
calls of one key take turns, every connection is in the pool or was closed once, and no closed one
is returned. -/
theorem connections_owned (hexdigest : String → String) (cfg : PoolConfig)
    (ls : List (Label Nat Request Answer))
    (h : (connectionPool hexdigest cfg).Along (Spares cfg) ⟨{}, []⟩ ls) :
    (connectionPool hexdigest cfg).Throughout Owned ⟨{}, []⟩ ls := by
  have hall : (connectionPool hexdigest cfg).Throughout Kept ⟨{}, []⟩ ls :=
    System.throughout_of_along _ (fun _ _ _ => kept_next) kept_start h
  exact hall.mono _ fun _ => Kept.owned

instance (cfg : PoolConfig) (c : Conf Pool Task) : DecidablePred (Spares cfg c)
  | .run pid _ => inferInstanceAs (Decidable (∀ t ∈ c.procs[pid]?, _ ∧ _ ∧ _))
  | .env _ => .isTrue trivial
  | .spawn _ => .isTrue trivial

/-- A student connects, comes back after the health check is due, and the pool is closed. -/
def comesBack : List (Label Nat Request Answer) :=
  [.spawn (.getConnection (student "ann")), .run 0 .go, .run 0 .go, .run 0 .go,
    .run 0 .connected, .env 60, .spawn (.getConnection (student "ann")), .run 1 .go, .run 1 .go,
    .run 1 (.verdict (some true)), .spawn .close,
    .run 2 .go, .run 2 .go, .run 2 .go]

/-- The second student comes for a connection while the first one's is being checked, and by then it
has been idle for longer than `idle_ttl`. -/
def idleUnderCheck : List (Label Nat Request Answer) :=
  [.spawn (.getConnection (student "ann")), .run 0 .go, .run 0 .go, .run 0 .go,
    .run 0 .connected, .env 590, .spawn (.getConnection (student "ann")), .run 1 .go,
    .run 1 .go, .env 20,
    .spawn (.getConnection (student "bob")), .run 2 .go, .run 2 .go, .run 1 (.verdict (some true))]

theorem connections_owned_comesBack : (connectionPool id {}).Along (Spares {}) ⟨{}, []⟩ comesBack
    ∧ (connectionPool id {}).Throughout Owned ⟨{}, []⟩ comesBack :=
  have hspares : (connectionPool id {}).Along (Spares {}) ⟨{}, []⟩ comesBack := by decide
  ⟨hspares, connections_owned id {} comesBack hspares⟩

theorem closed_connection_returned :
    ¬ (connectionPool id {}).Throughout Owned ⟨{}, []⟩ idleUnderCheck := by
  have hrun : ((connectionPool id {}).exec ⟨{}, []⟩ idleUnderCheck).map
      (fun c => c.procs.map Task.pc)
      = some [.returned 0 false, .returned 0 true, .dropping []] := by decide
  obtain ⟨c, hexec, hpcs⟩ := Option.map_eq_some_iff.mp hrun
  intro hall
  have howned := hall.exec _ hexec
  have hmem : TaskPc.returned 0 true ∈ c.procs.map Task.pc := by
    rw [hpcs]
    exact List.mem_cons_of_mem _ List.mem_cons_self
  obtain ⟨t, ht, hpc⟩ := List.mem_map.mp hmem
  exact absurd (howned.returned t ht 0 true hpc) Bool.noConfusion

end OnlinetLabs.McpSdk
