import Mathlib.Order.Nat
import OnlinetLabs.McpSdk.ConnectionPool

/-!
# How many connections are live

`max_size` is to bound the connections that are open at once. Room is counted in the entries, and a
connection becomes an entry only once `connect` has returned, so a call that finds room does not
count the calls that found it before and are still connecting.
-/

namespace OnlinetLabs.McpSdk

open Interleaving

/-- The connections that `connect` returned and `disconnect` was not called with. -/
def Pool.live (s : Pool) : Nat :=
  (List.range s.opened.length).countP fun conn => decide (conn ∉ s.disconnected)

def Bounded (cfg : PoolConfig) (c : Conf Pool Task) : Prop := c.shared.live ≤ cfg.maxSize

def connecting (tasks : List Task) : Nat := tasks.countP fun t => decide (t.pc = .connecting)

/-- A task that finds fewer entries than `max_size` goes on to connect only when, with the
connections that are being made, fewer than `max_size` are live. -/
def FindsRoom (cfg : PoolConfig) (c : Conf Pool Task) : Label Nat Request Answer → Prop
  | .run pid _ =>
      ∀ t ∈ c.procs[pid]?, t.pc = .making → c.shared.entries.entries.length < cfg.maxSize →
        c.shared.live + connecting c.procs < cfg.maxSize
  | _ => True

namespace Pool

variable {s : Pool}

theorem live_unlock (lock : Nat) : (s.unlock lock).live = s.live := rfl

theorem live_keyLock (key : Key) : (s.keyLock key).1.live = s.live := by
  unfold keyLock
  split <;> rfl

theorem live_touch (key : Key) (entry : Entry) : (s.touch key entry).live = s.live := by
  unfold touch
  split <;> rfl

theorem live_close_le (key : Key) : (s.close key).live ≤ s.live := by
  unfold close
  split
  · exact le_rfl
  · apply List.countP_mono_left
    intro conn _ hlive
    have hnot := of_decide_eq_true hlive
    exact decide_eq_true fun hmem => hnot (List.mem_append_left _ hmem)

theorem live_store_le (key : Key) (now : Int) : (s.store key now).live ≤ s.live + 1 := by
  have hlength : (s.store key now).opened.length = s.opened.length + 1 := List.length_append
  unfold live
  rw [hlength, List.range_succ, List.countP_append]
  exact Nat.add_le_add_left List.countP_le_length _

end Pool

variable {cfg : PoolConfig} {s s' : Pool} {t t' : Task}

/-- A connection is live only where one was being made, and one is being made only where room was
found. -/
theorem Task.Moves.live_le (h : t.Moves cfg s s' t') :
    (t.pc = .making ∧ s.entries.entries.length < cfg.maxSize ∧ s'.live = s.live)
      ∨ s'.live + (if t'.pc = .connecting then 1 else 0)
        ≤ s.live + (if t.pc = .connecting then 1 else 0) := by
  cases h with
  | asks hkey hpc =>
      rw [Pool.live_keyLock]
      exact Or.inr (by simp)
  | @comesIn key now pc hkey hpc hfree hfirst =>
      have hlive : ((s.keyLock key).1.lock (s.keyLock key).2).live = s.live := Pool.live_keyLock key
      rw [hlive]
      rcases hfirst with rfl | ⟨stale, rfl⟩ <;> exact Or.inr (by simp)
  | enters hpc hfree hfirst =>
      have hlive : (s.lock t.lock).live = s.live := rfl
      rw [hlive]
      rcases hfirst with rfl | ⟨stale, rfl⟩ <;> exact Or.inr (by simp)
  | @closes key pc hcloses =>
      have hle := s.live_close_le key
      have hpc : pc ≠ .connecting := by
        cases hcloses <;> simp
      right
      simp only [if_neg hpc]
      omega
  | misses | checks => exact Or.inr (Nat.le_add_right _ _)
  | trusts hkey hpc hentry =>
      rw [Pool.live_unlock, Pool.live_touch]
      exact Or.inr (Nat.le_add_right _ _)
  | passes hkey hpc =>
      rw [Pool.live_unlock, Pool.live_touch]
      exact Or.inr (Nat.le_add_right _ _)
  | reaches hpc hroom => exact Or.inl ⟨hpc, hroom, rfl⟩
  | @connects key now hkey hpc =>
      have hle := s.live_store_le key now
      right
      rw [Pool.live_unlock, hpc]
      simpa using hle
  | leaves hpc hleft =>
      rw [Pool.live_unlock]
      rcases hleft with rfl | rfl <;> exact Or.inr (Nat.le_add_right _ _)
  | lists => exact Or.inr (Nat.le_add_right _ _)
  | clears => exact Or.inr (Nat.le_add_right _ _)

def Fits (cfg : PoolConfig) (c : Conf Pool Task) :
    Prop := c.shared.live + connecting c.procs ≤ cfg.maxSize

variable {hexdigest : String → String} {c c' : Conf Pool Task} {l : Label Nat Request Answer}

theorem fits_next (h : Fits cfg c) (hroom : FindsRoom cfg c l)
    (hnext : (connectionPool hexdigest cfg).next c l = some c') : Fits cfg c' := by
  rcases (connectionPool hexdigest cfg).next_cases hnext with ⟨e, s, rfl, henv, rfl⟩
    | ⟨request, rfl, rfl⟩
    | ⟨pid, a, t, s, t', rfl, hpid, hstep, rfl⟩
  · cases henv
    exact h
  · have hnone : connecting (c.procs ++ [(connectionPool hexdigest cfg).spawn request])
        = connecting c.procs := by
      unfold connecting
      rw [List.countP_append]
      cases request <;> rfl
    rw [Fits, hnone]
    exact h
  · have hmoves := Task.step_moves hstep
    have hcount := countP_set_add (fun t : Task => decide (t.pc = .connecting)) hpid t'
    simp only [decide_eq_true_eq] at hcount
    unfold Fits connecting at h ⊢
    rcases hmoves.live_le with ⟨hpc, hfree, hlive⟩ | hle
    · have hlt := hroom t hpid hpc hfree
      unfold connecting at hlt
      rw [hpc] at hcount
      simp only [reduceCtorEq, if_false] at hcount
      have hone : (if t'.pc = .connecting then 1 else 0) ≤ 1 := by
        split <;> omega
      show s.live + (c.procs.set pid t').countP _ ≤ cfg.maxSize
      omega
    · show s.live + (c.procs.set pid t').countP _ ≤ cfg.maxSize
      omega

/-- **When `max_size` bounds the connections.** As long as every call that goes on to connect finds
room for itself among the live connections and those being made, at most `max_size` are live. -/
theorem connections_bounded (hexdigest : String → String) (cfg : PoolConfig)
    (ls : List (Label Nat Request Answer))
    (h : (connectionPool hexdigest cfg).Along (FindsRoom cfg) ⟨{}, []⟩ ls) :
    (connectionPool hexdigest cfg).Throughout (Bounded cfg) ⟨{}, []⟩ ls := by
  have hall : (connectionPool hexdigest cfg).Throughout (Fits cfg) ⟨{}, []⟩ ls :=
    System.throughout_of_along _ (fun _ _ _ => fits_next) (Nat.zero_le _) h
  exact hall.mono _ fun c hc => (Nat.le_add_right _ _).trans hc

def oneConnection : PoolConfig := { maxSize := 1 }

/-- The second student is served after the first one's connection was given back. -/
def servedInTurn : List (Label Nat Request Answer) :=
  [.spawn (.getConnection (student "ann")), .run 0 .go, .run 0 .go, .run 0 .go, .run 0 .connected,
    .spawn (.release (student "ann")), .run 1 .go, .run 1 .go, .run 1 .go,
    .spawn (.getConnection (student "bob")), .run 2 .go, .run 2 .go, .run 2 .go, .run 2 .connected]

def servedAtOnce : List (Label Nat Request Answer) :=
  [.spawn (.getConnection (student "ann")), .spawn (.getConnection (student "bob")), .run 0 .go,
    .run 0 .go, .run 0 .go, .run 1 .go, .run 1 .go, .run 1 .go, .run 0 .connected,
    .run 1 .connected]

instance (cfg : PoolConfig) (c : Conf Pool Task) : DecidablePred (FindsRoom cfg c)
  | .run pid _ => inferInstanceAs (Decidable (∀ t ∈ c.procs[pid]?, _))
  | .env _ => .isTrue trivial
  | .spawn _ => .isTrue trivial

theorem connections_bounded_servedInTurn :
    (connectionPool id oneConnection).Along (FindsRoom oneConnection) ⟨{}, []⟩ servedInTurn
      ∧ (connectionPool id oneConnection).Throughout (Bounded oneConnection) ⟨{},
        []⟩ servedInTurn :=
  have hroom : (connectionPool id oneConnection).Along (FindsRoom oneConnection) ⟨{},
      []⟩ servedInTurn := by decide
  ⟨hroom, connections_bounded id oneConnection servedInTurn hroom⟩

theorem two_connections_of_one :
    ¬ (connectionPool id oneConnection).Throughout (Bounded oneConnection) ⟨{},
      []⟩ servedAtOnce := by
  have hrun : ((connectionPool id oneConnection).exec ⟨{}, []⟩ servedAtOnce).map
      (fun c => c.shared.live)
      = some 2 := by decide
  obtain ⟨c, hexec, hlive⟩ := Option.map_eq_some_iff.mp hrun
  intro hall
  have hle := hall.exec _ hexec
  rw [Bounded, hlive] at hle
  exact absurd hle (by decide)

end OnlinetLabs.McpSdk
