import OnlinetLabs.Gns3.EventBroker

/-!
# What a client misses of a session

Until its first entry a connection has no place in the stream. What is added while no read of it
blocks is then nowhere ahead of it: the next read starts at the end. A read blocks for five seconds,
so on a quiet session this gap opens again and again. With the first entry it closes for good.
-/

namespace OnlinetLabs.Gns3

open Interleaving

namespace Connection

/-! ### The law -/

/-- The least place the connection can still read. -/
def next (c : Connection) : Option Nat :=
  match c.pc with
  | .reading since => some since
  | .yielding ((id, _) :: _) => some id
  | _ => c.lastId.map (· + 1)

/-- An entry added after the snapshot was read and before the connection ended, still in the stream,
was not sent and never will be. -/
def Misses (stream : EventStream) (c : Connection) (i : Nat) : Prop :=
  (∃ readAt ∈ c.snapshotAt, readAt ≤ i) ∧ i < c.endedAt.getD stream.size ∧ stream.trimmed ≤ i
    ∧ i ∉ c.sent.map Prod.fst ∧ ∀ n ∈ c.next, i < n

/-- The events sent are those published after the snapshot was read, in their order, each once. -/
structure WithoutHoles (stream : EventStream) (c : Connection) : Prop where
  published : ∀ e ∈ c.sent, stream.entries[e.1]? = some (e.2.dumps Json.escapeAscii)
  after : ∀ readAt ∈ c.snapshotAt, ∀ e ∈ c.sent, readAt ≤ e.1
  ordered : (c.sent.map Prod.fst).Pairwise (· < ·)
  whole : ∀ i, ¬ c.Misses stream i

/-! ### The condition -/

/-- The connection has sent no snapshot, has ended, or is ahead of what is added now: it has a place
in the stream, or a read of it blocks. -/
def Listening (c : Connection) : Prop := c.snapshotAt = none ∨ c.endedAt.isSome ∨ c.next.isSome

/-- What the connection may lose with its next step: what was added since the state of its snapshot
was read, or, until it has a place in the stream, while a read that fails blocked. -/
def AtStake (c : Connection) : ConnectionStep → Option Nat
  | .snapshot readAt => readAt
  | .error => if c.lastId = none ∧ c.snapshotAt.isSome then c.next else none
  | _ => none

end Connection

/-- An entry is added while every connection listens, and no other step passes over one. -/
def Heard (c : Conf EventStream Connection) : Label (Json × XAdd) Unit ConnectionStep → Prop
  | .env (_, .added _) => ∀ connection ∈ c.procs, connection.Listening
  | .run pid step => ∀ connection ∈ c.procs[pid]?, ∀ n ∈ connection.AtStake step,
      c.shared.size ≤ max n c.shared.trimmed
  | _ => True

/-! ### What a connection knows -/

namespace Connection

structure Sound (stream : EventStream) (c : Connection) : Prop where
  published : ∀ e ∈ c.sent, stream.entries[e.1]? = some (e.2.dumps Json.escapeAscii)
  after : ∀ readAt ∈ c.snapshotAt, ∀ e ∈ c.sent, readAt ≤ e.1
  ordered : (c.sent.map Prod.fst).Pairwise (· < ·)
  fresh : ∀ readAt ∈ c.snapshotAt, readAt ≤ stream.size ∧ ∀ n ∈ c.next, readAt ≤ n
  ahead : ∀ n ∈ c.next, n ≤ stream.size ∧ ∀ e ∈ c.sent, e.1 < n
  placed : ∀ id ∈ c.lastId, id < stream.size ∧ (∀ e ∈ c.sent, e.1 ≤ id) ∧ ∀ readAt ∈ c.snapshotAt,
    readAt ≤ id
  unplaced : c.lastId = none → c.sent = []
  waits : ∀ since, c.pc = .reading since → ∀ id ∈ c.lastId, since = id + 1
  hand : ∀ rest, c.pc = .yielding rest → rest ≠ [] ∧ ∃ n, stream.Segment n rest
  untold : c.pc = .snapshotting → c.lastId = none

variable {c c' : Connection} {stream stream' : EventStream} {a : ConnectionStep} {i n : Nat}

inductive Moves (stream : EventStream) (c : Connection) : ConnectionStep → Connection → Prop
  | snapshot {readAt : Option Nat} (hpc : c.pc = .snapshotting)
      (hle : ∀ n ∈ readAt, n ≤ stream.size) :
      Moves stream c (.snapshot readAt) { c with pc := .sending, snapshotAt := readAt }
  | idle {a : ConnectionStep} (hpc : c.pc = .sending ∨ c.pc = .sleeping)
      (ha : a = .proceed ∨ a = .awake) : Moves stream c a { c with pc := .looping }
  | read (hpc : c.pc = .looping) : Moves stream c .read { c with pc := .reading (c.since stream) }
  | batch {since count : Nat} {entry : Nat × Text} {rest : List (Nat × Text)}
      (hpc : c.pc = .reading since)
      (hread : stream.read since (min count readCount) = entry :: rest) :
      Moves stream c (.batch count) { c with pc := .yielding (entry :: rest) }
  | timeout {since : Nat} (hpc : c.pc = .reading since) (hread : stream.read since 1 = []) :
      Moves stream c .timeout { c with pc := .looping }
  | error {since : Nat} (hpc : c.pc = .reading since) : Moves stream c .error
      { c with pc := .sleeping }
  | send {id : Nat} {payload : Text} {rest : List (Nat × Text)}
      (hpc : c.pc = .yielding ((id, payload) :: rest)) (sent : List (Nat × Json))
      (hsent : sent = match Json.parse payload with
        | none => c.sent
        | some event => c.sent ++ [(id, event)]) :
      Moves stream c .send { c with
        lastId := some id
        pc := if rest = [] then .looping else .yielding rest
        sent }
  | close : Moves stream c .close { c with endedAt := some stream.size }

theorem advance_moves (h : c.advance stream a = some c') : c.Moves stream a c' := by
  cases a with
  | snapshot readAt =>
      simp only [advance] at h
      split at h
      · split at h
        · rename_i hpc hle
          cases h
          exact .snapshot hpc hle
        · cases h
      · cases h
  | proceed =>
      simp only [advance] at h
      split at h
      · rename_i hpc
        cases h
        exact .idle (Or.inl hpc) (Or.inl rfl)
      · cases h
  | awake =>
      simp only [advance] at h
      split at h
      · rename_i hpc
        cases h
        exact .idle (Or.inr hpc) (Or.inr rfl)
      · cases h
  | read =>
      simp only [advance] at h
      split at h
      · rename_i hpc
        cases h
        exact .read hpc
      · cases h
  | batch count =>
      simp only [advance] at h
      split at h
      · split at h
        · cases h
        · rename_i hpc _ entry rest hread
          cases h
          exact .batch hpc hread
      · cases h
  | timeout =>
      simp only [advance] at h
      split at h
      · split at h
        · rename_i hpc hread
          cases h
          exact .timeout hpc hread
        · cases h
      · cases h
  | error =>
      simp only [advance] at h
      split at h
      · rename_i hpc
        cases h
        exact .error hpc
      · cases h
  | send =>
      simp only [advance] at h
      split at h
      · rename_i id payload rest hpc
        split at h
        · rename_i hparse
          cases h
          exact .send hpc c.sent (by rw [hparse])
        · rename_i event hparse
          cases h
          exact .send hpc _ (by rw [hparse])
      · cases h
  | close =>
      cases h
      exact .close

/-! ### Where a connection is in the stream -/

theorem next_of_idle (h : c.pc = .sending ∨ c.pc = .sleeping ∨ c.pc = .looping) :
    c.next = c.lastId.map (· + 1) := by
  rcases h with h | h | h <;> simp [next, h]

theorem next_reading {since : Nat} (h : c.pc = .reading since) : c.next = some since := by
  simp [next, h]

theorem next_yielding {entry : Nat × Text} {rest : List (Nat × Text)}
    (h : c.pc = .yielding (entry :: rest)) :
    c.next = some entry.1 := by
  simp [next, h]

theorem since_of_placed {id : Nat} (h : id ∈ c.lastId) : c.since stream = id + 1 := by
  simp [since, Option.mem_def.mp h]

theorem Sound.of_stream (h : c.Sound stream) (hsize : stream.size ≤ stream'.size)
    (hkept : ∀ (i : Nat) (payload : Text), stream.entries[i]? = some payload →
      stream'.entries[i]? = some payload) :
    c.Sound stream' where
  published e he := hkept _ _ (h.published e he)
  after := h.after
  ordered := h.ordered
  fresh readAt hreadAt := ⟨(h.fresh readAt hreadAt).1.trans hsize, (h.fresh readAt hreadAt).2⟩
  ahead n hn := ⟨(h.ahead n hn).1.trans hsize, (h.ahead n hn).2⟩
  placed id hid := ⟨(h.placed id hid).1.trans_le hsize, (h.placed id hid).2⟩
  unplaced := h.unplaced
  waits := h.waits
  hand rest hpc := by
    obtain ⟨hne, n, hsegment⟩ := h.hand rest hpc
    exact ⟨hne, n, hsegment.of_entries hkept⟩
  untold := h.untold

/-- Going on to where nothing is in hand and no read blocks. -/
theorem Sound.idle (h : c.Sound stream) {pc : ConnectionPc} (hpc : pc = .looping ∨ pc = .sleeping) :
    Sound stream { c with pc } := by
  have hnext : next { c with pc } = c.lastId.map (· + 1) :=
    next_of_idle (Or.inr hpc.symm)
  have hplaced : ∀ n ∈ next { c with pc }, ∃ id ∈ c.lastId, n = id + 1 := by
    intro n hn
    rw [hnext] at hn
    obtain ⟨id, hid, rfl⟩ := Option.map_eq_some_iff.mp hn
    exact ⟨id, hid, rfl⟩
  refine ⟨h.published, h.after, h.ordered, fun readAt hreadAt => ⟨(h.fresh readAt hreadAt).1, ?_⟩,
    ?_, h.placed, h.unplaced, ?_, ?_, ?_⟩
  · intro n hn
    obtain ⟨id, hid, rfl⟩ := hplaced n hn
    exact Nat.le_succ_of_le ((h.placed id hid).2.2 readAt hreadAt)
  · intro n hn
    obtain ⟨id, hid, rfl⟩ := hplaced n hn
    obtain ⟨hlt, hsent, -⟩ := h.placed id hid
    exact ⟨hlt, fun e he => Nat.lt_succ_of_le (hsent e he)⟩
  · rintro since rfl
    rcases hpc with hpc | hpc <;> cases hpc
  · rintro rest rfl
    rcases hpc with hpc | hpc <;> cases hpc
  · rintro rfl
    rcases hpc with hpc | hpc <;> cases hpc

/-- An entry in hand is where it stands in the stream, and one is read as it was published. -/
theorem Sound.send (h : c.Sound stream) {id : Nat} {payload : Text} {rest : List (Nat × Text)}
    (hpc : c.pc = .yielding ((id, payload) :: rest)) :
    stream.entries[id]? = some payload ∧ stream.Segment (id + 1) rest := by
  obtain ⟨-, n, rfl, hpayload, hrest⟩ := h.hand _ hpc
  exact ⟨hpayload, hrest⟩

theorem next_send (sent : List (Nat × Json)) {id : Nat} {rest : List (Nat × Text)}
    (hrest : stream.Segment (id + 1) rest) :
    next { c with lastId := some id, pc := if rest = [] then .looping else .yielding rest, sent }
      = some (id + 1) := by
  cases rest with
  | nil => rfl
  | cons entry rest =>
      obtain ⟨hid, -, -⟩ := hrest
      exact congrArg some hid

/-- What the stream of a session is made of. -/
structure Published (stream : EventStream) : Prop where
  payloads : ∀ (i : Nat) (payload : Text), stream.entries[i]? = some payload →
    ∃ event : Json, payload = event.dumps Json.escapeAscii
  trimmed : stream.trimmed ≤ stream.size

/-- A read begins behind what was sent and behind the snapshot. -/
theorem Sound.read (h : c.Sound stream) :
    ({ c with pc := .reading (c.since stream) } : Connection).Sound stream := by
  have hnext : next { c with pc := .reading (c.since stream) } = some (c.since stream) := rfl
  have hsince : c.since stream ≤ stream.size ∧ (∀ e ∈ c.sent, e.1 < c.since stream)
      ∧ ∀ readAt ∈ c.snapshotAt, readAt ≤ c.since stream := by
    unfold since
    split
    · rename_i hlast
      simp only [h.unplaced hlast]
      exact ⟨le_rfl, List.forall_mem_nil _, fun readAt hreadAt => (h.fresh readAt hreadAt).1⟩
    · rename_i id hid
      obtain ⟨hlt, hsent, hread⟩ := h.placed id hid
      exact ⟨hlt, fun e he => Nat.lt_succ_of_le (hsent e he),
        fun readAt hreadAt => Nat.le_succ_of_le (hread readAt hreadAt)⟩
  refine ⟨h.published, h.after, h.ordered, ?_, ?_, h.placed, h.unplaced, ?_, ?_, ?_⟩
  · rintro readAt hreadAt
    refine ⟨(h.fresh readAt hreadAt).1, ?_⟩
    rintro _ ⟨⟩
    exact hsince.2.2 readAt hreadAt
  · rintro _ ⟨⟩
    exact ⟨hsince.1, hsince.2.1⟩
  · rintro _ ⟨⟩ id hid
    exact since_of_placed hid
  · rintro _ ⟨⟩
  · rintro ⟨⟩

theorem Sound.batch {since count : Nat} {entry : Nat × Text} {rest : List (Nat × Text)}
    (h : c.Sound stream)
    (hpc : c.pc = .reading since)
    (hread : stream.read since (min count readCount) = entry :: rest) :
    ({ c with pc := .yielding (entry :: rest) } : Connection).Sound stream := by
  have hsegment : stream.Segment (max since stream.trimmed) (entry :: rest) :=
    hread ▸ TrimmedLog.segment_read
  have ⟨hentry, hpayload, _⟩ := hsegment
  have hlt : max since stream.trimmed < stream.size := (List.getElem?_eq_some_iff.mp hpayload).1
  have hnow : since ∈ c.next := next_reading hpc
  have hnext : next { c with pc := .yielding (entry :: rest) } = some (max since stream.trimmed) :=
    congrArg some hentry
  refine ⟨h.published, h.after, h.ordered, fun readAt hreadAt => ⟨(h.fresh readAt hreadAt).1, ?_⟩,
    ?_, h.placed, h.unplaced, ?_, ?_, ?_⟩
  · rw [hnext]
    rintro _ ⟨⟩
    exact ((h.fresh readAt hreadAt).2 since hnow).trans (le_max_left _ _)
  · rw [hnext]
    rintro _ ⟨⟩
    exact ⟨hlt.le, fun e he => ((h.ahead since hnow).2 e he).trans_le (le_max_left _ _)⟩
  · rintro _ ⟨⟩
  · rintro _ ⟨⟩
    exact ⟨List.cons_ne_nil _ _, _, hsegment⟩
  · rintro ⟨⟩

/-- An entry is sent behind all that was sent before it. -/
theorem Sound.sent {id : Nat} {event : Json} {rest : List (Nat × Text)} (h : c.Sound stream)
    (hpc : c.pc = .yielding ((id, Json.dumps Json.escapeAscii event) :: rest)) :
    ({ c with
      lastId := some id
      pc := if rest = [] then .looping else .yielding rest
      sent := c.sent ++ [(id, event)] } : Connection).Sound stream := by
  obtain ⟨hpayload, hrest⟩ := h.send hpc
  have hlt : id < stream.size := (List.getElem?_eq_some_iff.mp hpayload).1
  have hnow : id ∈ c.next := next_yielding hpc
  have hbefore : ∀ e ∈ c.sent, e.1 < id := (h.ahead id hnow).2
  have hread : ∀ readAt ∈ c.snapshotAt, readAt ≤ id := fun readAt hreadAt =>
      (h.fresh readAt hreadAt).2 id hnow
  have hall : ∀ e ∈ c.sent ++ [(id, event)], e.1 ≤ id :=
    List.forall_mem_append.mpr ⟨fun e he => (hbefore e he).le, List.forall_mem_singleton.mpr le_rfl⟩
  have hnext := next_send (c := c) (c.sent ++ [(id, event)]) hrest
  refine ⟨?_, ?_, ?_, ?_, ?_, ?_, ?_, ?_, ?_, ?_⟩
  · exact List.forall_mem_append.mpr ⟨h.published, List.forall_mem_singleton.mpr hpayload⟩
  · exact fun readAt hreadAt => List.forall_mem_append.mpr
      ⟨h.after readAt hreadAt, List.forall_mem_singleton.mpr (hread readAt hreadAt)⟩
  · rw [List.map_append, List.pairwise_append]
    refine ⟨h.ordered, List.pairwise_singleton _ _, ?_⟩
    intro i hi j hj
    obtain ⟨e, he, rfl⟩ := List.mem_map.mp hi
    rw [List.mem_singleton.mp hj]
    exact hbefore e he
  · intro readAt hreadAt
    refine ⟨(h.fresh readAt hreadAt).1, ?_⟩
    rw [hnext]
    rintro _ ⟨⟩
    exact Nat.le_succ_of_le (hread readAt hreadAt)
  · rw [hnext]
    rintro _ ⟨⟩
    exact ⟨hlt, fun e he => Nat.lt_succ_of_le (hall e he)⟩
  · rintro _ ⟨⟩
    exact ⟨hlt, hall, hread⟩
  · rintro ⟨⟩
  · intro since hsince
    simp only at hsince
    split at hsince <;> cases hsince
  · intro rest' hrest'
    simp only at hrest'
    split at hrest'
    · cases hrest'
    · rename_i hne
      cases hrest'
      exact ⟨hne, _, hrest⟩
  · intro huntold
    simp only at huntold
    split at huntold <;> cases huntold

theorem Sound.moves (h : c.Sound stream) (hstream : Published stream)
    (hmoves : c.Moves stream a c') :
    c'.Sound stream := by
  cases hmoves with
  | @snapshot readAt hpc hle =>
      have hlast : c.lastId = none := h.untold hpc
      have hsent : c.sent = [] := h.unplaced hlast
      have hnext : next { c with pc := .sending, snapshotAt := readAt } = none := by
        rw [next_of_idle (Or.inl rfl), hlast]
        rfl
      refine ⟨h.published, ?_, h.ordered, fun n hn => ⟨hle n hn, ?_⟩, ?_, ?_, h.unplaced,
        ?_, ?_, ?_⟩
      · simp [hsent]
      · simp [hnext]
      · simp [hnext]
      · simp [hlast]
      · rintro _ ⟨⟩
      · rintro _ ⟨⟩
      · rintro ⟨⟩
  | idle hpc ha => exact h.idle (Or.inl rfl)
  | read hpc => exact h.read
  | batch hpc hread => exact h.batch hpc hread
  | timeout hpc hread => exact h.idle (Or.inl rfl)
  | error hpc => exact h.idle (Or.inr rfl)
  | @send id payload rest hpc sent hsent =>
      obtain ⟨hpayload, hrest⟩ := h.send hpc
      obtain ⟨event, rfl⟩ := hstream.payloads id payload hpayload
      rw [Json.parse_dumpsAscii] at hsent
      subst hsent
      exact h.sent hpc
  | close =>
      exact ⟨h.published, h.after, h.ordered, h.fresh, h.ahead, h.placed, h.unplaced, h.waits,
        h.hand, h.untold⟩

/-! ### What a step passes over -/

/-- Nothing is passed over while what can be read stays the same. -/
theorem not_misses_of_next {pc : ConnectionPc} (hnext : next { c with pc } = c.next)
    (h : ¬ c.Misses stream i) : ¬ Misses stream { c with pc } i := by
  rwa [Misses, hnext]

/-- A read that fails before the first entry passes over all that it was to return. -/
theorem Sound.not_misses_error_iff {since : Nat} (h : c.Sound stream) (hopen : c.endedAt = none)
    (hwhole : ∀ i, ¬ c.Misses stream i) (hpc : c.pc = .reading since) (hlast : c.lastId = none) :
    (∀ i, ¬ Misses stream { c with pc := .sleeping } i)
      ↔ ∀ n ∈ c.AtStake .error, stream.size ≤ max n stream.trimmed := by
  have hnow : c.next = some since := next_reading hpc
  have hnext : next { c with pc := .sleeping } = none := by
    rw [next_of_idle (Or.inr (Or.inl rfl)), hlast]
    rfl
  have hsent : c.sent = [] := h.unplaced hlast
  constructor
  · intro hnone n hn
    simp only [AtStake, hlast, true_and] at hn
    split at hn
    · rename_i hsome
      rw [hnow] at hn
      cases hn
      obtain ⟨readAt, hreadAt⟩ := Option.isSome_iff_exists.mp hsome
      by_contra hlt
      apply hnone (max since stream.trimmed)
      refine ⟨⟨readAt, hreadAt, ?_⟩, ?_, le_max_right _ _, ?_, ?_⟩
      · exact ((h.fresh readAt hreadAt).2 since hnow).trans (le_max_left _ _)
      · simp only [hopen, Option.getD_none]
        omega
      · simp [hsent]
      · simp [hnext]
    · cases hn
  · rintro hall i ⟨⟨readAt, hreadAt, hle⟩, hlt, htrimmed, hnot, -⟩
    have hstake : c.AtStake .error = some since := by
      rw [AtStake, if_pos ⟨hlast, Option.isSome_of_mem hreadAt⟩, hnow]
    have hbound := hall since hstake
    refine hwhole i ⟨⟨readAt, hreadAt, hle⟩, hlt, htrimmed, hnot, ?_⟩
    rw [hnow]
    rintro _ ⟨⟩
    simp only [hopen, Option.getD_none] at hlt
    omega

theorem not_misses_moves_iff (h : c.Sound stream) (hstream : Published stream)
    (hopen : c.endedAt = none)
    (hwhole : ∀ i, ¬ c.Misses stream i) (hmoves : c.Moves stream a c') :
    (∀ i, ¬ c'.Misses stream i) ↔ ∀ n ∈ c.AtStake a, stream.size ≤ max n stream.trimmed := by
  cases hmoves with
  | @snapshot readAt hpc hle =>
      have hlast : c.lastId = none := h.untold hpc
      have hnext : next { c with pc := .sending, snapshotAt := readAt } = none := by
        rw [next_of_idle (Or.inl rfl), hlast]
        rfl
      constructor
      · intro hnone n hn
        by_contra hlt
        apply hnone (max n stream.trimmed)
        refine ⟨⟨n, hn, le_max_left _ _⟩, ?_, le_max_right _ _, ?_, ?_⟩
        · simp only [hopen, Option.getD_none]
          omega
        · simp [h.unplaced hlast]
        · simp [hnext]
      · rintro hall i ⟨⟨n, hn, hle⟩, hlt, htrimmed, -⟩
        have hbound := hall n hn
        simp only [hopen, Option.getD_none] at hlt
        omega
  | idle hpc ha =>
      have hnext : next { c with pc := .looping } = c.next := by
        rw [next_of_idle (Or.inr (Or.inr rfl)), next_of_idle (hpc.imp_right Or.inl)]
      refine iff_of_true (fun i => not_misses_of_next hnext (hwhole i)) ?_
      rcases ha with rfl | rfl <;> rintro _ ⟨⟩
  | read hpc =>
      refine iff_of_true (fun i hmiss => ?_) (by rintro _ ⟨⟩)
      obtain ⟨hsnapshot, hlt, htrimmed, hsent, hnext⟩ := hmiss
      refine hwhole i ⟨hsnapshot, hlt, htrimmed, hsent, fun n hn => ?_⟩
      rw [next_of_idle (Or.inr (Or.inr hpc))] at hn
      obtain ⟨id, hid, rfl⟩ := Option.map_eq_some_iff.mp hn
      have hsince : c.since stream = id + 1 := since_of_placed hid
      exact hsince ▸ hnext _ rfl
  | @batch since count entry rest hpc hread =>
      have hsegment : stream.Segment (max since stream.trimmed) (entry :: rest) :=
        hread ▸ TrimmedLog.segment_read
      refine iff_of_true (fun i hmiss => ?_) (by rintro _ ⟨⟩)
      obtain ⟨hsnapshot, hlt, htrimmed, hsent, hnext⟩ := hmiss
      have hbefore : i < max since stream.trimmed := hsegment.1 ▸ hnext _ rfl
      refine hwhole i ⟨hsnapshot, hlt, htrimmed, hsent, ?_⟩
      rw [next_reading hpc]
      rintro _ ⟨⟩
      omega
  | @timeout since hpc hread =>
      have hbound : stream.size ≤ max since stream.trimmed :=
        (TrimmedLog.read_eq_nil_iff Nat.one_pos).mp hread
      refine iff_of_true (fun i hmiss => ?_) (by rintro _ ⟨⟩)
      obtain ⟨hsnapshot, hlt, htrimmed, hsent, -⟩ := hmiss
      refine hwhole i ⟨hsnapshot, hlt, htrimmed, hsent, ?_⟩
      rw [next_reading hpc]
      rintro _ ⟨⟩
      simp only [hopen, Option.getD_none] at hlt
      omega
  | @error since hpc =>
      have hnow : c.next = some since := next_reading hpc
      rcases Option.eq_none_or_eq_some c.lastId with hlast | ⟨id, hlast⟩
      case inr =>
          have hnext : next { c with pc := .sleeping } = c.next := by
            rw [next_of_idle (Or.inr (Or.inl rfl)), hnow, hlast, h.waits since hpc id hlast]
            rfl
          refine iff_of_true (fun i => not_misses_of_next hnext (hwhole i)) ?_
          simp [AtStake, hlast]
      case inl => exact h.not_misses_error_iff hopen hwhole hpc hlast
  | @send id payload rest hpc sent hsent =>
      obtain ⟨hpayload, hrest⟩ := h.send hpc
      obtain ⟨event, rfl⟩ := hstream.payloads id payload hpayload
      rw [Json.parse_dumpsAscii] at hsent
      subst hsent
      refine iff_of_true (fun i hmiss => ?_) (by rintro _ ⟨⟩)
      obtain ⟨hsnapshot, hlt, htrimmed, hnot, hnext⟩ := hmiss
      rw [next_send _ hrest] at hnext
      have hle : i < id + 1 := hnext _ rfl
      simp only [List.map_append, List.map_cons, List.map_nil, List.mem_append, List.mem_singleton,
        not_or] at hnot
      refine hwhole i ⟨hsnapshot, hlt, htrimmed, hnot.1, ?_⟩
      rw [next_yielding hpc]
      rintro _ ⟨⟩
      have hne := hnot.2
      omega
  | close =>
      refine iff_of_true (fun i hmiss => ?_) (by rintro _ ⟨⟩)
      obtain ⟨hsnapshot, hlt, htrimmed, hsent, hnext⟩ := hmiss
      exact hwhole i ⟨hsnapshot, by simpa [hopen] using hlt, htrimmed, hsent, hnext⟩

theorem withoutHoles_iff (h : c.Sound stream) : c.WithoutHoles stream ↔ ∀ i, ¬ c.Misses stream i :=
  ⟨fun hholes => hholes.whole, fun hwhole => ⟨h.published, h.after, h.ordered, hwhole⟩⟩

/-- What is added is missed by a connection that does not listen, and by no other. -/
theorem not_misses_add_iff (h : c.Sound stream) {payload : Text}
    (htrimmed : stream.trimmed ≤ stream.size)
    (htrim : n = 0 ∨ n + maxlen ≤ stream.size + 1) (hwhole : ∀ i, ¬ c.Misses stream i) :
    (∀ i, ¬ c.Misses ((stream.add payload).trim n) i) ↔ c.Listening := by
  constructor
  · intro hnone
    by_contra hdeaf
    simp only [Listening, not_or, Option.not_isSome_iff_eq_none] at hdeaf
    obtain ⟨hsnapshot, hopen, hnext⟩ := hdeaf
    obtain ⟨readAt, hreadAt⟩ := Option.ne_none_iff_exists'.mp hsnapshot
    have hle : readAt ≤ stream.size := (h.fresh readAt hreadAt).1
    apply hnone stream.size
    refine ⟨⟨readAt, hreadAt, hle⟩, ?_, ?_, ?_, ?_⟩
    · simp [hopen]
    · simp only [TrimmedLog.trimmed_trim, TrimmedLog.trimmed_add, maxlen] at htrim ⊢
      omega
    · intro hsent
      obtain ⟨e, he, heq⟩ := List.mem_map.mp hsent
      have hlt : e.1 < stream.size := (List.getElem?_eq_some_iff.mp (h.published e he)).1
      omega
    · simp [hnext]
  · rintro hlistens i ⟨⟨readAt, hreadAt, hle⟩, hlt, hkept, hsent, hnext⟩
    have hbefore : stream.trimmed ≤ i := (le_max_left _ _).trans hkept
    refine hwhole i ⟨⟨readAt, hreadAt, hle⟩, ?_, hbefore, hsent, hnext⟩
    rcases hlistens with hnone | hended | hplace
    · rw [hnone] at hreadAt
      cases hreadAt
    · obtain ⟨endedAt, hended⟩ := Option.isSome_iff_exists.mp hended
      simpa [hended] using hlt
    · obtain ⟨place, hplace⟩ := Option.isSome_iff_exists.mp hplace
      have hreach : place ≤ stream.size := (h.ahead place hplace).1
      have hi : i < place := hnext place hplace
      cases hended : c.endedAt with
      | none =>
          simp only [Option.getD_none]
          omega
      | some endedAt => simpa [hended] using hlt

end Connection

/-! ### All runs -/

variable {c c' : Conf EventStream Connection} {l : Label (Json × XAdd) Unit ConnectionStep}

structure BrokerSound (c : Conf EventStream Connection) : Prop where
  stream : Connection.Published c.shared
  connections : ∀ connection ∈ c.procs, connection.Sound c.shared

theorem published_add {stream : EventStream} (h : Connection.Published stream)
    {event : Json} {n : Nat}
    (htrim : n = 0 ∨ n + maxlen ≤ stream.size + 1) :
    Connection.Published ((stream.add (event.dumps Json.escapeAscii)).trim n) := by
  refine ⟨fun i payload hpayload => ?_, ?_⟩
  · rw [TrimmedLog.entries_trim, TrimmedLog.add, List.getElem?_append] at hpayload
    split at hpayload
    · exact h.payloads i payload hpayload
    · rw [List.getElem?_singleton] at hpayload
      split at hpayload
      · cases hpayload
        exact ⟨event, rfl⟩
      · cases hpayload
  · have hold := h.trimmed
    simp only [TrimmedLog.trimmed_trim, TrimmedLog.trimmed_add, TrimmedLog.size_trim,
      TrimmedLog.size_add, maxlen]
      at htrim ⊢
    omega

theorem publish_cases {stream stream' : EventStream} {event : Json} {xadd : XAdd}
    (h : publish stream event xadd = some stream') :
    (xadd = .raised ∧ stream' = stream)
      ∨ ∃ n, xadd = .added n ∧ (n = 0 ∨ n + maxlen ≤ stream.size + 1)
          ∧ stream' = (stream.add (event.dumps Json.escapeAscii)).trim n := by
  cases xadd with
  | raised => exact Or.inl ⟨rfl, (Option.some.inj h).symm⟩
  | added n =>
      simp only [publish, TrimmedLog.size_add] at h
      split at h
      · rename_i htrim
        exact Or.inr ⟨n, rfl, htrim, (Option.some.inj h).symm⟩
      · cases h

theorem step_cases {stream stream' : EventStream} {connection connection' : Connection}
    {a : ConnectionStep}
    (h : connection.step stream a = some (stream', connection')) :
    stream' = stream ∧ connection.endedAt = none ∧ connection.Moves stream a connection' := by
  unfold Connection.step at h
  split at h
  · cases h
  · rename_i hopen
    obtain ⟨next, hnext, heq⟩ := Option.map_eq_some_iff.mp h
    cases heq
    exact ⟨rfl, hopen, Connection.advance_moves hnext⟩

theorem soundConnection_new {stream : EventStream} : Connection.Sound stream {} where
  published := List.forall_mem_nil _
  after := by rintro _ ⟨⟩
  ordered := List.Pairwise.nil
  fresh := by rintro _ ⟨⟩
  ahead := by rintro _ ⟨⟩
  placed := by rintro _ ⟨⟩
  unplaced _ := rfl
  waits := by rintro _ ⟨⟩
  hand := by rintro _ ⟨⟩
  untold _ := rfl

theorem brokerSound_next (h : BrokerSound c) (hnext : broker.next c l = some c') :
    BrokerSound c' := by
  rcases broker.next_cases hnext with ⟨⟨event, xadd⟩, stream, rfl, hpublish, rfl⟩ | ⟨i, rfl, rfl⟩
    | ⟨pid, step, connection, stream, connection', rfl, hpid, hstep, rfl⟩
  · rcases publish_cases hpublish with ⟨rfl, rfl⟩ | ⟨n, rfl, htrim, rfl⟩
    · exact h
    · refine ⟨published_add h.stream htrim, fun connection hmem => ?_⟩
      apply (h.connections connection hmem).of_stream
      · simp
      · exact fun i payload hpayload => TrimmedLog.getElem?_add_of_some hpayload
  · exact ⟨h.stream, forall_mem_append h.connections soundConnection_new⟩
  · obtain ⟨rfl, -, hmoves⟩ := step_cases hstep
    have hconnection := h.connections connection (mem_of_getElem? hpid)
    exact ⟨h.stream, forall_mem_set h.connections (hconnection.moves h.stream hmoves)⟩

/-- No client misses an event. -/
def NoHoles (c : Conf EventStream Connection) : Prop :=
  ∀ connection ∈ c.procs, connection.WithoutHoles c.shared

theorem noHoles_next_iff (h : BrokerSound c) (hholes : NoHoles c)
    (hnext : broker.next c l = some c') :
    NoHoles c' ↔ Heard c l := by
  have hsound' := brokerSound_next h hnext
  have hiff : NoHoles c' ↔ ∀ connection ∈ c'.procs, ∀ i, ¬ connection.Misses c'.shared i :=
    forall₂_congr fun connection hmem =>
      Connection.withoutHoles_iff (hsound'.connections connection hmem)
  rcases broker.next_cases hnext with ⟨⟨event, xadd⟩, stream, rfl, hpublish, rfl⟩ | ⟨i, rfl, rfl⟩
    | ⟨pid, step, connection, stream, connection', rfl, hpid, hstep, rfl⟩
  · rcases publish_cases hpublish with ⟨rfl, rfl⟩ | ⟨n, rfl, htrim, rfl⟩
    · exact iff_of_true hholes trivial
    · rw [hiff]
      exact forall₂_congr fun connection hmem =>
        Connection.not_misses_add_iff (h.connections connection hmem)
        h.stream.trimmed htrim (hholes connection hmem).whole
  · refine iff_of_true (forall_mem_append hholes ?_) trivial
    apply (Connection.withoutHoles_iff soundConnection_new).mpr
    rintro i ⟨⟨readAt, hreadAt, -⟩, -⟩
    cases hreadAt
  · obtain ⟨rfl, hopen, hmoves⟩ := step_cases hstep
    have hmem := mem_of_getElem? hpid
    have hstay : ∀ q ∈ c.procs, ∀ i, ¬ q.Misses c.shared i := fun q hq => (hholes q hq).whole
    rw [hiff, forall_mem_set_iff hstay hpid,
      Connection.not_misses_moves_iff (h.connections connection hmem) h.stream hopen
        (hstay connection hmem) hmoves]
    simp [Heard, hpid]

/-- **When a client misses nothing**: exactly where what is added finds every connection listening,
and no other step passes over an entry. -/
theorem no_holes_iff (ls : List (Label (Json × XAdd) Unit ConnectionStep)) :
    broker.Throughout NoHoles ⟨{}, []⟩ ls ↔ broker.Along Heard ⟨{}, []⟩ ls := by
  apply broker.throughout_iff_along (I := BrokerSound)
  · exact fun c l c' h hnext => brokerSound_next h hnext
  · exact fun c l c' h hholes hnext => noHoles_next_iff h hholes hnext
  · exact ⟨⟨by simp, le_rfl⟩, List.forall_mem_nil _⟩
  · exact List.forall_mem_nil _

/-- What a forwarder publishes when it has lost GNS3. -/
def degraded : Json :=
  .obj [("type", .str "stream.degraded"),
    ("payload", .obj [("reason", .str "reconnect attempt 1")])]

/-- A quiet session: the first read times out before anything happens, and then something does. -/
def quietSession : List (Label (Json × XAdd) Unit ConnectionStep) :=
  [.spawn (), .run 0 (.snapshot (some 0)), .run 0 .proceed, .run 0 .read, .run 0 .timeout,
    .env (degraded, .added 0), .run 0 .read]

/-- **An event that no client is told.** -/
theorem event_between_reads : ¬ broker.Throughout NoHoles ⟨{}, []⟩ quietSession := by
  intro hall
  have hrun : (broker.exec ⟨{}, []⟩ quietSession).map
      (fun c => (c.shared, c.procs)) = some (⟨[degraded.dumps Json.escapeAscii], 0⟩,
        [{ pc := .reading 1, snapshotAt := some 0 }]) := rfl
  obtain ⟨c, hexec, heq⟩ := Option.map_eq_some_iff.mp hrun
  obtain ⟨hshared, hprocs⟩ := Prod.mk.inj heq
  have hholes := hall.exec _ hexec
  have hwhole := (hholes { pc := .reading 1, snapshotAt := some 0 } (by simp [hprocs])).whole 0
  apply hwhole
  rw [hshared]
  exact ⟨⟨0, rfl, le_rfl⟩, Nat.one_pos, le_rfl, List.not_mem_nil, by rintro _ ⟨⟩; exact Nat.one_pos⟩

end OnlinetLabs.Gns3
