import OnlinetLabs.Lib.Interleaving
import OnlinetLabs.Lib.Runs
import Mathlib.Data.List.Nodup
import Mathlib.Logic.Function.Basic

/-!
# Tickets for GNS3

The browser never sees the password of a GNS3 account. It is given a ticket, which the relay page
hands in, and the backend takes the ticket out of Redis, looks the session up and has a JWT minted
by the GNS3 service. Tickets are handed in by anybody, any number of times and side by side, and in
between sessions begin and end.

A ticket is a number that was never drawn before, which does not keep anybody from handing it in.
-/

namespace OnlinetLabs.Sessions.Tickets

open Interleaving (Exclusive mem_of_getElem? forall_mem_set forall_mem_append)

/-- `TICKET_TTL_SEC`, in microseconds. -/
def ticketTtl : Int := 120 * 1000000

structure Payload where
  sessionId : Nat
  userId : Nat
deriving Repr, DecidableEq

structure Ticket where
  payload : Payload
  issuedAt : Int
deriving Repr, DecidableEq

/-- What `redeem_gns3_ticket` reads of a row. -/
structure LearningSession where
  id : Nat
  userId : Nat
  gns3SessionId : Option Nat
deriving Repr, DecidableEq

/-- A session of the GNS3 service. Its account is the one of its user. -/
structure Gns3Session where
  id : Nat
  userId : Nat
  closed : Bool
deriving Repr, DecidableEq

inductive RedemptionPc where
  | presented
  | consumed (payload : Payload)
  | authorized (gns3SessionId : Nat)
  /-- A JWT for the account of the user. -/
  | minted (userId : Nat)
  | refused
  | raised
deriving Repr, DecidableEq

/-- A call of `redeem_gns3_ticket`, and when it took the ticket out. -/
structure Redemption where
  ticket : Nat
  takenAt : Option Int := none
  pc : RedemptionPc := .presented
deriving Repr, DecidableEq

structure World where
  now : Int := 0
  drawn : Nat := 0
  redis : Nat → Option Ticket := fun _ => none
  sessions : List LearningSession := []
  gns3Sessions : List Gns3Session := []
  redemptions : List Redemption := []
  /-- Every ticket that was issued, and the user of every session. -/
  issued : List (Nat × Ticket) := []
  owners : List (Nat × Nat) := []

inductive Move where
  | tick (elapsed : Nat)
  | open (userId : Nat)
  /-- The GNS3 service makes a session for the user of a row, and the row is finalised. -/
  | provision (row : Nat)
  | close (gns3Session : Nat)
  | delete (sessionId : Nat)
  | issue (sessionId userId : Nat)
  | present (ticket : Nat)
  /-- `answers` is whether GNS3 gives a token for the password. -/
  | go (redemption : Nat) (answers : Bool)
deriving Repr, DecidableEq

namespace World

/-- `TicketStore.issue` -/
def issue (w : World) (payload : Payload) : World :=
  { w with
    drawn := w.drawn + 1
    redis := Function.update w.redis w.drawn (some ⟨payload, w.now⟩)
    issued := w.issued ++ [(w.drawn, ⟨payload, w.now⟩)] }

def held (w : World) (ticket : Nat) : Option Ticket :=
  (w.redis ticket).filter fun held => w.now < held.issuedAt + ticketTtl

/-- `get_owned_session` -/
def ownedSession (w : World) (payload : Payload) : Option LearningSession :=
  w.sessions.find? fun row => row.id = payload.sessionId ∧ row.userId = payload.userId

/-- One step of `redeem_gns3_ticket`, the last of them in `issue_user_token` of the GNS3 service.
`get_user_token` may ask GNS3 again after an error, and of all it has minted then the redemption
gets the last token only. -/
def redeem (w : World) (r : Redemption) (answers : Bool) : Option (World × Redemption) :=
  match r.pc with
  | .presented =>
      match w.held r.ticket with
      | none => some (w, { r with pc := .refused })
      | some held =>
          some ({ w with redis := Function.update w.redis r.ticket none },
            { r with takenAt := some w.now, pc := .consumed held.payload })
  | .consumed payload =>
      match (w.ownedSession payload).bind (·.gns3SessionId) with
      | none => some (w, { r with pc := .refused })
      | some gns3SessionId => some (w, { r with pc := .authorized gns3SessionId })
  | .authorized gns3SessionId =>
      match w.gns3Sessions.find? fun session => session.id = gns3SessionId with
      | none => some (w, { r with pc := .raised })
      | some session =>
          if session.closed || !answers then some (w, { r with pc := .raised })
          else some (w, { r with pc := .minted session.userId })
  | .minted _ | .refused | .raised => none

def step (w : World) : Move → Option World
  | .tick elapsed => some { w with now := w.now + elapsed }
  | .open userId =>
      some { w with
        drawn := w.drawn + 1
        sessions := w.sessions ++ [⟨w.drawn, userId, none⟩]
        owners := w.owners ++ [(w.drawn, userId)] }
  | .provision i =>
      match w.sessions[i]? with
      | none => none
      | some row =>
          some { w with
            drawn := w.drawn + 1
            sessions := w.sessions.set i { row with gns3SessionId := some w.drawn }
            gns3Sessions := w.gns3Sessions ++ [⟨w.drawn, row.userId, false⟩] }
  | .close i =>
      match w.gns3Sessions[i]? with
      | none => none
      | some session =>
          some { w with gns3Sessions := w.gns3Sessions.set i { session with closed := true } }
  | .delete sessionId => some { w with sessions := w.sessions.filter (·.id ≠ sessionId) }
  | .issue sessionId userId =>
      if (sessionId, userId) ∈ w.owners then some (w.issue ⟨sessionId, userId⟩) else none
  | .present ticket => some { w with redemptions := w.redemptions ++ [{ ticket }] }
  | .go i answers =>
      match w.redemptions[i]? with
      | none => none
      | some r =>
          (w.redeem r answers).map fun next =>
            { next.1 with redemptions := w.redemptions.set i next.2 }

end World

/-! ### What is kept -/

def World.TookFor (w : World) (r : Redemption) (userId : Nat) : Prop :=
  ∃ held at_, (r.ticket, held) ∈ w.issued ∧ r.takenAt = some at_ ∧ at_ < held.issuedAt + ticketTtl
    ∧ held.payload.userId = userId

def World.BelongsTo (w : World) (gns3SessionId userId : Nat) : Prop :=
  ∀ session ∈ w.gns3Sessions, session.id = gns3SessionId → session.userId = userId

structure RedemptionKept (w : World) (r : Redemption) : Prop where
  taken : r.takenAt.isSome → w.redis r.ticket = none ∧ r.ticket < w.drawn
  here : match r.pc with
    | .presented => r.takenAt = none
    | .consumed payload => w.TookFor r payload.userId
    | .authorized gns3SessionId => ∃ userId, w.TookFor r userId ∧ gns3SessionId < w.drawn
        ∧ w.BelongsTo gns3SessionId userId
    | .minted userId => w.TookFor r userId
    | .refused | .raised => True

structure Kept (w : World) : Prop where
  issued : (w.issued.map Prod.fst).Nodup
  issuedBefore : ∀ entry ∈ w.issued, entry.1 < w.drawn
  redis : ∀ ticket held, w.redis ticket = some held → (ticket, held) ∈ w.issued
  sessions : ∀ row ∈ w.sessions, ∀ gns3SessionId ∈ row.gns3SessionId,
    gns3SessionId < w.drawn ∧ w.BelongsTo gns3SessionId row.userId
  gns3Sessions : ∀ session ∈ w.gns3Sessions, session.id < w.drawn
  redemptions : ∀ r ∈ w.redemptions, RedemptionKept w r
  once : ∀ ticket,
    Exclusive (fun r : Redemption => r.ticket = ticket ∧ r.takenAt.isSome) w.redemptions

/-! ### What a step keeps -/

/-- Tickets that are gone stay gone, and a GNS3 session stays with its user. -/
structure Later (w w' : World) : Prop where
  drawn : w.drawn ≤ w'.drawn
  issued : ∀ entry ∈ w.issued, entry ∈ w'.issued
  gone : ∀ ticket, ticket < w.drawn → w.redis ticket = none → w'.redis ticket = none
  belongs : ∀ gns3SessionId userId, gns3SessionId < w.drawn → w.BelongsTo gns3SessionId userId →
    w'.BelongsTo gns3SessionId userId

variable {w w' : World} {r r' : Redemption} {userId : Nat}

theorem later_redemptions (redemptions : List Redemption) : Later w { w with redemptions } :=
  ⟨Nat.le_refl _, fun _ => id, fun _ _ => id, fun _ _ _ => id⟩

theorem World.TookFor.later (h : w.TookFor r userId) (hlater : Later w w') :
    w'.TookFor r userId := by
  obtain ⟨held, at_, hissued, hrest⟩ := h
  exact ⟨held, at_, hlater.issued _ hissued, hrest⟩

theorem RedemptionKept.later (h : RedemptionKept w r) (hlater : Later w w') :
    RedemptionKept w' r where
  taken htaken :=
    ⟨hlater.gone r.ticket (h.taken htaken).2 (h.taken htaken).1,
      Nat.lt_of_lt_of_le (h.taken htaken).2 hlater.drawn⟩
  here := by
    have hhere := h.here
    revert hhere
    cases r.pc with
    | presented | refused | raised => exact id
    | consumed payload => exact fun htook => htook.later hlater
    | authorized gns3SessionId =>
        rintro ⟨userId, htook, hknown, hbelongs⟩
        exact ⟨userId, htook.later hlater, Nat.lt_of_lt_of_le hknown hlater.drawn,
          hlater.belongs gns3SessionId userId hknown hbelongs⟩
    | minted userId => exact fun htook => htook.later hlater

theorem kept_init : Kept {} where
  issued := List.nodup_nil
  issuedBefore _ h := absurd h List.not_mem_nil
  redis _ _ h := by cases h
  sessions _ h := absurd h List.not_mem_nil
  gns3Sessions _ h := absurd h List.not_mem_nil
  redemptions _ h := absurd h List.not_mem_nil
  once _ := Interleaving.exclusive_nil _

theorem Kept.issue (h : Kept w) (payload : Payload) : Kept (w.issue payload) := by
  have hlater : Later w (w.issue payload) := by
    refine ⟨Nat.le_succ _, fun _ hmem => List.mem_append_left _ hmem, fun ticket hlt hnone =>
      ?_, fun _ _ _ => id⟩
    dsimp only [World.issue]
    rw [Function.update_of_ne (Nat.ne_of_lt hlt)]
    exact hnone
  refine ⟨?_, ?_, ?_, ?_, fun session hmem => Nat.lt_succ_of_lt (h.gns3Sessions session hmem),
    fun r hr => (h.redemptions r hr).later hlater, h.once⟩
  · dsimp only [World.issue]
    rw [List.map_append, List.map_singleton]
    refine h.issued.append (List.nodup_singleton _) (List.disjoint_singleton.mpr fun hmem => ?_)
    obtain ⟨entry, hentry, heq⟩ := List.mem_map.mp hmem
    exact absurd (h.issuedBefore entry hentry) (heq ▸ Nat.lt_irrefl _)
  · exact forall_mem_append (fun entry hmem => Nat.lt_succ_of_lt (h.issuedBefore entry hmem))
      (Nat.lt_succ_self _)
  · intro ticket held hheld
    dsimp only [World.issue] at hheld ⊢
    by_cases heq : ticket = w.drawn
    · subst heq
      rw [Function.update_self] at hheld
      cases hheld
      exact List.mem_append_right _ List.mem_cons_self
    · rw [Function.update_of_ne heq] at hheld
      exact List.mem_append_left _ (h.redis ticket held hheld)
  · exact fun row hrow g hg =>
      ⟨Nat.lt_succ_of_lt (h.sessions row hrow g hg).1, (h.sessions row hrow g hg).2⟩

theorem Kept.provision (h : Kept w) (i : Nat) (row : LearningSession) :
    Kept { w with
      drawn := w.drawn + 1
      sessions := w.sessions.set i { row with gns3SessionId := some w.drawn }
      gns3Sessions := w.gns3Sessions ++ [⟨w.drawn, row.userId, false⟩] } := by
  have hbelongs : ∀ g userId, g < w.drawn → w.BelongsTo g userId →
      ∀ session ∈ w.gns3Sessions ++ [⟨w.drawn, row.userId, false⟩], session.id = g →
        session.userId = userId := by
    intro g userId hlt hbelongs
    refine forall_mem_append hbelongs fun heq => ?_
    exact absurd heq.symm (Nat.ne_of_lt hlt)
  refine ⟨h.issued, fun entry hmem => Nat.lt_succ_of_lt (h.issuedBefore entry hmem), h.redis, ?_,
    ?_, ?_, h.once⟩
  · refine forall_mem_set (fun row' hrow' g hg => ?_) ?_
    · exact ⟨Nat.lt_succ_of_lt (h.sessions row' hrow' g hg).1,
        hbelongs g row'.userId (h.sessions row' hrow' g hg).1 (h.sessions row' hrow' g hg).2⟩
    · rintro _ ⟨⟩
      refine ⟨Nat.lt_succ_self _, forall_mem_append (fun session hmem heq => ?_) fun _ => rfl⟩
      exact absurd (h.gns3Sessions session hmem) (heq ▸ Nat.lt_irrefl _)
  · exact forall_mem_append (fun session hmem => Nat.lt_succ_of_lt (h.gns3Sessions session hmem))
      (Nat.lt_succ_self _)
  · exact fun r hr =>
      (h.redemptions r hr).later ⟨Nat.le_succ _, fun _ => id, fun _ _ => id, hbelongs⟩

/-- The ticket is taken out of Redis, and nobody has taken it before. -/
theorem Kept.take (h : Kept w) {i : Nat} {held : Ticket} (hr : w.redemptions[i]? = some r)
    (hheld : w.held r.ticket = some held) :
    Kept { w with
      redis := Function.update w.redis r.ticket none
      redemptions :=
        w.redemptions.set i { r with takenAt := some w.now, pc := .consumed held.payload } } := by
  obtain ⟨hredis, htime⟩ := Option.filter_eq_some_iff.mp hheld
  have hissued := h.redis r.ticket held hredis
  have hlater : Later w { w with
      redis := Function.update w.redis r.ticket none
      redemptions :=
        w.redemptions.set i { r with takenAt := some w.now, pc := .consumed held.payload } } := by
    refine ⟨Nat.le_refl _, fun _ => id, fun ticket _ hnone => ?_, fun _ _ _ => id⟩
    dsimp only
    by_cases heq : ticket = r.ticket
    · rw [heq, Function.update_self]
    · rw [Function.update_of_ne heq]
      exact hnone
  have hnobody : ∀ q ∈ w.redemptions, ¬ (q.ticket = r.ticket ∧ q.takenAt.isSome) := by
    rintro q hq ⟨heq, htaken⟩
    have hgone := ((h.redemptions q hq).taken htaken).1
    rw [heq, hredis] at hgone
    cases hgone
  refine ⟨h.issued, h.issuedBefore, ?_, h.sessions, h.gns3Sessions, ?_, ?_⟩
  · intro ticket held' hheld'
    dsimp only at hheld' ⊢
    by_cases heq : ticket = r.ticket
    · rw [heq, Function.update_self] at hheld'
      cases hheld'
    · rw [Function.update_of_ne heq] at hheld'
      exact h.redis ticket held' hheld'
  · refine forall_mem_set (fun q hq => (h.redemptions q hq).later hlater) ⟨fun _ => ⟨?_, ?_⟩, ?_⟩
    · exact Function.update_self ..
    · exact h.issuedBefore _ hissued
    · exact ⟨held, w.now, hissued, rfl, of_decide_eq_true htime, rfl⟩
  · intro ticket
    by_cases heq : ticket = r.ticket
    · subst heq
      exact Exclusive.of_none hnobody
    · exact (h.once ticket).set hr fun hboth => absurd hboth.1.symm heq

/-- A redemption goes on, and has taken what it had. -/
theorem Kept.goOn (h : Kept w) {i : Nat} (hr : w.redemptions[i]? = some r) {pc : RedemptionPc}
    (hkept : RedemptionKept w { r with pc }) :
    Kept { w with redemptions := w.redemptions.set i { r with pc } } :=
  ⟨h.issued, h.issuedBefore, h.redis, h.sessions, h.gns3Sessions,
    forall_mem_set (fun q hq => (h.redemptions q hq).later (later_redemptions _))
      (hkept.later (later_redemptions _)),
    fun ticket => (h.once ticket).set hr id⟩

theorem Kept.redeem (h : Kept w) {i : Nat} {answers : Bool} (hr : w.redemptions[i]? = some r)
    (hredeem : w.redeem r answers = some (w', r')) :
    Kept { w' with redemptions := w.redemptions.set i r' } := by
  have hkept := h.redemptions r (mem_of_getElem? hr)
  have hhere := hkept.here
  have hdone : ∀ pc, pc = .refused ∨ pc = .raised → RedemptionKept w { r with pc } := by
    rintro pc (rfl | rfl) <;> exact ⟨hkept.taken, trivial⟩
  cases hpc : r.pc with
  | presented =>
      simp only [World.redeem, hpc] at hredeem
      split at hredeem
      · cases hredeem
        exact h.goOn hr (hdone _ (Or.inl rfl))
      · rename_i held hheld
        cases hredeem
        exact h.take hr hheld
  | consumed payload =>
      rw [hpc] at hhere
      simp only [World.redeem, hpc] at hredeem
      split at hredeem
      · cases hredeem
        exact h.goOn hr (hdone _ (Or.inl rfl))
      · rename_i g hg
        cases hredeem
        obtain ⟨row, hrow, hg⟩ := Option.bind_eq_some_iff.mp hg
        have hown : row.id = payload.sessionId ∧ row.userId = payload.userId := by
          simpa using List.find?_some hrow
        obtain ⟨hknown, hbelongs⟩ := h.sessions row (List.mem_of_find?_eq_some hrow) g hg
        exact h.goOn hr ⟨hkept.taken, payload.userId, hhere, hknown, hown.2 ▸ hbelongs⟩
  | authorized g =>
      rw [hpc] at hhere
      simp only [World.redeem, hpc] at hredeem
      obtain ⟨userId, htook, -, hbelongs⟩ := hhere
      split at hredeem
      · cases hredeem
        exact h.goOn hr (hdone _ (Or.inr rfl))
      · rename_i session hsession
        split at hredeem
        · cases hredeem
          exact h.goOn hr (hdone _ (Or.inr rfl))
        · cases hredeem
          have hid : session.id = g := by simpa using List.find?_some hsession
          have huser : session.userId = userId :=
            hbelongs session (List.mem_of_find?_eq_some hsession) hid
          exact h.goOn hr ⟨hkept.taken, huser.symm ▸ htook⟩
  | minted | refused | raised => simp [World.redeem, hpc] at hredeem

theorem Kept.step {move : Move} (h : Kept w) (hstep : w.step move = some w') : Kept w' := by
  cases move with
  | tick elapsed =>
      cases hstep
      exact ⟨h.issued, h.issuedBefore, h.redis, h.sessions, h.gns3Sessions,
        fun r hr => (h.redemptions r hr).later ⟨Nat.le_refl _, fun _ => id, fun _ _ =>
          id, fun _ _ _ => id⟩, h.once⟩
  | «open» userId =>
      cases hstep
      refine ⟨h.issued, fun entry hmem => Nat.lt_succ_of_lt (h.issuedBefore entry hmem),
        h.redis, ?_, fun session hmem => Nat.lt_succ_of_lt (h.gns3Sessions session hmem),
        fun r hr => (h.redemptions r hr).later ⟨Nat.le_succ _, fun _ => id, fun _ _ =>
          id, fun _ _ _ => id⟩, h.once⟩
      refine forall_mem_append (fun row hrow g hg => ?_) fun g hg => (by cases hg)
      exact ⟨Nat.lt_succ_of_lt (h.sessions row hrow g hg).1, (h.sessions row hrow g hg).2⟩
  | provision i =>
      dsimp only [World.step] at hstep
      split at hstep
      · cases hstep
      · rename_i row _
        cases hstep
        exact h.provision i row
  | close i =>
      dsimp only [World.step] at hstep
      split at hstep
      · cases hstep
      · rename_i session hsession
        cases hstep
        have hmem := mem_of_getElem? hsession
        have hbelongs : ∀ g userId, w.BelongsTo g userId →
            ∀ other ∈ w.gns3Sessions.set i { session with closed := true }, other.id = g →
              other.userId = userId :=
          fun g userId hbelongs => forall_mem_set hbelongs (hbelongs session hmem)
        exact ⟨h.issued, h.issuedBefore, h.redis,
          fun row hrow g hg =>
            ⟨(h.sessions row hrow g hg).1, hbelongs g row.userId (h.sessions row hrow g hg).2⟩,
          forall_mem_set h.gns3Sessions (h.gns3Sessions session hmem),
          fun r hr => (h.redemptions r hr).later
            ⟨Nat.le_refl _, fun _ => id, fun _ _ => id, fun g userId _ => hbelongs g userId⟩,
              h.once⟩
  | delete sessionId =>
      cases hstep
      exact ⟨h.issued, h.issuedBefore, h.redis, fun row hrow =>
        h.sessions row (List.mem_filter.mp hrow).1, h.gns3Sessions, fun r hr =>
        (h.redemptions r hr).later
          ⟨Nat.le_refl _, fun _ => id, fun _ _ => id, fun _ _ _ => id⟩, h.once⟩
  | issue sessionId userId =>
      dsimp only [World.step] at hstep
      split at hstep
      · cases hstep
        exact h.issue _
      · cases hstep
  | present ticket =>
      cases hstep
      refine ⟨h.issued, h.issuedBefore, h.redis, h.sessions, h.gns3Sessions,
        forall_mem_append (fun r hr => (h.redemptions r hr).later (later_redemptions _))
          ⟨fun htaken => (by cases htaken), rfl⟩, ?_⟩
      exact fun ticket' => (h.once ticket').append fun hboth => (by cases hboth.2)
  | go i answers =>
      dsimp only [World.step] at hstep
      split at hstep
      · cases hstep
      · rename_i r hr
        obtain ⟨⟨w', r'⟩, hredeem, rfl⟩ := Option.map_eq_some_iff.mp hstep
        exact h.redeem hr hredeem

/-- **A ticket opens one account, once.** Whoever hands in what, in whatever order and however
often: a redemption gets a JWT only for a ticket that was issued and taken out within 120 seconds,
it is for the account of the user to whom that ticket was issued, and no other redemption of the
same ticket gets one. -/
theorem always_minted_once : Runs.Always World.step {} fun w =>
    (∀ r ∈ w.redemptions, ∀ userId, r.pc = .minted userId →
      ∃ held at_, (r.ticket, held) ∈ w.issued ∧ r.takenAt = some at_
        ∧ at_ < held.issuedAt + ticketTtl
        ∧ held.payload.userId = userId)
    ∧ (∀ entry ∈ w.issued, ∀ entry' ∈ w.issued, entry.1 = entry'.1 → entry = entry')
    ∧ ∀ (i j : Nat) (r r' : Redemption) (userId userId' : Nat), w.redemptions[i]? = some r →
        w.redemptions[j]? = some r' → r.pc = .minted userId → r'.pc = .minted userId' →
          r.ticket = r'.ticket →
          i = j := by
  refine Runs.always_of_invariant (fun _ _ _ h hstep => Kept.step h hstep) kept_init fun w h =>
    ⟨?_, ?_, ?_⟩
  · intro r hr userId hpc
    have hhere := (h.redemptions r hr).here
    rw [hpc] at hhere
    exact hhere
  · exact fun entry hentry entry' hentry' heq => List.inj_on_of_nodup_map h.issued hentry
      hentry' heq
  · intro i j r r' userId userId' hi hj hpc hpc' heq
    have htaken : ∀ q ∈ w.redemptions, ∀ userId, q.pc = .minted userId → q.takenAt.isSome := by
      intro q hq userId hminted
      have hhere := (h.redemptions q hq).here
      rw [hminted] at hhere
      obtain ⟨held, at_, -, hat, -⟩ := hhere
      rw [hat]
      rfl
    exact h.once r.ticket i j r r' hi hj ⟨rfl, htaken r (mem_of_getElem? hi) userId hpc⟩
      ⟨heq.symm, htaken r' (mem_of_getElem? hj) userId' hpc'⟩

end OnlinetLabs.Sessions.Tickets
