import OnlinetLabs.Sessions.StateView

/-!
# How far the cached state can be from the session

One entry serves every locale. Actions on nodes empty the cache once they are done, and a reset, the
end of the lab and a pause do not touch it. A state that was being made during an action is stored
after it.
-/

namespace OnlinetLabs.Sessions.StateView

open Interleaving

/-- What a caller is to see, had the operations returned that had before the call. -/
structure Agrees (setting : Setting) (s : Platform) (locale : Validation.Locale) (since : Since)
    (state : SessionState) : Prop where
  title : state.title = setting.titleIn locale
  row : s.row.Held since.row fun row => row.status = state.status ∧ row.paused = state.paused
  noAssist : s.noAssist.Held since.assist fun noAssist => noAssist = state.noAssist

def StatesAgree (setting : Setting) (c : Conf Platform Call) : Prop :=
  ∀ locale since state, .state locale (.returned since state) ∈ c.procs →
    Agrees setting c.shared locale since state

/-- The place at which a call returns as an operation. -/
def Call.leaves : Call → Bool
  | .action _ .leaving | .reset .leaving | .finish .leaving | .pause .leaving => true
  | _ => false

/-- An entry is served to a locale with the same title; what is stored was read since the last
operation returned, or has not changed before it did; and an operation returns only when what the
cache would give is still so. -/
def Call.SparesState (setting : Setting) (s : Platform) : Call → Prop
  | .state locale (.looking ..) =>
      ∀ entry ∈ s.cached, setting.titleIn entry.locale = setting.titleIn locale
  | .state _ (.storing _ entry) => s.settledRow ≤ entry.rowAt ∧ s.settledAssist ≤ entry.assistAt
  | call => call.leaves = true →
      ∀ entry ∈ s.cached, s.row.version ≤ entry.rowAt ∧ s.noAssist.version ≤ entry.assistAt

def KeepsStateFresh (setting : Setting) (c : Conf Platform Call) : Label Move Request Answer → Prop
  | .run pid _ => ∀ call ∈ c.procs[pid]?, call.SparesState setting c.shared
  | _ => True

/-! ### What entries and calls know -/

structure Cached.Describes (setting : Setting) (s : Platform) (entry : Cached) : Prop where
  title : entry.state.title = setting.titleIn entry.locale
  row : ∃ row, s.row.get? entry.rowAt = some row ∧ row.status = entry.state.status
    ∧ row.paused = entry.state.paused
  noAssist : s.noAssist.get? entry.assistAt = some entry.state.noAssist

structure Platform.Fresh (setting : Setting) (s : Platform) : Prop where
  settledRow : s.settledRow ≤ s.row.version
  settledAssist : s.settledAssist ≤ s.noAssist.version
  cached : ∀ entry, s.cached = some entry →
    entry.Describes setting s ∧ s.settledRow ≤ entry.rowAt ∧ s.settledAssist ≤ entry.assistAt

def ReadRow.IsOf (s : Platform) (since : Since) (row : ReadRow) : Prop :=
  s.row.get? row.version = some row.value ∧ since.row ≤ row.version ∧ since.row ≤ s.settledRow
    ∧ since.assist ≤ s.settledAssist

def Call.Knows (setting : Setting) (s : Platform) : Call → Prop
  | .state _ (.looking since row) | .state _ (.asking since row)
  | .state _ (.describing since row _) =>
      row.IsOf s since
  | .state locale (.storing since entry) =>
      entry.Describes setting s ∧ entry.locale = locale ∧ since.row ≤ entry.rowAt
        ∧ since.assist ≤ entry.assistAt
  | .state locale (.returned since given) => Agrees setting s locale since given
  | _ => True

structure Platform.Grows (s s' : Platform) : Prop where
  row : ∀ version row, s.row.get? version = some row → s'.row.get? version = some row
  noAssist : ∀ version noAssist, s.noAssist.get? version = some noAssist →
    s'.noAssist.get? version = some noAssist
  settledRow : s.settledRow ≤ s'.settledRow
  settledAssist : s.settledAssist ≤ s'.settledAssist

variable {setting : Setting} {s s' : Platform} {call call' : Call} {entry : Cached}
  {locale : Validation.Locale}
  {since : Since}
  {state : SessionState} {a : Answer}

/-- Where the histories stay as they are. -/
theorem Platform.grows_of_eq (hrow : s'.row = s.row) (hassist : s'.noAssist = s.noAssist)
    (hsettledRow : s.settledRow ≤ s'.settledRow)
    (hsettledAssist : s.settledAssist ≤ s'.settledAssist) :
    s.Grows s' := by
  refine ⟨fun _ _ h => ?_, fun _ _ h => ?_, hsettledRow, hsettledAssist⟩
  · rw [hrow]
    exact h
  · rw [hassist]
    exact h

theorem Platform.Grows.refl (s : Platform) : s.Grows s :=
  Platform.grows_of_eq rfl rfl (Nat.le_refl _) (Nat.le_refl _)

theorem Platform.grows_write (s : Platform) (f : SeenRow → SeenRow) : s.Grows (s.write f) :=
  ⟨fun _ _ => History.get?_push, fun _ _ h => h, Nat.le_refl _, Nat.le_refl _⟩

theorem Cached.Describes.grow (h : entry.Describes setting s) (hgrows : s.Grows s') :
    entry.Describes setting s' := by
  obtain ⟨row, hget, hrow⟩ := h.row
  exact ⟨h.title, ⟨row, hgrows.row _ _ hget, hrow⟩, hgrows.noAssist _ _ h.noAssist⟩

theorem Agrees.grow (h : Agrees setting s locale since state) (hgrows : s.Grows s') :
    Agrees setting s' locale since state := by
  obtain ⟨rowAt, row, hrowAt, hrow, hmatches⟩ := h.row
  obtain ⟨assistAt, noAssist, hassistAt, hassist, hsame⟩ := h.noAssist
  exact ⟨h.title, ⟨rowAt, row, hrowAt, hgrows.row _ _ hrow, hmatches⟩,
    ⟨assistAt, noAssist, hassistAt, hgrows.noAssist _ _ hassist, hsame⟩⟩

theorem Call.Knows.grow (h : call.Knows setting s) (hgrows : s.Grows s') :
    call.Knows setting s' := by
  cases call with
  | state locale pc =>
      cases pc with
      | looking since row | asking since row | describing since row raw =>
          obtain ⟨hget, hsince, hrow, hassist⟩ := h
          exact ⟨hgrows.row _ _ hget, hsince, Nat.le_trans hrow hgrows.settledRow,
            Nat.le_trans hassist hgrows.settledAssist⟩
      | storing since entry => exact ⟨h.1.grow hgrows, h.2⟩
      | returned since given => exact Agrees.grow h hgrows
      | start | marking | returnedNone | raised => exact trivial
  | action | reset | finish | pause => exact trivial

/-- What an entry describes, a caller of a locale with its title may see. -/
theorem Cached.Describes.agrees (h : entry.Describes setting s)
    (htitle : setting.titleIn entry.locale = setting.titleIn locale)
    (hrow : since.row ≤ entry.rowAt)
    (hassist : since.assist ≤ entry.assistAt) : Agrees setting s locale since entry.state := by
  obtain ⟨row, hget, hmatches⟩ := h.row
  exact ⟨h.title.trans htitle, ⟨entry.rowAt, row, hrow, hget, hmatches⟩,
    ⟨entry.assistAt, entry.state.noAssist, hassist, h.noAssist, rfl⟩⟩

theorem Platform.grows_store (s : Platform) : s.Grows (s.store entry) :=
  grows_of_eq rfl rfl (Nat.le_refl _) (Nat.le_refl _)

namespace Platform.Fresh

/-- A change of the histories leaves what the cache gives. -/
theorem grow (h : s.Fresh setting) (hgrows : s.Grows s') (hrow : s.row.version ≤ s'.row.version)
    (hassist : s.noAssist.version ≤ s'.noAssist.version)
    (hcached : ∀ entry, s'.cached = some entry → s.cached = some entry)
    (hsettledRow : s'.settledRow = s.settledRow)
    (hsettledAssist : s'.settledAssist = s.settledAssist) : s'.Fresh setting := by
  refine ⟨?_, ?_, fun entry hentry => ?_⟩
  · rw [hsettledRow]
    exact Nat.le_trans h.settledRow hrow
  · rw [hsettledAssist]
    exact Nat.le_trans h.settledAssist hassist
  · obtain ⟨hdescribes, hlater⟩ := h.cached entry (hcached entry hentry)
    rw [hsettledRow, hsettledAssist]
    exact ⟨hdescribes.grow hgrows, hlater⟩

theorem write (h : s.Fresh setting) (f : SeenRow → SeenRow) : (s.write f).Fresh setting :=
  h.grow (s.grows_write f) History.version_le_push (Nat.le_refl _) (fun _ h => h) rfl rfl

theorem invalidate (h : s.Fresh setting) : s.invalidate.Fresh setting :=
  h.grow (grows_of_eq rfl rfl (Nat.le_refl _) (Nat.le_refl _)) (Nat.le_refl _) (Nat.le_refl _)
    (by rintro _ ⟨⟩) rfl rfl

theorem grows_settle (h : s.Fresh setting) : s.Grows s.settle :=
  grows_of_eq rfl rfl h.settledRow h.settledAssist

theorem settle (h : s.Fresh setting)
    (hcached : ∀ entry ∈ s.cached, s.row.version ≤ entry.rowAt
      ∧ s.noAssist.version ≤ entry.assistAt) :
    s.settle.Fresh setting := by
  refine ⟨Nat.le_refl _, Nat.le_refl _, fun entry hentry => ⟨?_, hcached entry hentry⟩⟩
  exact (h.cached entry hentry).1.grow h.grows_settle

theorem store (h : s.Fresh setting) (hdescribes : entry.Describes setting s)
    (hrow : s.settledRow ≤ entry.rowAt)
    (hassist : s.settledAssist ≤ entry.assistAt) : (s.store entry).Fresh setting := by
  refine ⟨h.settledRow, h.settledAssist, fun held hheld => ?_⟩
  have hsame : held = entry := by
    unfold Platform.cached Platform.store at hheld
    dsimp only at hheld
    split at hheld
    · exact (Option.some.inj hheld).symm
    · cases hheld
  rw [hsame]
  exact ⟨hdescribes.grow s.grows_store, hrow, hassist⟩

end Platform.Fresh

/-! ### Steps -/

/-- What a step of an operation does: nothing, a write of the row, the end of the entry, or it
leaves. -/
inductive Operates (s : Platform) (leaves : Bool) : Platform → Prop where
  | waits : Operates s leaves s
  | writes (f : SeenRow → SeenRow) : Operates s leaves (s.write f)
  | invalidates : Operates s leaves s.invalidate
  | settles (hleaves : leaves = true) : Operates s leaves s.settle

theorem Operates.writesIf {leaves : Bool} (took : Bool) (f : SeenRow → SeenRow) :
    Operates s leaves (if took then s.write f else s) := by
  cases took with
  | true => exact .writes f
  | false => exact .waits

theorem Operates.fresh {leaves : Bool} (hoperates : Operates s leaves s') (h : s.Fresh setting)
    (hcached : leaves = true → ∀ entry ∈ s.cached,
      s.row.version ≤ entry.rowAt ∧ s.noAssist.version ≤ entry.assistAt) : s.Grows s'
        ∧ s'.Fresh setting := by
  cases hoperates with
  | waits => exact ⟨.refl _, h⟩
  | writes f => exact ⟨s.grows_write f, h.write f⟩
  | invalidates =>
      exact ⟨Platform.grows_of_eq rfl rfl (Nat.le_refl _) (Nat.le_refl _), h.invalidate⟩
  | settles hleaves => exact ⟨h.grows_settle, h.settle (hcached hleaves)⟩

theorem state_knows {pc pc' : StatePc} (h : s.Fresh setting)
    (hknows : Call.Knows setting s (.state locale pc))
    (hhit : ∀ since row, pc = .looking since row →
      ∀ entry ∈ s.cached, setting.titleIn entry.locale = setting.titleIn locale)
    (hstore : ∀ since entry, pc = .storing since entry →
      s.settledRow ≤ entry.rowAt ∧ s.settledAssist ≤ entry.assistAt)
    (hstep : pc.step setting locale s a = some (s', pc')) :
    s.Grows s' ∧ s'.Fresh setting ∧ Call.Knows setting s' (.state locale pc') := by
  cases pc with
  | start =>
      cases a with
      | done =>
          cases hstep
          exact ⟨.refl _, h, History.get?_version, h.settledRow, Nat.le_refl _, Nat.le_refl _⟩
      | failed =>
          cases hstep
          exact ⟨.refl _, h, trivial⟩
      | _ => cases hstep
  | looking since row =>
      cases a with
      | done =>
          simp only [StatePc.step] at hstep
          split at hstep
          · rename_i entry hentry
            cases hstep
            obtain ⟨hdescribes, hrow, hassist⟩ := h.cached entry hentry
            obtain ⟨-, -, hsinceRow, hsinceAssist⟩ := hknows
            exact ⟨.refl _, h, hdescribes.agrees (hhit since row rfl entry hentry)
              (Nat.le_trans hsinceRow hrow) (Nat.le_trans hsinceAssist hassist)⟩
          · cases hstep
            refine ⟨.refl _, h, ?_⟩
            split
            · exact hknows
            · exact trivial
      | failed =>
          cases hstep
          exact ⟨.refl _, h, trivial⟩
      | _ => cases hstep
  | asking since row =>
      cases a with
      | raw raw =>
          cases hstep
          exact ⟨.refl _, h, hknows⟩
      | missing =>
          cases hstep
          refine ⟨.refl _, h, ?_⟩
          split <;> exact trivial
      | failed =>
          cases hstep
          exact ⟨.refl _, h, trivial⟩
      | done | wrote => cases hstep
  | marking row =>
      cases a with
      | wrote took ok =>
          cases hstep
          have hwrites : Operates s false (if took then s.markEnded else s) :=
            .writesIf took fun row => { row with status := .ended, ended := true }
          obtain ⟨hgrows, hfresh⟩ := hwrites.fresh h (by rintro ⟨⟩)
          refine ⟨hgrows, hfresh, ?_⟩
          cases ok <;> exact trivial
      | _ => cases hstep
  | describing since row raw =>
      cases a with
      | done =>
          cases hstep
          obtain ⟨hrow, hsince, -, hassist⟩ := hknows
          exact ⟨.refl _, h, ⟨rfl, ⟨row.value, hrow, rfl, rfl⟩, History.get?_version⟩, rfl, hsince,
            Nat.le_trans hassist h.settledAssist⟩
      | failed =>
          cases hstep
          exact ⟨.refl _, h, trivial⟩
      | _ => cases hstep
  | storing since entry =>
      cases a with
      | wrote took ok =>
          cases hstep
          obtain ⟨hdescribes, hlocale, hrow, hassist⟩ := hknows
          obtain ⟨hlaterRow, hlaterAssist⟩ := hstore since entry rfl
          have htitle : setting.titleIn entry.locale = setting.titleIn locale := by rw [hlocale]
          have hagrees := hdescribes.agrees htitle hrow hassist
          cases took with
          | true =>
              refine ⟨s.grows_store, h.store hdescribes hlaterRow hlaterAssist, ?_⟩
              cases ok
              · exact trivial
              · exact hagrees.grow s.grows_store
          | false =>
              refine ⟨.refl _, h, ?_⟩
              cases ok
              · exact trivial
              · exact hagrees
      | _ => cases hstep
  | returned | returnedNone | raised => cases a <;> cases hstep

theorem action_operates {isStart : Bool} {pc pc' : ActionPc}
    (hstep : pc.step isStart s a = some (s', pc')) :
    Operates s (Call.action isStart pc).leaves s' := by
  cases pc with
  | start | acting =>
      cases a with
      | done | failed =>
          cases hstep
          exact .waits
      | _ => cases hstep
  | resuming =>
      cases a with
      | wrote took ok =>
          cases hstep
          exact .writesIf took fun row => { row with paused := false }
      | _ => cases hstep
  | invalidating =>
      cases a with
      | wrote took ok =>
          cases hstep
          cases took
          · exact .waits
          · exact .invalidates
      | _ => cases hstep
  | leaving =>
      cases a with
      | done =>
          cases hstep
          exact .settles rfl
      | _ => cases hstep
  | returned | raised => cases a <;> cases hstep

theorem reset_operates {pc pc' : ResetPc} (hstep : pc.step s a = some (s', pc')) :
    Operates s (Call.reset pc).leaves s' := by
  cases pc with
  | start | resetting =>
      cases a with
      | done | failed =>
          cases hstep
          exact .waits
      | _ => cases hstep
  | leaving =>
      cases a with
      | done =>
          cases hstep
          exact .settles rfl
      | failed =>
          cases hstep
          exact .waits
      | _ => cases hstep
  | returned | raised => cases a <;> cases hstep

theorem end_operates {pc pc' : EndPc} (hstep : pc.step s a = some (s', pc')) :
    Operates s (Call.finish pc).leaves s' := by
  cases pc with
  | start | stoppingMonitor =>
      cases a with
      | done | failed =>
          cases hstep
          exact .waits
      | _ => cases hstep
  | marking =>
      cases a with
      | wrote took ok =>
          cases hstep
          exact .writesIf took fun row => { row with status := .ended, ended := true }
      | _ => cases hstep
  | leaving =>
      cases a with
      | done =>
          cases hstep
          exact .settles rfl
      | failed =>
          cases hstep
          exact .waits
      | _ => cases hstep
  | returned | raised => cases a <;> cases hstep

theorem pause_operates {pc pc' : PausePc} (hstep : pc.step s a = some (s', pc')) :
    Operates s (Call.pause pc).leaves s' := by
  cases pc with
  | start =>
      cases a with
      | wrote took ok =>
          cases hstep
          exact .writesIf took fun row => { row with paused := true }
      | _ => cases hstep
  | leaving =>
      cases a with
      | done =>
          cases hstep
          exact .settles rfl
      | _ => cases hstep
  | returned | raised => cases a <;> cases hstep

theorem Call.step_knows (h : s.Fresh setting) (hknows : call.Knows setting s) {calls : List Call}
    {pid : Nat}
    (hpid : calls[pid]? = some call) (hkeeps : KeepsStateFresh setting ⟨s, calls⟩ (.run pid a))
    (hstep : call.step setting s a = some (s', call')) :
    s.Grows s' ∧ s'.Fresh setting ∧ call'.Knows setting s' := by
  have hcall := hkeeps call hpid
  cases call with
  | state locale pc =>
      obtain ⟨⟨s₁, pc'⟩, hpc, heq⟩ := Option.map_eq_some_iff.mp hstep
      cases heq
      refine state_knows h hknows ?_ ?_ hpc
      · rintro since row rfl
        exact hcall
      · rintro since entry rfl
        exact hcall
  | action isStart pc =>
      obtain ⟨⟨s₁, pc'⟩, hpc, heq⟩ := Option.map_eq_some_iff.mp hstep
      cases heq
      obtain ⟨hgrows, hfresh⟩ := (action_operates hpc).fresh h hcall
      exact ⟨hgrows, hfresh, trivial⟩
  | reset pc =>
      obtain ⟨⟨s₁, pc'⟩, hpc, heq⟩ := Option.map_eq_some_iff.mp hstep
      cases heq
      obtain ⟨hgrows, hfresh⟩ := (reset_operates hpc).fresh h hcall
      exact ⟨hgrows, hfresh, trivial⟩
  | finish pc =>
      obtain ⟨⟨s₁, pc'⟩, hpc, heq⟩ := Option.map_eq_some_iff.mp hstep
      cases heq
      obtain ⟨hgrows, hfresh⟩ := (end_operates hpc).fresh h hcall
      exact ⟨hgrows, hfresh, trivial⟩
  | pause pc =>
      obtain ⟨⟨s₁, pc'⟩, hpc, heq⟩ := Option.map_eq_some_iff.mp hstep
      cases heq
      obtain ⟨hgrows, hfresh⟩ := (pause_operates hpc).fresh h hcall
      exact ⟨hgrows, hfresh, trivial⟩

/-! ### All runs -/

variable {c c' : Conf Platform Call} {l : Label Move Request Answer}

theorem Platform.Fresh.env (h : s.Fresh setting) (move : Move) :
    s.Grows (s.env move) ∧ (s.env move).Fresh setting := by
  cases move with
  | tick seconds =>
      have hgrows : s.Grows { s with clock := s.clock + seconds } :=
        Platform.grows_of_eq rfl rfl (Nat.le_refl _) (Nat.le_refl _)
      refine ⟨hgrows, h.grow hgrows (Nat.le_refl _) (Nat.le_refl _)
        (fun entry hentry => ?_) rfl rfl⟩
      unfold Platform.cached at hentry ⊢
      split at hentry
      · cases hentry
      · rename_i hcache
        rw [show s.cache = some _ from hcache]
        split at hentry
        · cases hentry
          exact if_pos (Nat.lt_of_le_of_lt (Nat.le_add_right _ _) ‹_›)
        · cases hentry
  | lose => exact ⟨Platform.grows_of_eq rfl rfl (Nat.le_refl _) (Nat.le_refl _), h.invalidate⟩
  | assist noAssist =>
      have hgrows : s.Grows { s with noAssist := s.noAssist.push noAssist } :=
        ⟨fun _ _ h => h, fun _ _ => History.get?_push, Nat.le_refl _, Nat.le_refl _⟩
      exact ⟨hgrows, h.grow hgrows (Nat.le_refl _) History.version_le_push (fun _ h => h) rfl rfl⟩

theorem knows_next (h : c.shared.Fresh setting ∧ ∀ call ∈ c.procs, call.Knows setting c.shared)
    (hkeeps : KeepsStateFresh setting c l) (hnext : (stateView setting).next c l = some c') :
    c'.shared.Fresh setting ∧ ∀ call ∈ c'.procs, call.Knows setting c'.shared := by
  obtain ⟨hfresh, hknows⟩ := h
  rcases (stateView setting).next_cases hnext with ⟨move, s, rfl, henv, rfl⟩ | ⟨request, rfl, rfl⟩
    | ⟨pid, a, call, s, call', rfl, hpid, hstep, rfl⟩
  · cases henv
    obtain ⟨hgrows, hfresh'⟩ := hfresh.env move
    exact ⟨hfresh', fun call hcall => (hknows call hcall).grow hgrows⟩
  · refine ⟨hfresh, forall_mem_append hknows ?_⟩
    cases request <;> exact trivial
  · obtain ⟨hgrows, hfresh', hknows'⟩ :=
      Call.step_knows hfresh (hknows call (mem_of_getElem? hpid)) hpid hkeeps hstep
    exact ⟨hfresh', forall_mem_set (fun q hq => (hknows q hq).grow hgrows) hknows'⟩

def found (row : SeenRow) (noAssist : Bool) : Conf Platform Call :=
  ⟨{ row := { now := row }, noAssist := { now := noAssist } }, []⟩

/-- **When the cached state agrees.** As long as an entry is served to locales with its title, no
state is stored that had changed before the last return of an operation, and no operation returns
with an entry in the cache that has changed, every state shows the title of its caller's locale and
a status, a pause and an assistance that held after the operations that had returned before the
call. -/
theorem states_agree (setting : Setting) (row : SeenRow) (noAssist : Bool)
    (ls : List (Label Move Request Answer))
    (h : (stateView setting).Along (KeepsStateFresh setting) (found row noAssist) ls) :
    (stateView setting).Throughout (StatesAgree setting) (found row noAssist) ls := by
  have hstart : (found row noAssist).shared.Fresh setting :=
    ⟨Nat.le_refl _, Nat.le_refl _, by rintro _ ⟨⟩⟩
  have hall :=
    System.throughout_of_along _ (fun _ _ _ => knows_next) ⟨hstart, List.forall_mem_nil _⟩ h
  refine hall.mono _ fun c hc => ?_
  intro locale since state hmem
  exact hc.2 _ hmem

def staticRouting : Setting where
  sessionId := "s"
  labSlug := "static-routing"
  gns3Sid := some 1
  title := some (.map ⟨[("en", "Static routing"), ("ru", "Статическая маршрутизация")]⟩)

def readState (pid : Nat) : List (Label Move Request Answer) :=
  [.run pid .done, .run pid .done, .run pid (.raw (.obj [])), .run pid .done,
    .run pid (.wrote true true)]

def readTwice : List (Label Move Request Answer) :=
  [.spawn (.getSessionState .en)] ++ readState 0
    ++ [.spawn (.nodeAction false), .run 1 .done, .run 1 .done, .run 1 (.wrote true true),
      .run 1 .done, .spawn (.getSessionState .ru)] ++ readState 2

def readInBoth : List (Label Move Request Answer) :=
  [.spawn (.getSessionState .en)] ++ readState 0
    ++ [.spawn (.getSessionState .ru), .run 1 .done, .run 1 .done]

instance (setting : Setting) (s : Platform) : DecidablePred (Call.SparesState setting s) :=
  fun call => by
  unfold Call.SparesState
  split <;> infer_instance

instance (setting : Setting) (c : Conf Platform Call) : DecidablePred (KeepsStateFresh setting c)
  | .run pid _ =>
      inferInstanceAs (Decidable (∀ call ∈ c.procs[pid]?, call.SparesState setting c.shared))
  | .env _ => .isTrue trivial
  | .spawn _ => .isTrue trivial

theorem states_agree_readTwice :
    (stateView staticRouting).Along (KeepsStateFresh staticRouting) (found {} false) readTwice
      ∧ (stateView staticRouting).Throughout (StatesAgree staticRouting)
        (found {} false) readTwice :=
  have hkeeps : (stateView staticRouting).Along (KeepsStateFresh staticRouting)
      (found {} false) readTwice := by
    decide
  ⟨hkeeps, states_agree staticRouting {} false readTwice hkeeps⟩

def Call.shows : Call → Option (Validation.Locale × Option String)
  | .state locale (.returned _ state) => some (locale, state.title)
  | _ => none

theorem title_of_another_locale :
    ¬ (stateView staticRouting).Throughout (StatesAgree staticRouting)
      (found {} false) readInBoth := by
  have hrun : ((stateView staticRouting).exec (found {} false) readInBoth).map
      (fun c => c.procs.map Call.shows)
      = some [some (.en, some "Static routing"), some (.ru, some "Static routing")] := by decide
  obtain ⟨c, hexec, hshown⟩ := Option.map_eq_some_iff.mp hrun
  intro hall
  have hmem : some (Validation.Locale.ru, some "Static routing") ∈ c.procs.map Call.shows := by
    rw [hshown]
    decide
  obtain ⟨call, hcall, hshows⟩ := List.mem_map.mp hmem
  unfold Call.shows at hshows
  split at hshows
  · rename_i locale since state
    obtain ⟨hlocale, htitle⟩ := Prod.mk.inj (Option.some.inj hshows)
    have hagrees := (hall.exec _ hexec locale since state hcall).title
    rw [htitle, hlocale] at hagrees
    exact absurd hagrees (by decide)
  · cases hshows

end OnlinetLabs.Sessions.StateView
