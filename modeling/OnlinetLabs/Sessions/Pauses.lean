import OnlinetLabs.Sessions.Reclaim

/-!
# A pause and the learner's work

A VPCS keeps its configuration in memory, so a node that is stopped unsaved loses it. The pass tries
to save every such node first, and stops the session whatever came of that: the count of what was
saved is for the log.
-/

namespace OnlinetLabs.Sessions

open Interleaving

/-! ### The law -/

/-- No stop of the pass takes a running node its configuration. -/
def WorkKept (s : Site) : Prop := ∀ stop ∈ s.stops, stop.lost = []

/-- The state that was fetched shows the node as one to save, with a console port. -/
def Turn.Shows (turn : Turn) (n : Node) : Prop :=
  ∃ nodes, turn.fetched = some nodes ∧ n ∈ targets nodes ∧ n.console ≠ 0

/-- The turn has seen to the node: the state it fetched shows it, and its save succeeded. -/
def Turn.Secures (turn : Turn) (n : Node) : Prop :=
  ∃ m, m.id = n.id ∧ turn.Shows m ∧ (m, true) ∈ turn.answered

/-- Someone else, or an earlier turn, has saved the node since the pass began. -/
def Site.SavedElsewhere (s : Site) (turn : Turn) (n : Node) : Prop :=
  ∃ saved ∈ s.saves, saved.turn ≠ some turn.number ∧ saved.gns3Sid = turn.gns3Sid
    ∧ saved.nodeId = n.id

def StopsSecured (c : Conf Site StartAction) :
    Label SiteMove (SessionId × UserId) StartAnswer → Prop
  | .env (.pass (.stop _)) => ∀ turn rest, c.shared.pass.pc = .stopping turn rest →
      ∀ n ∈ c.shared.nodes turn.gns3Sid, n.isVolatile = true →
        turn.Secures n ∨ c.shared.SavedElsewhere turn n
  | _ => True

/-! ### What a turn knows -/

def PassPc.turn? : PassPc → Option Turn
  | .fetching turn _ | .saving turn _ | .stopping turn _ | .marking turn _ => some turn
  | .idle | .selecting | .looping _ | .raised => none

/-- What a turn holds for saved is what has been saved in it. -/
structure Turn.Sound (saves : List Saved) (turn : Turn) : Prop where
  answered : ∀ n, (n, true) ∈ turn.answered → ⟨turn.gns3Sid, n.id, some turn.number⟩ ∈ saves
  saved : ∀ saved ∈ saves, saved.turn = some turn.number →
    ∃ n, (n, true) ∈ turn.answered ∧ n.id = saved.nodeId
  shown : ∀ n, n ∈ turn.pending ∨ (n, true) ∈ turn.answered → turn.Shows n

structure Pass.Sound (saves : List Saved) (pass : Pass) : Prop where
  fresh : ∀ turn rest, pass.pc = .fetching turn rest → turn.answered = []
  turns : ∀ saved ∈ saves, ∀ k, saved.turn = some k → k < pass.turns
  number : ∀ turn, pass.pc.turn? = some turn → turn.number < pass.turns
  turn : ∀ turn, pass.pc.turn? = some turn → turn.Sound saves

variable {s s' : Site} {turn : Turn} {n : Node} {a : PassAnswer} {gns3Sid : Gns3Id}

theorem Site.isSaved_iff : s.isSaved gns3Sid n = true
    ↔ ∃ saved ∈ s.saves, saved.gns3Sid = gns3Sid ∧ saved.nodeId = n.id := by
  simp [isSaved]

theorem Site.unsaved_eq_nil_iff : s.unsaved gns3Sid = []
    ↔ ∀ n ∈ s.nodes gns3Sid, n.isVolatile = true → s.isSaved gns3Sid n = true := by
  simp [unsaved, List.filter_eq_nil_iff]

/-- **What is saved when a turn ends.** -/
theorem Turn.Sound.isSaved_iff (h : turn.Sound s.saves) :
    s.isSaved turn.gns3Sid n = true ↔ turn.Secures n ∨ s.SavedElsewhere turn n := by
  rw [Site.isSaved_iff]
  constructor
  · rintro ⟨saved, hmem, hsid, hid⟩
    by_cases hturn : saved.turn = some turn.number
    · obtain ⟨m, hm, hmid⟩ := h.saved saved hmem hturn
      exact Or.inl ⟨m, hmid.trans hid, h.shown m (Or.inr hm), hm⟩
    · exact Or.inr ⟨saved, hmem, hturn, hsid, hid⟩
  · rintro (⟨m, hid, -, hm⟩ | ⟨saved, hmem, -, hsid, hid⟩)
    · exact ⟨_, h.answered m hm, rfl, hid⟩
    · exact ⟨saved, hmem, hsid, hid⟩

/-- Someone else's save is of no turn. -/
theorem Pass.Sound.append {pass : Pass} {saves : List Saved} (h : pass.Sound saves)
    (gns3Sid : Gns3Id)
    (nodeId : String) : pass.Sound (saves ++ [⟨gns3Sid, nodeId, none⟩]) := by
  refine ⟨h.fresh, ?_, h.number, fun turn hturn => ?_⟩
  · refine List.forall_mem_append.mpr ⟨h.turns, List.forall_mem_singleton.mpr ?_⟩
    rintro k ⟨⟩
  · obtain ⟨hanswered, hsaved, hshown⟩ := h.turn turn hturn
    refine ⟨fun n hn => List.mem_append_left _ (hanswered n hn), ?_, hshown⟩
    refine List.forall_mem_append.mpr ⟨hsaved, List.forall_mem_singleton.mpr ?_⟩
    rintro ⟨⟩

/-- Going on with the turn, or without one. -/
theorem Pass.Sound.goTo {pass : Pass} {saves : List Saved} (h : pass.Sound saves) {pc : PassPc}
    (hne : ∀ turn rest, pc ≠ .fetching turn rest)
    (hpc : ∀ turn, pc.turn? = some turn → pass.pc.turn? = some turn) :
    Pass.Sound saves { pass with pc } :=
  ⟨fun turn rest heq => absurd heq (hne turn rest), h.turns,
    fun turn hturn => h.number turn (hpc turn hturn), fun turn hturn =>
      h.turn turn (hpc turn hturn)⟩

theorem Pass.Sound.advance (h : s.pass.Sound s.saves) (ha : Advances s a s') :
    s'.pass.Sound s'.saves := by
  cases ha with
  | begin hpc =>
      refine ⟨by rintro _ _ ⟨⟩, by simp, by rintro _ ⟨⟩, by rintro _ ⟨⟩⟩
  | @select ok hpc =>
      cases ok with
      | true => exact h.goTo (by rintro _ _ ⟨⟩) (by rintro _ ⟨⟩)
      | false => exact h.goTo (by rintro _ _ ⟨⟩) (by rintro _ ⟨⟩)
  | skip hpc hturns hnext =>
      have hbound : ∀ saved ∈ s.saves, ∀ k, saved.turn = some k → k < _ :=
        fun saved hmem k hk => Nat.lt_of_lt_of_le (h.turns saved hmem k hk) hturns
      rcases hnext with rfl | rfl
      · exact ⟨by rintro _ _ ⟨⟩, hbound, by rintro _ ⟨⟩, by rintro _ ⟨⟩⟩
      · exact ⟨by rintro _ _ ⟨⟩, hbound, by rintro _ ⟨⟩, by rintro _ ⟨⟩⟩
  | turn hpc hsid =>
      refine ⟨?_, fun saved hmem k hk => Nat.lt_succ_of_lt (h.turns saved hmem k hk), ?_, ?_⟩
      · rintro turn rest ⟨⟩
        rfl
      · rintro turn ⟨⟩
        exact Nat.lt_succ_self _
      · rintro turn ⟨⟩
        refine ⟨by simp, fun saved hmem hturn => ?_, by simp⟩
        exact absurd (h.turns saved hmem _ hturn) (Nat.lt_irrefl _)
  | @fetch turn rest hpc =>
      have hturn : s.pass.pc.turn? = some turn := by rw [hpc]; rfl
      refine ⟨by rintro _ _ ⟨⟩, h.turns, ?_, ?_⟩
      · rintro _ ⟨⟩
        exact h.number turn hturn
      · rintro _ ⟨⟩
        refine ⟨by simp, fun saved hmem hnumber => ?_, ?_⟩
        · obtain ⟨n, hn, -⟩ := (h.turn turn hturn).saved saved hmem hnumber
          rw [h.fresh turn rest hpc] at hn
          cases hn
        · rintro n (hpending | hanswered)
          · obtain ⟨hmem, hconsole⟩ := List.mem_filter.mp hpending
            exact ⟨_, rfl, hmem, by simpa using hconsole⟩
          · simp at hanswered
  | @blind turn rest hpc =>
      apply h.goTo (by rintro _ _ ⟨⟩)
      rintro _ ⟨⟩
      rw [hpc]
      rfl
  | @save turn rest node ok hpc hmem =>
      have hturn : s.pass.pc.turn? = some turn := by rw [hpc]; rfl
      have hnumber : turn.number < s.pass.turns := h.number turn hturn
      obtain ⟨hanswered, hsaved, hshown⟩ := h.turn turn hturn
      have hnode : turn.Shows node := hshown node (Or.inl hmem)
      refine ⟨by rintro _ _ ⟨⟩, ?_, ?_, ?_⟩
      · refine List.forall_mem_append.mpr ⟨h.turns, ?_⟩
        cases ok with
        | true =>
            refine List.forall_mem_singleton.mpr ?_
            rintro k ⟨⟩
            exact hnumber
        | false => exact nofun
      · rintro _ ⟨⟩
        exact hnumber
      · rintro _ ⟨⟩
        refine ⟨?_, ?_, ?_⟩
        · intro n hn
          rcases List.mem_append.mp hn with hn | hn
          · exact List.mem_append_left _ (hanswered n hn)
          · obtain ⟨rfl, rfl⟩ := Prod.mk.inj (List.mem_singleton.mp hn)
            exact List.mem_append_right _ List.mem_cons_self
        · refine List.forall_mem_append.mpr ⟨fun saved hsavedMem hsavedTurn => ?_, ?_⟩
          · obtain ⟨n, hn, hid⟩ := hsaved saved hsavedMem hsavedTurn
            exact ⟨n, List.mem_append_left _ hn, hid⟩
          · cases ok with
            | true =>
                refine List.forall_mem_singleton.mpr fun _ => ?_
                exact ⟨node, List.mem_append_right _ List.mem_cons_self, rfl⟩
            | false => exact nofun
        · rintro n (hpending | hn)
          · exact hshown n (Or.inl (List.mem_of_mem_erase hpending))
          · rcases List.mem_append.mp hn with hn | hn
            · exact hshown n (Or.inr hn)
            · obtain ⟨rfl, -⟩ := Prod.mk.inj (List.mem_singleton.mp hn)
              exact hnode
  | @gather turn rest hpc hdone =>
      apply h.goTo (by rintro _ _ ⟨⟩)
      rintro _ ⟨⟩
      rw [hpc]
      rfl
  | @stop turn rest ok hpc =>
      cases ok with
      | true =>
          apply h.goTo (by rintro _ _ ⟨⟩)
          rintro _ ⟨⟩
          rw [hpc]
          rfl
      | false => exact h.goTo (by rintro _ _ ⟨⟩) (by rintro _ ⟨⟩)
  | @mark turn rest now ok hpc =>
      cases ok with
      | true =>
          simp only [Site.goTo, if_true, Site.pass_markPaused, Site.saves_markPaused]
          exact h.goTo (by rintro _ _ ⟨⟩) (by rintro _ ⟨⟩)
      | false => exact h.goTo (by rintro _ _ ⟨⟩) (by rintro _ ⟨⟩)

/-! ### All runs -/

variable {c c' : Conf Site StartAction} {l : Label SiteMove (SessionId × UserId) StartAnswer}

theorem Advances.stops_cases (h : Advances s a s') :
    (s'.stops = s.stops ∧ ∀ ok, a ≠ .stop ok)
      ∨ ∃ turn rest ok, s.pass.pc = .stopping turn rest ∧ a = .stop ok
          ∧ s'.stops = s.stops
            ++ [{ gns3Sid := turn.gns3Sid, lost := s.unsaved turn.gns3Sid }] := by
  cases h with
  | begin | select | skip | turn | fetch | blind | save | gather =>
      exact Or.inl ⟨rfl, by rintro _ ⟨⟩⟩
  | @stop turn rest ok hpc => exact Or.inr ⟨turn, rest, ok, hpc, rfl, rfl⟩
  | @mark turn rest now ok hpc =>
      refine Or.inl ⟨?_, by rintro _ ⟨⟩⟩
      cases ok with
      | true => exact Site.stops_markPaused
      | false => rfl

theorem passSound_next (h : c.shared.pass.Sound c.shared.saves)
    (hnext : reclaiming.next c l = some c') :
    c'.shared.pass.Sound c'.shared.saves := by
  rcases reclaiming.next_cases hnext with ⟨move, s, rfl, hmove, rfl⟩ | ⟨i, rfl, rfl⟩
    | ⟨pid, answer, p, s, p', rfl, hpid, hstep, rfl⟩
  · rcases Site.move_cases hmove with ⟨a, rfl, ha⟩
      | ⟨hpass, -, -, hsaves | ⟨gns3Sid, nodeId, hsaves⟩⟩
    · exact h.advance ha
    · simp only [hpass, hsaves]
      exact h
    · simp only [hpass, hsaves]
      exact h.append gns3Sid nodeId
  · exact h
  · obtain ⟨hpass, hsaves, -⟩ := StartAction.step_frame hstep
    simp only [hpass, hsaves]
    exact h

theorem workKept_next_iff (hsound : c.shared.pass.Sound c.shared.saves) (h : WorkKept c.shared)
    (hnext : reclaiming.next c l = some c') : WorkKept c'.shared ↔ StopsSecured c l := by
  rcases reclaiming.next_cases hnext with ⟨move, s, rfl, hmove, rfl⟩ | ⟨i, rfl, rfl⟩
    | ⟨pid, answer, p, s, p', rfl, hpid, hstep, rfl⟩
  · rcases Site.move_cases hmove with ⟨a, rfl, ha⟩ | ⟨-, hstops, hother, -⟩
    · rcases ha.stops_cases with ⟨hstops, hother⟩ | ⟨turn, rest, ok, hpc, rfl, hstops⟩
      · have hkept : WorkKept s := by simpa only [WorkKept, hstops] using h
        refine iff_of_true hkept ?_
        cases a with
        | stop ok => exact absurd rfl (hother ok)
        | _ => exact trivial
      · have hturn : turn.Sound c.shared.saves := hsound.turn turn (by rw [hpc]; rfl)
        have hcond : StopsSecured c (.env (.pass (.stop ok)))
            ↔ ∀ n ∈ c.shared.nodes turn.gns3Sid, n.isVolatile = true →
                turn.Secures n ∨ c.shared.SavedElsewhere turn n := by
          constructor
          · exact fun hall => hall turn rest hpc
          · intro hall turn' rest' hpc'
            rw [hpc, PassPc.stopping.injEq] at hpc'
            exact hpc'.1 ▸ hall
        have hlost : c.shared.unsaved turn.gns3Sid = []
            ↔ ∀ n ∈ c.shared.nodes turn.gns3Sid, n.isVolatile = true →
                turn.Secures n ∨ c.shared.SavedElsewhere turn n := by
          rw [Site.unsaved_eq_nil_iff]
          exact forall_congr' fun n => imp_congr_right fun _ => imp_congr_right fun _ =>
            hturn.isSaved_iff
        rw [hcond, ← hlost, WorkKept, hstops, List.forall_mem_append, List.forall_mem_singleton]
        exact and_iff_right h
    · have hkept : WorkKept s := by simpa only [WorkKept, hstops] using h
      refine iff_of_true hkept ?_
      cases move with
      | pass a => exact absurd rfl (hother a)
      | _ => exact trivial
  · exact iff_of_true h trivial
  · obtain ⟨-, -, hstops⟩ := StartAction.step_frame hstep
    refine iff_of_true ?_ trivial
    simpa only [WorkKept, hstops] using h

/-- **When a pause destroys no work**: exactly in the runs whose stops find every running VPCS seen
to. -/
theorem work_kept_iff (sessions : Table SeenSession) (nodes : Gns3Id → List Node)
    (ls : List (Label SiteMove (SessionId × UserId) StartAnswer)) :
    reclaiming.Throughout (fun c => WorkKept c.shared) (atRest sessions nodes) ls
      ↔ reclaiming.Along StopsSecured (atRest sessions nodes) ls := by
  apply reclaiming.throughout_iff_along (I := fun c => c.shared.pass.Sound c.shared.saves)
  · exact fun c l c' h hnext => passSound_next h hnext
  · exact fun c l c' hsound h hnext => workKept_next_iff hsound h hnext
  · exact ⟨by rintro _ _ ⟨⟩, by rintro _ ⟨⟩, by rintro _ ⟨⟩, by rintro _ ⟨⟩⟩
  · intro stop hstop
    cases hstop

def loneHost :
    Node := { id := "n1", name := "PC1", nodeType := "vpcs", status := "started", console := 5000 }

/-- The state of the only idle session cannot be fetched. -/
def blindPass : List (Label SiteMove (SessionId × UserId) StartAnswer) :=
  [.env (.pass (.begin (minutes 40))), .env (.pass (.select true)), .env (.pass (.activity .none)),
    .env (.pass (.fetch false)), .env (.pass (.stop true)), .env (.pass (.mark (minutes 40) true))]

/-- **A pause that destroys work.** Nothing could be saved, and the nodes are stopped all the
same. -/
theorem pause_without_save : ¬ reclaiming.Throughout (fun c => WorkKept c.shared)
    (atRest ⟨[some abandoned]⟩ fun _ => [loneHost]) blindPass := by
  intro hall
  have hrun : (reclaiming.exec (atRest ⟨[some abandoned]⟩ fun _ => [loneHost]) blindPass).map
      (fun c => c.shared.stops) = some [{ gns3Sid := 0, lost := [loneHost] }] := by decide +kernel
  obtain ⟨c, hexec, hstops⟩ := Option.map_eq_some_iff.mp hrun
  have hkept : WorkKept c.shared := hall.exec _ hexec
  have hlost := hkept { gns3Sid := 0, lost := [loneHost] } (hstops ▸ List.mem_singleton_self _)
  cases hlost

end OnlinetLabs.Sessions
