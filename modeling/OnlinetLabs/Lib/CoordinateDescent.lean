import Mathlib.Data.List.MinMax

/-!
# Coordinate descent

Each coordinate in turn takes the first of its candidates that minimises the objective, the
coordinates before it at what they have taken, those after it at their first candidates.
-/

namespace CoordinateDescent

variable {κ α β : Type} [LinearOrder β] {J : List (κ × α) → β} {done result : List (κ × α)}
  {before after grid : List (κ × List α)} {k : κ} {candidates : List α}

/-- The first candidate of every coordinate that has one. -/
def firsts (grid : List (κ × List α)) : List (κ × α) :=
  grid.filterMap fun entry => entry.2.head?.map fun a => (entry.1, a)

/-- The point at which the coordinate after those that are done is `a`. -/
def pointAt (done : List (κ × α)) (k : κ) (after : List (κ × List α)) (a : α) : List (κ × α) :=
  done ++ (k, a) :: firsts after

/-- The descent over the coordinates that are left. -/
def descend (J : List (κ × α) → β) : List (κ × α) → List (κ × List α) → Option (List (κ × α))
  | done, [] => some done
  | done, (k, candidates) :: after =>
      (candidates.argmin fun a => J (pointAt done k after a)).bind fun a =>
        descend J (done ++ [(k, a)]) after

theorem descend_cons :
    descend J done ((k, candidates) :: after) = some result ↔
      ∃ a, candidates.argmin (fun a => J (pointAt done k after a)) = some a
        ∧ descend J (done ++ [(k, a)]) after = some result :=
  Option.bind_eq_some_iff

theorem exists_argmin (f : α → β) (h : candidates ≠ []) : ∃ a, candidates.argmin f = some a :=
  Option.ne_none_iff_exists'.mp (List.argmin_eq_none.not.mpr h)

theorem exists_descend (h : ∀ entry ∈ grid, entry.2 ≠ []) :
    ∃ result, descend J done grid = some result := by
  induction grid generalizing done with
  | nil => exact ⟨done, rfl⟩
  | cons entry after ih =>
    obtain ⟨k, candidates⟩ := entry
    obtain ⟨hentry, hafter⟩ := List.forall_mem_cons.mp h
    obtain ⟨a, ha⟩ := exists_argmin (fun a => J (pointAt done k after a)) hentry
    have hrest : ∃ result, descend J (done ++ [(k, a)]) after = some result := ih hafter
    obtain ⟨result, hresult⟩ := hrest
    exact ⟨result, descend_cons.mpr ⟨a, ha, hresult⟩⟩

/-- What is done stays, and every coordinate gets its value in its place. -/
theorem descend_append (h : descend J done grid = some result) :
    ∃ chosen, result = done ++ chosen ∧ chosen.map Prod.fst = grid.map Prod.fst := by
  induction grid generalizing done with
  | nil =>
    cases h
    exact ⟨[], (List.append_nil _).symm, rfl⟩
  | cons entry after ih =>
    obtain ⟨k, candidates⟩ := entry
    obtain ⟨a, -, hrest⟩ := descend_cons.mp h
    obtain ⟨chosen, hresult, hkeys⟩ := ih hrest
    refine ⟨(k, a) :: chosen, ?_, ?_⟩
    · rw [hresult, List.append_assoc]
      rfl
    · rw [List.map_cons, List.map_cons, hkeys]

/-- **At its turn** a coordinate takes the first minimiser among its candidates. -/
theorem descend_turn (h : descend J done (before ++ (k, candidates) :: after) = some result) :
    ∃ chosen a later, result = done ++ chosen ++ (k, a) :: later
      ∧ chosen.map Prod.fst = before.map Prod.fst ∧ later.map Prod.fst = after.map Prod.fst
      ∧ candidates.argmin (fun a => J (pointAt (done ++ chosen) k after a)) = some a := by
  induction before generalizing done with
  | nil =>
    obtain ⟨a, ha, hrest⟩ := descend_cons.mp h
    obtain ⟨later, hresult, hkeys⟩ := descend_append hrest
    refine ⟨[], a, later, ?_, rfl, hkeys, ?_⟩
    · rw [hresult, List.append_nil, List.append_assoc]
      rfl
    · rw [List.append_nil]
      exact ha
  | cons entry before ih =>
    obtain ⟨k', candidates'⟩ := entry
    obtain ⟨a', -, hrest⟩ := descend_cons.mp h
    obtain ⟨chosen, a, later, hresult, hbefore, hafter, ha⟩ := ih hrest
    refine ⟨(k', a') :: chosen, a, later, ?_, ?_, hafter, ?_⟩
    · rw [hresult, List.append_assoc done]
      rfl
    · rw [List.map_cons, List.map_cons, hbefore]
    · rw [List.append_assoc] at ha
      exact ha

/-- **The descent descends**: no coordinate's turn makes the objective greater. -/
theorem descend_le (h : descend J done grid = some result) :
    J result ≤ J (done ++ firsts grid) := by
  induction grid generalizing done with
  | nil =>
    cases h
    simp [firsts]
  | cons entry after ih =>
    obtain ⟨k, candidates⟩ := entry
    obtain ⟨a, ha, hrest⟩ := descend_cons.mp h
    cases candidates with
    | nil => cases ha
    | cons first rest =>
      have hfirst : J (pointAt done k after a) ≤ J (pointAt done k after first) :=
        List.le_of_mem_argmin (f := fun a => J (pointAt done k after a)) List.mem_cons_self ha
      have hpoint : done ++ [(k, a)] ++ firsts after = pointAt done k after a :=
        List.append_assoc ..
      calc J result ≤ J (done ++ [(k, a)] ++ firsts after) := ih hrest
        _ = J (pointAt done k after a) := by rw [hpoint]
        _ ≤ J (pointAt done k after first) := hfirst
        _ = J (done ++ firsts ((k, first :: rest) :: after)) := rfl

end CoordinateDescent
