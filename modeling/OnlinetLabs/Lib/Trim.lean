import Mathlib.Data.List.DropRight

/-!
# Trimming

`trim` takes the blank symbols off both ends of a text. A text in pieces may be trimmed piece by
piece. What blank there is between two visible pieces is then lost, and nothing else is
(`trim_pieces_iff`).
-/

namespace Trim

variable {α : Type} (blank : α → Bool)

def trim (text : List α) : List α := (text.dropWhile blank).rdropWhile blank

def Blank (text : List α) : Prop := ∀ a ∈ text, blank a = true

structure Solid (text : List α) : Prop where
  first : ∃ a rest, text = a :: rest ∧ blank a = false
  last : ∃ rest a, text = rest ++ [a] ∧ blank a = false

/-- There is no blank at the end of a text, nor at the beginning of what follows it. -/
def Tight (text next : List α) : Prop :=
  (∀ a, text.getLast? = some a → blank a = false) ∧ ∀ a, next.head? = some a → blank a = false

/-- Wherever a visible piece is followed by something visible, there is no blank between them. -/
def Kept (pieces : List (List α)) : Prop :=
  ∀ first piece rest, pieces = first ++ piece :: rest → ¬ Blank blank piece →
    ¬ Blank blank rest.flatten →
    Tight blank piece rest.flatten

variable {blank} {text core before after s t : List α} {piece : List α} {pieces : List (List α)}

/-! ### Texts and their ends -/

theorem blank_append : Blank blank (s ++ t) ↔ Blank blank s ∧ Blank blank t :=
  List.forall_mem_append

theorem Solid.not_blank (h : Solid blank text) : ¬ Blank blank text := by
  obtain ⟨a, rest, rfl, ha⟩ := h.first
  intro hblank
  rw [hblank a List.mem_cons_self] at ha
  cases ha

theorem Solid.eq_nil_of_blank (h : Solid blank (s ++ t)) (hs : Blank blank s) : s = [] := by
  obtain ⟨a, rest, hfirst, ha⟩ := h.first
  cases s with
  | nil => rfl
  | cons b s =>
    rw [List.cons_append, List.cons.injEq] at hfirst
    have hb := hs b List.mem_cons_self
    rw [hfirst.1, ha] at hb
    cases hb

theorem Solid.append (hs : Solid blank s) (ht : Solid blank t) (middle : List α) :
    Solid blank (s ++ (middle ++ t)) := by
  obtain ⟨a, rest, rfl, ha⟩ := hs.first
  obtain ⟨rest', b, rfl, hb⟩ := ht.last
  exact ⟨⟨a, rest ++ (middle ++ (rest' ++ [b])), rfl, ha⟩,
    ⟨a :: rest ++ (middle ++ rest'), b, by simp, hb⟩⟩

/-- A text is blank, or something solid between blanks. -/
theorem blank_or (blank : α → Bool) (text : List α) :
    Blank blank text ∨ ∃ before core after, text = before ++ (core ++ after) ∧ Blank blank before ∧
      Solid blank core ∧ Blank blank after := by
  induction text with
  | nil => exact Or.inl (List.forall_mem_nil _)
  | cons a text ih =>
    cases ha : blank a with
    | true =>
      rcases ih with htext | ⟨before, core, after, rfl, hbefore, hcore, hafter⟩
      · exact Or.inl (List.forall_mem_cons.mpr ⟨ha, htext⟩)
      · exact Or.inr ⟨a :: before, core, after, rfl, List.forall_mem_cons.mpr ⟨ha, hbefore⟩,
          hcore, hafter⟩
    | false =>
      right
      rcases ih with htext | ⟨before, core, after, rfl, hbefore, hcore, hafter⟩
      · exact ⟨[], [a], text, rfl, List.forall_mem_nil _,
          ⟨⟨a, [], rfl, ha⟩, ⟨[], a, rfl, ha⟩⟩, htext⟩
      · have hone : Solid blank [a] := ⟨⟨a, [], rfl, ha⟩, ⟨[], a, rfl, ha⟩⟩
        exact ⟨[], [a] ++ (before ++ core), after, by
          simp, List.forall_mem_nil _, hone.append hcore before, hafter⟩

theorem trim_of_blank (h : Blank blank text) : trim blank text = [] := by
  rw [trim, List.dropWhile_eq_nil_iff.mpr h, List.rdropWhile_nil]

theorem trim_solid (hbefore : Blank blank before) (hcore : Solid blank core)
    (hafter : Blank blank after) :
    trim blank (before ++ (core ++ after)) = core := by
  obtain ⟨a, rest, hfirst, ha⟩ := hcore.first
  obtain ⟨rest', b, hlast, hb⟩ := hcore.last
  have hleft : (before ++ (core ++ after)).dropWhile blank = core ++ after := by
    rw [List.dropWhile_append_of_pos hbefore, hfirst, List.cons_append, List.dropWhile_cons,
      if_neg (by simp [ha])]
  have hskip : ∀ x ∈ after.reverse, blank x = true := fun x hx => hafter x (List.mem_reverse.mp hx)
  rw [trim, hleft, List.rdropWhile, List.reverse_append, List.dropWhile_append_of_pos hskip, hlast,
    List.reverse_append, List.reverse_singleton, List.singleton_append, List.dropWhile_cons,
      if_neg (by simp [hb]),
    List.reverse_cons, List.reverse_reverse]

theorem trim_blank_append (hs : Blank blank s) (t : List α) :
    trim blank (s ++ t) = trim blank t := by
  rw [trim, trim, List.dropWhile_append_of_pos hs]

/-- A symbol that is not blank is nowhere trimmed off. -/
theorem count_trim [DecidableEq α] {a : α} (ha : blank a = false) (text : List α) :
    (trim blank text).count a = text.count a := by
  have hnone : ∀ {text : List α}, Blank blank text → text.count a = 0 := by
    intro text htext
    apply List.count_eq_zero.mpr
    intro hmem
    rw [htext a hmem] at ha
    cases ha
  rcases blank_or blank text with htext | ⟨before, core, after, rfl, hbefore, hcore, hafter⟩
  · rw [trim_of_blank htext, hnone htext, List.count_nil]
  · rw [trim_solid hbefore hcore hafter, List.count_append, List.count_append, hnone hbefore,
      hnone hafter]
    omega

/-! ### Pieces -/

theorem solid_pieces (blank : α → Bool) (pieces : List (List α)) :
    (pieces.map (trim blank)).flatten = [] ∨ Solid blank (pieces.map (trim blank)).flatten := by
  induction pieces with
  | nil => exact Or.inl rfl
  | cons piece pieces ih =>
    rw [List.map_cons, List.flatten_cons]
    rcases blank_or blank piece with hpiece | ⟨before, core, after, rfl, hbefore, hcore, hafter⟩
    · rw [trim_of_blank hpiece]
      exact ih
    · right
      rw [trim_solid hbefore hcore hafter]
      rcases ih with hnil | hsolid
      · rw [hnil, List.append_nil]
        exact hcore
      · exact hcore.append hsolid []

theorem Solid.trim (h : Solid blank text) : trim blank text = text := by
  have hself := trim_solid (List.forall_mem_nil _) h (List.forall_mem_nil _)
  rwa [List.append_nil, List.nil_append] at hself

theorem trim_pieces (blank : α → Bool) (pieces : List (List α)) :
    trim blank (pieces.map (trim blank)).flatten = (pieces.map (trim blank)).flatten := by
  rcases solid_pieces blank pieces with hnil | hsolid
  · rw [hnil]
    rfl
  · exact hsolid.trim

theorem pieces_of_blank (h : Blank blank pieces.flatten) :
    (pieces.map (trim blank)).flatten = [] := by
  rw [List.flatten_eq_nil_iff]
  intro text hmem
  obtain ⟨piece, hpiece, rfl⟩ := List.mem_map.mp hmem
  exact trim_of_blank fun a ha => h a (List.mem_flatten.mpr ⟨piece, hpiece, ha⟩)

theorem kept_cons :
    Kept blank (piece :: pieces) ↔
      (¬ Blank blank piece → ¬ Blank blank pieces.flatten → Tight blank piece pieces.flatten)
        ∧ Kept blank pieces := by
  constructor
  · intro h
    exact ⟨h [] piece pieces rfl, fun first other rest hsplit =>
      h (piece :: first) other rest (by rw [hsplit, List.cons_append])⟩
  · rintro ⟨hhead, hlater⟩ first other rest hsplit
    cases first with
    | nil =>
      cases hsplit
      exact hhead
    | cons _ first =>
      rw [List.cons_append, List.cons.injEq] at hsplit
      exact hlater first other rest hsplit.2

/-- Between two solid texts there are no blanks exactly when the border between them is tight. -/
theorem tight_iff {before' core' after' : List α} (hcore : Solid blank core)
    (hafter : Blank blank after)
    (hbefore' : Blank blank before') (hcore' : Solid blank core') :
    Tight blank (before ++ (core ++ after)) (before' ++ (core' ++ after'))
      ↔ after ++ before' = [] := by
  obtain ⟨a, rest, hfirst, ha⟩ := hcore'.first
  obtain ⟨rest', b, hlast, hb⟩ := hcore.last
  constructor
  · rintro ⟨hend, hbegin⟩
    rw [List.append_eq_nil_iff]
    constructor
    · rcases List.eq_nil_or_concat after with hnil | ⟨init, x, rfl⟩
      · exact hnil
      · have hx := hend x (by simp)
        rw [hafter x (by simp)] at hx
        cases hx
    · cases before' with
      | nil => rfl
      | cons x before' =>
        have hx := hbegin x (by simp)
        rw [hbefore' x List.mem_cons_self] at hx
        cases hx
  · intro hnil
    obtain ⟨rfl, rfl⟩ := List.append_eq_nil_iff.mp hnil
    constructor
    · intro x hx
      rw [hlast] at hx
      simp only [List.append_nil, ← List.append_assoc, List.getLast?_concat,
        Option.some.injEq] at hx
      exact hx ▸ hb
    · intro x hx
      rw [hfirst] at hx
      simp only [List.nil_append, List.cons_append, List.head?_cons, Option.some.injEq] at hx
      exact hx ▸ ha

/-- **Trimming piece by piece loses the blanks between visible pieces, and only these.** -/
theorem trim_pieces_iff (blank : α → Bool) (pieces : List (List α)) :
    (pieces.map (trim blank)).flatten = trim blank pieces.flatten ↔ Kept blank pieces := by
  induction pieces with
  | nil =>
    constructor
    · rintro - first piece rest hsplit
      exact absurd hsplit.symm (List.append_ne_nil_of_right_ne_nil _ (List.cons_ne_nil _ _))
    · exact fun _ => rfl
  | cons piece pieces ih =>
    rw [kept_cons, ← ih, List.map_cons, List.flatten_cons, List.flatten_cons]
    rcases blank_or blank piece with hpiece | ⟨before, core, after, rfl, hbefore, hcore, hafter⟩
    · rw [trim_of_blank hpiece, trim_blank_append hpiece, List.nil_append]
      exact ⟨fun h => ⟨fun hvisible => absurd hpiece hvisible, h⟩, fun h => h.2⟩
    · rw [trim_solid hbefore hcore hafter]
      rcases blank_or blank pieces.flatten with hrest
        | ⟨before', core', after', hsplit, hbefore', hcore', hafter'⟩
      · have hend : Blank blank (after ++ pieces.flatten) := blank_append.mpr ⟨hafter, hrest⟩
        rw [pieces_of_blank hrest, trim_of_blank hrest, List.append_assoc, List.append_assoc,
          trim_solid hbefore hcore hend]
        exact ⟨fun _ => ⟨fun _ hvisible => absurd hrest hvisible, rfl⟩, fun _ => List.append_nil _⟩
      · have hwhole : before ++ (core ++ after) ++ pieces.flatten =
            before ++ ((core ++ ((after ++ before') ++ core')) ++ after') := by
          rw [hsplit]
          simp
        have hvisible : ¬ Blank blank (before ++ (core ++ after)) := fun h =>
          hcore.not_blank (blank_append.mp (blank_append.mp h).2).1
        have hvisible' : ¬ Blank blank pieces.flatten := fun h => by
          rw [hsplit] at h
          exact hcore'.not_blank (blank_append.mp (blank_append.mp h).2).1
        rw [hwhole, trim_solid hbefore (hcore.append hcore' _) hafter',
          List.append_cancel_left_eq, hsplit, trim_solid hbefore' hcore' hafter',
          tight_iff hcore hafter hbefore' hcore']
        rw [hsplit] at hvisible'
        constructor
        · intro heq
          have hgap : after ++ before' = [] := by
            rcases solid_pieces blank pieces with hnil | hsolid
            · rw [hnil] at heq
              exact (List.append_eq_nil_iff.mp heq.symm).1
            · rw [heq] at hsolid
              exact hsolid.eq_nil_of_blank (blank_append.mpr ⟨hafter, hbefore'⟩)
          rw [hgap, List.nil_append] at heq
          exact ⟨fun _ _ => hgap, heq⟩
        · rintro ⟨htight, heq⟩
          rw [htight hvisible hvisible', List.nil_append, heq]

theorem count_pieces [DecidableEq α] {a : α} (ha : blank a = false) (pieces : List (List α)) :
    (pieces.map (trim blank)).flatten.count a = pieces.flatten.count a := by
  induction pieces with
  | nil => rfl
  | cons piece pieces ih =>
    rw [List.map_cons, List.flatten_cons, List.flatten_cons, List.count_append, List.count_append,
      count_trim ha, ih]

end Trim
