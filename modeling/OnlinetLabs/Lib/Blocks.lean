import Mathlib.Data.List.Infix
import OnlinetLabs.Lib.Regex

/-!
# Taking blocks out of a text

A block begins with an opening marker and ends with the first closing marker behind it; what is
opened and never closed is not a block. `remove` takes the blocks out from left to right. A text may
also come in pieces, and the blocks be taken out of each: then a border that falls inside a block
keeps from the text what `remove` takes out of it, and no other border makes a difference
(`uncut_or`). The markers are such that no two of them overlap.
-/

namespace Blocks

variable {α : Type} [DecidableEq α]

/-- What is left behind the first occurrence of a marker. -/
def behind (marker : List α) : List α → Option (List α)
  | [] => none
  | a :: rest =>
    if marker <+: a :: rest then some ((a :: rest).drop marker.length) else behind marker rest

/-- Two markers. Both begin with one symbol, which is nowhere else in them, and neither begins with
the other. -/
structure Delimiters (α : Type) where
  mark : α
  opening : List α
  closing : List α
  opening_head : opening.head? = some mark
  closing_head : closing.head? = some mark
  notMem_opening : mark ∉ opening.tail
  notMem_closing : mark ∉ closing.tail
  opening_closing : ¬ opening <+: closing
  closing_opening : ¬ closing <+: opening

namespace Delimiters

variable (d : Delimiters α)

/-- What is left behind the block a text begins with. -/
def block (text : List α) : Option (List α) :=
  if d.opening <+: text then behind d.closing (text.drop d.opening.length) else none

def find (c : Cursor α) : Option (List α × Cursor α) := (d.block c.rest).map fun rest =>
    ([], Cursor.start rest)

def remove (text : List α) : List α := substituteAll (fun _ => false) d.find (Cursor.start text)

/-- The places of a text that are not inside a block, each given by what is left there. -/
inductive Reaches : List α → List α → Prop
  | here (text : List α) : Reaches text text
  | keep {a : α} {text rest : List α} (h : d.block (a :: text) = none) (hrest : Reaches text rest) :
      Reaches (a :: text) rest
  | skip {text next rest : List α} (h : d.block text = some next)
      (hrest : Reaches next rest) : Reaches text rest

/-- No border of two pieces is inside a block of the whole text. -/
def Uncut (pieces : List (List α)) : Prop :=
  ∀ first rest, pieces = first ++ rest → d.Reaches pieces.flatten rest.flatten

end Delimiters

/-! ### Occurrences of a marker -/

section Marker

variable {marker text rest t w : List α}

theorem behind_eq_some (h : behind marker text = some rest) :
    ∃ before, text = before ++ (marker ++ rest) ∧
      ∀ before' rest', text = before' ++ (marker ++ rest') → before.length ≤ before'.length := by
  induction text with
  | nil => cases h
  | cons a text ih =>
    rw [behind] at h
    split at h
    · rename_i hprefix
      cases h
      obtain ⟨tail, htail⟩ := hprefix
      refine ⟨[], ?_, fun _ _ _ => Nat.zero_le _⟩
      rw [← htail, List.drop_left]
      rfl
    · rename_i hnot
      obtain ⟨before, hsplit, hfirst⟩ := ih h
      refine ⟨a :: before, by rw [hsplit, List.cons_append], fun before' rest' hsplit' => ?_⟩
      cases before' with
      | nil => exact absurd ⟨rest', hsplit'.symm⟩ hnot
      | cons b before' =>
        rw [List.cons_append, List.cons.injEq] at hsplit'
        exact Nat.succ_le_succ (hfirst before' rest' hsplit'.2)

theorem behind_eq_none (hmarker : marker ≠ []) (h : behind marker text = none)
    (before rest : List α) :
    text ≠ before ++ (marker ++ rest) := by
  induction text generalizing before with
  | nil =>
    intro hsplit
    have hnil := (List.append_eq_nil_iff.mp (List.append_eq_nil_iff.mp hsplit.symm).2).1
    exact hmarker hnil
  | cons a text ih =>
    rw [behind] at h
    split at h
    · cases h
    · rename_i hnot
      intro hsplit
      cases before with
      | nil => exact hnot ⟨rest, hsplit.symm⟩
      | cons b before =>
        rw [List.cons_append, List.cons.injEq] at hsplit
        exact ih h before hsplit.2

omit [DecidableEq α] in
/-- A marker that begins in a text before another marker ends there. -/
theorem prefix_of_prefix_append {mark : α} {other : List α} (hmark : mark ∉ marker.tail)
    (hother : other.head? = some mark) (h : marker <+: t ++ (other ++ w))
    (ht : t = [] → ¬ marker <+: other ++ w) :
    marker <+: t := by
  rcases List.prefix_or_prefix_of_prefix h (List.prefix_append t (other ++ w)) with
    hprefix | ⟨s, rfl⟩
  · exact hprefix
  · have hs : s <+: other ++ w := (List.prefix_append_right_inj t).mp h
    cases t with
    | nil => exact absurd hs (ht rfl)
    | cons a t =>
      cases s with
      | nil => exact ⟨[], by simp⟩
      | cons b s =>
        obtain ⟨other', rfl⟩ : ∃ other', other = mark :: other' := List.head?_eq_some_iff.mp hother
        obtain ⟨_, hb⟩ := hs
        rw [List.cons_append, List.cons_append, List.cons.injEq] at hb
        apply absurd _ hmark
        rw [hb.1]
        simp

end Marker

namespace Delimiters

variable {d : Delimiters α} {text p rest s t u w z : List α} {a : α} {pieces : List (List α)}

omit [DecidableEq α] in
theorem closing_ne_nil (d : Delimiters α) : d.closing ≠ [] := by
  intro hnil
  have hhead := d.closing_head
  rw [hnil] at hhead
  cases hhead

theorem block_eq_some (h : d.block text = some rest) :
    ∃ body, text = d.opening ++ (body ++ (d.closing ++ rest)) ∧
      ∀ body' rest', text = d.opening ++ (body' ++ (d.closing ++ rest')) →
        body.length ≤ body'.length := by
  unfold block at h
  split at h
  · rename_i hprefix
    obtain ⟨tail, rfl⟩ := hprefix
    rw [List.drop_left] at h
    obtain ⟨body, rfl, hfirst⟩ := behind_eq_some h
    refine ⟨body, rfl, fun body' rest' hsplit => ?_⟩
    exact hfirst body' rest' (List.append_cancel_left hsplit)
  · cases h

theorem block_eq_none (h : d.block text = none) (body rest : List α) :
    text ≠ d.opening ++ (body ++ (d.closing ++ rest)) := by
  rintro rfl
  unfold block at h
  rw [if_pos (List.prefix_append _ _), List.drop_left] at h
  exact behind_eq_none d.closing_ne_nil h body rest rfl

theorem block_suffix (h : d.block text = some rest) :
    rest <:+ text ∧ rest.length < text.length := by
  obtain ⟨body, rfl, -⟩ := block_eq_some h
  have hpos := List.length_pos_iff.mpr d.closing_ne_nil
  constructor
  · exact ⟨d.opening ++ (body ++ d.closing), by simp⟩
  · simp only [List.length_append]
    omega

theorem head_of_block (h : d.block (a :: text) = some rest) : a = d.mark := by
  obtain ⟨body, hsplit, -⟩ := block_eq_some h
  obtain ⟨tail, htail⟩ : ∃ tail, d.opening = d.mark :: tail :=
    List.head?_eq_some_iff.mp d.opening_head
  rw [htail, List.cons_append, List.cons.injEq] at hsplit
  exact hsplit.1

theorem block_append (h : d.block p = some u) (rest : List α) :
    d.block (p ++ rest) = some (u ++ rest) := by
  obtain ⟨body, hp, hfirst⟩ := block_eq_some h
  have hwhole : p ++ rest = d.opening ++ (body ++ (d.closing ++ (u ++ rest))) := by
    rw [hp]
    simp
  cases hblock : d.block (p ++ rest) with
  | none => exact absurd hwhole (block_eq_none hblock body _)
  | some w =>
    obtain ⟨body', hsplit, hfirst'⟩ := block_eq_some hblock
    have hle := hfirst' body _ hwhole
    have hbodies : body' ++ (d.closing ++ w) = body ++ (d.closing ++ (u ++ rest)) :=
      List.append_cancel_left (hsplit.symm.trans hwhole)
    obtain ⟨more, rfl⟩ : body' <+: body :=
      List.prefix_of_prefix_length_le ⟨_, hbodies⟩ (List.prefix_append _ _) hle
    rw [List.append_assoc, List.append_cancel_left_eq] at hbodies
    have hle' : (body' ++ more).length ≤ body'.length := by
      have hearlier : d.closing <+: more ++ (d.closing ++ u) := by
        apply List.prefix_of_prefix_length_le ⟨w, hbodies⟩ ⟨rest, by simp⟩
        simp only [List.length_append]
        omega
      obtain ⟨tail, htail⟩ := hearlier
      apply hfirst body' tail
      rw [hp, List.append_assoc, htail]
    have hmore : more = [] := by
      rw [List.length_append] at hle'
      exact List.length_eq_zero_iff.mp (by omega)
    rw [hmore, List.nil_append, List.append_cancel_left_eq] at hbodies
    rw [hbodies]

/-! ### What is left of a text -/

theorem advances (d : Delimiters α) : Advances d.find := by
  intro c replacement next h
  obtain ⟨rest, hblock, heq⟩ := Option.map_eq_some_iff.mp h
  cases heq
  exact block_suffix hblock

@[simp] theorem remove_nil : d.remove [] = [] := rfl

theorem remove_of_none (h : d.block (a :: text) = none) :
    d.remove (a :: text) = a :: d.remove text := by
  have hfind : d.find ⟨false, a :: text⟩ = none := by
    rw [find, h]
    rfl
  exact substituteAll_none hfind

theorem remove_of_some (h : d.block text = some rest) : d.remove text = d.remove rest := by
  have hfind : d.find (Cursor.start text) = some ([], Cursor.start rest) := by
    rw [find, Cursor.start_rest, h]
    rfl
  exact substituteAll_some d.advances hfind

theorem remove_eq_self (h : ∀ s, s <:+ p → d.block s = none) : d.remove p = p := by
  induction p with
  | nil => rfl
  | cons a p ih =>
    rw [remove_of_none (h _ List.suffix_rfl), ih fun s hs => h s (hs.trans (List.suffix_cons a p))]

/-! ### A border inside a block -/

/-- A piece that ends inside a block begins no block, wherever in it one might begin. -/
theorem remove_cut (hp : d.block p = none) (hopening : d.opening <+: p ++ rest) :
    d.remove p = p := by
  apply remove_eq_self
  rintro s ⟨before, hsplit⟩
  cases hblock : d.block s with
  | none => rfl
  | some u =>
    obtain ⟨body, hs, -⟩ := block_eq_some hblock
    have hshort : d.opening.length ≤ p.length := by
      rw [← hsplit, hs]
      simp only [List.length_append]
      omega
    obtain ⟨tail, htail⟩ : d.opening <+: p :=
      List.prefix_of_prefix_length_le hopening (List.prefix_append _ _) hshort
    have hboth : d.opening ++ tail = (before ++ d.opening) ++ (body ++ (d.closing ++ u)) := by
      rw [htail, ← hsplit, hs, List.append_assoc]
    obtain ⟨between, hbetween⟩ : d.opening <+: before ++ d.opening :=
      List.prefix_of_prefix_length_le ⟨tail, hboth⟩ (List.prefix_append _ _) (by simp)
    have hwhole : p = d.opening ++ ((between ++ body) ++ (d.closing ++ u)) := by
      rw [← htail, hboth, ← hbetween]
      simp
    exact absurd hwhole (block_eq_none hp _ _)

/-- What is left of a block behind a border inside it ends with the closing marker, or with the end
of it. -/
theorem block_cut (hp : d.block p = none) (h : d.block (p ++ rest) = some w) :
    ∃ z, rest = z ++ w ∧ z ≠ [] ∧ (d.closing <:+ z ∨ z <:+ d.closing.tail) := by
  obtain ⟨body, hsplit, -⟩ := block_eq_some h
  have hwhole : p ++ rest = (d.opening ++ body ++ d.closing) ++ w := by
    rw [hsplit]
    simp
  rcases List.append_eq_append_iff.mp hwhole with ⟨z, hblock, rfl⟩ | ⟨s, rfl, rfl⟩
  · refine ⟨z, rfl, ?_, ?_⟩
    · rintro rfl
      apply block_eq_none hp body []
      rw [List.append_nil] at hblock
      rw [← hblock]
      simp
    · rcases List.append_eq_append_iff.mp hblock with ⟨head, rfl, hclosing⟩ | ⟨head, -, rfl⟩
      · cases head with
        | nil => exact Or.inl ⟨[], by simpa using hclosing⟩
        | cons a head =>
          right
          rw [hclosing]
          exact ⟨head, rfl⟩
      · exact Or.inl ⟨head, rfl⟩
  · exact absurd (by simp) (block_eq_none hp body s)

/-- A block that begins before a closing marker ends with it, or before it. -/
theorem block_resume (h : d.block (t ++ (d.closing ++ w)) = some u) :
    u = w ∨ ∃ more, u = more ++ (d.closing ++ w) ∧ more.length < t.length := by
  obtain ⟨body, hsplit, hfirst⟩ := block_eq_some h
  have hopening : d.opening <+: t := by
    apply prefix_of_prefix_append d.notMem_opening d.closing_head ⟨_, hsplit.symm⟩
    rintro - hprefix
    rcases List.prefix_or_prefix_of_prefix hprefix (List.prefix_append d.closing w) with h | h
    · exact d.opening_closing h
    · exact d.closing_opening h
  obtain ⟨t, rfl⟩ := hopening
  rw [List.append_assoc, List.append_cancel_left_eq] at hsplit
  have hle := hfirst t w (by rw [List.append_assoc])
  obtain ⟨s, rfl⟩ : body <+: t :=
    List.prefix_of_prefix_length_le ⟨_, hsplit.symm⟩ (List.prefix_append _ _) hle
  rw [List.append_assoc, List.append_cancel_left_eq] at hsplit
  cases s with
  | nil =>
    have hu : w = u := List.append_cancel_left hsplit
    exact Or.inl hu.symm
  | cons b s =>
    have hclosing : d.closing <+: b :: s := by
      apply prefix_of_prefix_append d.notMem_closing d.closing_head ⟨_, hsplit.symm⟩
      exact fun hnil => absurd hnil (List.cons_ne_nil b s)
    obtain ⟨more, hmore⟩ := hclosing
    rw [← hmore, List.append_assoc, List.append_cancel_left_eq] at hsplit
    refine Or.inr ⟨more, hsplit.symm, ?_⟩
    have hpos := List.length_pos_iff.mpr d.closing_ne_nil
    rw [← hmore]
    simp only [List.length_append]
    omega

/-- Reading on inside a block, one comes to its end. -/
theorem remove_resume (hz : d.closing <:+ z ∨ z <:+ d.closing.tail) :
    ∃ x, d.remove (z ++ w) = x ++ d.remove w := by
  induction hn : z.length using Nat.strongRecOn generalizing z with
  | _ n ih =>
    cases z with
    | nil => exact ⟨[], rfl⟩
    | cons a z =>
      cases hblock : d.block (a :: z ++ w) with
      | none =>
        have hlater : d.closing <:+ z ∨ z <:+ d.closing.tail := by
          rcases hz with hclosing | hend
          · rcases List.suffix_cons_iff.mp hclosing with heq | hclosing
            · exact Or.inr (by rw [heq, List.tail_cons])
            · exact Or.inl hclosing
          · exact Or.inr ((List.suffix_cons a z).trans hend)
        obtain ⟨x, hx⟩ := ih z.length (by rw [← hn, List.length_cons]; omega) hlater rfl
        refine ⟨a :: x, ?_⟩
        rw [List.cons_append] at hblock ⊢
        rw [remove_of_none hblock, hx, List.cons_append]
      | some u =>
        rw [remove_of_some hblock]
        rcases hz with ⟨t, ht⟩ | hend
        · rw [← ht, List.append_assoc] at hblock
          rcases block_resume hblock with rfl | ⟨more, rfl, hlt⟩
          · exact ⟨[], rfl⟩
          · have hshorter : (more ++ d.closing).length < n := by
              rw [← hn, ← ht, List.length_append, List.length_append]
              exact Nat.add_lt_add_right hlt _
            obtain ⟨x, hx⟩ := ih _ hshorter (Or.inl ⟨more, rfl⟩) rfl
            exact ⟨x, by rw [← hx, List.append_assoc]⟩
        · have hmem : a ∈ d.closing.tail := hend.subset List.mem_cons_self
          rw [head_of_block hblock] at hmem
          exact absurd hmem d.notMem_closing

/-! ### Pieces -/

theorem Reaches.suffix (h : d.Reaches text rest) : rest <:+ text := by
  induction h with
  | here text => exact List.suffix_rfl
  | keep _ _ ih => exact ih.trans (List.suffix_cons _ _)
  | skip hblock _ ih => exact ih.trans (block_suffix hblock).1

theorem Reaches.trans (h : d.Reaches text rest) (hrest : d.Reaches rest w) : d.Reaches text w := by
  induction h with
  | here text => exact hrest
  | keep hnone _ ih => exact .keep hnone (ih hrest)
  | skip hblock _ ih => exact .skip hblock (ih hrest)

theorem Reaches.behind_block (h : d.Reaches text rest) (hblock : d.block text = some w)
    (hlt : rest.length < text.length) : d.Reaches w rest := by
  cases h with
  | here => exact absurd hlt (Nat.lt_irrefl _)
  | keep hnone _ =>
    rw [hnone] at hblock
    cases hblock
  | skip hblock' hrest =>
    rw [hblock] at hblock'
    cases hblock'
    exact hrest

/-- Of two places the further one is reached from the other. -/
theorem Reaches.of_length_le (h : d.Reaches text rest) (hw : d.Reaches text w)
    (hle : w.length ≤ rest.length) :
    d.Reaches rest w := by
  induction h with
  | here text => exact hw
  | keep hnone hrest ih =>
    cases hw with
    | here =>
      have hlt := hrest.suffix.length_le
      rw [List.length_cons] at hle
      omega
    | keep _ hw => exact ih hw hle
    | skip hblock _ =>
      rw [hnone] at hblock
      cases hblock
  | skip hblock hrest ih =>
    have hshort := hrest.suffix.length_le
    have hnext := (block_suffix hblock).2
    exact ih (hw.behind_block hblock (by omega)) hle

/-- **A border outside the blocks makes no difference, and one inside a block leaves a mark.** -/
theorem reaches_or (d : Delimiters α) (p rest : List α) :
    d.Reaches (p ++ rest) rest ∧ d.remove (p ++ rest) = d.remove p ++ d.remove rest ∨
      ¬ d.Reaches (p ++ rest) rest ∧
        (d.remove (p ++ rest)).count d.mark < (d.remove p).count d.mark
          + (d.remove rest).count d.mark := by
  induction hn : p.length using Nat.strongRecOn generalizing p with
  | _ n ih =>
    cases p with
    | nil => exact Or.inl ⟨.here rest, rfl⟩
    | cons a p =>
      cases hp : d.block (a :: p) with
      | some u =>
        have hwhole := block_append hp rest
        have hshorter : u.length < n := hn ▸ (block_suffix hp).2
        rw [remove_of_some hwhole, remove_of_some hp]
        rcases ih u.length hshorter u rfl with ⟨hreach, heq⟩ | ⟨hnot, hlt⟩
        · exact Or.inl ⟨.skip hwhole hreach, heq⟩
        · refine Or.inr ⟨fun hreach => hnot ?_, hlt⟩
          exact (Reaches.skip hwhole (.here _)).of_length_le hreach (by simp)
      | none =>
        cases hwhole : d.block (a :: p ++ rest) with
        | none =>
          rw [List.cons_append] at hwhole ⊢
          rw [remove_of_none hwhole, remove_of_none hp]
          have hshorter : p.length < n := by
            rw [← hn, List.length_cons]
            omega
          rcases ih p.length hshorter p rfl with ⟨hreach, heq⟩ | ⟨hnot, hlt⟩
          · exact Or.inl ⟨.keep hwhole hreach, by rw [heq, List.cons_append]⟩
          · refine Or.inr ⟨fun hreach => hnot ?_, ?_⟩
            · exact (Reaches.keep hwhole (.here _)).of_length_le hreach (by simp)
            · rw [List.count_cons, List.count_cons]
              omega
        | some w =>
          obtain ⟨z, rfl, hne, hz⟩ := block_cut hp hwhole
          obtain ⟨x, hx⟩ := remove_resume (w := w) hz
          have hopening : d.opening <+: a :: p ++ (z ++ w) := by
            obtain ⟨body, hsplit, -⟩ := block_eq_some hwhole
            exact ⟨_, hsplit.symm⟩
          right
          constructor
          · intro hreach
            have hshort : (z ++ w).length < (a :: p ++ (z ++ w)).length := by
              simp only [List.length_append, List.length_cons]
              omega
            have hback := (hreach.behind_block hwhole hshort).suffix.length_le
            have hpos := List.length_pos_iff.mpr hne
            rw [List.length_append] at hback
            omega
          · rw [remove_of_some hwhole, remove_cut hp hopening, hx, head_of_block hwhole,
              List.count_cons_self, List.count_append]
            omega

/-! ### Texts in pieces -/

theorem uncut_nil : d.Uncut [] := by
  intro first rest h
  rw [(List.append_eq_nil_iff.mp h.symm).2]
  exact .here []

theorem uncut_cons : d.Uncut (p :: pieces) ↔ d.Reaches (p ++ pieces.flatten) pieces.flatten
    ∧ d.Uncut pieces := by
  constructor
  · intro h
    have hborder : d.Reaches (p ++ pieces.flatten) pieces.flatten := h [p] pieces rfl
    refine ⟨hborder, ?_⟩
    rintro first rest rfl
    apply hborder.of_length_le (h (p :: first) rest rfl)
    simp
  · rintro ⟨hborder, hlater⟩ first rest hsplit
    cases first with
    | nil =>
      rw [hsplit, List.nil_append]
      exact .here _
    | cons q first =>
      rw [List.cons_append, List.cons.injEq] at hsplit
      exact hborder.trans (hlater first rest hsplit.2)

/-- **Taking the blocks out of the pieces is taking them out of the text, or leaves marks in
it.** -/
theorem uncut_or (d : Delimiters α) (pieces : List (List α)) :
    d.Uncut pieces ∧ d.remove pieces.flatten = (pieces.map d.remove).flatten ∨
      ¬ d.Uncut pieces ∧
        (d.remove pieces.flatten).count d.mark < (pieces.map d.remove).flatten.count d.mark := by
  induction pieces with
  | nil => exact Or.inl ⟨uncut_nil, rfl⟩
  | cons p pieces ih =>
    rw [uncut_cons, List.flatten_cons, List.map_cons, List.flatten_cons, List.count_append]
    rcases reaches_or d p pieces.flatten with ⟨hborder, heq⟩ | ⟨hborder, hlt⟩
    · rcases ih with ⟨hlater, hlaterEq⟩ | ⟨hlater, hlaterLt⟩
      · exact Or.inl ⟨⟨hborder, hlater⟩, by rw [heq, hlaterEq]⟩
      · refine Or.inr ⟨fun h => hlater h.2, ?_⟩
        rw [heq, List.count_append]
        omega
    · refine Or.inr ⟨fun h => hborder h.1, ?_⟩
      rcases ih with ⟨-, hlaterEq⟩ | ⟨-, hlaterLt⟩
      · rw [← hlaterEq]
        exact hlt
      · omega

end Delimiters

end Blocks
