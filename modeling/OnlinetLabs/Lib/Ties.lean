import Mathlib.Data.List.Sort

/-!
# Ties

Two orders of the same rows, both sorted by a key, differ only where rows have one key. What is read
of the rows is the same list in both where rows with one key agree in it.
-/

namespace Ties

variable {α β : Type} {key : α → Nat} {read : α → β} {p : α → Bool} {l l' : List α}

/-- The one list is the other with rows of equal keys permuted. -/
structure Rearranged (key : α → Nat) (l l' : List α) : Prop where
  perm : l.Perm l'
  keys : l.map key = l'.map key

/-- Of the rows that count, those with one key agree in what is read. -/
def AgreeAtOnce (key : α → Nat) (p : α → Bool) (read : α → β) (l : List α) : Prop :=
  ∀ a ∈ l, ∀ b ∈ l, p a = true → p b = true → key a = key b → read a = read b

/-- Where all rows of one key agree in a reading, those that count agree in what depends on it. -/
theorem AgreeAtOnce.of_reading {γ : Type} {read' : α → γ}
    (h : AgreeAtOnce key (fun _ => true) read l) (f : β → γ)
    (hread : ∀ a, read' a = f (read a)) : AgreeAtOnce key p read' l :=
  fun a ha b hb _ _ hkey => by rw [hread, hread, h a ha b hb rfl rfl hkey]

theorem AgreeAtOnce.of_perm (h : AgreeAtOnce key p read l) (hperm : l.Perm l') :
    AgreeAtOnce key p read l' :=
  fun a ha b hb => h a (hperm.mem_iff.mpr ha) b (hperm.mem_iff.mpr hb)

/-- **What is read of the rows that count.** -/
theorem map_filter_eq (hperm : l.Perm l') (hl : l.Pairwise fun a b => key a ≤ key b)
    (hl' : l'.Pairwise fun a b => key a ≤ key b) (hagree : AgreeAtOnce key p read l) :
    (l.filter p).map read = (l'.filter p).map read := by
  have hpairs : ((l.filter p).map fun a => (key a, read a)).Perm ((l'.filter p).map fun a =>
      (key a, read a)) :=
    (hperm.filter p).map _
  have hsorted : ∀ {l : List α}, l.Pairwise (fun a b => key a ≤ key b) →
      ((l.filter p).map fun a => (key a, read a)).Pairwise fun pair pair' => pair.1 ≤ pair'.1 := by
    intro l hl
    rw [List.pairwise_map]
    exact hl.sublist List.filter_sublist
  have hanti : ∀ pair pair', pair ∈ (l.filter p).map (fun a => (key a, read a)) →
      pair' ∈ (l'.filter p).map (fun a => (key a, read a)) → pair.1 ≤ pair'.1 → pair'.1 ≤ pair.1 →
        pair = pair' := by
    intro pair pair' hpair hpair' hle hge
    obtain ⟨a, ha, rfl⟩ := List.mem_map.mp hpair
    obtain ⟨b, hb, rfl⟩ := List.mem_map.mp hpair'
    obtain ⟨hamem, hap⟩ := List.mem_filter.mp ha
    obtain ⟨hbmem, hbp⟩ := List.mem_filter.mp hb
    have hkey : key a = key b := Nat.le_antisymm hle hge
    exact Prod.ext hkey (hagree a hamem b (hperm.mem_iff.mpr hbmem) hap hbp hkey)
  have heq := congrArg (List.map Prod.snd) (hpairs.eq_of_pairwise hanti (hsorted hl) (hsorted hl'))
  rwa [List.map_map, List.map_map] at heq

/-- The keys of the rows that count. -/
theorem map_key_filter_eq (hperm : l.Perm l') (hl : l.Pairwise fun a b => key a ≤ key b)
    (hl' : l'.Pairwise fun a b => key a ≤ key b) (p : α → Bool) :
    (l.filter p).map key = (l'.filter p).map key :=
  map_filter_eq hperm hl hl' fun _ _ _ _ _ _ hkey => hkey

end Ties
