import Mathlib.Data.List.Nodup

/-!
# Naming

What has been named, in the order of the naming. Nothing is named twice and no name is given twice,
so whoever compares names compares what is named, however long ago it was named and by whom.
-/

structure Naming {α β : Type} (named : List (α × β)) : Prop where
  once : (named.map Prod.fst).Nodup
  own : (named.map Prod.snd).Nodup

namespace Naming

variable {α β : Type} {named : List (α × β)} {x x' : α × β} {a : α} {b : β}

theorem nil : Naming ([] : List (α × β)) := ⟨List.nodup_nil, List.nodup_nil⟩

theorem concat (h : Naming named) (ha : ∀ x ∈ named, x.1 ≠ a) (hb : ∀ x ∈ named, x.2 ≠ b) :
    Naming (named ++ [(a, b)]) where
  once := by
    rw [List.map_append, List.map_singleton]
    refine h.once.append (List.nodup_singleton _) (List.disjoint_singleton.mpr fun hmem => ?_)
    obtain ⟨x, hx, heq⟩ := List.mem_map.mp hmem
    exact ha x hx heq
  own := by
    rw [List.map_append, List.map_singleton]
    refine h.own.append (List.nodup_singleton _) (List.disjoint_singleton.mpr fun hmem => ?_)
    obtain ⟨x, hx, heq⟩ := List.mem_map.mp hmem
    exact hb x hx heq

/-- **A name tells what is named.** -/
theorem eq_iff (h : Naming named) (hx : x ∈ named) (hx' : x' ∈ named) :
    x.2 = x'.2 ↔ x.1 = x'.1 := by
  constructor
  · intro heq
    rw [List.inj_on_of_nodup_map h.own hx hx' heq]
  · intro heq
    rw [List.inj_on_of_nodup_map h.once hx hx' heq]

end Naming
