import OnlinetLabs.Lib.Json

/-!
# Values under certain names

At any depth of a JSON value there may be fields of certain names. Two values that differ only in
what is stored in such fields are the same once one value is put in all of them.
-/

namespace Json

variable (named : String → Bool) (x y : Json)

mutual

/-- The value with `x` in every such field. -/
def fill : Json → Json
  | arr items => arr (fillItems items)
  | obj fields => obj (fillFields fields)
  | value => value

def fillItems : List Json → List Json
  | [] => []
  | item :: items => fill item :: fillItems items

def fillFields : Fields → Fields
  | [] => []
  | (name, value) :: fields => (name, if named name then x else fill value) :: fillFields fields

end

mutual

def hasNamed : Json → Bool
  | arr items => hasNamedItems items
  | obj fields => hasNamedFields fields
  | _ => false

def hasNamedItems : List Json → Bool
  | [] => false
  | item :: items => hasNamed item || hasNamedItems items

def hasNamedFields : Fields → Bool
  | [] => false
  | (name, value) :: fields => named name || hasNamed value || hasNamedFields fields

end

variable {named x y} {value value' : Json}

mutual

theorem fill_fill : ∀ value : Json, fill named x (fill named y value) = fill named x value
  | null | bool _ | num _ | str _ => rfl
  | arr items => congrArg arr (fillItems_fillItems items)
  | obj fields => congrArg obj (fillFields_fillFields fields)

theorem fillItems_fillItems : ∀ items :
    List Json, fillItems named x (fillItems named y items) = fillItems named x items
  | [] => rfl
  | item :: items => by
      rw [fillItems, fillItems, fillItems, fill_fill item, fillItems_fillItems items]

theorem fillFields_fillFields : ∀ fields : Fields,
    fillFields named x (fillFields named y fields) = fillFields named x fields
  | [] => rfl
  | (name, value) :: fields => by
      rw [fillFields, fillFields, fillFields, fillFields_fillFields fields]
      split
      · rfl
      · rw [fill_fill value]

end

mutual

theorem hasNamed_fill : ∀ value : Json, hasNamed named (fill named x value) = hasNamed named value
  | null | bool _ | num _ | str _ => rfl
  | arr items => hasNamedItems_fillItems items
  | obj fields => hasNamedFields_fillFields fields

theorem hasNamedItems_fillItems : ∀ items : List Json,
    hasNamedItems named (fillItems named x items) = hasNamedItems named items
  | [] => rfl
  | item :: items => by
      rw [fillItems, hasNamedItems, hasNamedItems, hasNamed_fill item,
        hasNamedItems_fillItems items]

theorem hasNamedFields_fillFields : ∀ fields : Fields,
    hasNamedFields named (fillFields named x fields) = hasNamedFields named fields
  | [] => rfl
  | (name, value) :: fields => by
      rw [fillFields, hasNamedFields, hasNamedFields, hasNamedFields_fillFields fields]
      cases hname : named name with
      | true => rfl
      | false => rw [if_neg Bool.false_ne_true, hasNamed_fill value]

end

mutual

theorem fill_of_not_hasNamed : ∀ value :
    Json, hasNamed named value = false → fill named x value = value
  | null, _ | bool _, _ | num _, _ | str _, _ => rfl
  | arr items, h => congrArg arr (fillItems_of_not_hasNamed items h)
  | obj fields, h => congrArg obj (fillFields_of_not_hasNamed fields h)

theorem fillItems_of_not_hasNamed : ∀ items : List Json,
    hasNamedItems named items = false → fillItems named x items = items
  | [], _ => rfl
  | item :: items, h => by
      rw [hasNamedItems, Bool.or_eq_false_iff] at h
      rw [fillItems, fill_of_not_hasNamed item h.1, fillItems_of_not_hasNamed items h.2]

theorem fillFields_of_not_hasNamed : ∀ fields : Fields,
    hasNamedFields named fields = false → fillFields named x fields = fields
  | [], _ => rfl
  | (name, value) :: fields, h => by
      rw [hasNamedFields, Bool.or_eq_false_iff, Bool.or_eq_false_iff] at h
      rw [fillFields, fill_of_not_hasNamed value h.1.2,
        fillFields_of_not_hasNamed fields h.2, h.1.1]
      rfl

end

mutual

theorem eq_of_fill_eq : ∀ value :
    Json, hasNamed named value = true → fill named x value = fill named y value → x = y
  | null, h, _ | bool _, h, _ | num _, h, _ | str _, h, _ => by cases h
  | arr items, h, heq => eq_of_fillItems_eq items h (arr.inj heq)
  | obj fields, h, heq => eq_of_fillFields_eq fields h (obj.inj heq)

theorem eq_of_fillItems_eq : ∀ items : List Json,
    hasNamedItems named items = true → fillItems named x items = fillItems named y items → x = y
  | [], h, _ => by cases h
  | item :: items, h, heq => by
      rw [fillItems, fillItems, List.cons.injEq] at heq
      rw [hasNamedItems, Bool.or_eq_true] at h
      rcases h with h | h
      · exact eq_of_fill_eq item h heq.1
      · exact eq_of_fillItems_eq items h heq.2

theorem eq_of_fillFields_eq : ∀ fields : Fields,
    hasNamedFields named fields = true →
      fillFields named x fields = fillFields named y fields → x = y
  | [], h, _ => by cases h
  | (name, value) :: fields, h, heq => by
      rw [fillFields, fillFields, List.cons.injEq, Prod.mk.injEq] at heq
      obtain ⟨⟨-, hvalue⟩, hfields⟩ := heq
      rw [hasNamedFields, Bool.or_eq_true] at h
      rcases h with h | h
      · cases hname : named name with
        | true =>
          rw [hname] at hvalue
          exact hvalue
        | false =>
          rw [hname] at h hvalue
          exact eq_of_fill_eq value h hvalue
      · exact eq_of_fillFields_eq fields h hfields

end

/-- A value without such a field differs from none in them. -/
theorem eq_of_fill_eq_fill (h : hasNamed named value = false)
    (heq : fill named x value = fill named x value') :
    value = value' := by
  have h' : hasNamed named value' = false := by
    rw [← hasNamed_fill (x := x) value', ← heq, hasNamed_fill, h]
  rw [← fill_of_not_hasNamed value h, heq, fill_of_not_hasNamed value' h']

end Json
