import Reckoner.Program.Cleanup

/-!
# The views of a program

Two functions tell all about a program that others can see of it: `func?`, the function of a
number, and `lookup`, the number of a name.  This module says what each operation does to them.
`Program.Agrees` is equality of the two views; slots that were used up do not show in it.
-/

namespace Reckoner

theorem List.lookup_filter_ne {β : Type} (table : List (String × β)) (name m : String) :
    (table.filter (·.1 ≠ name)).lookup m = if m = name then none else table.lookup m := by
  induction table with
  | nil => simp
  | cons entry table ih =>
    obtain ⟨k, v⟩ := entry
    by_cases hk : k = name
    · subst hk
      by_cases hm : m = k
      · simp [hm] at ih ⊢
        exact ih
      · simp [hm] at ih ⊢
        rw [ih]
        have : (m == k) = false := by simpa using hm
        simp [List.lookup_cons, this]
    · by_cases hm : m = k
      · subst hm
        simp [hk]
      · have : (m == k) = false := by simpa using hm
        simp [hk, List.lookup_cons, this] at ih ⊢
        exact ih

namespace Program

variable {p q : Program} {id i : FuncId} {name m : String}

theorem func?_eq_some_iff {f : Func} :
    p.func? id = some f ↔ p.slots[id.index]? = some (some f) := by
  unfold func?
  cases p.slots[id.index]? <;> simp

theorem index_lt_of_func? {f : Func} (h : p.func? id = some f) : id.index < p.slots.size := by
  rw [func?_eq_some_iff] at h
  exact (Array.getElem?_eq_some_iff.1 h).1

theorem ne_size_of_func? {f : Func} (h : p.func? id = some f) : id ≠ ⟨p.slots.size⟩ := by
  rintro rfl
  exact absurd (index_lt_of_func? h) (Nat.lt_irrefl _)

theorem func?_of_size_le (h : p.slots.size ≤ id.index) : p.func? id = none := by
  unfold func?
  rw [Array.getElem?_eq_none h]
  rfl

@[simp]
theorem func?_declare (p : Program) (name : String) (params : List String) (i : FuncId) :
    (p.declare name params).2.func? i =
      if i = ⟨p.slots.size⟩ then some ⟨name, params, none⟩ else p.func? i := by
  obtain ⟨n⟩ := i
  simp only [func?, declare, FuncId.mk.injEq, Array.getElem?_push]
  split <;> rfl

@[simp]
theorem lookup_declare (p : Program) (name : String) (params : List String) (m : String) :
    (p.declare name params).2.lookup m =
      if m = name then some ⟨p.slots.size⟩ else p.lookup m := by
  unfold lookup declare
  by_cases hm : m = name
  · simp [hm]
  · have hb : (m == name) = false := by simpa using hm
    rw [List.lookup_cons, hb, if_neg hm]
    exact (List.lookup_filter_ne p.names name m).trans (if_neg hm)

@[simp]
theorem func?_setBody (p : Program) (id : FuncId) (body : Option Block) (i : FuncId) :
    (p.setBody id body).func? i =
      if i = id then (p.func? i).map ({ · with body }) else p.func? i := by
  obtain ⟨n⟩ := i
  obtain ⟨k⟩ := id
  simp only [func?, setBody, FuncId.mk.injEq, Array.getElem?_modify]
  by_cases h : n = k
  · subst h
    cases p.slots[n]? with
    | none => simp
    | some slot => cases slot <;> simp
  · rw [if_neg (Ne.symm h), if_neg h]

@[simp]
theorem lookup_setBody (p : Program) (id : FuncId) (body : Option Block) (m : String) :
    (p.setBody id body).lookup m = p.lookup m := rfl

@[simp]
theorem lookup_begin (p : Program) (id : FuncId) (m : String) :
    (p.begin id).lookup m = p.lookup m := rfl

@[simp]
theorem func?_clear (p : Program) (id i : FuncId) :
    (p.clear id).func? i =
      if i = id then (p.func? i).map ({ · with body := none }) else p.func? i := by
  have hb : (if p.building = some id then
      { p with building := none, block := [] } else p : Program).func? i = p.func? i := by
    split <;> rfl
  unfold clear
  simp only
  rw [func?_setBody, hb]

@[simp]
theorem lookup_clear (p : Program) (id : FuncId) (m : String) :
    (p.clear id).lookup m = p.lookup m := by
  unfold clear
  simp only
  rw [lookup_setBody]
  split <;> rfl

@[simp]
theorem func?_remove (p : Program) (id i : FuncId) :
    (p.remove id).func? i = if i = id then none else p.func? i := by
  have hc := func?_clear p id i
  obtain ⟨n⟩ := i
  obtain ⟨k⟩ := id
  unfold remove
  simp only
  split
  · rename_i h
    rw [hc]
    split
    · rename_i he; rw [he, h]; rfl
    · rfl
  · rename_i f h
    simp only [func?, FuncId.mk.injEq, Array.getElem?_modify] at hc ⊢
    by_cases he : n = k
    · subst he
      cases ((p.clear ⟨n⟩).slots[n]?) <;> simp
    · rw [if_neg he] at hc
      rw [if_neg (Ne.symm he), if_neg he]
      exact hc

/-- A name is lost with the function that it leads to. -/
theorem lookup_remove (p : Program) (id : FuncId) (m : String) :
    (p.remove id).lookup m =
      if p.lookup m = some id ∧ (p.func? id).map Func.name = some m then none
      else p.lookup m := by
  have hc := lookup_clear p id m
  unfold remove
  simp only
  cases h : p.func? id with
  | none => simp
  | some f =>
    simp only [Option.map_some, Option.some.injEq]
    by_cases hl : p.lookup f.name = some id
    · rw [if_pos hl]
      refine (List.lookup_filter_ne _ f.name m).trans ?_
      by_cases hm : m = f.name
      · subst hm
        rw [if_pos rfl, if_pos ⟨hl, rfl⟩]
      · rw [if_neg hm, if_neg fun h => hm h.2.symm]
        exact hc
    · rw [if_neg hl, if_neg ?_]
      · exact hc
      · rintro ⟨h₁, rfl⟩
        exact hl h₁

/-- The two programs have the same functions under the same numbers and names. -/
structure Agrees (p q : Program) : Prop where
  func? : ∀ i, p.func? i = q.func? i
  lookup : ∀ m, p.lookup m = q.lookup m

theorem Agrees.refl (p : Program) : p.Agrees p := ⟨fun _ => rfl, fun _ => rfl⟩

def Idle (p : Program) : Prop :=
  p.building = none ∧ p.block = []

theorem idle_clear (h : p.Idle) (id : FuncId) : (p.clear id).Idle := by
  unfold clear
  simp only
  split
  · exact ⟨rfl, rfl⟩
  · exact h

theorem idle_remove (h : p.Idle) (id : FuncId) : (p.remove id).Idle := by
  unfold remove
  simp only
  split
  · exact idle_clear h id
  · exact idle_clear h id

theorem setBody_setBody (p : Program) (id : FuncId) (b b' : Option Block) :
    (p.setBody id b).setBody id b' = p.setBody id b' := by
  unfold setBody
  congr 1
  apply Array.ext_getElem?
  intro i
  simp only [Array.getElem?_modify]
  split
  · cases p.slots[i]? with
    | none => rfl
    | some slot => cases slot <;> rfl
  · rfl

theorem size_setBody (p : Program) (id : FuncId) (b : Option Block) :
    (p.setBody id b).slots.size = p.slots.size :=
  Array.size_modify

theorem size_clear (p : Program) (id : FuncId) : (p.clear id).slots.size = p.slots.size := by
  unfold clear
  simp only [size_setBody]
  split <;> rfl

theorem size_remove (p : Program) (id : FuncId) : (p.remove id).slots.size = p.slots.size := by
  unfold remove
  simp only
  split
  · exact size_clear p id
  · rw [Array.size_modify]
    exact size_clear p id

section Name

theorem name_finish (p : Program) (value : Operand) : (p.finish value).2.name = p.name := by
  unfold finish
  simp only
  split <;> rfl

theorem name_clear (p : Program) (id : FuncId) : (p.clear id).name = p.name := by
  unfold clear
  simp only
  split <;> rfl

theorem name_remove (p : Program) (id : FuncId) : (p.remove id).name = p.name := by
  unfold remove
  simp only
  split <;> exact name_clear p id

theorem name_cleanup (p : Program) (id : FuncId) : (p.cleanup id).name = p.name := by
  unfold cleanup
  split <;> rfl

end Name

theorem Idle.finish_begin (h : p.Idle) (id : FuncId) (code : Block) (value : Operand) :
    ((p.begin id).append code).finish value =
      ((p.func? id).isSome, p.setBody id (some (code ++ [.ret value]))) := by
  obtain ⟨name, slots, names, building, block⟩ := p
  obtain ⟨rfl, rfl⟩ := h
  rfl

theorem params_of_func? {f : Func} (hf : p.func? id = some f) : p.params id = f.params := by
  rw [params, hf]
  rfl

theorem body?_of_func? {f : Func} (hf : p.func? id = some f) : p.body? id = f.body := by
  rw [body?, hf]
  rfl

theorem cleanup_of_body? {b : Block} (hb : p.body? id = some b) :
    p.cleanup id = p.setBody id (some b.clean) := by
  rw [cleanup, hb]

end Program

end Reckoner
