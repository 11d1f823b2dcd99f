import Mathlib.Data.List.Induction
import Reckoner.Proofs.Program.History

/-!
# What a history tells about a program

Four pieces of a program change with its operations: the functions, the names, the number of the
function whose body is being built, and that body.  All four can be told from the operations alone,
by what was done and what has not been done since (`Operation.Since`).  A function is there since
it was declared if it has not been removed since; a name stands for the function last declared under
it, as long as that one is there; the body that ends with a return belongs to the function for
which a body was begun last, and consists of what was pushed since (`store_laws`).
-/

namespace Reckoner

namespace Program

def after (title : String) (ops : List Operation) : Program :=
  ops.foldl perform (empty title)

namespace Operation

/-- One of the operations was a `start`, said of it and of those before it, and all operations
since keep to `keeps`. -/
def Since (start : List Operation → Operation → Prop) (keeps : Operation → Prop)
    (ops : List Operation) : Prop :=
  ∃ before op rest, ops = before ++ op :: rest ∧ start before op ∧ ∀ o ∈ rest, keeps o

def pushed (ops : List Operation) : Block :=
  ops.filterMap fun
    | .push inst => some inst
    | _ => none

def Declares (title name : String) (params : List String) (id : FuncId)
    (before : List Operation) (op : Operation) : Prop :=
  op = .declare name params ∧ ((after title before).declare name params).1 = id

structure Spares (op : Operation) (id : FuncId) : Prop where
  no_begin : ∀ i, op ≠ .begin i
  no_finish : ∀ value, op ≠ .finish value
  no_clear : op ≠ .clear id
  no_remove : op ≠ .remove id

/-- After the operations `before` a body was begun for the function `id`, and the `rest` of the
operations have spared it. -/
structure Building (ops before : List Operation) (id : FuncId) (rest : List Operation) : Prop where
  eq : ops = before ++ .begin id :: rest
  spares : ∀ op ∈ rest, op.Spares id

section Since

variable {start : List Operation → Operation → Prop} {keeps : Operation → Prop}
  {ops before rest : List Operation} {op o : Operation} {id : FuncId}

theorem concat_eq_append_cons_iff :
    ops ++ [o] = before ++ op :: rest ↔
      (rest = [] ∧ ops = before ∧ o = op) ∨
        ∃ rest', rest = rest' ++ [o] ∧ ops = before ++ op :: rest' := by
  constructor
  · intro h
    rcases List.eq_nil_or_concat rest with rfl | ⟨rest', last, rfl⟩
    · obtain ⟨rfl, ho⟩ := List.append_inj' h rfl
      exact .inl ⟨rfl, rfl, List.head_eq_of_cons_eq ho⟩
    · rw [List.concat_eq_append, ← List.cons_append, ← List.append_assoc] at h
      obtain ⟨rfl, ho⟩ := List.append_inj' h rfl
      cases ho
      exact .inr ⟨rest', List.concat_eq_append, rfl⟩
  · rintro (⟨rfl, rfl, rfl⟩ | ⟨rest', rfl, rfl⟩)
    · rfl
    · simp

theorem not_since_nil : ¬ Since start keeps [] := by
  rintro ⟨before, op, rest, h, -⟩
  exact absurd h.symm (by simp)

theorem since_concat :
    Since start keeps (ops ++ [o]) ↔ start ops o ∨ (keeps o ∧ Since start keeps ops) := by
  constructor
  · rintro ⟨before, op, rest, h, hs, hk⟩
    rcases concat_eq_append_cons_iff.1 h with ⟨rfl, rfl, rfl⟩ | ⟨rest', rfl, rfl⟩
    · exact .inl hs
    · exact .inr ⟨hk o (by simp), before, op, rest', rfl, hs, fun o' ho' => hk o' (by simp [ho'])⟩
  · rintro (hs | ⟨ho, before, op, rest, rfl, hs, hk⟩)
    · exact ⟨ops, o, [], rfl, hs, nofun⟩
    · refine ⟨before, op, rest ++ [o], by simp, hs, fun o' ho' => ?_⟩
      rcases List.mem_append.1 ho' with ho' | ho'
      · exact hk o' ho'
      · rw [List.mem_singleton.1 ho']
        exact ho

theorem pushed_append (a b : List Operation) : pushed (a ++ b) = pushed a ++ pushed b :=
  List.filterMap_append

end Since

end Operation

open Operation

variable {title name : String} {params : List String} {id : FuncId} {p : Program}
  {ops before rest : List Operation}

theorem after_nil (title : String) : after title [] = empty title := rfl

theorem after_concat (title : String) (ops : List Operation) (op : Operation) :
    after title (ops ++ [op]) = (after title ops).perform op :=
  List.foldl_append

theorem named_after (title : String) (ops : List Operation) : (after title ops).Named := by
  induction ops using List.reverseRecOn with
  | nil => exact named_empty title
  | append_singleton ops op ih =>
    rw [after_concat]
    exact ih.perform op

section Signatures

def signature? (p : Program) (id : FuncId) : Option (String × List String) :=
  (p.func? id).map fun f => (f.name, f.params)

theorem signature?_eq_some_iff :
    p.signature? id = some (name, params) ↔ ∃ body, p.func? id = some ⟨name, params, body⟩ := by
  unfold signature?
  rw [Option.map_eq_some_iff]
  constructor
  · rintro ⟨⟨n, ps, body⟩, hf, h⟩
    cases h
    exact ⟨body, hf⟩
  · rintro ⟨body, hf⟩
    exact ⟨_, hf, rfl⟩

structure Resembles (q p : Program) : Prop where
  size : q.slots.size = p.slots.size
  lookup : ∀ m, q.lookup m = p.lookup m
  signature? : ∀ i, q.signature? i = p.signature? i

theorem Resembles.refl (p : Program) : p.Resembles p := ⟨rfl, fun _ => rfl, fun _ => rfl⟩

theorem resembles_setBody (p : Program) (id : FuncId) (body : Option Block) :
    (p.setBody id body).Resembles p := by
  refine ⟨size_setBody p id body, fun _ => rfl, fun i => ?_⟩
  unfold Program.signature?
  rw [func?_setBody]
  split
  · cases p.func? i <;> rfl
  · rfl

theorem resembles_finish (p : Program) (value : Operand) : (p.finish value).2.Resembles p := by
  unfold finish
  simp only
  split
  · obtain ⟨hs, hl, hh⟩ := resembles_setBody { p with building := none, block := [] } _ _
    exact ⟨hs, hl, hh⟩
  · exact ⟨rfl, fun _ => rfl, fun _ => rfl⟩

theorem resembles_clear (p : Program) (id : FuncId) : (p.clear id).Resembles p := by
  refine ⟨size_clear p id, lookup_clear p id, fun i => ?_⟩
  unfold Program.signature?
  rw [func?_clear]
  split
  · cases p.func? i <;> rfl
  · rfl

/-- Functions come and go with declarations and removals alone. -/
theorem resembles_perform (p : Program) {op : Operation} (hd : ∀ m ps, op ≠ .declare m ps)
    (hr : ∀ i, op ≠ .remove i) : (p.perform op).Resembles p := by
  cases op with
  | declare m ps => exact absurd rfl (hd m ps)
  | remove i => exact absurd rfl (hr i)
  | begin i => exact ⟨rfl, fun _ => rfl, fun _ => rfl⟩
  | push inst => exact ⟨rfl, fun _ => rfl, fun _ => rfl⟩
  | finish value => exact resembles_finish p value
  | clear i => exact resembles_clear p i
  | cleanup i =>
    unfold perform cleanup
    simp only
    split
    · exact resembles_setBody _ _ _
    · exact .refl p
  | replaceBody i body =>
    unfold perform replaceBody?
    simp only
    split
    · exact resembles_setBody _ _ _
    · exact .refl p

/-- A number is used up by a declaration and by nothing else. -/
theorem size_perform (p : Program) (op : Operation) :
    (p.perform op).slots.size =
      match op with
      | .declare _ _ => p.slots.size + 1
      | _ => p.slots.size := by
  cases op with
  | declare m ps => exact Array.size_push _
  | remove i => exact size_remove p i
  | _ => exact (resembles_perform p (by simp) (by simp)).size

theorem signature?_perform (p : Program) (op : Operation) (i : FuncId) :
    (p.perform op).signature? i =
      match op with
      | .declare m ps => if i = ⟨p.slots.size⟩ then some (m, ps) else p.signature? i
      | .remove id => if i = id then none else p.signature? i
      | _ => p.signature? i := by
  cases op with
  | declare m ps =>
    simp only [perform, signature?, func?_declare]
    split <;> rfl
  | remove id =>
    simp only [perform, signature?, func?_remove]
    split <;> rfl
  | _ => exact (resembles_perform p (by simp) (by simp)).signature? i

/-- Where names lead to functions of that name, a name is lost with the function it leads to and
with no other. -/
theorem lookup_perform (h : p.Named) (op : Operation) (m : String) :
    (p.perform op).lookup m =
      match op with
      | .declare name _ => if m = name then some ⟨p.slots.size⟩ else p.lookup m
      | .remove id => if p.lookup m = some id then none else p.lookup m
      | _ => p.lookup m := by
  cases op with
  | declare name params => exact lookup_declare p name params m
  | remove id =>
    simp only [perform, lookup_remove]
    by_cases hl : p.lookup m = some id
    · obtain ⟨f, hf, hn⟩ := h m id hl
      rw [if_pos hl, if_pos ⟨hl, by rw [hf, ← hn]; rfl⟩]
    · rw [if_neg hl, if_neg fun h => hl h.1]
  | _ => exact (resembles_perform p (by simp) (by simp)).lookup m

end Signatures

section Store

/-- A number that was handed out is less than the one that comes next. -/
theorem index_lt_of_since {keeps : Operation → Prop}
    (h : Since (Declares title name params id) keeps ops) :
    id.index < (after title ops).slots.size := by
  induction ops using List.reverseRecOn with
  | nil => exact absurd h not_since_nil
  | append_singleton ops op ih =>
    rw [after_concat, size_perform]
    rcases since_concat.1 h with ⟨rfl, rfl⟩ | ⟨-, h⟩
    · exact Nat.lt_succ_self _
    · have hlt := ih h
      split
      · exact Nat.lt_succ_of_lt hlt
      · exact hlt

/-- A function is there from its declaration to its removal. -/
theorem signature?_after_eq_some_iff :
    (after title ops).signature? id = some (name, params) ↔
      Since (Declares title name params id) (· ≠ .remove id) ops := by
  induction ops using List.reverseRecOn with
  | nil =>
    have hn : (empty title).signature? id = none := by simp [signature?, func?, empty]
    rw [after_nil, hn]
    exact iff_of_false (Option.some_ne_none _).symm not_since_nil
  | append_singleton ops op ih =>
    rw [after_concat, signature?_perform, since_concat, ← ih]
    cases op with
    | declare m ps =>
      by_cases hi : id = ⟨(after title ops).slots.size⟩
      · -- The number is new, so there was no function under it.
        have hold : (after title ops).signature? id ≠ some (name, params) := fun h =>
          absurd (index_lt_of_since (ih.1 h)) (by rw [hi]; exact Nat.lt_irrefl _)
        simp [hi, Declares, Program.declare] at hold ⊢
        simp [hold]
      · have hnew : ¬ Declares title name params id ops (.declare m ps) := by
          rintro ⟨h, rfl⟩
          cases h
          exact hi rfl
        simp [hi, hnew]
    | remove i =>
      by_cases hi : id = i
      · simp [hi, Declares]
      · simp [hi, Declares, Ne.symm hi]
    | _ => simp [Declares]

/-- A name stands for the function last declared under it, unless that one has been removed. -/
theorem lookup_after_eq_some_iff :
    (after title ops).lookup name = some id ↔
      Since (fun before op => ∃ params, Declares title name params id before op)
        (fun op => op ≠ .remove id ∧ ∀ params, op ≠ .declare name params) ops := by
  induction ops using List.reverseRecOn with
  | nil => exact ⟨nofun, fun h => absurd h not_since_nil⟩
  | append_singleton ops op ih =>
    rw [after_concat, lookup_perform (named_after title ops), since_concat, ← ih]
    cases op with
    | declare m ps =>
      by_cases hm : name = m
      · simp [hm, Declares, Program.declare]
      · simp [hm, Declares, Ne.symm hm]
    | remove i =>
      by_cases hi : id = i
      · simp [hi, Declares]
      · by_cases hl : (after title ops).lookup name = some i
        · simp [hl, Declares, Ne.symm hi]
        · simp [hl, Declares, Ne.symm hi]
    | _ => simp [Declares]

end Store

section Bodies

/-- The function whose body is being built, and that body. -/
def site (p : Program) : Option FuncId × Block := (p.building, p.block)

theorem site_clear (p : Program) (id : FuncId) :
    (p.clear id).site = if p.building = some id then (none, []) else p.site := by
  unfold clear
  simp only
  split <;> rfl

theorem site_remove (p : Program) (id : FuncId) :
    (p.remove id).site = if p.building = some id then (none, []) else p.site := by
  rw [← site_clear]
  unfold remove
  simp only
  split <;> rfl

theorem site_perform (p : Program) (op : Operation) :
    (p.perform op).site =
      match op with
      | .begin id => (some id, [])
      | .push inst => (p.building, p.block ++ [inst])
      | .finish _ => (none, [])
      | .clear id => if p.building = some id then (none, []) else p.site
      | .remove id => if p.building = some id then (none, []) else p.site
      | _ => p.site := by
  cases op with
  | declare m ps => rfl
  | begin id => rfl
  | push inst => rfl
  | finish value =>
    unfold perform finish
    simp only
    split <;> rfl
  | clear id => exact site_clear p id
  | remove id => exact site_remove p id
  | cleanup id =>
    unfold perform cleanup
    simp only
    split <;> rfl
  | replaceBody id body =>
    unfold perform replaceBody?
    simp only
    split <;> rfl

theorem site_perform_of_spares {op : Operation} (hk : op.Spares id) (h : p.building = some id) :
    (p.perform op).site = (some id, p.block ++ pushed [op]) := by
  have hsame : p.site = (some id, p.block ++ []) := by rw [site, h, List.append_nil]
  rw [site_perform]
  cases op with
  | begin i => exact absurd rfl (hk.no_begin i)
  | finish value => exact absurd rfl (hk.no_finish value)
  | push inst => exact congrArg (·, p.block ++ [inst]) h
  | clear i =>
    have hi : p.building ≠ some i := fun he => hk.no_clear (by rw [h] at he; cases he; rfl)
    exact (if_neg hi).trans hsame
  | remove i =>
    have hi : p.building ≠ some i := fun he => hk.no_remove (by rw [h] at he; cases he; rfl)
    exact (if_neg hi).trans hsame
  | _ => exact hsame

/-- A body is being built for a function if it was begun just now, or before and spared. -/
theorem building_perform_eq_some_iff (p : Program) (op : Operation) (id : FuncId) :
    (p.perform op).building = some id ↔
      op = .begin id ∨ (op.Spares id ∧ p.building = some id) := by
  have hs : (p.perform op).building = _ := congrArg Prod.fst (site_perform p op)
  constructor
  · intro h
    rw [hs] at h
    cases op with
    | begin i => exact .inl (congrArg _ (Option.some.inj h))
    | finish value => cases h
    | clear i =>
      simp only at h
      split at h
      · cases h
      · rename_i hi
        exact .inr ⟨⟨nofun, nofun, fun he => hi (by cases he; exact h), nofun⟩, h⟩
    | remove i =>
      simp only at h
      split at h
      · cases h
      · rename_i hi
        exact .inr ⟨⟨nofun, nofun, nofun, fun he => hi (by cases he; exact h)⟩, h⟩
    | _ => exact .inr ⟨⟨nofun, nofun, nofun, nofun⟩, h⟩
  · rintro (rfl | ⟨hk, h⟩)
    · rfl
    · exact congrArg Prod.fst (site_perform_of_spares hk h)

theorem exists_building (h : (after title ops).building = some id) :
    ∃ before rest, Building ops before id rest := by
  have hs : Since (fun _ op => op = .begin id) (·.Spares id) ops := by
    induction ops using List.reverseRecOn with
    | nil => cases h
    | append_singleton ops op ih =>
      rw [after_concat] at h
      rcases (building_perform_eq_some_iff _ op id).1 h with rfl | ⟨hk, h⟩
      · exact since_concat.2 (.inl rfl)
      · exact since_concat.2 (.inr ⟨hk, ih h⟩)
  obtain ⟨before, op, rest, rfl, rfl, hk⟩ := hs
  exact ⟨before, rest, rfl, hk⟩

/-- The body being built is what was pushed since it was begun. -/
theorem Operation.Building.after_eq (h : Building ops before id rest) (title : String) :
    (after title ops).building = some id ∧ (after title ops).block = pushed rest := by
  obtain ⟨rfl, hk⟩ := h
  induction rest using List.reverseRecOn with
  | nil =>
    rw [after_concat]
    exact ⟨rfl, rfl⟩
  | append_singleton rest op ih =>
    obtain ⟨hb, hc⟩ := ih fun o ho => hk o (List.mem_append_left _ ho)
    have hop : op.Spares id := hk op (by simp)
    rw [← List.cons_append, ← List.append_assoc, after_concat, pushed_append, ← hc]
    have hs := site_perform_of_spares hop hb
    exact ⟨congrArg Prod.fst hs, congrArg Prod.snd hs⟩

theorem func?_finish (p : Program) (value : Operand) (i : FuncId) :
    (p.finish value).2.func? i =
      if p.building = some i then
        (p.func? i).map ({ · with body := some (p.block ++ [.ret value]) })
      else p.func? i := by
  unfold finish
  simp only
  split
  · rename_i id hb
    refine (func?_setBody { p with building := none, block := [] } id _ i).trans ?_
    by_cases hi : i = id
    · rw [if_pos hi, if_pos (by rw [hb, hi])]
      rfl
    · rw [if_neg hi, if_neg fun h => hi (Option.some.inj (hb.symm.trans h)).symm]
      rfl
  · rename_i hb
    rw [if_neg (by rw [hb]; nofun)]
    rfl

end Bodies

/-- The laws of a program as a store, after any operations.

A number that is handed out is greater than all before.  There is a function with a number, under a
name and with parameters, if and only if it was so declared and not removed since.  A name stands
for the function declared under it last, if that was not removed since, and for none otherwise.

A return becomes the end of the body of a function if a body was begun for it last and the function
was spared since and is there.  No other function changes; the body is what was pushed since, and
each temporary handed out on the way is the place of its instruction in it.  In all other cases no
function changes. -/
theorem store_laws (title : String) (ops : List Operation) :
    let p := after title ops
    (∀ id name params, Since (Declares title name params id) (fun _ => True) ops →
      ∀ m ps, id.index < (p.declare m ps).1.index) ∧
    (∀ id name params, (∃ body, p.func? id = some ⟨name, params, body⟩) ↔
      Since (Declares title name params id) (· ≠ .remove id) ops) ∧
    (∀ name id, p.lookup name = some id ↔
      Since (fun before op => ∃ params, Declares title name params id before op)
        (fun op => op ≠ .remove id ∧ ∀ params, op ≠ .declare name params) ops) ∧
    ∀ value,
      (∀ before id rest, Building ops before id rest → ∀ f, p.func? id = some f →
        (∀ i, (p.finish value).2.func? i =
          if i = id then some { f with body := some (pushed rest ++ [.ret value]) }
          else p.func? i) ∧
        ∀ a inst b, rest = a ++ .push inst :: b →
          ∃ t, ((after title (before ++ .begin id :: a)).push inst).1 = .temp t ∧
            (pushed rest ++ [.ret value])[t]? = some inst) ∧
      ((¬ ∃ before id rest f, Building ops before id rest ∧ p.func? id = some f) →
        ∀ i, (p.finish value).2.func? i = p.func? i) := by
  refine ⟨fun id name params h m ps => index_lt_of_since h, fun id name params => ?_,
    fun name id => lookup_after_eq_some_iff, fun value => ⟨?_, fun hno i => ?_⟩⟩
  · rw [← signature?_eq_some_iff]
    exact signature?_after_eq_some_iff
  · intro before id rest hb f hf
    obtain ⟨hid, hcode⟩ := hb.after_eq title
    constructor
    · intro i
      rw [func?_finish, hid, hcode]
      by_cases hi : i = id
      · rw [if_pos (congrArg some hi.symm), if_pos hi, hi, hf]
        rfl
      · rw [if_neg fun h => hi (Option.some.inj h).symm, if_neg hi]
    · rintro a inst b rfl
      have ha : Building (before ++ .begin id :: a) before id a :=
        ⟨rfl, fun op ho => hb.spares op (List.mem_append_left _ ho)⟩
      refine ⟨(pushed a).length, ?_, ?_⟩
      · rw [← (ha.after_eq title).2]
        rfl
      · rw [pushed_append]
        simp [pushed]
  · rw [func?_finish]
    split
    · rename_i hid
      obtain ⟨before, rest, hb⟩ := exists_building hid
      cases hf : (after title ops).func? i with
      | none => rfl
      | some f => exact absurd ⟨before, i, rest, f, hb, hf⟩ hno
    · rfl

/-- The body of the first of two functions of one name is built after a body for a function that
never was is left off, and while the second function is cleared and removed. -/
theorem store_laws_interleaved :
    let before : List Operation := [.push .nop, .declare "f" ["x"], .declare "f" [], .begin ⟨7⟩,
      .push .nop]
    let rest : List Operation := [.push (.arith .add (.param 0) (.const 1)), .clear ⟨1⟩,
      .push (.call ⟨0⟩ [.temp 0]), .cleanup ⟨0⟩, .remove ⟨1⟩]
    let p := after "m" (before ++ .begin ⟨0⟩ :: rest)
    Building (before ++ .begin ⟨0⟩ :: rest) before ⟨0⟩ rest ∧
      p.func? ⟨0⟩ = some ⟨"f", ["x"], none⟩ ∧
      ∀ i, (p.finish (.temp 1)).2.func? i =
        if i = ⟨0⟩ then
          some ⟨"f", ["x"], some [.arith .add (.param 0) (.const 1), .call ⟨0⟩ [.temp 0],
            .ret (.temp 1)]⟩
        else p.func? i := by
  intro before rest p
  have hb : Building (before ++ .begin ⟨0⟩ :: rest) before ⟨0⟩ rest := by
    refine ⟨rfl, ?_⟩
    simp only [rest, List.forall_mem_cons]
    exact ⟨⟨nofun, nofun, nofun, nofun⟩, ⟨nofun, nofun, by simp, nofun⟩,
      ⟨nofun, nofun, nofun, nofun⟩, ⟨nofun, nofun, nofun, nofun⟩, ⟨nofun, nofun, nofun, by simp⟩,
      nofun⟩
  have hf : p.func? ⟨0⟩ = some ⟨"f", ["x"], none⟩ := by decide
  exact ⟨hb, hf, (((store_laws "m" _).2.2.2 (.temp 1)).1 _ _ _ hb _ hf).1⟩

end Program

end Reckoner
