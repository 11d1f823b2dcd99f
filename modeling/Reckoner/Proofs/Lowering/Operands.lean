import Mathlib.Data.List.Induction
import Reckoner.Proofs.Block.Cleanup
import Reckoner.Proofs.Lowering.Acceptance

/-!
# The operands of lowered code

What lowered code reads and returns are constants, temporaries, and what names stand for in its
scope (`operands_of_lower`), and cleaning adds nothing but constants (`operands_clean`).  In the
scope of a function a name stands for the last parameter that has it (`Scope.last_of_lookup`).
-/

namespace Reckoner

theorem last_of_lookup_zipIdx {params : List String} {name : String} {i : Nat}
    (h : params.zipIdx.reverse.lookup name = some i) :
    params[i]? = some name ∧ ∀ j, params[j]? = some name → j ≤ i := by
  induction params using List.reverseRecOn with
  | nil => contradiction
  | append_singleton params last ih =>
    rw [List.zipIdx_append, List.reverse_append] at h
    simp only [List.zipIdx_cons, List.zipIdx_nil, List.reverse_singleton, List.singleton_append,
      List.lookup_cons] at h
    have hlt {j : Nat} (hj : (params ++ [last])[j]? = some name) : j < params.length + 1 := by
      have := (List.getElem?_eq_some_iff.1 hj).1
      simpa using this
    split at h
    · rename_i hname
      cases h
      refine ⟨?_, fun j hj => ?_⟩
      · simp [beq_iff_eq.1 hname]
      · have := hlt hj
        omega
    · rename_i hname
      obtain ⟨hi, hlast⟩ := ih h
      have hil := (List.getElem?_eq_some_iff.1 hi).1
      refine ⟨by rw [List.getElem?_append_left hil, hi], fun j hj => ?_⟩
      have hj' := hlt hj
      by_cases hjl : j < params.length
      · rw [List.getElem?_append_left hjl] at hj
        exact hlast j hj
      · obtain rfl : j = params.length := by omega
        simp at hj
        simp [hj] at hname

theorem Scope.last_of_lookup {params : List String} {name : String} {o : Operand}
    (h : (ofParams params).lookup name = some o) :
    ∃ i, o = .param i ∧ params[i]? = some name ∧ ∀ j, params[j]? = some name → j ≤ i := by
  rw [lookup_ofParams] at h
  obtain ⟨i, hi, rfl⟩ := Option.map_eq_some_iff.1 h
  exact ⟨i, rfl, last_of_lookup_zipIdx hi⟩

def Code.Operands (P : Operand → Prop) (code : Code) : Prop :=
  (∀ inst ∈ code.insts, ∀ o ∈ inst.operands, P o) ∧ P code.value

structure Scope.Operands (scope : Scope) (P : Operand → Prop) : Prop where
  const : ∀ value, P (.const value)
  temp : ∀ t, P (.temp t)
  param : ∀ name o, scope.lookup name = some o → P o

namespace Expr

variable {P : Operand → Prop} {p : Program} {scope : Scope} {start : Nat}

theorem operands_ending (hs : scope.Operands P) {insts : Block} {last : Inst}
    (hi : ∀ inst ∈ insts, ∀ o ∈ inst.operands, P o) (hl : ∀ o ∈ last.operands, P o) :
    (Code.ending start insts last).Operands P :=
  ⟨List.forall_mem_append.2 ⟨hi, List.forall_mem_singleton.2 hl⟩, hs.temp _⟩

theorem operands_lowerBinary (hs : scope.Operands P) {op : Char} {left right : Operand}
    {insts : Block} {code : Code} (hi : ∀ inst ∈ insts, ∀ o ∈ inst.operands, P o) (hl : P left)
    (hr : P right) (h : lowerBinary start op left right insts = .ok code) : code.Operands P := by
  have hlr : ∀ o ∈ [left, right], P o := by simp [hl, hr]
  unfold lowerBinary at h
  simp only at h
  split at h
  · cases h
    have hc : (Code.ending start insts (.lessThan left right)).Operands P :=
      operands_ending hs hi hlr
    exact operands_ending hs hc.1 (List.forall_mem_singleton.2 hc.2)
  · split at h
    · cases h
      exact operands_ending hs hi hlr
    · contradiction

mutual

theorem operands_of_lower (hs : scope.Operands P) {e : Expr} {start : Nat} {code : Code}
    (h : e.lower p scope start = .ok code) : code.Operands P := by
  match e with
  | .literal value =>
    cases h
    exact ⟨nofun, hs.const value⟩
  | .var name =>
    unfold lower at h
    split at h
    · rename_i o ho
      cases h
      exact ⟨nofun, hs.param name o ho⟩
    · contradiction
  | .binary op left right =>
    unfold lower at h
    obtain ⟨l, hl, h⟩ := Except.bind_eq_ok h
    obtain ⟨r, hr, h⟩ := Except.bind_eq_ok h
    obtain ⟨hli, hlv⟩ := operands_of_lower hs hl
    obtain ⟨hri, hrv⟩ := operands_of_lower hs hr
    exact operands_lowerBinary hs (List.forall_mem_append.2 ⟨hli, hri⟩) hlv hrv h
  | .call callee args =>
    unfold lower at h
    split at h
    · contradiction
    · split at h
      · contradiction
      · obtain ⟨a, ha, h⟩ := Except.bind_eq_ok h
        cases h
        obtain ⟨hi, hv⟩ := operands_of_lowerArgs hs ha
        exact operands_ending hs hi hv

theorem operands_of_lowerArgs (hs : scope.Operands P) {es : List Expr} {start : Nat}
    {code : ArgsCode} (h : lowerArgs p scope start es = .ok code) :
    (∀ inst ∈ code.insts, ∀ o ∈ inst.operands, P o) ∧ ∀ v ∈ code.values, P v := by
  match es with
  | [] =>
    unfold lowerArgs at h
    cases h
    exact ⟨nofun, nofun⟩
  | e :: es =>
    unfold lowerArgs at h
    obtain ⟨head, hh, h⟩ := Except.bind_eq_ok h
    obtain ⟨tail, ht, h⟩ := Except.bind_eq_ok h
    cases h
    obtain ⟨hhi, hhv⟩ := operands_of_lower hs hh
    obtain ⟨hti, htv⟩ := operands_of_lowerArgs hs ht
    exact ⟨List.forall_mem_append.2 ⟨hhi, hti⟩, List.forall_mem_cons.2 ⟨hhv, htv⟩⟩

end

end Expr

namespace Block

variable {P : Operand → Prop}

theorem operands_foldFrom (hc : ∀ value, P (.const value)) {b : Block} (known : KnownTemps)
    (h : ∀ inst ∈ b, ∀ o ∈ inst.operands, P o) :
    ∀ inst ∈ foldFrom known b, ∀ o ∈ inst.operands, P o := by
  induction b generalizing known with
  | nil => nofun
  | cons inst rest ih =>
    obtain ⟨hi, hrest⟩ := List.forall_mem_cons.1 h
    rw [foldFrom_cons]
    split
    · exact List.forall_mem_cons.2 ⟨nofun, ih _ hrest⟩
    · refine List.forall_mem_cons.2 ⟨?_, ih _ hrest⟩
      rw [Inst.operands_mapOperands]
      refine List.forall_mem_map.2 fun o ho => ?_
      unfold Operand.resolve
      split
      · split
        · exact hc _
        · exact hi _ ho
      · exact hi _ ho
      · exact hi _ ho

theorem operands_pruneFrom {b : Block} (i : Nat) (h : ∀ inst ∈ b, ∀ o ∈ inst.operands, P o) :
    ∀ inst ∈ pruneFrom i b, ∀ o ∈ inst.operands, P o := by
  induction b generalizing i with
  | nil => nofun
  | cons inst rest ih =>
    obtain ⟨hi, hrest⟩ := List.forall_mem_cons.1 h
    rw [pruneFrom_cons]
    split
    · exact List.forall_mem_cons.2 ⟨nofun, ih _ hrest⟩
    · exact List.forall_mem_cons.2 ⟨hi, ih _ hrest⟩

/-- Cleaning adds nothing but constants to what is read. -/
theorem operands_clean (hc : ∀ value, P (.const value)) {b : Block}
    (h : ∀ inst ∈ b, ∀ o ∈ inst.operands, P o) :
    ∀ inst ∈ b.clean, ∀ o ∈ inst.operands, P o :=
  operands_pruneFrom 0 (operands_foldFrom hc #[] h)

end Block

end Reckoner
