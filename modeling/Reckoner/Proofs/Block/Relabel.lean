import Reckoner.Proofs.Block.Cleanup

/-!
# Blocks with other numbers for their callees

`Block.relabel ρ` puts `ρ i` in the place of every number `i` that is called.  Cleaning does not
look at these numbers (`clean_relabel`), and a block does the same with other numbers if they lead
to functions that do the same (`run_relabel`).
-/

namespace Reckoner

variable {ρ ρ' : FuncId → FuncId}

def Inst.relabel (ρ : FuncId → FuncId) : Inst → Inst
  | .call callee args => .call (ρ callee) args
  | inst => inst

def Block.relabel (ρ : FuncId → FuncId) (b : Block) : Block :=
  b.map (Inst.relabel ρ)

namespace Inst

variable {inst : Inst}

@[simp]
theorem operands_relabel (inst : Inst) : (inst.relabel ρ).operands = inst.operands := by
  cases inst <;> rfl

@[simp]
theorem isPure_relabel (inst : Inst) : (inst.relabel ρ).isPure = inst.isPure := by
  cases inst <;> rfl

@[simp]
theorem constant?_relabel (inst : Inst) : (inst.relabel ρ).constant? = inst.constant? := by
  cases inst <;> rfl

theorem mapOperands_relabel (f : Operand → Operand) (inst : Inst) :
    (inst.relabel ρ).mapOperands f = (inst.mapOperands f).relabel ρ := by
  cases inst <;> rfl

@[simp]
theorem reads_relabel (inst : Inst) (t : Nat) : (inst.relabel ρ).reads t = inst.reads t := by
  rw [reads, reads, operands_relabel]

theorem relabel_id (inst : Inst) : inst.relabel id = inst := by
  cases inst <;> rfl

theorem Continues.relabel (h : inst.Continues) : (inst.relabel ρ).Continues := by
  cases inst with
  | ret value => exact absurd rfl (h value)
  | _ => intro value; exact nofun

theorem relabel_congr (h : ∀ callee args, inst = .call callee args → ρ' callee = ρ callee) :
    inst.relabel ρ' = inst.relabel ρ := by
  cases inst with
  | call callee args => rw [relabel, relabel, h callee args rfl]
  | _ => rfl

end Inst

namespace Block

variable {b : Block}

theorem relabel_id (b : Block) : relabel id b = b :=
  (List.map_congr_left fun inst _ => Inst.relabel_id inst).trans (List.map_id b)

theorem relabel_cons (inst : Inst) (rest : Block) :
    relabel ρ (inst :: rest) = inst.relabel ρ :: relabel ρ rest := rfl

theorem relabel_append (a b : Block) : relabel ρ (a ++ b) = relabel ρ a ++ relabel ρ b :=
  List.map_append

@[simp]
theorem length_relabel (b : Block) : (relabel ρ b).length = b.length :=
  List.length_map _

theorem relabel_congr (h : ∀ callee args, .call callee args ∈ b → ρ' callee = ρ callee) :
    relabel ρ' b = relabel ρ b := by
  refine List.map_congr_left fun inst hi => Inst.relabel_congr ?_
  rintro callee args rfl
  exact h callee args hi

theorem foldFrom_relabel (known : KnownTemps) (b : Block) :
    foldFrom known (relabel ρ b) = relabel ρ (foldFrom known b) := by
  induction b generalizing known with
  | nil => rfl
  | cons inst rest ih =>
    rw [relabel_cons, foldFrom_cons, foldFrom_cons, Inst.mapOperands_relabel,
      Inst.constant?_relabel]
    split
    · rw [ih]; rfl
    · rw [ih]; rfl

theorem pruneFrom_relabel (i : Nat) (b : Block) :
    pruneFrom i (relabel ρ b) = relabel ρ (pruneFrom i b) := by
  induction b generalizing i with
  | nil => rfl
  | cons inst rest ih =>
    have hreads (b : Block) (t : Nat) : (relabel ρ b).any (·.reads t) = b.any (·.reads t) := by
      simp [relabel, List.any_map, Function.comp_def]
    rw [relabel_cons, pruneFrom_cons, pruneFrom_cons, ih, hreads, Inst.isPure_relabel]
    split <;> rfl

/-- Cleaning does not look at the numbers of callees. -/
theorem clean_relabel (b : Block) : (relabel ρ b).clean = relabel ρ b.clean := by
  rw [clean, clean, fold, fold, foldFrom_relabel, prune, prune, pruneFrom_relabel]

/-- A block does the same with other numbers if they lead to functions that do the same. -/
theorem run_relabel {call call' : Callee} {args : List Float} {temps : Array Float}
    (h : ∀ callee os, .call callee os ∈ b → call' (ρ callee) = call callee) :
    run call' args temps (relabel ρ b) = run call args temps b := by
  induction b generalizing temps with
  | nil => rfl
  | cons inst rest ih =>
    rcases continues_or_ret inst with hi | ⟨value, rfl⟩
    · have hr : (inst.relabel ρ).result call' args temps = inst.result call args temps := by
        cases inst with
        | call callee os => exact congrFun (h callee os List.mem_cons_self) _
        | _ => rfl
      rw [relabel_cons, run_cons hi.relabel, run_cons hi, hr]
      exact bind_congr fun value => ih fun callee os hm => h callee os (List.mem_cons_of_mem _ hm)
    · rfl

end Block

end Reckoner
