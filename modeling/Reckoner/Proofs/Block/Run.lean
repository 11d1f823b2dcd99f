import Reckoner.Program.Evaluation

/-!
# Running a block instruction by instruction

Every instruction but a return gives one more temporary (`Inst.result`), and what follows is run
with it.  Instructions without a return among them give an array of temporaries in which those
before are a prefix; running on from there is running the whole block (`run_append`).
-/

namespace Reckoner

variable {call : Callee} {args : List Float} {temps : Array Float}

def Inst.Continues (inst : Inst) : Prop :=
  ∀ value, inst ≠ .ret value

def Inst.result (call : Callee) (args : List Float) (temps : Array Float) : Inst → Eval Float
  | .arith op left right => pure (op.apply (left.value args temps) (right.value args temps))
  | .lessThan left right => pure (comparison (left.value args temps) (right.value args temps))
  | .widen flag => pure (flag.value args temps)
  | .call callee operands => call callee (operands.map (·.value args temps))
  | .ret value => pure (value.value args temps)
  | .nop => pure unset

namespace Block

def results (call : Callee) (args : List Float) (temps : Array Float) :
    Block → Eval (Array Float)
  | [] => pure temps
  | inst :: rest => do
    let value ← inst.result call args temps
    results call args (temps.push value) rest

theorem results_cons (inst : Inst) (rest : Block) :
    results call args temps (inst :: rest) =
      inst.result call args temps >>= fun value =>
        results call args (temps.push value) rest := rfl

theorem results_append (a b : Block) :
    results call args temps (a ++ b) =
      results call args temps a >>= fun temps => results call args temps b := by
  induction a generalizing temps with
  | nil => rfl
  | cons inst a ih =>
    rw [List.cons_append, results_cons, results_cons, bind_assoc]
    exact bind_congr fun value => ih

theorem run_cons {inst : Inst} (h : inst.Continues) (rest : Block) :
    run call args temps (inst :: rest) =
      inst.result call args temps >>= fun value => run call args (temps.push value) rest := by
  cases inst with
  | ret value => exact absurd rfl (h value)
  | _ => rfl

theorem run_append {a : Block} (h : ∀ inst ∈ a, inst.Continues) (b : Block) :
    run call args temps (a ++ b) =
      results call args temps a >>= fun temps => run call args temps b := by
  induction a generalizing temps with
  | nil => rfl
  | cons inst a ih =>
    have ha : ∀ i ∈ a, i.Continues := fun i hi => h i (List.mem_cons_of_mem _ hi)
    rw [List.cons_append, run_cons (h inst List.mem_cons_self), results_cons, bind_assoc]
    exact bind_congr fun value => ih ha

end Block

end Reckoner
