import Reckoner.Lowering
import Reckoner.Proofs.Block.Relabel

/-!
# Lowering with other numbers for callees

In a program where names lead to other numbers, and these to functions with as many parameters, an
expression is lowered to the same code with these numbers, or has the same fault
(`Expr.lower_relabel`).
-/

namespace Reckoner

variable {ρ : FuncId → FuncId}

def Code.relabel (ρ : FuncId → FuncId) (code : Code) : Code :=
  ⟨Block.relabel ρ code.insts, code.value⟩

theorem Code.relabel_id (code : Code) : code.relabel id = code := by
  rw [relabel, Block.relabel_id]

def ArgsCode.relabel (ρ : FuncId → FuncId) (code : ArgsCode) : ArgsCode :=
  ⟨Block.relabel ρ code.insts, code.values⟩

theorem Except.map_bind_map {ε α α' β β' : Type} {x : Except ε α} {f : α → α'}
    {g : α → Except ε β} {g' : α' → Except ε β'} {h : β → β'}
    (hg : ∀ a, g' (f a) = (g a).map h) : x.map f >>= g' = (x >>= g).map h := by
  cases x with
  | error e => rfl
  | ok a => exact hg a

namespace Expr

variable {p q : Program} {scope : Scope}

theorem ending_relabel (start : Nat) (insts : Block) (last : Inst) :
    Code.ending start (Block.relabel ρ insts) (last.relabel ρ) =
      (Code.ending start insts last).relabel ρ := by
  unfold Code.ending Code.relabel
  rw [Block.relabel_append, Block.length_relabel]
  rfl

theorem lowerBinary_relabel (start : Nat) (op : Char) (left right : Operand) (insts : Block) :
    lowerBinary start op left right (Block.relabel ρ insts) =
      (lowerBinary start op left right insts).map (Code.relabel ρ) := by
  unfold lowerBinary
  simp only
  split
  · have hc : Code.ending start (Block.relabel ρ insts) (.lessThan left right) =
        (Code.ending start insts (.lessThan left right)).relabel ρ :=
      ending_relabel start insts (.lessThan left right)
    rw [hc]
    exact congrArg Except.ok (ending_relabel start _ (.widen _))
  · split
    · exact congrArg Except.ok (ending_relabel start insts (.arith _ left right))
    · rfl

mutual

/-- Of a program, lowering uses what names lead to and how many parameters the functions have; the
numbers of callees go into the code as they are. -/
theorem lower_relabel (hl : ∀ name, q.lookup name = (p.lookup name).map ρ)
    (ha : ∀ name id, p.lookup name = some id → q.arity (ρ id) = p.arity id) (start : Nat)
    (e : Expr) : e.lower q scope start = (e.lower p scope start).map (Code.relabel ρ) := by
  match e with
  | .literal value => rfl
  | .var name =>
    unfold lower
    split <;> rfl
  | .binary op left right =>
    unfold lower
    rw [lower_relabel hl ha start left]
    refine Except.map_bind_map fun l => ?_
    rw [Code.relabel, Block.length_relabel, lower_relabel hl ha _ right]
    refine Except.map_bind_map fun r => ?_
    rw [Code.relabel, ← Block.relabel_append]
    exact lowerBinary_relabel start op l.value r.value _
  | .call callee args =>
    unfold lower
    rw [hl]
    cases hi : p.lookup callee with
    | none => rfl
    | some id =>
      simp only [Option.map_some, ha callee id hi]
      split
      · rfl
      · rw [lowerArgs_relabel hl ha start args]
        refine Except.map_bind_map fun a => ?_
        exact congrArg Except.ok (ending_relabel start a.insts (.call id a.values))

theorem lowerArgs_relabel (hl : ∀ name, q.lookup name = (p.lookup name).map ρ)
    (ha : ∀ name id, p.lookup name = some id → q.arity (ρ id) = p.arity id) (start : Nat)
    (es : List Expr) :
    lowerArgs q scope start es = (lowerArgs p scope start es).map (ArgsCode.relabel ρ) := by
  match es with
  | [] => rfl
  | e :: es =>
    unfold lowerArgs
    rw [lower_relabel hl ha start e]
    refine Except.map_bind_map fun head => ?_
    rw [Code.relabel, Block.length_relabel, lowerArgs_relabel hl ha _ es]
    refine Except.map_bind_map fun tail => ?_
    rw [ArgsCode.relabel, ← Block.relabel_append]
    rfl

end

theorem lower_congr (hl : ∀ name, q.lookup name = p.lookup name)
    (ha : ∀ id, q.arity id = p.arity id) (start : Nat) (e : Expr) :
    e.lower q scope start = e.lower p scope start := by
  have hl' (name : String) : q.lookup name = (p.lookup name).map id := by
    rw [hl, Option.map_id]
    rfl
  have hr : e.lower q scope start = (e.lower p scope start).map (Code.relabel id) :=
    lower_relabel hl' (fun _ id _ => ha id) start e
  rw [hr]
  cases e.lower p scope start with
  | error e => rfl
  | ok code => exact congrArg Except.ok code.relabel_id

end Expr

end Reckoner
