import Reckoner.Proofs.Program.Store

/-!
# Accepted bodies

What it is for a body to be well formed, said without the checker: `Program.Gives` says which
kind of result an instruction has where it stands, and `Program.Accepts` that a block is in order
from there on, up to its return.  The checker finds no defect exactly in the accepted bodies
(`verify_eq_true_iff`).

Of a program, acceptance uses only which functions there are and how many parameters they have, so
it is kept when functions are added and when bodies change (`Accepts.of_extends`).
-/

namespace Reckoner

variable {arity : Nat} {kinds : Array ResultKind}

theorem checkDoubles_eq_ok_iff {defect : Defect} {os : List Operand} :
    checkDoubles arity kinds defect os = .ok () ↔ ∀ o ∈ os, o.kind arity kinds = .ok .double := by
  induction os with
  | nil => simp [checkDoubles]
  | cons o os ih =>
    rw [checkDoubles, List.forall_mem_cons]
    split
    · rename_i e he; simp [he]
    · rename_i hd; simp [hd, ih]
    · rename_i k hn hk
      simp only [reduceCtorEq, false_iff, not_and]
      intro h
      exact absurd (Except.ok.inj (hk.symm.trans h)) hn

namespace Program

inductive Gives (p : Program) (arity : Nat) (kinds : Array ResultKind) : Inst → ResultKind → Prop
  | arith {op : ArithOp} {left right : Operand} (hl : left.kind arity kinds = .ok .double)
    (hr : right.kind arity kinds = .ok .double) : Gives p arity kinds (.arith op left right) .double
  | lessThan {left right : Operand} (hl : left.kind arity kinds = .ok .double)
    (hr : right.kind arity kinds = .ok .double) : Gives p arity kinds (.lessThan left right) .flag
  | widenConst {value : Float} : Gives p arity kinds (.widen (.const value)) .double
  | widen {flag : Operand} (h : flag.kind arity kinds = .ok .flag) :
    Gives p arity kinds (.widen flag) .double
  | call {callee : FuncId} {args : List Operand} {f : Func} (hf : p.func? callee = some f)
    (hn : f.params.length = args.length) (ha : ∀ a ∈ args, a.kind arity kinds = .ok .double) :
    Gives p arity kinds (.call callee args) .double
  | nop : Gives p arity kinds .nop .nothing

inductive Accepts (p : Program) (arity : Nat) : Array ResultKind → Block → Prop
  | ret {kinds : Array ResultKind} {value : Operand} (h : value.kind arity kinds = .ok .double) :
    Accepts p arity kinds [.ret value]
  | cons {kinds : Array ResultKind} {inst : Inst} {kind : ResultKind} {rest : Block}
    (h : p.Gives arity kinds inst kind) (hr : Accepts p arity (kinds.push kind) rest) :
    Accepts p arity kinds (inst :: rest)

variable {p q : Program} {inst : Inst} {kind : ResultKind}

theorem map_eq_ok_iff {α β ε : Type} {r : Except ε α} {g : α → β} {y : β} :
    r.map g = .ok y ↔ ∃ x, r = .ok x ∧ g x = y := by
  cases r <;> simp [Except.map]

theorem gives_of_resultKind (h : p.resultKind arity kinds inst = .ok kind) :
    p.Gives arity kinds inst kind := by
  cases inst with
  | arith op left right =>
    obtain ⟨_, hd, rfl⟩ := map_eq_ok_iff.1 h
    have hd := checkDoubles_eq_ok_iff.1 hd
    exact .arith (hd left (by simp)) (hd right (by simp))
  | lessThan left right =>
    obtain ⟨_, hd, rfl⟩ := map_eq_ok_iff.1 h
    have hd := checkDoubles_eq_ok_iff.1 hd
    exact .lessThan (hd left (by simp)) (hd right (by simp))
  | widen flag =>
    unfold resultKind at h
    simp only at h
    split at h
    · contradiction
    · cases h; exact .widenConst
    · rename_i hf; cases h; exact .widen hf
    · contradiction
  | call callee args =>
    unfold resultKind at h
    simp only at h
    split at h
    · contradiction
    · rename_i f hf
      split at h
      · contradiction
      · rename_i hn
        obtain ⟨_, hd, rfl⟩ := map_eq_ok_iff.1 h
        exact .call hf (Decidable.not_not.1 hn) (checkDoubles_eq_ok_iff.1 hd)
  | ret value => contradiction
  | nop => cases h; exact .nop

theorem Gives.resultKind_eq (h : p.Gives arity kinds inst kind) :
    p.resultKind arity kinds inst = .ok kind := by
  cases h with
  | arith hl hr =>
    exact map_eq_ok_iff.2 ⟨(), checkDoubles_eq_ok_iff.2 (by simp [hl, hr]), rfl⟩
  | lessThan hl hr =>
    exact map_eq_ok_iff.2 ⟨(), checkDoubles_eq_ok_iff.2 (by simp [hl, hr]), rfl⟩
  | widenConst => rfl
  | widen hf =>
    unfold resultKind
    simp only
    split <;> simp_all
  | call hf hn ha =>
    unfold resultKind
    simp only [hf, hn, ne_eq, not_true, if_false]
    exact map_eq_ok_iff.2 ⟨(), checkDoubles_eq_ok_iff.2 ha, rfl⟩
  | nop => rfl

theorem checkFrom_eq_ok_iff {b : Block} :
    p.checkFrom arity kinds b = .ok () ↔ p.Accepts arity kinds b := by
  fun_induction checkFrom p arity kinds b with
  | case1 kinds =>
    constructor
    · intro h; contradiction
    · intro h; cases h
  | case2 kinds value =>
    rw [checkDoubles_eq_ok_iff]
    constructor
    · intro h; exact .ret (h value (by simp))
    · intro h
      cases h with
      | ret h => simpa using h
      | cons h hr => cases h
  | case3 kinds inst rest hn e he =>
    constructor
    · intro h; contradiction
    · intro h
      cases h with
      | ret h => exact (hn _ rfl rfl).elim
      | cons h hr => rw [h.resultKind_eq] at he; contradiction
  | case4 kinds inst rest hn kind hk ih =>
    rw [ih]
    constructor
    · intro h; exact .cons (gives_of_resultKind hk) h
    · intro h
      cases h with
      | ret h => exact (hn _ rfl rfl).elim
      | cons h hr =>
        cases Except.ok.inj (hk.symm.trans h.resultKind_eq)
        exact hr

/-- The bodies without a defect are the accepted ones. -/
theorem verify_eq_true_iff {id : FuncId} :
    p.verify id = true ↔ ∃ f b, p.func? id = some f ∧ f.body = some b ∧
      p.Accepts f.params.length #[] b := by
  unfold verify verdict? check
  cases hf : p.func? id with
  | none => simp
  | some f =>
    cases hb : f.body with
    | none => simp [hb]
    | some b =>
      cases hc : p.checkFrom f.params.length #[] b <;> simp [hb, hc, ← checkFrom_eq_ok_iff]

def Extends (q p : Program) : Prop :=
  ∀ id f, p.func? id = some f → ∃ g, q.func? id = some g ∧ g.name = f.name ∧ g.params = f.params

theorem extends_setBody (p : Program) (id : FuncId) (body : Option Block) :
    (p.setBody id body).Extends p := by
  intro i f hf
  rw [func?_setBody, hf]
  by_cases hi : i = id
  · rw [if_pos hi]
    exact ⟨_, rfl, rfl, rfl⟩
  · rw [if_neg hi]
    exact ⟨f, rfl, rfl, rfl⟩

theorem Gives.of_extends (hq : q.Extends p) (h : p.Gives arity kinds inst kind) :
    q.Gives arity kinds inst kind := by
  cases h with
  | arith hl hr => exact .arith hl hr
  | lessThan hl hr => exact .lessThan hl hr
  | widenConst => exact .widenConst
  | widen hf => exact .widen hf
  | call hf hn ha =>
    obtain ⟨g, hg, -, hp⟩ := hq _ _ hf
    exact .call hg (by rw [hp, hn]) ha
  | nop => exact .nop

theorem Accepts.of_extends (hq : q.Extends p) {b : Block} (h : p.Accepts arity kinds b) :
    q.Accepts arity kinds b := by
  induction h with
  | ret h => exact .ret h
  | cons h _ ih => exact .cons (h.of_extends hq) ih

end Program

end Reckoner
