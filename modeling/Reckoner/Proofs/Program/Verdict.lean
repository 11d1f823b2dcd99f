import Reckoner.Proofs.Program.Cleanup

/-!
# Cleaning and the verdict on functions

A function that is well formed still is when it has been cleaned up, with its calls and its return
where they were, and the verdict on every other function is what it was (`verify_cleanup`).  What
cleaning puts a `nop` in the place of is never a call, so calls stay at their numbers.  Of the
functions that a body calls, the checker sees no more than their headings, and these cleaning does
not touch (`heading_cleanup`).
-/

namespace Reckoner

namespace Inst

def called? : Inst → Option (FuncId × Nat)
  | .call callee args => some (callee, args.length)
  | _ => none

@[simp]
theorem called?_mapOperands (f : Operand → Operand) (inst : Inst) :
    (inst.mapOperands f).called? = inst.called? := by
  cases inst with
  | call callee args => rw [mapOperands, called?, called?, List.length_map]
  | _ => rfl

theorem called?_of_isPure {inst : Inst} (h : inst.isPure = true) : inst.called? = none := by
  cases inst with
  | call callee args => contradiction
  | _ => rfl

end Inst

namespace Block

theorem called?_foldFrom (known : KnownTemps) (b : Block) :
    (foldFrom known b).map Inst.called? = b.map Inst.called? := by
  induction b generalizing known with
  | nil => rfl
  | cons inst rest ih =>
    rw [foldFrom_cons]
    split
    · rename_i value hc
      have hp : inst.isPure = true := by simpa using Inst.isPure_of_constant? hc
      rw [List.map_cons, List.map_cons, ih, Inst.called?_of_isPure hp]
      rfl
    · rw [List.map_cons, List.map_cons, ih, Inst.called?_mapOperands]

theorem called?_pruneFrom (i : Nat) (b : Block) :
    (pruneFrom i b).map Inst.called? = b.map Inst.called? := by
  induction b generalizing i with
  | nil => rfl
  | cons inst rest ih =>
    rw [pruneFrom_cons]
    split
    · rename_i hc
      rw [List.map_cons, List.map_cons, ih, Inst.called?_of_isPure (Bool.and_eq_true_iff.1 hc).1]
      rfl
    · rw [List.map_cons, List.map_cons, ih]

theorem called?_clean (b : Block) : b.clean.map Inst.called? = b.map Inst.called? := by
  rw [clean, prune, called?_pruneFrom, fold, called?_foldFrom]

end Block

/-- A function without its body, which is what the check of another function sees of it. -/
def Func.heading (f : Func) : Func :=
  { f with body := none }

namespace Program

variable {p q : Program} {arity : Nat}

theorem Accepts.getLast?_eq {kinds : Array ResultKind} {b : Block}
    (h : p.Accepts arity kinds b) : ∃ value, b.getLast? = some (.ret value) := by
  induction h with
  | ret _ => exact ⟨_, rfl⟩
  | @cons kinds inst kind rest _ _ ih =>
    obtain ⟨value, hv⟩ := ih
    exact ⟨value, by rw [List.getLast?_cons, hv]; rfl⟩

theorem heading_cleanup (p : Program) (id i : FuncId) :
    ((p.cleanup id).func? i).map Func.heading = (p.func? i).map Func.heading := by
  rw [func?_cleanup]
  split
  · rw [Option.map_map]
    rfl
  · rfl

section Headings

variable (h : ∀ i, (q.func? i).map Func.heading = (p.func? i).map Func.heading)
include h

/-- A call is judged by the heading of its callee, and all else without any function. -/
theorem resultKind_congr (kinds : Array ResultKind) (inst : Inst) :
    q.resultKind arity kinds inst = p.resultKind arity kinds inst := by
  cases inst with
  | call callee args =>
    have hc := h callee
    unfold resultKind
    simp only
    cases hp : p.func? callee with
    | none =>
      rw [hp] at hc
      rw [Option.map_eq_none_iff.1 hc]
    | some f =>
      rw [hp] at hc
      obtain ⟨⟨name, params, body⟩, hg, hgf⟩ := Option.map_eq_some_iff.1 hc
      obtain ⟨name', params', body'⟩ := f
      cases hgf
      rw [hg]
      rfl
  | _ => rfl

theorem checkFrom_congr (kinds : Array ResultKind) (b : Block) :
    q.checkFrom arity kinds b = p.checkFrom arity kinds b := by
  fun_induction checkFrom p arity kinds b with
  | case1 kinds => rfl
  | case2 kinds value => rfl
  | case3 kinds inst rest hn e he =>
    rw [checkFrom, resultKind_congr h, he]
    exact hn
  | case4 kinds inst rest hn kind hk ih =>
    rw [checkFrom, resultKind_congr h, hk]
    · exact ih
    · exact hn

theorem check_congr (f : Func) : q.check f = p.check f := by
  unfold check
  cases f.body with
  | none => rfl
  | some b => exact checkFrom_congr h #[] b

end Headings

theorem verdict?_cleanup_of_ne (p : Program) {id i : FuncId} (hi : i ≠ id) :
    (p.cleanup id).verdict? i = p.verdict? i := by
  unfold verdict?
  rw [func?_cleanup, if_neg hi]
  exact congrArg (Option.map · (p.func? i)) (funext fun f =>
    congrArg (Prod.mk f) (check_congr (heading_cleanup p id) f))

/-- Cleaning up a function that is well formed keeps it so: its body has the same length, calls the
same functions with as many arguments in the same places, and ends with its return.  And whatever
function is cleaned up, it changes the verdict on no other. -/
theorem verify_cleanup (p : Program) (id : FuncId) :
    (p.verify id = true →
      (p.cleanup id).verify id = true ∧
        ∃ b b', p.body? id = some b ∧ (p.cleanup id).body? id = some b' ∧
          b'.length = b.length ∧ b'.map Inst.called? = b.map Inst.called? ∧
          ∃ value value', b.getLast? = some (.ret value) ∧ b'.getLast? = some (.ret value')) ∧
    ∀ i, i ≠ id → (p.cleanup id).verify i = p.verify i ∧
      (p.cleanup id).verdict? i = p.verdict? i := by
  constructor
  · intro hv
    obtain ⟨f, b, hf, hb, ha⟩ := verify_eq_true_iff.1 hv
    have hbody : p.body? id = some b := (body?_of_func? hf).trans hb
    have hq : (p.cleanup id).func? id = some { f with body := some b.clean } := by
      rw [func?_cleanup, if_pos rfl, hf, Option.map_some, Func.cleaned, hb]
      rfl
    have ha' : (p.cleanup id).Accepts f.params.length #[] b.clean := by
      rw [cleanup_of_body? hbody]
      exact (Block.accepts_clean ha).of_extends (extends_setBody p id _)
    obtain ⟨value, hl⟩ := ha.getLast?_eq
    obtain ⟨value', hl'⟩ := ha'.getLast?_eq
    exact ⟨verify_eq_true_iff.2 ⟨_, _, hq, rfl, ha'⟩, b, b.clean, hbody, body?_of_func? hq,
      b.length_clean, b.called?_clean, value, value', hl, hl'⟩
  · intro i hi
    have hd := verdict?_cleanup_of_ne p hi
    exact ⟨by rw [verify, hd, verify], hd⟩

/-- A function that calls itself with a comparison of constants, and adds up something that nobody
reads, is cleaned up beside a function that is not well formed. -/
theorem verify_cleanup_recursive :
    let b : Block := [.lessThan (.const 3) (.const 2), .widen (.temp 0),
      .arith .add (.temp 1) (.param 0), .call ⟨0⟩ [.temp 1], .ret (.temp 3)]
    let p : Program := { empty "m" with
      slots := #[some ⟨"f", ["x"], some b⟩, some ⟨"g", [], some [.ret (.temp 5)]⟩] }
    p.verify ⟨0⟩ = true ∧ (p.cleanup ⟨0⟩).verify ⟨0⟩ = true ∧
      ((p.cleanup ⟨0⟩).body? ⟨0⟩).map (List.map Inst.called?) =
        some [none, none, none, some (⟨0⟩, 1), none] ∧
      (⟨1⟩ : FuncId) ≠ ⟨0⟩ ∧ (p.cleanup ⟨0⟩).verify ⟨1⟩ = false := by
  intro b p
  have hv : p.verify ⟨0⟩ = true := by decide
  have hne : (⟨1⟩ : FuncId) ≠ ⟨0⟩ := by decide
  obtain ⟨hkept, hothers⟩ := verify_cleanup p ⟨0⟩
  obtain ⟨hv', b₀, b', hb₀, hb', -, hcalls, -⟩ := hkept hv
  obtain rfl : b = b₀ := Option.some.inj hb₀
  refine ⟨hv, hv', ?_, hne, (hothers ⟨1⟩ hne).1.trans (by decide)⟩
  rw [hb', Option.map_some, hcalls]
  rfl

end Program

end Reckoner
