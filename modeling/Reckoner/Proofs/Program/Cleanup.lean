import Reckoner.Proofs.Program.Invariant
import Reckoner.Proofs.Program.Store
import Reckoner.Proofs.Block.Cleanup

/-!
# Cleaning a function of any program

No call can tell whether a function has been cleaned up (`callWithin_cleanup`): whatever the
bodies of the program are, at every depth and with every sink the call gives the same result or
error and writes the same bytes.  One level of a call is the same for equal inner calls
(`enter_eq_of_cleaned`), so the equation goes down the levels, also where the function calls
itself.
-/

namespace Reckoner

def Func.cleaned (f : Func) : Func :=
  { f with body := f.body.map Block.clean }

namespace Program

variable {p q : Program}

/-- With the same callees, entering a function and entering the cleaned one do the same. -/
theorem enter_eq_of_cleaned {id : FuncId} (h : q.func? id = (p.func? id).map Func.cleaned)
    (inner : Option Callee) : q.enter inner id = p.enter inner id := by
  funext args
  cases hf : p.func? id with
  | none =>
    rw [hf] at h
    unfold enter
    rw [hf, h]
    rfl
  | some f =>
    rw [hf] at h
    have hq : q.func? id = some f.cleaned := h
    cases hb : f.body with
    | none =>
      have hb' : f.cleaned.body = none := by rw [Func.cleaned, hb]; rfl
      rw [enter_of_declaration hf hb, enter_of_declaration hq hb']
      rfl
    | some b =>
      have hb' : f.cleaned.body = some b.clean := by rw [Func.cleaned, hb]; rfl
      cases inner with
      | none =>
        rw [enter_none hf hb, enter_none hq hb']
        rfl
      | some call =>
        rw [enter_some hf hb, enter_some hq hb', Block.run_clean]
        rfl

theorem func?_cleanup (p : Program) (id i : FuncId) :
    (p.cleanup id).func? i = if i = id then (p.func? i).map Func.cleaned else p.func? i := by
  cases hb : p.body? id with
  | some body =>
    rw [cleanup_of_body? hb, func?_setBody]
    split
    · rename_i hi
      subst hi
      cases hf : p.func? i with
      | none => rfl
      | some f =>
        have hs : f.body = some body := (body?_of_func? hf).symm.trans hb
        rw [Option.map_some, Option.map_some, Func.cleaned, hs]
        rfl
    · rfl
  | none =>
    -- there is no such function, or it is a declaration
    have hc : p.cleanup id = p := by rw [cleanup, hb]
    rw [hc]
    split
    · rename_i hi
      subst hi
      cases hf : p.func? i with
      | none => rfl
      | some f =>
        obtain ⟨name, params, body⟩ := f
        cases (body?_of_func? hf).symm.trans hb
        rfl
    · rfl

theorem enter_cleanup (p : Program) (f : FuncId) (inner : Option Callee) :
    (p.cleanup f).enter inner = p.enter inner := by
  funext g
  have hg := func?_cleanup p f g
  split at hg
  · exact enter_eq_of_cleaned hg inner
  · funext args
    unfold enter
    rw [hg]

/-- Calls cannot tell whether a function has been cleaned up. -/
theorem callWithin_cleanup (p : Program) (f g : FuncId) (depth : Nat) (args : List Float)
    (sink : Sink) :
    (p.cleanup f).callWithin depth g args sink = p.callWithin depth g args sink := by
  have h (depth : Nat) : (p.cleanup f).callWithin depth = p.callWithin depth := by
    induction depth with
    | zero => exact enter_cleanup p f none
    | succ depth ih => rw [callWithin_succ, callWithin_succ, ih, enter_cleanup]
  rw [h]

end Program

end Reckoner
