import Reckoner.Proofs.Compiler.Listing
import Reckoner.Proofs.Grammar.Operators
import Reckoner.Proofs.Lowering.Meaning
import Reckoner.Proofs.Text.OneLine

/-!
# What errors name

The names in an error come from what it is about: an error of compiling has those of the unit
(`Compiler.names_of_define`), and an error of evaluating has those of the functions in the program
(`Program.names_callWithin`).  An operator in an error comes from the unit too.  So the messages are
on one line if the names are.
-/

namespace Reckoner

open Text

variable {P : String → Prop} {Q : Char → Prop}

/-- The names in the error satisfy `P`, and an operator in it satisfies `Q`. -/
def CompileError.Names (P : String → Prop) (Q : Char → Prop) : CompileError → Prop
  | .unknownVariable name => P name
  | .invalidOperator op => Q op
  | .unknownFunction name => P name
  | .arityMismatch callee _ _ => P callee
  | .redefinition name => P name
  | .invalidFunction name => P name

def ExecError.Names (P : String → Prop) : ExecError → Prop
  | .missingFunction => True
  | .unresolvedExtern name => P name
  | .builtinArity name _ _ => P name
  | .tooDeep name => P name
  | .missingReturn name => P name
  | .output _ => True

theorem isLineBreak_of_joins {op : Char} (h : Joins op) : isLineBreak op = false := by
  unfold Joins Token.binding at h
  split at h
  case h_5 => exact absurd h (Nat.lt_irrefl 0)
  all_goals
    rename_i he
    cases he
    rfl

theorem CompileError.oneLine_message {e : CompileError} (h : e.Names OneLine Joins) :
    OneLine e.message := by
  cases e with
  | unknownVariable name => exact oneLine_append.2 ⟨by decide, h⟩
  | invalidOperator op => exact oneLine_append.2 ⟨by decide, oneLine_char (isLineBreak_of_joins h)⟩
  | unknownFunction name => exact oneLine_append.2 ⟨by decide, h⟩
  | arityMismatch callee expected found =>
    refine oneLine_append.2 ⟨oneLine_append.2 ⟨?_, by decide⟩, oneLine_toString⟩
    refine oneLine_append.2 ⟨oneLine_append.2 ⟨?_, by decide⟩, oneLine_toString⟩
    exact oneLine_append.2 ⟨by decide, h⟩
  | redefinition name => exact oneLine_append.2 ⟨oneLine_append.2 ⟨by decide, h⟩, by decide⟩
  | invalidFunction name => exact oneLine_append.2 ⟨by decide, h⟩

theorem ExecError.oneLine_message {e : ExecError} (h : e.Names OneLine) : OneLine e.message := by
  cases e with
  | missingFunction => decide
  | unresolvedExtern name => exact oneLine_append.2 ⟨oneLine_append.2 ⟨by decide, h⟩, by decide⟩
  | builtinArity name expected found =>
    refine oneLine_append.2 ⟨oneLine_append.2 ⟨?_, by decide⟩, oneLine_toString⟩
    exact oneLine_append.2 ⟨oneLine_append.2 ⟨h, by decide⟩, oneLine_toString⟩
  | tooDeep name => exact oneLine_append.2 ⟨by decide, h⟩
  | missingReturn name => exact oneLine_append.2 ⟨h, by decide⟩
  | output e => exact oneLine_append.2 ⟨by decide, by cases e; decide⟩

namespace Expr

variable {arity? : String → Option Nat} {params : List String} {err : CompileError}

mutual

theorem names_fault? {e : Expr} (hn : e.Names P) (ho : e.Operators Q)
    (h : e.fault? arity? params = some err) : err.Names P Q := by
  match e with
  | .literal value => contradiction
  | .var name =>
    unfold fault? at h
    split at h
    · contradiction
    · cases h
      cases hn with
      | var hn => exact hn
  | .binary op left right =>
    obtain ⟨hnl, hnr⟩ := hn.of_binary
    obtain ⟨hop, hol, hor⟩ := ho.of_binary
    unfold fault? at h
    rw [Option.or_eq_some_iff, Option.or_eq_some_iff] at h
    rcases h with (h | ⟨-, h⟩) | ⟨-, h⟩
    · exact names_fault? hnl hol h
    · exact names_fault? hnr hor h
    · split at h
      · contradiction
      · cases h
        exact hop
  | .call callee args =>
    obtain ⟨hc, ha⟩ := hn.of_call
    unfold fault? at h
    split at h
    · cases h
      exact hc
    · split at h
      · cases h
        exact hc
      · exact names_faultArgs? ha ho.of_call h

theorem names_faultArgs? {es : List Expr} (hn : ∀ e ∈ es, e.Names P)
    (ho : ∀ e ∈ es, e.Operators Q) (h : faultArgs? arity? params es = some err) :
    err.Names P Q := by
  match es with
  | [] => contradiction
  | e :: es =>
    obtain ⟨hn₁, hn₂⟩ := List.forall_mem_cons.1 hn
    obtain ⟨ho₁, ho₂⟩ := List.forall_mem_cons.1 ho
    unfold faultArgs? at h
    rcases Option.or_eq_some_iff.1 h with h | ⟨-, h⟩
    · exact names_fault? hn₁ ho₁ h
    · exact names_faultArgs? hn₂ ho₂ h

end

theorem names_of_lower {p : Program} {e : Expr} {start : Nat} (hn : e.Names P)
    (ho : e.Operators Q) (h : e.lower p (Scope.ofParams params) start = .error err) :
    err.Names P Q := by
  have hf : some err = e.fault? (fun name => (p.lookup name).map p.arity) params :=
    (congrArg Except.error? h).symm.trans (error?_lower (fun _ _ => rfl) hn start)
  exact names_fault? hn ho hf.symm

end Expr

namespace Compiler

open Program

variable {c : Compiler} {d : Definition}

theorem names_of_define (h : c.program.Consistent) (hn : P d.proto.name) (hb : d.body.Names P)
    (ho : d.body.Operators Q) {e : CompileError} (he : (c.define d).outcome = .error e) :
    e.Names P Q := by
  obtain ⟨hd, -⟩ := define_defined h d
  rw [he] at hd
  generalize (c.define d).compiler.program = q at hd
  cases hd with
  | redefinition => exact hn
  | faulty ht hf => exact Expr.names_of_lower hb ho hf

theorem names_of_declare {proto : Prototype} (hn : P proto.name) {e : CompileError}
    (he : (c.declare proto).outcome = .error e) : e.Names P Q := by
  obtain ⟨hd, -⟩ := declare_declared c proto
  rw [he] at hd
  generalize (c.declare proto).compiler.program = q at hd
  cases hd with
  | refused => exact hn

end Compiler

def Eval.Fails {α : Type} (E : ExecError → Prop) (x : Eval α) : Prop :=
  ∀ s e s', x s = .error e s' → E e

section Fails

variable {α β : Type} {E : ExecError → Prop}

theorem fails_pure (a : α) : Eval.Fails E (pure a) :=
  nofun

theorem fails_throw {e : ExecError} (h : E e) : Eval.Fails E (throw e : Eval α) := by
  intro s e' s' he
  cases he
  exact h

theorem Eval.Fails.bind {x : Eval α} {f : α → Eval β} (h : Eval.Fails E x)
    (hf : ∀ a, Eval.Fails E (f a)) : Eval.Fails E (x >>= f) := by
  intro s e s' he
  change EStateM.bind x f s = _ at he
  unfold EStateM.bind at he
  cases hx : x s with
  | ok a t =>
    rw [hx] at he
    exact hf a t e s' he
  | error e' t =>
    rw [hx] at he
    cases he
    exact h s e s' hx

theorem fails_run {call : Callee} (hcall : ∀ id values, Eval.Fails E (call id values))
    (args : List Float) (temps : Array Float) (b : Block) :
    Eval.Fails E (b.run call args temps) := by
  induction b generalizing temps with
  | nil => exact fails_pure none
  | cons inst rest ih =>
    cases inst with
    | ret value => exact fails_pure _
    | call callee operands => exact (hcall _ _).bind fun result => ih _
    | _ => exact ih _

end Fails

theorem Builtin.names_emit (bytes : Array UInt8) : Eval.Fails (ExecError.Names P) (emit bytes) := by
  intro s e s' he
  unfold emit at he
  split at he
  · contradiction
  · cases he
    trivial

theorem Builtin.names_call {name : String} (h : P name) (args : List Float) :
    Eval.Fails (ExecError.Names P) (call name args) := by
  unfold call
  split
  · exact fails_throw h
  · split
    · exact fails_pure _
    · exact fails_pure _
    · exact (names_emit _).bind fun _ => fails_pure _
    · exact (names_emit _).bind fun _ => fails_pure _
    · exact fails_throw h

namespace Program

variable {p : Program}

def Names (P : String → Prop) (p : Program) : Prop :=
  ∀ id f, p.func? id = some f → P f.name

/-- One level of a call names the function that is called, or fails like the levels inside. -/
theorem Names.enter (h : p.Names P) {inner : Option Callee}
    (hinner : ∀ call ∈ inner, ∀ id values, Eval.Fails (ExecError.Names P) (call id values))
    (id : FuncId) (args : List Float) : Eval.Fails (ExecError.Names P) (p.enter inner id args) := by
  cases hf : p.func? id with
  | none =>
    unfold Program.enter
    rw [hf]
    exact fails_throw trivial
  | some f =>
    cases hb : f.body with
    | none =>
      rw [enter_of_declaration hf hb]
      exact Builtin.names_call (h id f hf) args
    | some b =>
      cases inner with
      | none =>
        rw [enter_none hf hb]
        exact fails_throw (h id f hf)
      | some call =>
        rw [enter_some hf hb]
        refine (fails_run (hinner call rfl) args #[] b).bind fun value => ?_
        cases value with
        | none => exact fails_throw (h id f hf)
        | some value => exact fails_pure value

theorem Names.callWithin (h : p.Names P) (depth : Nat) (id : FuncId) (args : List Float) :
    Eval.Fails (ExecError.Names P) (p.callWithin depth id args) := by
  induction depth generalizing id args with
  | zero => exact h.enter (fun call hc => absurd hc (Option.not_mem_none call)) id args
  | succ depth ih =>
    refine h.enter (fun call hc => ?_) id args
    obtain rfl := Option.some.inj hc
    exact ih

end Program

end Reckoner
