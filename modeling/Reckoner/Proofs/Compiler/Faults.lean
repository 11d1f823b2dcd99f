import Reckoner.Proofs.Compiler.Meaning

/-!
# The faults of a definition

A definition can be checked without compiling it.  `Program.faults` lists everything that is wrong
with it, in the order in which a reader comes to it, and goes on after each fault.  Compiling stops
at a fault; it fails exactly if the list is not empty, and then with its first entry
(`Compiler.define_eq_error_iff`).  What was built of the body up to the fault plays no part in it.
-/

namespace Reckoner

namespace Expr

variable {arity? : String → Option Nat} {params : List String}

mutual

/-- All faults of an expression.  Those of the operands come before that of their operator, and that
of a call before those of its arguments. -/
def faults (arity? : String → Option Nat) (params : List String) : Expr → List CompileError
  | .literal _ => []
  | .var name => if name ∈ params then [] else [.unknownVariable name]
  | .binary op left right =>
    left.faults arity? params ++ right.faults arity? params ++
      if (operation? op).isSome then [] else [.invalidOperator op]
  | .call callee args =>
    (match arity? callee with
      | none => [.unknownFunction callee]
      | some n => if n = args.length then [] else [.arityMismatch callee n args.length]) ++
      faultsOfArgs arity? params args

def faultsOfArgs (arity? : String → Option Nat) (params : List String) :
    List Expr → List CompileError
  | [] => []
  | e :: es => e.faults arity? params ++ faultsOfArgs arity? params es

end

mutual

theorem head?_faults (e : Expr) : (e.faults arity? params).head? = e.fault? arity? params := by
  match e with
  | .literal value => rfl
  | .var name =>
    unfold faults fault?
    split <;> rfl
  | .binary op left right =>
    unfold faults fault?
    rw [List.head?_append, List.head?_append, head?_faults left, head?_faults right]
    split <;> rfl
  | .call callee args =>
    unfold faults fault?
    rw [List.head?_append, head?_faultsOfArgs args]
    cases arity? callee with
    | none => rfl
    | some n =>
      by_cases hn : n = args.length
      · simp only [if_pos hn, if_neg (not_not_intro hn), List.head?_nil, Option.none_or]
      · simp only [if_neg hn, if_pos hn, List.head?_cons, Option.some_or]

theorem head?_faultsOfArgs (es : List Expr) :
    (faultsOfArgs arity? params es).head? = faultArgs? arity? params es := by
  match es with
  | [] => rfl
  | e :: es =>
    unfold faultsOfArgs faultArgs?
    rw [List.head?_append, head?_faults e, head?_faultsOfArgs es]

end

end Expr

namespace Program

variable {p q : Program} {proto : Prototype} {id : FuncId} {params : List String}

/-- The parameters under which a prototype is defined: those that its name has been declared with,
if it has been, and otherwise its own. -/
def paramsFor (p : Program) (proto : Prototype) : List String :=
  (p.lookup proto.name).elim proto.params p.params

/-- How many arguments a function takes that is called while a prototype is defined.  The function
that is defined can be called too. -/
def arityFor? (p : Program) (proto : Prototype) (name : String) : Option Nat :=
  if name = proto.name then some (p.paramsFor proto).length else (p.lookup name).map p.arity

/-- All faults of a definition: that its name has a body already, and those of its own body. -/
def faults (p : Program) (d : Definition) : List CompileError :=
  (if (p.lookup d.proto.name).any p.hasBody then [.redefinition d.proto.name] else []) ++
    d.body.faults (p.arityFor? d.proto) (p.paramsFor d.proto)

theorem Target.eq_paramsFor (ht : p.Target proto id params q) : params = p.paramsFor proto := by
  unfold paramsFor
  cases ht with
  | declared hl hf =>
    rw [hl]
    exact (params_of_func? hf).symm
  | fresh hl =>
    rw [hl]
    rfl

theorem Target.arity_eq (ht : p.Target proto id params q) {i : FuncId} {f : Func}
    (hf : p.func? i = some f) : q.arity i = p.arity i := by
  cases ht with
  | declared => rfl
  | fresh =>
    have hi : (p.declare proto.name proto.params).2.func? i = some f := by
      rw [func?_declare, if_neg (ne_size_of_func? hf), hf]
    rw [arity, arity, params_of_func? hi, params_of_func? hf]

theorem Target.map_arity_lookup (h : p.Named) (ht : p.Target proto id params q) (name : String) :
    (q.lookup name).map q.arity = p.arityFor? proto name := by
  rw [ht.lookup_eq, arityFor?]
  split
  · rw [Option.map_some, arity, params_of_func? (ht.func?_eq h), ← ht.eq_paramsFor]
  · cases hl : p.lookup name with
    | none => rfl
    | some i =>
      obtain ⟨f, hf, -⟩ := h name i hl
      rw [Option.map_some, Option.map_some, ht.arity_eq hf]

theorem Target.any_hasBody (ht : p.Target proto id params q) :
    (p.lookup proto.name).any p.hasBody = false := by
  cases hl : p.lookup proto.name with
  | none => rfl
  | some i => exact ht.hasBody_eq_false hl

/-- Where a definition has a target, its faults are those of its body there. -/
theorem Target.error?_lower (h : p.Named) {d : Definition}
    (ht : p.Target d.proto id params q) :
    Except.error? (d.body.lower q (Scope.ofParams params) 0) = (p.faults d).head? := by
  rw [Expr.error?_lower (fun name _ => (ht.map_arity_lookup h name).symm) d.body.names_true,
    faults, ht.any_hasBody, ht.eq_paramsFor, ← Expr.head?_faults]
  rfl

end Program

namespace Compiler

open Program

variable {c : Compiler} {d : Definition}

theorem Ends.error?_eq (h : c.program.Named) {o : Except CompileError FuncId} {q : Program}
    (hd : Ends c d o q) : Except.error? o = (c.program.faults d).head? := by
  cases hd with
  | taken hl hb =>
    rw [faults, hl, Option.any_some, hb]
    rfl
  | withdrawn ht he =>
    rw [← ht.error?_lower h, he]
    rfl
  | placed ht hc =>
    rw [← ht.error?_lower h, hc]
    rfl

/-- Whatever has been done to a program, a definition fails if and only if there is a fault in it,
and the error is its first fault.  The name is looked at before the body, and a body is read from
left to right: its variables are the parameters that the function was declared with, or those of the
definition where it is new; and among the functions that it can call is the function itself, with as
many parameters. -/
theorem define_eq_error_iff (name : String) (cleaning : Bool) (ops : List Operation)
    (d : Definition) (e : CompileError) :
    let c := (new name cleaning).performAll ops
    (c.define d).outcome = .error e ↔ (c.program.faults d).head? = some e := by
  intro c
  have h : c.program.Named := named_performAll (Program.named_empty name) ops
  rw [← (define_ends h d).error?_eq h]
  exact Except.error?_eq_some_iff.symm

/-- A function is defined under another parameter than it was declared with.  Its body calls the
function itself with too many arguments, and has an operator that is none. -/
example :
    let c := (new "m" true).performAll [.declare ⟨"g", ["a"]⟩]
    let d : Definition :=
      ⟨⟨"g", ["b"]⟩, .binary '%' (.call "g" [.var "b", .var "a"]) (.call "h" [.var "a"])⟩
    c.program.faults d = [.arityMismatch "g" 1 2, .unknownVariable "b", .unknownFunction "h",
      .invalidOperator '%'] := by
  decide

end Compiler

end Reckoner
