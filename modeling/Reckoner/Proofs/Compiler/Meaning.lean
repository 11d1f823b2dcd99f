import Reckoner.Proofs.Compiler.History
import Reckoner.Proofs.Lowering.Meaning

/-!
# What a defined function does

A call of a function that has just been defined is the evaluation of its body, one level of calls
further in (`Compiler.callWithin_define`).  The variables of the body are the parameters that the
function was declared with, and its callees are the functions that the names stood for when it was
compiled.
-/

namespace Reckoner

theorem Expr.names_true (e : Expr) : e.Names fun _ => True := by
  cases e with
  | literal value => exact .literal
  | var name => exact .var trivial
  | binary op left right => exact .binary left.names_true right.names_true
  | call callee args => exact .call trivial fun a _ => a.names_true

namespace Program

variable {p q : Program} {proto : Prototype} {id : FuncId} {params : List String}

def callNamed (p : Program) (names : String → Option FuncId) (depth : Nat) : NamedCallee :=
  fun name args =>
    match names name with
    | some id => p.callWithin depth id args
    | none => throw .missingFunction

theorem Target.lookup_eq (ht : p.Target proto id params q) (name : String) :
    q.lookup name = if name = proto.name then some id else p.lookup name := by
  cases ht with
  | declared hl =>
    split
    · rename_i hn
      rw [hn, hl]
    · rfl
  | fresh => exact lookup_declare p _ _ name

theorem Target.params_eq (ht : p.Target proto id params q) :
    params = if p.lookup proto.name = some id then p.params id else proto.params := by
  cases ht with
  | declared hl hf => rw [if_pos hl, params_of_func? hf]
  | fresh hl =>
    rw [if_neg]
    rw [hl]
    nofun

end Program

namespace Compiler

open Program

variable {c : Compiler} {d : Definition} {id : FuncId}

theorem Ends.exists_code (h : c.program.Named) {q : Program} (hd : Ends c d (.ok id) q) :
    ∃ params p code, c.program.Target d.proto id params p ∧
      d.body.lower p (Scope.ofParams params) 0 = .ok code ∧
      q.func? id =
        some ⟨d.proto.name, params, some (c.tidied (code.insts ++ [.ret code.value]))⟩ := by
  cases hd with
  | @placed _ params p code ht hc =>
    refine ⟨params, p, code, ht, hc, ?_⟩
    rw [func?_install, if_pos rfl, ht.func?_eq h]
    rfl

theorem Ends.callWithin_eq (h : c.program.Named) {q : Program} (hd : Ends c d (.ok id) q)
    {names : String → Option FuncId}
    (hnames : ∀ name, names name = if name = d.proto.name then some id else c.program.lookup name)
    {args : List Float} (hn : args.length = q.arity id) (depth : Nat) :
    q.callWithin (depth + 1) id args =
      d.body.eval (q.callNamed names depth) (binding (q.params id) args) := by
  obtain ⟨params, p, code, ht, hc, hf⟩ := hd.exists_code h
  rw [arity, params_of_func? hf] at hn
  have hknows : p.Knows (fun _ => True) (q.callWithin depth) (q.callNamed names depth) := by
    intro name i _ hl values _
    rw [ht.lookup_eq, ← hnames] at hl
    rw [callNamed, hl]
  rw [callWithin_succ, enter_some hf rfl, run_tidied, params_of_func? hf,
    Expr.run_of_lower (ht.named h).namesLive hknows hn d.body.names_true hc]
  simp

theorem Ends.params_eq (h : c.program.Named) {q : Program} (hd : Ends c d (.ok id) q) :
    q.params id =
      if c.program.lookup d.proto.name = some id then c.program.params id else d.proto.params := by
  obtain ⟨params, p, code, ht, -, hf⟩ := hd.exists_code h
  rw [params_of_func? hf]
  exact ht.params_eq

/-- Lowering preserves meaning.  A call of a function that has been defined, with as many arguments
as it has parameters, is the evaluation of its body, whatever levels of calls are left beside its
own and whatever sink it writes to, and whether its instructions were cleaned up or not.  A variable
is the argument in the last place of that name among the parameters of the function, which are those
it was declared with if it had been declared; and a callee is called one level further in, as the
function that its name stood for when the body was compiled, the function itself included. -/
theorem callWithin_define (name : String) (cleaning : Bool) (ops : List Operation)
    (d : Definition) {id : FuncId}
    (ho : (((new name cleaning).performAll ops).define d).outcome = .ok id) :
    let c := (new name cleaning).performAll ops
    let q := (c.define d).compiler.program
    let names n := if n = d.proto.name then some id else c.program.lookup n
    q.params id =
        (if c.program.lookup d.proto.name = some id then c.program.params id else d.proto.params) ∧
      ∀ args : List Float, args.length = q.arity id → ∀ depth sink,
        q.callWithin (depth + 1) id args sink =
          d.body.eval (q.callNamed names depth) (binding (q.params id) args) sink := by
  intro c q names
  have h := named_performAll (c := new name cleaning) (Program.named_empty name) ops
  have hd := define_ends h d
  change Ends c d (c.define d).outcome q at hd
  rw [ho] at hd
  refine ⟨hd.params_eq h, fun args hn depth sink => ?_⟩
  exact congrFun (hd.callWithin_eq h (fun _ => rfl) hn depth) sink

/-- A function that was declared with one name for two parameters is defined under another name for
one.  With room for a single byte the call ends like the evaluation of the body. -/
theorem callWithin_define_declared :
    let ops : List Operation := [.declare ⟨"pick", ["a", "a"]⟩, .declare ⟨"printd", ["x"]⟩]
    let c := (new "m" true).performAll ops
    let d : Definition := ⟨⟨"pick", ["b"]⟩, .binary '<' (.call "printd" [.var "a"]) (.var "a")⟩
    let q := (c.define d).compiler.program
    let names n := if n = "pick" then some ⟨0⟩ else c.program.lookup n
    (c.define d).outcome = .ok ⟨0⟩ ∧ q.params ⟨0⟩ = ["a", "a"] ∧
      q.callWithin 256 ⟨0⟩ [1, 2] (.limited 1) =
        d.body.eval (q.callNamed names 255) (binding ["a", "a"] [1, 2]) (.limited 1) := by
  intro ops c d q names
  have ho : (c.define d).outcome = .ok ⟨0⟩ := by rfl
  obtain ⟨hp, hc⟩ := callWithin_define "m" true ops d ho
  have hps : q.params ⟨0⟩ = ["a", "a"] := hp.trans (by decide)
  have hn : ([1, 2] : List Float).length = q.arity ⟨0⟩ := by
    rw [arity, hps]
    rfl
  refine ⟨ho, hps, ?_⟩
  rw [← hps]
  exact hc [1, 2] hn 255 (.limited 1)

end Compiler

end Reckoner
