import Reckoner.Proofs.Compiler.Outcome

/-!
# Histories of a compiler

Between compiling units a compiler's program may be worked on directly, by any operations.  Names
still lead to functions of their own (`named_performAll`), and that is all that lowering asks of a
program: a body that could be lowered is well formed, whatever else the program holds
(`define_ne_invalid`).
-/

namespace Reckoner

namespace Program

variable {p : Program}

theorem Named.withdrawn (h : p.Named) (name : String) : (p.withdrawn name).Named := by
  intro m id hl
  rw [func?_withdrawn]
  exact h m id hl

theorem Named.commit (h : p.Named) (id : FuncId) (code : Code) : (p.commit id code).Named :=
  h.of_extends (extends_commit p id code) (lookup_commit p id code)

end Program

namespace Compiler

inductive Operation
  | program (op : Program.Operation)
  | declare (proto : Prototype)
  | define (d : Definition)

def perform (c : Compiler) : Operation → Compiler
  | .program op => { c with program := c.program.perform op }
  | .declare proto => (c.declare proto).compiler
  | .define d => (c.define d).compiler

def performAll (c : Compiler) (ops : List Operation) : Compiler :=
  ops.foldl perform c

variable {c : Compiler} {d : Definition} {id : FuncId}

theorem named_define (h : c.program.Named) (d : Definition) :
    (c.define d).compiler.program.Named := by
  have hd := define_ends h d
  generalize (c.define d).outcome = o, (c.define d).compiler.program = q at hd
  cases hd with
  | taken => exact h
  | withdrawn => exact h.withdrawn _
  | @placed id params p code ht => exact ((ht.named h).commit id code).setBody id _

theorem named_declare (h : c.program.Named) (proto : Prototype) :
    (c.declare proto).compiler.program.Named := by
  unfold declare
  split
  · split
    · exact h
    · exact h
  · exact h.declare _ _

theorem named_perform (h : c.program.Named) (op : Operation) : (c.perform op).program.Named := by
  cases op with
  | program op => exact h.perform op
  | declare proto => exact named_declare h proto
  | define d => exact named_define h d

theorem named_performAll (h : c.program.Named) (ops : List Operation) :
    (c.performAll ops).program.Named := by
  induction ops generalizing c with
  | nil => exact h
  | cons op ops ih => exact ih (named_perform h op)

theorem verify_install {p : Program} {f : Func} {code : Code} (hf : p.func? id = some f)
    (hv : (p.commit id code).verify id = true) : (c.install p id code).verify id = true := by
  obtain ⟨g, b, hg, hb, ha⟩ := Program.verify_eq_true_iff.1 hv
  rw [Program.func?_commit, if_pos rfl, hf] at hg
  cases hg
  cases hb
  refine Program.verify_eq_true_iff.2
    ⟨{ f with body := some (c.tidied (code.insts ++ [.ret code.value])) }, _, ?_, rfl,
      (accepts_tidied ha).of_extends (Program.extends_setBody _ id _)⟩
  rw [func?_install, if_pos rfl, hf]
  rfl

/-- A function whose body can be lowered is well formed once the code is in its place, and still
when the definition is done, with its body cleaned or not. -/
theorem verify_define (h : c.program.Named) {params : List String} {p : Program} {code : Code}
    (ht : c.program.Target d.proto id params p)
    (hc : d.body.lower p (Scope.ofParams params) 0 = .ok code) :
    (p.commit id code).verify id = true ∧ (c.define d).outcome = .ok id ∧
      (c.define d).compiler.program.verify id = true := by
  have hf := ht.func?_eq h
  have hv := Program.verify_commit (ht.named h).namesLive hf hc
  obtain ⟨ho, hq⟩ := (define_ends h d).of_code ht hc
  refine ⟨hv, ho, ?_⟩
  rw [hq]
  exact verify_install hf hv

theorem outcome_ne_invalidFunction (h : c.program.Named) (d : Definition) (name : String) :
    (c.define d).outcome ≠ .error (.invalidFunction name) := by
  intro ho
  have hd := define_ends h d
  rw [ho] at hd
  generalize (c.define d).compiler.program = q at hd
  cases hd with
  | withdrawn ht he => exact Expr.inBody_of_lower he

/-- Lowering always gives a well-formed body.  Whatever was done to the program before, through
the compiler or directly, a definition is never turned down as ill-formed, and if its body can be
lowered where it belongs then the definition succeeds; the function is well formed as soon as the
lowered code is in its place, and still when the definition is done. -/
theorem define_ne_invalid (name : String) (cleaning : Bool) (ops : List Operation)
    (d : Definition) :
    let c := (new name cleaning).performAll ops
    (∀ n, (c.define d).outcome ≠ .error (.invalidFunction n)) ∧
      ∀ id params p code, c.program.Target d.proto id params p →
        d.body.lower p (Scope.ofParams params) 0 = .ok code →
          (p.commit id code).verify id = true ∧ (c.define d).outcome = .ok id ∧
            (c.define d).compiler.program.verify id = true := by
  have h := named_performAll (c := new name cleaning) (Program.named_empty name) ops
  exact ⟨outcome_ne_invalidFunction h d, fun id params p code ht hc => verify_define h ht hc⟩

/-- With a function of no name, an instruction left over from no body and a parameter written
twice, a declared function is defined by a comparison with a call of itself. -/
theorem define_ne_invalid_sample :
    let ops : List Operation := [.program (.declare "" []), .program (.push .nop),
      .program (.begin ⟨7⟩), .program (.remove ⟨0⟩), .declare ⟨"f", ["x", "x"]⟩]
    let c := (new "m" true).performAll ops
    let d : Definition := ⟨⟨"f", ["y"]⟩, .binary '<' (.var "x") (.call "f" [.var "x", .var "x"])⟩
    let code : Code :=
      ⟨[.call ⟨1⟩ [.param 1, .param 1], .lessThan (.param 1) (.temp 0), .widen (.temp 1)], .temp 2⟩
    c.program.Target d.proto ⟨1⟩ ["x", "x"] c.program ∧
      d.body.lower c.program (Scope.ofParams ["x", "x"]) 0 = .ok code ∧
      (c.program.commit ⟨1⟩ code).verify ⟨1⟩ = true ∧ (c.define d).outcome = .ok ⟨1⟩ ∧
      (c.define d).compiler.program.verify ⟨1⟩ = true := by
  intro ops c d code
  have hf : c.program.func? ⟨1⟩ = some ⟨"f", ["x", "x"], none⟩ := by decide
  have ht : c.program.Target d.proto ⟨1⟩ ["x", "x"] c.program := .declared (by decide) hf rfl
  have hc : d.body.lower c.program (Scope.ofParams ["x", "x"]) 0 = .ok code := by rfl
  exact ⟨ht, hc, (define_ne_invalid "m" true ops d).2 _ _ _ _ ht hc⟩

end Compiler

end Reckoner
