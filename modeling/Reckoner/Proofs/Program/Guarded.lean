import Reckoner.Proofs.Program.Invariant
import Reckoner.Proofs.Simulation

/-!
# Guarded evaluation

Evaluation has an answer to every read: one that finds nothing gives a NaN, and the result of a
comparison is read like any other number.  Guarded evaluation has no such fallback.  A temporary
holds a double, a flag or nothing, every call is counted against the parameters of its callee, and
what only a body that is not well formed comes to is a `Misuse`, which ends the evaluation.

Where all bodies are well formed the guards are never met: guarded calls are the calls of
evaluation (`guardedWithin_eq`).  The cells of guarded evaluation have the kinds that the check of
the body found, and their values are the temporaries of evaluation.
-/

namespace Reckoner

inductive Cell
  | double (value : Float)
  | flag (value : Float)
  | nothing

namespace Cell

def kind : Cell → ResultKind
  | .double _ => .double
  | .flag _ => .flag
  | .nothing => .nothing

def value : Cell → Float
  | .double value => value
  | .flag value => value
  | .nothing => unset

end Cell

/-- What guarded evaluation does not go on from. -/
inductive Misuse
  | paramOutOfRange (index : Nat)
  | tempOutOfRange (index : Nat)
  /-- The temporary of an instruction without a result is read. -/
  | nothingRead (temp : Nat)
  /-- A comparison that was not widened is an operand, an argument or the value of a return. -/
  | flagAsDouble
  | doubleWidened
  /-- A function is called with another number of arguments than it has parameters. -/
  | argumentCount (name : String) (expected found : Nat)
  | missingFunction
  | missingReturn (name : String)
deriving DecidableEq

inductive Halt
  | misuse (m : Misuse)
  | error (e : ExecError)
deriving DecidableEq

abbrev Guarded := EStateM Halt Sink

abbrev GuardedCallee := FuncId → List Float → Guarded Float

namespace Operand

def cell (args : List Float) (cells : Array Cell) : Operand → Guarded Cell
  | .const value => pure (.double value)
  | .param i =>
    match args[i]? with
    | some value => pure (.double value)
    | none => throw (.misuse (.paramOutOfRange i))
  | .temp t =>
    match cells[t]? with
    | some .nothing => throw (.misuse (.nothingRead t))
    | some cell => pure cell
    | none => throw (.misuse (.tempOutOfRange t))

def double (args : List Float) (cells : Array Cell) (o : Operand) : Guarded Float := do
  match ← o.cell args cells with
  | .double value => pure value
  | _ => throw (.misuse .flagAsDouble)

/-- Reads a flag.  A constant stands for a comparison that was folded. -/
def flag (args : List Float) (cells : Array Cell) : Operand → Guarded Float
  | .const value => pure value
  | o => do
    match ← o.cell args cells with
    | .flag value => pure value
    | _ => throw (.misuse .doubleWidened)

end Operand

def Inst.cell (call : GuardedCallee) (args : List Float) (cells : Array Cell) :
    Inst → Guarded Cell
  | .arith op left right => do
    let a ← left.double args cells
    let b ← right.double args cells
    pure (.double (op.apply a b))
  | .lessThan left right => do
    let a ← left.double args cells
    let b ← right.double args cells
    pure (.flag (comparison a b))
  | .widen flag => do
    let value ← flag.flag args cells
    pure (.double value)
  | .call callee operands => do
    let values ← operands.mapM (·.double args cells)
    let value ← call callee values
    pure (.double value)
  | .ret value => do
    let value ← value.double args cells
    pure (.double value)
  | .nop => pure .nothing

def Block.guarded (call : GuardedCallee) (args : List Float) (cells : Array Cell) :
    Block → Guarded (Option Float)
  | [] => pure none
  | .ret value :: _ => some <$> value.double args cells
  | inst :: rest => do
    let cell ← inst.cell call args cells
    guarded call args (cells.push cell) rest

theorem Block.guarded_cons {call : GuardedCallee} {args : List Float} {cells : Array Cell}
    {inst : Inst} (h : inst.Continues) (rest : Block) :
    guarded call args cells (inst :: rest) =
      inst.cell call args cells >>= fun cell => guarded call args (cells.push cell) rest := by
  cases inst with
  | ret value => exact absurd rfl (h value)
  | _ => rfl

namespace Program

/-- Calls a function with as many arguments as it has parameters, its body calling others by
`inner`; without `inner` no body may be entered any more. -/
def guardedEnter (p : Program) (inner : Option GuardedCallee) : GuardedCallee := fun id args =>
  match p.func? id with
  | none => throw (.misuse .missingFunction)
  | some f =>
    if args.length ≠ f.params.length then
      throw (.misuse (.argumentCount f.name f.params.length args.length))
    else
      match f.body, inner with
      | none, _ => (Builtin.call f.name args).adaptExcept .error
      | some _, none => throw (.error (.tooDeep f.name))
      | some body, some call => do
        match ← body.guarded call args #[] with
        | some value => pure value
        | none => throw (.misuse (.missingReturn f.name))

def guardedWithin (p : Program) : Nat → GuardedCallee
  | 0 => p.guardedEnter none
  | depth + 1 => p.guardedEnter (some (p.guardedWithin depth))

end Program

section AdaptExcept

variable {ε ε' σ α β : Type} (g : ε → ε')

theorem adaptExcept_bind (x : EStateM ε σ α) (f : α → EStateM ε σ β) :
    (x >>= f).adaptExcept g = x.adaptExcept g >>= fun a => (f a).adaptExcept g := by
  funext s
  change EStateM.adaptExcept g (EStateM.bind x f) s = EStateM.bind (x.adaptExcept g) _ s
  unfold EStateM.bind EStateM.adaptExcept
  dsimp only
  cases x s <;> rfl

end AdaptExcept

section Read

variable {arity : Nat} {args : List Float} {cells : Array Cell} {o : Operand}

/-- What the check finds a kind for is read as a cell of that kind. -/
theorem Operand.exists_cell (hn : args.length = arity) {kind : ResultKind}
    (h : o.kind arity (cells.map Cell.kind) = .ok kind) :
    ∃ c, o.cell args cells = pure c ∧ c.kind = kind ∧
      c.value = o.value args (cells.map Cell.value) := by
  cases o with
  | const value =>
    cases h
    exact ⟨.double value, rfl, rfl, rfl⟩
  | param i =>
    rw [Operand.kind] at h
    split at h
    · rename_i hi
      cases h
      have ha : args[i]? = some args[i] := List.getElem?_eq_getElem (hn ▸ hi)
      rw [cell, value, ha]
      exact ⟨.double args[i], rfl, rfl, rfl⟩
    · contradiction
  | temp t =>
    rw [Operand.kind, Array.getElem?_map] at h
    rw [cell, value, Array.getElem?_map]
    cases hc : cells[t]? with
    | none =>
      rw [hc] at h
      contradiction
    | some c =>
      rw [hc] at h
      cases c with
      | double value =>
        cases h
        exact ⟨.double value, rfl, rfl, rfl⟩
      | flag value =>
        cases h
        exact ⟨.flag value, rfl, rfl, rfl⟩
      | nothing => contradiction

/-- What the check takes for a double is read as the number that it is. -/
theorem Operand.double_eq (hn : args.length = arity)
    (h : o.kind arity (cells.map Cell.kind) = .ok .double) :
    o.double args cells = pure (o.value args (cells.map Cell.value)) := by
  obtain ⟨c, hc, hk, hv⟩ := exists_cell hn h
  rw [double, hc, ← hv]
  cases c with
  | double value => rfl
  | flag value => contradiction
  | nothing => contradiction

/-- What the check takes for a flag is read as the outcome of a comparison. -/
theorem Operand.flag_eq (hn : args.length = arity)
    (h : o.kind arity (cells.map Cell.kind) = .ok .flag) :
    o.flag args cells = pure (o.value args (cells.map Cell.value)) := by
  obtain ⟨c, hc, hk, hv⟩ := exists_cell hn h
  have hconst : ∀ value, o ≠ .const value := by
    rintro value rfl
    cases h
  rw [flag, hc, ← hv]
  · cases c with
    | flag value => rfl
    | double value => contradiction
    | nothing => contradiction
  · exact hconst

theorem mapM_double_eq (hn : args.length = arity) {os : List Operand}
    (h : ∀ o ∈ os, o.kind arity (cells.map Cell.kind) = .ok .double) :
    os.mapM (·.double args cells) =
      (pure (os.map (·.value args (cells.map Cell.value))) : Guarded (List Float)) := by
  induction os with
  | nil => rfl
  | cons o os ih =>
    obtain ⟨ho, hos⟩ := List.forall_mem_cons.1 h
    rw [List.mapM_cons, Operand.double_eq hn ho, pure_bind, ih hos, pure_bind]
    rfl

end Read

namespace Program

variable {p : Program} {arity : Nat} {args : List Float} {call : Callee} {gcall : GuardedCallee}

/-- Called with as many arguments as they have parameters, the functions of the program do the same
with and without guards. -/
def CallsAlike (p : Program) (gcall : GuardedCallee) (call : Callee) : Prop :=
  ∀ id f, p.func? id = some f → ∀ values : List Float, values.length = f.params.length →
    gcall id values = (call id values).adaptExcept .error

theorem Gives.simulates_cell (hcall : p.CallsAlike gcall call) (hn : args.length = arity)
    {cells : Array Cell} {inst : Inst} {kind : ResultKind}
    (h : p.Gives arity (cells.map Cell.kind) inst kind) :
    Simulates (fun cell value => cell.kind = kind ∧ cell.value = value)
      (inst.cell gcall args cells)
      ((inst.result call args (cells.map Cell.value)).adaptExcept .error) := by
  cases h with
  | arith hl hr =>
    rw [Inst.cell, Inst.result, Operand.double_eq hn hl, Operand.double_eq hn hr]
    exact simulates_pure ⟨rfl, rfl⟩
  | lessThan hl hr =>
    rw [Inst.cell, Inst.result, Operand.double_eq hn hl, Operand.double_eq hn hr]
    exact simulates_pure ⟨rfl, rfl⟩
  | widenConst => exact simulates_pure ⟨rfl, rfl⟩
  | widen hf =>
    rw [Inst.cell, Inst.result, Operand.flag_eq hn hf]
    exact simulates_pure ⟨rfl, rfl⟩
  | @call callee operands f hf hlen ha =>
    have hvalues : (operands.map (·.value args (cells.map Cell.value))).length =
        f.params.length := by
      rw [List.length_map, hlen]
    rw [Inst.cell, Inst.result, mapM_double_eq hn ha, pure_bind, hcall callee f hf _ hvalues]
    conv => rhs; rw [← bind_pure (EStateM.adaptExcept _ _)]
    refine (simulates_refl _).bind ?_
    rintro value _ rfl
    exact simulates_pure ⟨rfl, rfl⟩
  | nop => exact simulates_pure ⟨rfl, rfl⟩

/-- An accepted block comes to its return, and no guard is met on the way. -/
theorem Accepts.simulates_guarded (hcall : p.CallsAlike gcall call) (hn : args.length = arity)
    {kinds : Array ResultKind} {b : Block} (hb : p.Accepts arity kinds b) {cells : Array Cell}
    (hk : cells.map Cell.kind = kinds) :
    Simulates (fun r r' => ∃ value, r = some value ∧ r' = some value) (b.guarded gcall args cells)
      ((b.run call args (cells.map Cell.value)).adaptExcept .error) := by
  induction hb generalizing cells with
  | ret hv =>
    subst hk
    rw [Block.guarded, Operand.double_eq hn hv]
    exact simulates_pure ⟨_, rfl, rfl⟩
  | cons hg _ ih =>
    subst hk
    rw [Block.guarded_cons hg.continues, Block.run_cons hg.continues, adaptExcept_bind]
    refine (hg.simulates_cell hcall hn).bind ?_
    rintro cell value ⟨hkind, rfl⟩
    rw [← Array.map_push]
    exact ih (by rw [Array.map_push, hkind])

theorem Sound.guardedEnter_eq (h : p.Sound) {id : FuncId} {f : Func} (hf : p.func? id = some f)
    (hn : args.length = f.params.length) {inner : Option Callee} {ginner : Option GuardedCallee}
    (hi : Option.Rel p.CallsAlike ginner inner) :
    p.guardedEnter ginner id args = (p.enter inner id args).adaptExcept .error := by
  unfold guardedEnter
  simp only [hf, hn, ne_eq, not_true, if_false]
  cases hb : f.body with
  | none => rw [enter_of_declaration hf hb]
  | some b =>
    cases hi with
    | none =>
      rw [enter_none hf hb]
      rfl
    | some hcall =>
      rw [enter_some hf hb, adaptExcept_bind]
      apply Simulates.eq
      have hrun := (h id f b hf hb).simulates_guarded hcall hn Array.map_empty
      rw [Array.map_empty] at hrun
      refine hrun.bind ?_
      rintro _ _ ⟨value, rfl, rfl⟩
      exact simulates_refl _

def Verified (p : Program) : Prop :=
  ∀ id f, p.func? id = some f → f.body ≠ none → p.verify id = true

theorem Verified.sound (h : p.Verified) : p.Sound := by
  intro id f b hf hb
  obtain ⟨f', b', hf', hb', ha⟩ := verify_eq_true_iff.1 (h id f hf (by simp [hb]))
  cases hf.symm.trans hf'
  cases hb.symm.trans hb'
  exact ha

theorem Sound.callsAlike (h : p.Sound) (depth : Nat) :
    p.CallsAlike (p.guardedWithin depth) (p.callWithin depth) := by
  induction depth with
  | zero =>
    intro id f hf values hn
    exact h.guardedEnter_eq hf hn .none
  | succ depth ih =>
    intro id f hf values hn
    exact h.guardedEnter_eq hf hn (.some ih)

/-- In a program whose bodies are well formed no call comes to a fallback: with as many arguments
as the function has parameters, it is the guarded call, into whatever sink it writes. -/
theorem guardedWithin_eq (h : p.Verified) {id : FuncId} {f : Func} (hf : p.func? id = some f)
    {args : List Float} (hn : args.length = p.arity id) (depth : Nat) (sink : Sink) :
    p.guardedWithin depth id args sink = (p.callWithin depth id args).adaptExcept .error sink ∧
      (∀ m s, p.guardedWithin depth id args sink ≠ .error (.misuse m) s) ∧
      ∀ s, p.callWithin depth id args sink ≠ .error .missingFunction s ∧
        ∀ name, p.callWithin depth id args sink ≠ .error (.missingReturn name) s := by
  rw [arity, params_of_func? hf] at hn
  have heq := h.sound.callsAlike depth id f hf args hn
  have hsafe := (h.sound.safe_callWithin depth hf args sink).2
  refine ⟨congrFun heq sink, fun m s hm => ?_, fun s => ⟨fun he => ?_, fun name he => ?_⟩⟩
  · rw [heq] at hm
    unfold EStateM.adaptExcept at hm
    split at hm
    · cases hm
    · contradiction
  · exact (hsafe _ s he).1 rfl
  · exact (hsafe _ s he).2 name rfl

/-- A program in which a number has been used up, and a body with a comparison, a removed
instruction and a call of a declaration. -/
def sample : Program where
  name := "sample"
  slots := #[some ⟨"printd", ["x"], none⟩, none,
    some ⟨"below", ["x"], some [.lessThan (.param 0) (.const 1), .widen (.temp 0), .nop,
      .call ⟨0⟩ [.temp 1], .ret (.temp 3)]⟩]
  names := [("below", ⟨2⟩), ("printd", ⟨0⟩)]
  building := none
  block := []

theorem verified_sample : sample.Verified := by
  rintro ⟨_ | _ | _ | n⟩ f hf hb
  · cases hf
    exact absurd rfl hb
  · contradiction
  · rfl
  · simp [func?, sample] at hf

/-- The guards are not met when a sink without room ends a call. -/
theorem guardedWithin_eq_sample :
    sample.Verified ∧ sample.arity ⟨2⟩ = 1 ∧
      sample.guardedWithin maxDepth ⟨2⟩ [0] (.limited 0) =
        (sample.call ⟨2⟩ [0]).adaptExcept .error (.limited 0) ∧
      (∀ m s, sample.guardedWithin maxDepth ⟨2⟩ [0] (.limited 0) ≠ .error (.misuse m) s) ∧
      ∀ s, sample.call ⟨2⟩ [0] (.limited 0) ≠ .error .missingFunction s ∧
        ∀ name, sample.call ⟨2⟩ [0] (.limited 0) ≠ .error (.missingReturn name) s := by
  have hf : sample.func? ⟨2⟩ = some ⟨"below", ["x"], sample.body? ⟨2⟩⟩ := rfl
  exact ⟨verified_sample, rfl, guardedWithin_eq verified_sample hf rfl maxDepth (.limited 0)⟩

end Program

end Reckoner
