import Mathlib.Logic.Function.Iterate
import Reckoner.Proofs.Program.Invariant

/-!
# Evaluation step by step

Evaluation is a recursion on the levels that are left.  Here it is a machine: the bodies that wait
for a call of theirs lie on a stack, and a counter goes up when a body is entered and down when it
is left.  A `Machine` takes calls from outside one after another, as one interpreter does.

From a call the machine reaches its end, with the value or the error of evaluation and with the
bytes that evaluation writes, and with the stack and the counter as they were (`reaches_returned`).
So it comes to rest, and has then answered every request as evaluation does (`reaches_idle`).
-/

namespace Reckoner

/-- A body that is being carried out: the name of its function, what that was called with, the
results so far, and the instructions that are left. -/
structure Frame where
  name : String
  args : List Float
  temps : Array Float
  rest : Block

namespace Frame

def value (f : Frame) (o : Operand) : Float :=
  o.value f.args f.temps

def give (f : Frame) (value : Float) (rest : Block) : Frame :=
  { f with temps := f.temps.push value, rest }

end Frame

inductive Machine.Phase
  /-- No call is being carried out. -/
  | idle
  | calling (id : FuncId) (args : List Float)
  | running (f : Frame)
  /-- A body has come to its return, to its end without one, or to an error. -/
  | leaving (name : String) (outcome : Except ExecError (Option Float))
  /-- A call has ended. -/
  | returned (outcome : Except ExecError Float)

abbrev Request := FuncId × List Float

structure Answer where
  outcome : Except ExecError Float
  sink : Sink

def Answer.ofResult : EStateM.Result ExecError Sink Float → Answer
  | .ok value sink => ⟨.ok value, sink⟩
  | .error e sink => ⟨.error e, sink⟩

/-- The answers to requests, each of them evaluated by itself into the sink that the one before it
has left. -/
def Callee.answers (call : Callee) (sink : Sink) : List Request → List Answer
  | [] => []
  | (id, args) :: requests =>
    let answer := Answer.ofResult (call id args sink)
    answer :: call.answers answer.sink requests

structure Machine where
  phase : Machine.Phase
  /-- The bodies that wait for a call of theirs, the innermost first. -/
  waiting : List Frame
  /-- The counter that is compared with the limit. -/
  depth : Nat
  sink : Sink
  requests : List Request
  /-- The answers to the requests so far. -/
  answers : List Answer

namespace Machine

/-- An interpreter whose counter stands at `depth`. -/
def new (depth : Nat) (sink : Sink) (requests : List Request) : Machine :=
  ⟨.idle, [], depth, sink, requests, []⟩

def settle {α : Type} (m : Machine) (phase : Except ExecError α → Phase) :
    EStateM.Result ExecError Sink α → Machine
  | .ok a sink => { m with phase := phase (.ok a), sink }
  | .error e sink => { m with phase := phase (.error e), sink }

def enter (p : Program) (m : Machine) (id : FuncId) (args : List Float) : Machine :=
  match p.func? id with
  | none => { m with phase := .returned (.error .missingFunction) }
  | some f =>
    match f.body with
    | none => m.settle .returned (Builtin.call f.name args m.sink)
    | some body =>
      if m.depth < Program.maxDepth then
        { m with phase := .running ⟨f.name, args, #[], body⟩, depth := m.depth + 1 }
      else { m with phase := .returned (.error (.tooDeep f.name)) }

def advance (m : Machine) (f : Frame) : Machine :=
  match f.rest with
  | [] => { m with phase := .leaving f.name (.ok none) }
  | .ret value :: _ => { m with phase := .leaving f.name (.ok (some (f.value value))) }
  | .arith op left right :: rest =>
    { m with phase := .running (f.give (op.apply (f.value left) (f.value right)) rest) }
  | .lessThan left right :: rest =>
    { m with phase := .running (f.give (comparison (f.value left) (f.value right)) rest) }
  | .widen flag :: rest => { m with phase := .running (f.give (f.value flag) rest) }
  | .nop :: rest => { m with phase := .running (f.give unset rest) }
  | .call callee operands :: rest =>
    { m with
      phase := .calling callee (operands.map f.value)
      waiting := { f with rest } :: m.waiting }

def outcome (name : String) : Except ExecError (Option Float) → Except ExecError Float
  | .ok (some value) => .ok value
  | .ok none => .error (.missingReturn name)
  | .error e => .error e

/-- Goes back to where the call was made.  There an error ends the body at once. -/
def resume (m : Machine) (outcome : Except ExecError Float) : Machine :=
  match m.waiting, outcome with
  | [], _ => { m with phase := .idle, answers := m.answers ++ [⟨outcome, m.sink⟩] }
  | f :: waiting, .ok value => { m with phase := .running (f.give value f.rest), waiting }
  | f :: waiting, .error e => { m with phase := .leaving f.name (.error e), waiting }

def step (p : Program) (m : Machine) : Machine :=
  match m.phase, m.requests with
  | .idle, [] => m
  | .idle, (id, args) :: requests => { m with phase := .calling id args, requests }
  | .calling id args, _ => m.enter p id args
  | .running f, _ => m.advance f
  | .leaving name left, _ =>
    { m with phase := .returned (outcome name left), depth := m.depth - 1 }
  | .returned outcome, _ => m.resume outcome

def after (p : Program) (m : Machine) (n : Nat) : Machine :=
  (step p)^[n] m

def Reaches (p : Program) (m m' : Machine) : Prop :=
  ∃ n, m.after p n = m'

def AtRest (m : Machine) : Prop :=
  m.phase = .idle ∧ m.requests = []

variable {p : Program} {m m' m'' : Machine}

theorem after_succ (p : Program) (m : Machine) (n : Nat) :
    m.after p (n + 1) = (m.after p n).step p :=
  Function.iterate_succ_apply' (step p) n m

theorem after_add (p : Program) (m : Machine) (n k : Nat) :
    m.after p (k + n) = (m.after p n).after p k :=
  Function.iterate_add_apply (step p) k n m

theorem Reaches.refl (p : Program) (m : Machine) : Reaches p m m := ⟨0, rfl⟩

theorem Reaches.trans (h : Reaches p m m') (h' : Reaches p m' m'') : Reaches p m m'' := by
  obtain ⟨n, rfl⟩ := h
  obtain ⟨n', rfl⟩ := h'
  exact ⟨n' + n, after_add p m n n'⟩

theorem reaches_step (p : Program) (m : Machine) : Reaches p m (m.step p) := ⟨1, rfl⟩

theorem Reaches.of_step (h : Reaches p (m.step p) m') : Reaches p m m' :=
  (reaches_step p m).trans h

theorem AtRest.step_eq (h : m.AtRest) (p : Program) : m.step p = m := by
  simp only [step, h.1, h.2]

theorem AtRest.after_eq (h : m.AtRest) (p : Program) (n : Nat) : m.after p n = m :=
  Function.iterate_fixed (h.step_eq p) n

theorem AtRest.eq_of_le {n n' : Nat} (h : (m.after p n).AtRest) (hle : n ≤ n') :
    m.after p n' = m.after p n := by
  obtain ⟨k, rfl⟩ := Nat.exists_eq_add_of_le' hle
  rw [after_add, h.after_eq]

theorem Reaches.eq_of_atRest (h : Reaches p m m') (h' : Reaches p m m'') (hm : m'.AtRest)
    (hm' : m''.AtRest) : m' = m'' := by
  obtain ⟨n, rfl⟩ := h
  obtain ⟨n', rfl⟩ := h'
  rcases Nat.le_total n n' with hle | hle
  · exact (hm.eq_of_le hle).symm
  · exact hm'.eq_of_le hle

section Agreement

variable {call : Callee} {depth : Nat}

theorem reaches_leaving
    (hcall : ∀ (m : Machine) id args, m.depth = depth →
      Reaches p { m with phase := .calling id args } (m.settle .returned (call id args m.sink)))
    (name : String) (args : List Float) (temps : Array Float) (b : Block) (m : Machine)
    (hm : m.depth = depth) :
    Reaches p { m with phase := .running ⟨name, args, temps, b⟩ }
      (m.settle (.leaving name) (b.run call args temps m.sink)) := by
  induction b generalizing temps m with
  | nil => exact reaches_step p _
  | cons inst rest ih =>
    cases inst with
    | ret value => exact reaches_step p _
    | call callee operands =>
      let values := operands.map fun o => o.value args temps
      let caller : Machine := { m with waiting := ⟨name, args, temps, rest⟩ :: m.waiting }
      have hinner : Reaches p
          { m with phase := .running ⟨name, args, temps, .call callee operands :: rest⟩ }
          (caller.settle .returned (call callee values m.sink)) :=
        .of_step (hcall caller callee values hm)
      refine hinner.trans (.of_step ?_)
      change Reaches p _ (m.settle (.leaving name) (EStateM.bind (call callee values) _ m.sink))
      unfold EStateM.bind
      cases call callee values m.sink with
      | ok value sink => exact ih (temps.push value) { m with sink } hm
      | error e sink => exact .refl p _
    | _ => exact .of_step (ih _ m hm)

theorem reaches_of_enter (m : Machine) (inner : Option Callee)
    (hnone : inner = none → ¬ m.depth < Program.maxDepth)
    (hsome : ∀ call, inner = some call → m.depth < Program.maxDepth ∧
      ∀ (m' : Machine) id args, m'.depth = m.depth + 1 →
        Reaches p { m' with phase := .calling id args }
          (m'.settle .returned (call id args m'.sink)))
    (id : FuncId) (args : List Float) :
    Reaches p { m with phase := .calling id args }
      (m.settle .returned (p.enter inner id args m.sink)) := by
  have hstep : Reaches p { m with phase := .calling id args } (m.enter p id args) :=
    reaches_step p _
  refine hstep.trans ?_
  cases hf : p.func? id with
  | none =>
    simp only [enter, Program.enter, hf]
    exact .refl p _
  | some f =>
    cases hb : f.body with
    | none =>
      rw [Program.enter_of_declaration hf hb]
      simp only [enter, hf, hb]
      exact .refl p _
    | some b =>
      simp only [enter, hf, hb]
      cases inner with
      | none =>
        rw [if_neg (hnone rfl), Program.enter_none hf hb]
        exact .refl p _
      | some call =>
        obtain ⟨hdepth, hcall⟩ := hsome call rfl
        rw [if_pos hdepth, Program.enter_some hf hb]
        -- The body is carried out one level further in, and left again.
        let entered : Machine := { m with depth := m.depth + 1 }
        refine (reaches_leaving hcall f.name args #[] b entered rfl).trans (.of_step ?_)
        change Reaches p _ (m.settle .returned (EStateM.bind (b.run call args #[]) _ m.sink))
        unfold EStateM.bind
        cases b.run call args #[] m.sink with
        | error e sink => exact .refl p _
        | ok value sink =>
          cases value with
          | none => exact .refl p _
          | some value => exact .refl p _

/-- A call comes to the end that evaluation gives it with the levels that the counter leaves. -/
theorem reaches_returned (p : Program) (m : Machine) (id : FuncId) (args : List Float) :
    Reaches p { m with phase := .calling id args }
      (m.settle .returned (p.callWithin (Program.maxDepth - m.depth) id args m.sink)) := by
  generalize hl : Program.maxDepth - m.depth = levels
  induction levels generalizing m id args with
  | zero => exact reaches_of_enter m none (fun _ => by omega) nofun id args
  | succ levels ih =>
    refine reaches_of_enter m (some (p.callWithin levels)) nofun ?_ id args
    rintro _ ⟨⟩
    exact ⟨by omega, fun m' id args hm => ih m' id args (by omega)⟩

theorem step_settle_returned (p : Program) (hm : m.waiting = [])
    (r : EStateM.Result ExecError Sink Float) :
    (m.settle .returned r).step p =
      { m with
        phase := .idle
        sink := (Answer.ofResult r).sink
        answers := m.answers ++ [Answer.ofResult r] } := by
  cases r <;> simp only [settle, step, resume, hm, Answer.ofResult]

/-- The machine comes to rest, with the counter where it was and with the answers that evaluation
gives to the requests one by one. -/
theorem reaches_idle (p : Program) (depth : Nat) (sink : Sink) (requests : List Request)
    (answers : List Answer) :
    ∃ sink', Reaches p ⟨.idle, [], depth, sink, requests, answers⟩
      ⟨.idle, [], depth, sink', [],
        answers ++ Callee.answers (p.callWithin (Program.maxDepth - depth)) sink requests⟩ := by
  induction requests generalizing sink answers with
  | nil =>
    rw [Callee.answers, List.append_nil]
    exact ⟨sink, .refl p _⟩
  | cons request requests ih =>
    obtain ⟨id, args⟩ := request
    let called : Machine := ⟨.idle, [], depth, sink, requests, answers⟩
    have hcall := reaches_returned p called id args
    have hanswer := reaches_step p (called.settle .returned
      (p.callWithin (Program.maxDepth - depth) id args sink))
    rw [step_settle_returned p rfl] at hanswer
    obtain ⟨sink', hrest⟩ := ih _ _
    rw [Callee.answers, List.append_cons]
    exact ⟨sink', .of_step (hcall.trans (hanswer.trans hrest))⟩

end Agreement

end Machine

end Reckoner
