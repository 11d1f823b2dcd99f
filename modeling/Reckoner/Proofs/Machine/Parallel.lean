import Reckoner.Proofs.Machine.Step
import Reckoner.Proofs.Program.CallGraph

/-!
# Two calls side by side

No step of the machine looks at a number: a comparison gives a number, and what is called, and
whether a call fails, stands in the bodies.  So two machines that differ in their numbers only, and
in what their sinks have taken, still do after a step (`Alike.step`).  They make the same calls, and
come to rest after the same number of steps (`calls_eq_of_length_eq`).
-/

namespace Reckoner

inductive EndsAlike {α : Type} (V : α → α → Prop) :
    Except ExecError α → Except ExecError α → Prop
  | ok {a b : α} (h : V a b) : EndsAlike V (.ok a) (.ok b)
  | error {e : ExecError} : EndsAlike V (.error e) (.error e)

abbrev CallsEndAlike : Except ExecError Float → Except ExecError Float → Prop :=
  EndsAlike fun _ _ => True

structure Frame.Alike (f f' : Frame) : Prop where
  name : f.name = f'.name
  rest : f.rest = f'.rest

theorem Frame.Alike.give {f f' : Frame} (h : f.Alike f') (value value' : Float) (rest : Block) :
    (f.give value rest).Alike (f'.give value' rest) :=
  ⟨h.name, rfl⟩

inductive Machine.Phase.Alike : Phase → Phase → Prop
  | idle : Alike .idle .idle
  | calling {id : FuncId} {args args' : List Float} (h : args.length = args'.length) :
    Alike (.calling id args) (.calling id args')
  | running {f f' : Frame} (h : f.Alike f') : Alike (.running f) (.running f')
  | leaving {name : String} {left left' : Except ExecError (Option Float)}
    (h : EndsAlike (fun a b => a.isSome = b.isSome) left left') :
    Alike (.leaving name left) (.leaving name left')
  | returned {outcome outcome' : Except ExecError Float} (h : CallsEndAlike outcome outcome') :
    Alike (.returned outcome) (.returned outcome')

def Request.Alike (r r' : Request) : Prop :=
  r.1 = r'.1 ∧ r.2.length = r'.2.length

def Answer.Alike (a a' : Answer) : Prop :=
  CallsEndAlike a.outcome a'.outcome

/-- The machines differ in numbers and in what their sinks have taken, and in nothing else. -/
structure Machine.Alike (m m' : Machine) : Prop where
  phase : m.phase.Alike m'.phase
  waiting : List.Forall₂ Frame.Alike m.waiting m'.waiting
  depth : m.depth = m'.depth
  room : m.sink.room = none
  room' : m'.sink.room = none
  requests : List.Forall₂ Request.Alike m.requests m'.requests
  answers : List.Forall₂ Answer.Alike m.answers m'.answers

/-- Whether a builtin gives a value depends on the number of its arguments only. -/
theorem Builtin.call_alike (name : String) {args args' : List Float}
    (hn : args.length = args'.length) :
    (Eval.Succeeds (fun _ => True) (call name args) ∧
      Eval.Succeeds (fun _ => True) (call name args')) ∨
      ∃ e, call name args = throw e ∧ call name args' = throw e := by
  cases hb : ofName? name with
  | none => exact .inr ⟨.unresolvedExtern name, by rw [call, hb], by rw [call, hb]⟩
  | some builtin =>
    by_cases ha : args.length = builtin.arity
    · exact .inl ⟨succeeds_call hb ha, succeeds_call hb (hn.symm.trans ha)⟩
    · have ha' : args'.length ≠ builtin.arity := fun h => ha (hn.trans h)
      refine .inr ⟨_, call_of_arity_ne hb (Ne.symm ha), ?_⟩
      rw [call_of_arity_ne hb ha'.symm, hn]

namespace Machine

variable {p : Program} {m m' : Machine} {id : FuncId} {args args' : List Float}

theorem Alike.enter (h : m.Alike m') (hn : args.length = args'.length) :
    (m.enter p id args).Alike (m'.enter p id args') := by
  unfold Machine.enter
  cases p.func? id with
  | none => exact { h with phase := .returned .error }
  | some f =>
    cases hb : f.body with
    | none =>
      simp only [hb]
      rcases Builtin.call_alike f.name hn with ⟨hc, hc'⟩ | ⟨e, hc, hc'⟩
      · obtain ⟨v, t, hv, -, ht⟩ := hc m.sink h.room
        obtain ⟨v', t', hv', -, ht'⟩ := hc' m'.sink h.room'
        rw [hv, hv']
        exact { h with phase := .returned (.ok trivial), room := ht, room' := ht' }
      · rw [hc, hc']
        exact { h with phase := .returned .error }
    | some body =>
      simp only [hb, h.depth]
      split
      · exact { h with phase := .running ⟨rfl, rfl⟩, depth := rfl }
      · exact { h with phase := .returned .error, depth := rfl }

theorem Alike.advance {f f' : Frame} (h : m.Alike m') (hf : f.Alike f') :
    (m.advance f).Alike (m'.advance f') := by
  unfold Machine.advance
  rw [← hf.rest, ← hf.name]
  cases f.rest with
  | nil => exact { h with phase := .leaving (.ok rfl) }
  | cons inst rest =>
    cases inst with
    | ret value => exact { h with phase := .leaving (.ok rfl) }
    | call callee operands =>
      have hn : (operands.map f.value).length = (operands.map f'.value).length := by
        rw [List.length_map, List.length_map]
      exact { h with phase := .calling hn, waiting := .cons ⟨rfl, rfl⟩ h.waiting }
    | _ => exact { h with phase := .running (hf.give _ _ rest) }

theorem endsAlike_outcome (name : String) {left left' : Except ExecError (Option Float)}
    (h : EndsAlike (fun a b => a.isSome = b.isSome) left left') :
    CallsEndAlike (outcome name left) (outcome name left') := by
  cases h with
  | error => exact .error
  | @ok a b h =>
    cases a with
    | none =>
      cases b with
      | none => exact .error
      | some _ => contradiction
    | some _ =>
      cases b with
      | none => contradiction
      | some _ => exact .ok trivial

theorem Alike.resume {outcome outcome' : Except ExecError Float} (h : m.Alike m')
    (ho : CallsEndAlike outcome outcome') : (m.resume outcome).Alike (m'.resume outcome') := by
  obtain ⟨phase, waiting, depth, sink, requests, answers⟩ := m
  obtain ⟨phase', waiting', depth', sink', requests', answers'⟩ := m'
  cases h.waiting with
  | nil => exact { h with phase := .idle, answers := List.rel_append h.answers (.cons ho .nil) }
  | @cons f f' _ _ hf hwaiting =>
    obtain ⟨name, args, temps, rest⟩ := f
    obtain ⟨_, args', temps', _⟩ := f'
    obtain ⟨rfl, rfl⟩ := hf
    cases ho with
    | ok => exact { h with phase := .running ⟨rfl, rfl⟩, waiting := hwaiting }
    | error => exact { h with phase := .leaving .error, waiting := hwaiting }

theorem Alike.step (h : m.Alike m') : (m.step p).Alike (m'.step p) := by
  obtain ⟨phase, waiting, depth, sink, requests, answers⟩ := m
  obtain ⟨phase', waiting', depth', sink', requests', answers'⟩ := m'
  cases h.phase with
  | idle =>
    cases h.requests with
    | nil => exact h
    | @cons request request' _ _ hr hrequests =>
      obtain ⟨id, args⟩ := request
      obtain ⟨_, args'⟩ := request'
      obtain ⟨rfl, hn⟩ := hr
      exact { h with phase := .calling hn, requests := hrequests }
  | calling hn => exact h.enter hn
  | running hf => exact h.advance hf
  | leaving hl =>
    exact { h with
      phase := .returned (endsAlike_outcome _ hl)
      depth := congrArg (· - 1) h.depth }
  | returned ho => exact h.resume ho

theorem Alike.after (h : m.Alike m') (n : Nat) : (m.after p n).Alike (m'.after p n) := by
  induction n with
  | zero => exact h
  | succ n ih =>
    rw [after_succ, after_succ]
    exact ih.step

end Machine

def Machine.Phase.request? : Phase → Option (FuncId × Nat)
  | .calling id args => some (id, args.length)
  | _ => none

theorem Machine.Phase.Alike.request?_eq {a b : Phase} (h : a.Alike b) : a.request? = b.request? := by
  cases h with
  | @calling id args args' hn => exact congrArg (fun n => some (id, n)) hn
  | _ => rfl

theorem Machine.Phase.Alike.eq_idle {b : Phase} (h : Phase.idle.Alike b) : b = .idle := by
  cases h
  rfl

theorem Answer.Alike.ends {r r' : EStateM.Result ExecError Sink Float}
    (h : Answer.Alike (.ofResult r) (.ofResult r')) :
    (∃ v v' t t', r = .ok v t ∧ r' = .ok v' t') ∨
      ∃ e t t', r = .error e t ∧ r' = .error e t' := by
  cases r with
  | ok v t =>
    cases r' with
    | ok v' t' => exact .inl ⟨v, v', t, t', rfl, rfl⟩
    | error e t' => cases h
  | error e t =>
    cases r' with
    | ok v' t' => cases h
    | error e' t' =>
      cases h
      exact .inr ⟨e, t, t', rfl, rfl⟩

namespace Machine

/-- The calls that are made in the first `n` steps, in order, those from inside bodies included. -/
def calls (p : Program) (m : Machine) (n : Nat) : List (FuncId × Nat) :=
  (List.range n).filterMap fun k => (m.after p k).phase.request?

variable {p : Program} {m m' : Machine}

theorem Alike.calls_eq (h : m.Alike m') (n : Nat) : calls p m n = calls p m' n :=
  List.filterMap_congr fun k _ => (h.after k).phase.request?_eq

theorem Alike.atRest (h : m.Alike m') (hm : m.AtRest) : m'.AtRest :=
  ⟨(hm.1 ▸ h.phase).eq_idle, List.forall₂_nil_left_iff.1 (hm.2 ▸ h.requests)⟩

theorem Alike.meet {r r' : Machine} (h : m.Alike m') (hr : Reaches p m r) (hr' : Reaches p m' r')
    (hrest : r.AtRest) (hrest' : r'.AtRest) :
    r.Alike r' ∧ ∃ n, m.after p n = r ∧ m'.after p n = r' := by
  obtain ⟨n, rfl⟩ := hr
  have hn : m'.after p n = r' :=
    Reaches.eq_of_atRest ⟨n, rfl⟩ hr' ((h.after n).atRest hrest) hrest'
  exact ⟨hn ▸ h.after n, n, rfl, hn⟩

/-- Calls of a function with the same number of arguments, into sinks that take everything, both
give values, or both fail with the same error.  They make the same calls in the same order, and
they end after the same number of steps. -/
theorem calls_eq_of_length_eq (p : Program) (depth : Nat) (id : FuncId) {args args' : List Float}
    {s s' : Sink} (hn : args.length = args'.length) (hs : s.room = none) (hs' : s'.room = none) :
    ((∃ v v' t t', p.callWithin (256 - depth) id args s = .ok v t ∧
        p.callWithin (256 - depth) id args' s' = .ok v' t') ∨
      ∃ e t t', p.callWithin (256 - depth) id args s = .error e t ∧
        p.callWithin (256 - depth) id args' s' = .error e t') ∧
      (∀ n, calls p (new depth s [(id, args)]) n = calls p (new depth s' [(id, args')]) n) ∧
      ∃ n t t',
        (new depth s [(id, args)]).after p n = ⟨.idle, [], depth, t, [],
          [.ofResult (p.callWithin (256 - depth) id args s)]⟩ ∧
        (new depth s' [(id, args')]).after p n = ⟨.idle, [], depth, t', [],
          [.ofResult (p.callWithin (256 - depth) id args' s')]⟩ := by
  have h : (new depth s [(id, args)]).Alike (new depth s' [(id, args')]) :=
    ⟨.idle, .nil, rfl, hs, hs', .cons ⟨rfl, hn⟩ .nil, .nil⟩
  obtain ⟨t, hr⟩ := reaches_idle p depth s [(id, args)] []
  obtain ⟨t', hr'⟩ := reaches_idle p depth s' [(id, args')] []
  obtain ⟨hrest, n, hm, hm'⟩ := h.meet hr hr' ⟨rfl, rfl⟩ ⟨rfl, rfl⟩
  have hanswer := (List.forall₂_cons.1 hrest.answers).1
  exact ⟨hanswer.ends, h.calls_eq, n, t, t', hm, hm'⟩

/-- From the last level `spin` can enter its own body and no other.  So `root`, which it calls
first, fails, whatever `spin` was called with and wherever it writes to. -/
theorem calls_eq_of_length_eq_branching :
    [(4 : Float)].length = [(-1 : Float)].length ∧ Sink.unlimited.room = none ∧
      (⟨#[65], none⟩ : Sink).room = none ∧
      (∃ t, Program.branching.callWithin 1 ⟨3⟩ [-1] ⟨#[65], none⟩ =
        .error (.tooDeep "root") t) ∧
      calls .branching (new 255 ⟨#[65], none⟩ [(⟨3⟩, [-1])]) 5 = [(⟨3⟩, 1), (⟨1⟩, 1)] := by
  have hn : [(4 : Float)].length = [(-1 : Float)].length := rfl
  have hs : Sink.unlimited.room = none := rfl
  have hs' : (⟨#[65], none⟩ : Sink).room = none := rfl
  obtain ⟨hends, hcalls, -⟩ := calls_eq_of_length_eq .branching 255 ⟨3⟩ hn hs hs'
  have hfail : Program.branching.callWithin (256 - 255) ⟨3⟩ [4] .unlimited =
      .error (.tooDeep "root") .unlimited := rfl
  refine ⟨hn, hs, hs', ?_, (hcalls 5).symm.trans rfl⟩
  rcases hends with ⟨v, v', t, t', hv, -⟩ | ⟨e, t, t', he, he'⟩
  · rw [hfail] at hv
    contradiction
  · rw [hfail] at he
    cases he
    exact ⟨t', he'⟩

end Machine

end Reckoner
