import Reckoner.Proofs.Block.Run
import Reckoner.Proofs.Lowering.Acceptance

/-!
# Consistent programs

In a consistent program names and functions belong together, nothing is being built, and every
body is accepted.  Such a program can be run: a call of one of its functions never meets a function
that is not there, and never a body without a return (`safe_callWithin`).
-/

namespace Reckoner

/-- The error says nothing against the program itself. -/
def ExecError.Harmless (e : ExecError) : Prop :=
  e ≠ .missingFunction ∧ ∀ name, e ≠ .missingReturn name

/-- From every sink the evaluation gives a value that satisfies `V`, or fails harmlessly. -/
def Eval.Safe {α : Type} (V : α → Prop) (x : Eval α) : Prop :=
  ∀ s, (∀ a s', x s = .ok a s' → V a) ∧ ∀ e s', x s = .error e s' → e.Harmless

section Safe

variable {α β : Type} {V : α → Prop} {W : β → Prop}

theorem safe_pure {a : α} (h : V a) : Eval.Safe V (pure a) := by
  intro s
  constructor
  · intro b s' hb
    cases hb
    exact h
  · intro e s' he
    contradiction

theorem safe_throw {e : ExecError} (h : e.Harmless) : Eval.Safe V (throw e) := by
  intro s
  constructor
  · intro b s' hb
    contradiction
  · intro e' s' he
    cases he
    exact h

theorem Eval.Safe.bind {x : Eval α} {f : α → Eval β} (h : Eval.Safe V x)
    (hf : ∀ a, V a → Eval.Safe W (f a)) : Eval.Safe W (x >>= f) := by
  intro s
  have hb : (x >>= f) s = EStateM.bind x f s := rfl
  rw [hb]
  unfold EStateM.bind
  obtain ⟨hv, he⟩ := h s
  cases hx : x s with
  | ok a s' => exact hf a (hv a s' hx) s'
  | error e s' =>
    constructor
    · intro b t hb
      contradiction
    · intro e' t hr
      cases hr
      exact he e s' hx

end Safe

theorem Builtin.safe_emit (bytes : Array UInt8) : Eval.Safe (fun _ => True) (emit bytes) := by
  intro s
  unfold emit
  split
  · exact ⟨fun _ _ _ => trivial, nofun⟩
  · refine ⟨nofun, fun e s' h => ?_⟩
    cases h
    exact ⟨nofun, nofun⟩

theorem Builtin.safe_call (name : String) (args : List Float) :
    Eval.Safe (fun _ => True) (call name args) := by
  unfold call
  split
  · exact safe_throw ⟨nofun, nofun⟩
  · split
    · exact safe_pure trivial
    · exact safe_pure trivial
    · exact (safe_emit _).bind fun _ _ => safe_pure trivial
    · exact (safe_emit _).bind fun _ _ => safe_pure trivial
    · exact safe_throw ⟨nofun, nofun⟩

namespace Program

variable {p q : Program} {arity : Nat} {kinds : Array ResultKind} {call : Callee}
  {args : List Float} {temps : Array Float}

theorem Gives.continues {inst : Inst} {kind : ResultKind} (h : p.Gives arity kinds inst kind) :
    inst.Continues := by
  rintro value rfl
  contradiction

theorem Gives.safe_result {inst : Inst} {kind : ResultKind} (h : p.Gives arity kinds inst kind)
    (hcall : ∀ id f, p.func? id = some f → ∀ values, Eval.Safe (fun _ => True) (call id values)) :
    Eval.Safe (fun _ => True) (inst.result call args temps) := by
  cases h with
  | call hf hn ha => exact hcall _ _ hf _
  | _ => exact safe_pure trivial

theorem Accepts.safe_run {b : Block} (hb : p.Accepts arity kinds b)
    (hcall : ∀ id f, p.func? id = some f → ∀ values, Eval.Safe (fun _ => True) (call id values)) :
    Eval.Safe (fun value => value ≠ none) (b.run call args temps) := by
  induction hb generalizing temps with
  | ret h => exact safe_pure nofun
  | cons h _ ih =>
    rw [Block.run_cons h.continues]
    exact (h.safe_result hcall).bind fun value _ => ih

/-- Names and functions belong together, and every body can be run. -/
structure Consistent (p : Program) : Prop where
  lookup_iff : ∀ name id, p.lookup name = some id ↔ ∃ f, p.func? id = some f ∧ f.name = name
  idle : p.Idle
  accepts : ∀ id f b, p.func? id = some f → f.body = some b → p.Accepts f.params.length #[] b

def Sound (p : Program) : Prop :=
  ∀ id f b, p.func? id = some f → f.body = some b → p.Accepts f.params.length #[] b

theorem Consistent.sound (h : p.Consistent) : p.Sound :=
  h.accepts

theorem consistent_empty (name : String) : (empty name).Consistent where
  lookup_iff m id := by simp [empty, lookup, func?]
  idle := ⟨rfl, rfl⟩
  accepts id f b hf := by simp [empty, func?] at hf

theorem Consistent.namesLive (h : p.Consistent) : p.NamesLive := by
  intro name id hl
  obtain ⟨f, hf, -⟩ := (h.lookup_iff name id).1 hl
  exact ⟨f, hf⟩

theorem Agrees.extends (h : q.Agrees p) : q.Extends p := by
  intro id f hf
  exact ⟨f, by rw [h.func?, hf], rfl, rfl⟩

theorem Consistent.of_agrees (h : p.Consistent) (ha : q.Agrees p) (hi : q.Idle) :
    q.Consistent where
  lookup_iff name id := by
    rw [ha.lookup, ha.func?]
    exact h.lookup_iff name id
  idle := hi
  accepts id f b hf hb := by
    rw [ha.func?] at hf
    exact (h.accepts id f b hf hb).of_extends ha.extends

section Enter

variable {inner : Option Callee} {id : FuncId} {f : Func}

theorem enter_of_declaration (hf : p.func? id = some f) (hb : f.body = none) :
    p.enter inner id args = Builtin.call f.name args := by
  unfold enter
  rw [hf]
  simp only [hb]

theorem enter_none (hf : p.func? id = some f) {b : Block} (hb : f.body = some b) :
    p.enter none id args = throw (.tooDeep f.name) := by
  unfold enter
  rw [hf]
  simp only [hb]

theorem enter_some (hf : p.func? id = some f) {b : Block} (hb : f.body = some b) :
    p.enter (some call) id args =
      b.run call args #[] >>= fun
        | some value => pure value
        | none => throw (.missingReturn f.name) := by
  obtain ⟨name, params, body⟩ := f
  cases hb
  unfold enter
  split
  · rename_i h
    cases hf.symm.trans h
  · rename_i f h
    cases hf.symm.trans h
    rfl

end Enter

/-- A call in a program of accepted bodies fails harmlessly if at all. -/
theorem Sound.safe_callWithin (h : p.Sound) (depth : Nat) {id : FuncId} {f : Func}
    (hf : p.func? id = some f) (args : List Float) :
    Eval.Safe (fun _ => True) (p.callWithin depth id args) := by
  induction depth generalizing id f args with
  | zero =>
    rw [callWithin_zero]
    cases hb : f.body with
    | none =>
      rw [enter_of_declaration hf hb]
      exact Builtin.safe_call _ _
    | some b =>
      rw [enter_none hf hb]
      exact safe_throw ⟨nofun, nofun⟩
  | succ depth ih =>
    rw [callWithin_succ]
    cases hb : f.body with
    | none =>
      rw [enter_of_declaration hf hb]
      exact Builtin.safe_call _ _
    | some b =>
      rw [enter_some hf hb]
      refine ((h id f b hf hb).safe_run fun id f hf values => ih hf values).bind ?_
      intro value hv
      cases value with
      | none => exact absurd rfl hv
      | some value => exact safe_pure trivial

end Program

end Reckoner
