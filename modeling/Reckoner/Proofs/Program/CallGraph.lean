import Mathlib.Data.List.Chain
import Mathlib.Logic.Relation
import Reckoner.Proofs.Program.Guarded

/-!
# The call graph

A body calls the functions that its instructions name, whatever the values are, so the call
instructions make a graph of the numbers of functions.  In a program whose bodies are well formed
the graph alone decides whether a call gives a value (`call_eq_ok_iff`): it does if no walk passes
through too many bodies, and every declaration that can be come to stands for a builtin.

`Program.Shallow depth` bounds the walks from a function.  One call instruction uses up one of the
depth (`Shallow.of_calls`), which is how evaluation counts too; hence a cycle is not shallow for any
depth.
-/

namespace Reckoner

/-- The function is named like a builtin that takes as many arguments as it has parameters. -/
def Func.Resolves (f : Func) : Prop :=
  ∃ builtin, Builtin.ofName? f.name = some builtin ∧ builtin.arity = f.params.length

/-- Into a sink that takes everything the evaluation gives a value that satisfies `V`, and the sink
goes on to take everything. -/
def Eval.Succeeds {α : Type} (V : α → Prop) (x : Eval α) : Prop :=
  ∀ s : Sink, s.room = none → ∃ a s', x s = .ok a s' ∧ V a ∧ s'.room = none

section Succeeds

variable {α β : Type} {V : α → Prop} {W : β → Prop}

theorem succeeds_pure {a : α} (h : V a) : Eval.Succeeds V (pure a) :=
  fun s hs => ⟨a, s, rfl, h, hs⟩

theorem Eval.Succeeds.bind {x : Eval α} {f : α → Eval β} (h : Eval.Succeeds V x)
    (hf : ∀ a, V a → Eval.Succeeds W (f a)) : Eval.Succeeds W (x >>= f) := by
  intro s hs
  obtain ⟨a, s', hx, ha, hs'⟩ := h s hs
  obtain ⟨b, s'', hfx, hb, hs''⟩ := hf a ha s' hs'
  refine ⟨b, s'', ?_, hb, hs''⟩
  change EStateM.bind x f s = _
  simp only [EStateM.bind, hx, hfx]

theorem Eval.bind_eq_ok {x : Eval α} {f : α → Eval β} {b : β} {s s'' : Sink}
    (h : (x >>= f) s = .ok b s'') : ∃ a s', x s = .ok a s' ∧ f a s' = .ok b s'' := by
  change EStateM.bind x f s = _ at h
  cases hx : x s with
  | ok a s' => exact ⟨a, s', rfl, by simpa only [EStateM.bind, hx] using h⟩
  | error e s' => simp [EStateM.bind, hx] at h

end Succeeds

namespace Builtin

theorem succeeds_emit (bytes : Array UInt8) : Eval.Succeeds (fun _ => True) (emit bytes) := by
  intro s hs
  refine ⟨(), { s with bytes := s.bytes ++ bytes }, ?_, trivial, hs⟩
  simp only [emit, Sink.write, hs]

theorem succeeds_call {name : String} {args : List Float} {builtin : Builtin}
    (hb : ofName? name = some builtin) (hn : args.length = builtin.arity) :
    Eval.Succeeds (fun _ => True) (call name args) := by
  unfold call
  rw [hb]
  cases builtin with
  | unary f =>
    obtain ⟨x, rfl⟩ := List.length_eq_one_iff.1 hn
    exact succeeds_pure trivial
  | binary f =>
    obtain ⟨x, y, rfl⟩ := List.length_eq_two.1 hn
    exact succeeds_pure trivial
  | putByte =>
    obtain ⟨x, rfl⟩ := List.length_eq_one_iff.1 hn
    exact (succeeds_emit _).bind fun _ _ => succeeds_pure trivial
  | printNumber =>
    obtain ⟨x, rfl⟩ := List.length_eq_one_iff.1 hn
    exact (succeeds_emit _).bind fun _ _ => succeeds_pure trivial

theorem call_of_arity_ne {name : String} {args : List Float} {builtin : Builtin}
    (hb : ofName? name = some builtin) (hn : builtin.arity ≠ args.length) :
    call name args = throw (.builtinArity name builtin.arity args.length) := by
  unfold call
  rw [hb]
  simp only
  split
  · exact absurd rfl hn
  · exact absurd rfl hn
  · exact absurd rfl hn
  · exact absurd rfl hn
  · rfl

theorem exists_of_call_eq_ok {name : String} {args : List Float} {value : Float} {s s' : Sink}
    (h : call name args s = .ok value s') :
    ∃ builtin, ofName? name = some builtin ∧ builtin.arity = args.length := by
  cases hb : ofName? name with
  | none =>
    rw [call, hb] at h
    contradiction
  | some builtin =>
    refine ⟨builtin, rfl, Decidable.byContradiction fun hn => ?_⟩
    rw [call_of_arity_ne hb hn] at h
    contradiction

end Builtin

namespace Program

variable {p : Program} {a b c id : FuncId} {depth : Nat} {args : List Float} {s s' : Sink}
  {value : Float}

def Calls (p : Program) (a b : FuncId) : Prop :=
  ∃ body operands, p.body? a = some body ∧ .call b operands ∈ body

/-- Call instructions lead from `a` to `b`, if they are not the same. -/
def Reaches (p : Program) : FuncId → FuncId → Prop :=
  Relation.ReflTransGen p.Calls

def Recursive (p : Program) (id : FuncId) : Prop :=
  Relation.TransGen p.Calls id id

/-- No walk along call instructions from `id` on passes through functions with bodies more than
`depth` times, repetitions counted. -/
def Shallow (p : Program) (depth : Nat) (id : FuncId) : Prop :=
  ∀ walk, List.IsChain p.Calls (id :: walk) → (id :: walk).countP p.hasBody ≤ depth

/-- Every function without a body that `id` is or reaches stands for a builtin. -/
def Resolved (p : Program) (id : FuncId) : Prop :=
  ∀ callee f, p.Reaches id callee → p.func? callee = some f → f.body = none → f.Resolves

theorem Calls.hasBody (h : p.Calls a b) : p.hasBody a = true := by
  obtain ⟨body, operands, hb, -⟩ := h
  simp [Program.hasBody, hb]

theorem body?_eq_some_iff {body : Block} :
    p.body? id = some body ↔ ∃ f, p.func? id = some f ∧ f.body = some body := by
  simp [body?, Option.bind_eq_some_iff]

theorem hasBody_iff :
    p.hasBody id = true ↔ ∃ f body, p.func? id = some f ∧ f.body = some body := by
  simp only [hasBody, Option.isSome_iff_exists, body?_eq_some_iff]
  exact exists_comm

section Shallow

theorem Shallow.mono (h : p.Shallow depth id) {more : Nat} (hle : depth ≤ more) :
    p.Shallow more id :=
  fun walk hw => Nat.le_trans (h walk hw) hle

/-- A call instruction uses up one of the depth. -/
theorem Shallow.of_calls (h : p.Shallow depth a) (hc : p.Calls a b) :
    ∃ less, depth = less + 1 ∧ p.Shallow less b := by
  have hone : 1 ≤ depth := by simpa [hc.hasBody] using h [] (List.isChain_singleton a)
  obtain ⟨less, rfl⟩ : ∃ less, depth = less + 1 := ⟨depth - 1, by omega⟩
  refine ⟨less, rfl, fun walk hw => ?_⟩
  have hcount := h (b :: walk) (List.isChain_cons_cons.2 ⟨hc, hw⟩)
  rw [List.countP_cons, if_pos hc.hasBody] at hcount
  omega

theorem shallow_of_hasBody_eq_false (hb : p.hasBody a = false) : p.Shallow depth a := by
  intro walk hw
  cases walk with
  | nil => simp [hb]
  | cons b walk =>
    have hc := (List.isChain_cons_cons.1 hw).1.hasBody
    rw [hb] at hc
    contradiction

theorem shallow_succ (h : ∀ b, p.Calls a b → p.Shallow depth b) : p.Shallow (depth + 1) a := by
  intro walk hw
  cases walk with
  | nil =>
    rw [List.countP_cons, List.countP_nil]
    split <;> omega
  | cons b walk =>
    obtain ⟨hc, hw⟩ := List.isChain_cons_cons.1 hw
    have hcount := h b hc walk hw
    rw [List.countP_cons, if_pos hc.hasBody]
    omega

theorem Shallow.of_transGen (h : p.Shallow depth a) (hr : Relation.TransGen p.Calls a b) :
    ∃ less < depth, p.Shallow less b := by
  induction hr with
  | single hc =>
    obtain ⟨less, rfl, hs⟩ := h.of_calls hc
    exact ⟨less, Nat.lt_succ_self less, hs⟩
  | tail _ hc ih =>
    obtain ⟨_, hlt, hb⟩ := ih
    obtain ⟨less, rfl, hs⟩ := hb.of_calls hc
    exact ⟨less, Nat.lt_of_succ_lt hlt, hs⟩

theorem Shallow.of_reaches (h : p.Shallow depth a) (hr : p.Reaches a b) : p.Shallow depth b := by
  rcases Relation.reflTransGen_iff_eq_or_transGen.1 hr with rfl | hr
  · exact h
  · obtain ⟨less, hlt, hs⟩ := h.of_transGen hr
    exact hs.mono (Nat.le_of_lt hlt)

/-- Going around a cycle uses up any depth. -/
theorem Shallow.not_recursive (h : p.Shallow depth id) : ¬ p.Recursive id := by
  intro hr
  induction depth using Nat.strongRecOn with
  | ind depth ih =>
    obtain ⟨less, hlt, hs⟩ := h.of_transGen hr
    exact ih less hlt hs

theorem Shallow.not_recursive_of_reaches (h : p.Shallow depth a) (hr : p.Reaches a b) :
    ¬ p.Recursive b :=
  (h.of_reaches hr).not_recursive

end Shallow

theorem Resolved.of_calls (h : p.Resolved a) (hc : p.Calls a b) : p.Resolved b :=
  fun callee f hr => h callee f (hr.head hc)

section Run

variable {call : Callee} {arity : Nat} {kinds : Array ResultKind} {temps : Array Float}
  {body : Block} {operands : List Operand}

theorem Accepts.exists_ok_of_mem (hb : p.Accepts arity kinds body) {result : Option Float}
    (h : body.run call args temps s = .ok result s') (hm : .call b operands ∈ body) :
    ∃ f values value t t', p.func? b = some f ∧ values.length = f.params.length ∧
      call b values t = .ok value t' := by
  induction hb generalizing temps s with
  | ret hv => simp at hm
  | @cons kinds inst kind rest hg _ ih =>
    rw [Block.run_cons hg.continues] at h
    obtain ⟨value, t, hx, hrest⟩ := Eval.bind_eq_ok h
    rcases List.mem_cons.1 hm with rfl | hm
    · cases hg with
      | @call _ _ f hf hn _ =>
        exact ⟨f, _, value, s, t, hf, by rw [List.length_map, hn], hx⟩
    · exact ih hrest hm

/-- A body whose calls succeed comes to its return. -/
theorem Accepts.succeeds_run (hb : p.Accepts arity kinds body)
    (hcall : ∀ b operands f values, .call b operands ∈ body → p.func? b = some f →
      values.length = f.params.length → Eval.Succeeds (fun _ => True) (call b values)) :
    Eval.Succeeds (· ≠ none) (body.run call args temps) := by
  induction hb generalizing temps with
  | ret hv => exact succeeds_pure nofun
  | @cons kinds inst kind rest hg _ ih =>
    rw [Block.run_cons hg.continues]
    have hrest : ∀ temps, Eval.Succeeds (· ≠ none) (rest.run call args temps) := fun temps =>
      ih fun b operands f values hm => hcall b operands f values (List.mem_cons_of_mem _ hm)
    have hinst : Eval.Succeeds (fun _ => True) (inst.result call args temps) := by
      cases hg with
      | @call b operands f hf hn _ =>
        exact hcall b operands f _ List.mem_cons_self hf (by rw [List.length_map, hn])
      | _ => exact succeeds_pure trivial
    exact hinst.bind fun value _ => hrest _

end Run

section Calls

/-- A call of a function with a body that gives a value has some depth left, and leads to calls of
all that its body calls, with as many arguments as they have parameters. -/
theorem Sound.exists_ok_of_calls (h : p.Sound) (hok : p.callWithin depth a args s = .ok value s')
    (hc : p.Calls a b) :
    ∃ less f values value t t', depth = less + 1 ∧ p.func? b = some f ∧
      values.length = f.params.length ∧ p.callWithin less b values t = .ok value t' := by
  obtain ⟨body, operands, hbody, hm⟩ := hc
  obtain ⟨g, hg, hb⟩ := body?_eq_some_iff.1 hbody
  cases depth with
  | zero =>
    rw [callWithin_zero, enter_none hg hb] at hok
    contradiction
  | succ less =>
    rw [callWithin_succ, enter_some hg hb] at hok
    obtain ⟨result, t, hrun, -⟩ := Eval.bind_eq_ok hok
    obtain ⟨f, values, v, t, t', hf, hn, hcall⟩ := (h a g body hg hb).exists_ok_of_mem hrun hm
    exact ⟨less, f, values, v, t, t', rfl, hf, hn, hcall⟩

/-- A call that gives a value has not passed through more bodies than it might, whatever its
arguments and its sink were. -/
theorem Sound.shallow_of_eq_ok (h : p.Sound) (hok : p.callWithin depth id args s = .ok value s') :
    p.Shallow depth id := by
  induction depth generalizing id args s value s' with
  | zero =>
    refine shallow_of_hasBody_eq_false (Bool.eq_false_iff.2 fun hbody => ?_)
    obtain ⟨f, body, hf, hb⟩ := hasBody_iff.1 hbody
    rw [callWithin_zero, enter_none hf hb] at hok
    contradiction
  | succ depth ih =>
    refine shallow_succ fun b hc => ?_
    obtain ⟨less, _, values, v, t, t', hd, -, -, hcall⟩ := h.exists_ok_of_calls hok hc
    cases hd
    exact ih hcall

/-- A call that gives a value has found a builtin for every declaration it could come to. -/
theorem Sound.resolved_of_eq_ok (h : p.Sound) {f : Func} (hf : p.func? id = some f)
    (hn : args.length = f.params.length) (hok : p.callWithin depth id args s = .ok value s') :
    p.Resolved id := by
  intro callee g hr hg hb
  induction hr using Relation.ReflTransGen.head_induction_on
    generalizing depth args s value s' f with
  | refl =>
    cases hf.symm.trans hg
    have hcall : Builtin.call g.name args s = .ok value s' := by
      cases depth with
      | zero => rwa [callWithin_zero, enter_of_declaration hf hb] at hok
      | succ depth => rwa [callWithin_succ, enter_of_declaration hf hb] at hok
    obtain ⟨builtin, hname, harity⟩ := Builtin.exists_of_call_eq_ok hcall
    exact ⟨builtin, hname, harity.trans hn⟩
  | head hc _ ih =>
    obtain ⟨_, f', _, _, _, _, -, hf', hn', hok'⟩ := h.exists_ok_of_calls hok hc
    exact ih hf' hn' hok'

theorem Resolved.succeeds_enter (hr : p.Resolved id) {f : Func} (hf : p.func? id = some f)
    (hn : args.length = f.params.length) (hb : f.body = none) (inner : Option Callee) :
    Eval.Succeeds (fun _ => True) (p.enter inner id args) := by
  obtain ⟨builtin, hname, harity⟩ := hr id f .refl hf hb
  rw [enter_of_declaration hf hb]
  exact Builtin.succeeds_call hname (hn.trans harity.symm)

/-- Where the walks are bounded and the declarations stand for builtins, calls give values. -/
theorem Sound.succeeds_callWithin (h : p.Sound) {f : Func} (hf : p.func? id = some f)
    (hn : args.length = f.params.length) (hs : p.Shallow depth id) (hr : p.Resolved id) :
    Eval.Succeeds (fun _ => True) (p.callWithin depth id args) := by
  induction depth generalizing id args f with
  | zero =>
    cases hb : f.body with
    | none => exact hr.succeeds_enter hf hn hb _
    | some body =>
      have hbody : p.hasBody id = true := hasBody_iff.2 ⟨f, body, hf, hb⟩
      have hcount := hs [] (List.isChain_singleton id)
      simp [hbody] at hcount
  | succ depth ih =>
    cases hb : f.body with
    | none => exact hr.succeeds_enter hf hn hb _
    | some body =>
      rw [callWithin_succ, enter_some hf hb]
      have hrun : Eval.Succeeds (· ≠ none) (body.run (p.callWithin depth) args #[]) := by
        refine (h id f body hf hb).succeeds_run fun b operands g values hm hg hv => ?_
        have hc : p.Calls id b := ⟨body, operands, body?_eq_some_iff.2 ⟨f, hf, hb⟩, hm⟩
        obtain ⟨less, hd, hs⟩ := hs.of_calls hc
        cases hd
        exact ih hg hv hs (hr.of_calls hc)
      refine hrun.bind fun result hresult => ?_
      cases result with
      | none => exact absurd rfl hresult
      | some value => exact succeeds_pure trivial

end Calls

/-- Called with as many arguments as it has parameters, and into a sink that takes everything, a
function gives a value exactly if no walk from it passes through more than 256 bodies and all
declarations it is or reaches stand for builtins.  So nothing it reaches is then recursive, and a
function that does reach a recursive one fails whatever it is called with. -/
theorem call_eq_ok_iff (h : p.Verified) {f : Func} (hf : p.func? id = some f)
    (hn : args.length = p.arity id) (hs : s.room = none) :
    ((∃ value s', p.call id args s = .ok value s') ↔ p.Shallow 256 id ∧ p.Resolved id) ∧
      (p.Shallow 256 id → ∀ b, p.Reaches id b → ¬ p.Recursive b) ∧
      ∀ b, p.Reaches id b → p.Recursive b →
        ∀ values t, ∃ e t', p.call id values t = .error e t' := by
  rw [arity, params_of_func? hf] at hn
  refine ⟨⟨?_, ?_⟩, fun hsh b hr => hsh.not_recursive_of_reaches hr, fun b hr hc values t => ?_⟩
  · rintro ⟨value, s', hok⟩
    exact ⟨h.sound.shallow_of_eq_ok hok, h.sound.resolved_of_eq_ok hf hn hok⟩
  · rintro ⟨hsh, hr⟩
    obtain ⟨value, s', hok, -, -⟩ := h.sound.succeeds_callWithin hf hn hsh hr s hs
    exact ⟨value, s', hok⟩
  · cases hcall : p.call id values t with
    | error e t' => exact ⟨e, t', rfl⟩
    | ok value t' => exact absurd hc ((h.sound.shallow_of_eq_ok hcall).not_recursive_of_reaches hr)

/-- A program in which `both` calls `root` twice, and `spin` calls `root` and then itself. -/
def branching : Program where
  name := "branching"
  slots := #[some ⟨"sqrt", ["x"], none⟩,
    some ⟨"root", ["x"], some [.call ⟨0⟩ [.param 0], .ret (.temp 0)]⟩,
    some ⟨"both", [], some [.call ⟨1⟩ [.const 2], .call ⟨1⟩ [.temp 0], .ret (.temp 1)]⟩,
    some ⟨"spin", ["x"], some [.call ⟨1⟩ [.param 0], .call ⟨3⟩ [.temp 0], .ret (.temp 1)]⟩]
  names := [("spin", ⟨3⟩), ("both", ⟨2⟩), ("root", ⟨1⟩), ("sqrt", ⟨0⟩)]
  building := none
  block := []

theorem verified_branching : branching.Verified := by
  rintro ⟨_ | _ | _ | _ | n⟩ f hf hb
  · cases hf
    exact absurd rfl hb
  · rfl
  · rfl
  · rfl
  · simp [func?, branching] at hf

/-- The walks from `both` are bounded, since a call of it gives a value; and those from `spin` are
not, so that every call of it fails. -/
theorem call_eq_ok_iff_branching :
    branching.Verified ∧ branching.arity ⟨2⟩ = 0 ∧ branching.arity ⟨3⟩ = 1 ∧
      (branching.Shallow 256 ⟨2⟩ ∧ branching.Resolved ⟨2⟩) ∧
      branching.Recursive ⟨3⟩ ∧
      ∀ values t, ∃ e t', branching.call ⟨3⟩ values t = .error e t' := by
  have hboth : branching.func? ⟨2⟩ = some ⟨"both", [], branching.body? ⟨2⟩⟩ := rfl
  have hspin : branching.func? ⟨3⟩ = some ⟨"spin", ["x"], branching.body? ⟨3⟩⟩ := rfl
  have hr : branching.Recursive ⟨3⟩ :=
    .single ⟨_, [.temp 0], rfl, List.mem_cons_of_mem _ List.mem_cons_self⟩
  have hok : ∃ value s', branching.call ⟨2⟩ [] .unlimited = .ok value s' := ⟨_, _, rfl⟩
  have hnone : ([] : List Float).length = branching.arity ⟨2⟩ := rfl
  have hone : [(0 : Float)].length = branching.arity ⟨3⟩ := rfl
  have hroom : Sink.unlimited.room = none := rfl
  exact ⟨verified_branching, rfl, rfl,
    (call_eq_ok_iff verified_branching hboth hnone hroom).1.1 hok, hr,
    (call_eq_ok_iff verified_branching hspin hone hroom).2.2 ⟨3⟩ .refl hr⟩

end Program

end Reckoner
