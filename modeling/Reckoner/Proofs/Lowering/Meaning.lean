import Reckoner.Proofs.Block.Run
import Reckoner.Proofs.Grammar.Names
import Reckoner.Proofs.Lowering.Acceptance
import Reckoner.Proofs.Simulation

/-!
# The meaning of expressions

`Expr.fault?` finds the first fault of an expression and `Expr.eval` gives its value, both on the
expression itself and with functions known by their names alone.  Lowering fails exactly with the
first fault (`error?_lower`), and what it makes of an expression without one gives its value when
it is run (`run_of_lower`), provided that calling by number is calling by name.
-/

namespace Reckoner

abbrev NamedCallee := String → List Float → Eval Float

/-- The value of a parameter: the argument in the last place that has the name. -/
def binding (params : List String) (args : List Float) (name : String) : Float :=
  ((params.zip args).reverse.lookup name).getD unset

/-- What an operator does.  `<` is one if its left side is less, and also if either side is not a
number. -/
def operation? : Char → Option (Float → Float → Float)
  | '<' => some fun a b => if a.isNaN ∨ b.isNaN ∨ a < b then 1 else 0
  | '+' => some fun a b => a + b
  | '-' => some fun a b => a - b
  | '*' => some fun a b => a * b
  | '/' => some fun a b => a / b
  | _ => none

namespace Expr

mutual

/-- The first fault of an expression in a function with the given parameters. -/
def fault? (arity? : String → Option Nat) (params : List String) : Expr → Option CompileError
  | .literal _ => none
  | .var name => if name ∈ params then none else some (.unknownVariable name)
  | .binary op left right =>
    ((left.fault? arity? params).or (right.fault? arity? params)).or
      (if (operation? op).isSome then none else some (.invalidOperator op))
  | .call callee args =>
    match arity? callee with
    | none => some (.unknownFunction callee)
    | some n =>
      if n ≠ args.length then some (.arityMismatch callee n args.length)
      else faultArgs? arity? params args

def faultArgs? (arity? : String → Option Nat) (params : List String) :
    List Expr → Option CompileError
  | [] => none
  | e :: es => (e.fault? arity? params).or (faultArgs? arity? params es)

end

mutual

/-- The value of an expression.  Operands and arguments are evaluated from left to right. -/
def eval (call : NamedCallee) (env : String → Float) : Expr → Eval Float
  | .literal value => pure value
  | .var name => pure (env name)
  | .binary op left right => do
    let a ← left.eval call env
    let b ← right.eval call env
    pure ((operation? op).elim unset fun f => f a b)
  | .call callee args => do
    let values ← evalArgs call env args
    call callee values

def evalArgs (call : NamedCallee) (env : String → Float) : List Expr → Eval (List Float)
  | [] => pure []
  | e :: es => do
    let value ← e.eval call env
    let values ← evalArgs call env es
    pure (value :: values)

end

end Expr

theorem List.lookup_map_snd {β γ : Type} (table : List (String × β)) (f : β → γ) (name : String) :
    (table.map fun e => (e.1, f e.2)).lookup name = (table.lookup name).map f := by
  induction table with
  | nil => rfl
  | cons entry table ih =>
    obtain ⟨k, v⟩ := entry
    rw [List.map_cons, List.lookup_cons, List.lookup_cons, ih]
    cases name == k <;> rfl

theorem zip_eq_map_zipIdx {params : List String} {args : List Float}
    (h : args.length = params.length) :
    params.zip args = params.zipIdx.map fun e => (e.1, args[e.2]?.getD unset) := by
  apply List.ext_getElem
  · simp [h]
  · intro i h₁ h₂
    have hi : i < args.length := by
      rw [List.length_zip] at h₁
      exact Nat.lt_of_lt_of_le h₁ (Nat.min_le_right _ _)
    simp [hi]

theorem Scope.value_ofParams {params : List String} {args : List Float} {name : String}
    {operand : Operand} (h : (ofParams params).lookup name = some operand)
    (hn : args.length = params.length) (temps : Array Float) :
    operand.value args temps = binding params args name := by
  rw [lookup_ofParams] at h
  obtain ⟨i, hi, rfl⟩ := Option.map_eq_some_iff.1 h
  rw [binding, zip_eq_map_zipIdx hn, ← List.map_reverse,
    List.lookup_map_snd _ fun i => args[i]?.getD unset, hi]
  rfl

theorem Scope.lookup_ofParams_eq_none_iff {params : List String} {name : String} :
    (ofParams params).lookup name = none ↔ name ∉ params := by
  rw [lookup_ofParams, Option.map_eq_none_iff, List.lookup_eq_none_iff]
  constructor
  · intro h hm
    obtain ⟨i, hi, rfl⟩ := List.getElem_of_mem hm
    have := h (params[i], i) (by simp [List.mem_zipIdx_iff_getElem?])
    simp at this
  · rintro h ⟨m, i⟩ hm
    have hm := (List.mem_zipIdx' (List.mem_reverse.1 hm))
    simp only [bne_iff_ne, ne_eq]
    rintro rfl
    exact h (hm.2 ▸ List.getElem_mem _)

namespace Expr

variable {P : String → Prop} {p : Program} {arity? : String → Option Nat} {params : List String}

theorem operation?_lessThan : operation? '<' = some comparison := by
  refine congrArg some (funext fun a => funext fun b => ?_)
  have h : (a < b || a.isNaN || b.isNaN) = true ↔ a.isNaN ∨ b.isNaN ∨ a < b := by
    rw [Bool.or_eq_true, Bool.or_eq_true, decide_eq_true_iff, or_assoc, or_comm, or_assoc]
  simp only [comparison, h]

theorem operation?_eq {op : Char} (h : op ≠ '<') :
    operation? op = (ArithOp.ofChar? op).map ArithOp.apply := by
  unfold operation? ArithOp.ofChar?
  split <;> simp_all <;> rfl

theorem error?_lowerBinary (start : Nat) (op : Char) (left right : Operand) (insts : Block) :
    Except.error? (lowerBinary start op left right insts) =
      if (operation? op).isSome then none else some (.invalidOperator op) := by
  unfold lowerBinary
  simp only
  split
  · rename_i h
    subst h
    rfl
  · rename_i h
    rw [operation?_eq h]
    cases ArithOp.ofChar? op <;> rfl

mutual

/-- Lowering fails exactly with the first fault. -/
theorem error?_lower (ha : ∀ name, P name → arity? name = (p.lookup name).map p.arity) {e : Expr}
    (he : e.Names P) (start : Nat) :
    Except.error? (e.lower p (Scope.ofParams params) start) = e.fault? arity? params := by
  match e with
  | .literal value => rfl
  | .var name =>
    unfold lower fault?
    by_cases hm : name ∈ params
    · rw [if_pos hm]
      split
      · rfl
      · rename_i hn
        exact absurd hm (Scope.lookup_ofParams_eq_none_iff.1 hn)
    · rw [if_neg hm, Scope.lookup_ofParams_eq_none_iff.2 hm]
      rfl
  | .binary op left right =>
    obtain ⟨hl, hr⟩ := he.of_binary
    unfold lower fault?
    rw [Option.or_assoc]
    refine Except.error?_bind (error?_lower ha hl start) fun l _ => ?_
    refine Except.error?_bind (error?_lower ha hr _) fun r _ => ?_
    exact error?_lowerBinary start op _ _ _
  | .call callee args =>
    obtain ⟨hc, hargs⟩ := he.of_call
    unfold lower fault?
    rw [ha callee hc]
    cases p.lookup callee with
    | none => rfl
    | some id =>
      simp only [Option.map_some]
      split
      · rfl
      · have := error?_lowerArgs ha hargs start
        rw [← this]
        cases lowerArgs p (Scope.ofParams params) start args <;> rfl

theorem error?_lowerArgs (ha : ∀ name, P name → arity? name = (p.lookup name).map p.arity)
    {es : List Expr} (he : ∀ e ∈ es, e.Names P) (start : Nat) :
    Except.error? (lowerArgs p (Scope.ofParams params) start es) = faultArgs? arity? params es := by
  match es with
  | [] => rfl
  | e :: es =>
    obtain ⟨h₁, h₂⟩ := List.forall_mem_cons.1 he
    unfold lowerArgs faultArgs?
    refine Except.error?_bind (error?_lower ha h₁ start) fun head _ => ?_
    rw [← error?_lowerArgs ha h₂ (start + head.insts.length)]
    cases lowerArgs p (Scope.ofParams params) (start + head.insts.length) es <;> rfl

end

end Expr

def Grows (temps : Array Float) (n : Nat) (temps' : Array Float) : Prop :=
  ∃ new, new.size = n ∧ temps' = temps ++ new

/-- The operand has the value `v`, also when there are more temporaries. -/
def Operand.Keeps (args : List Float) (temps : Array Float) (o : Operand) (v : Float) : Prop :=
  ∀ later, o.value args (temps ++ later) = v

/-- A run adds `n` temporaries, with which the operand has the value of the other side. -/
def Operand.Holds (args : List Float) (temps : Array Float) (n : Nat) (o : Operand)
    (temps' : Array Float) (v : Float) : Prop :=
  Grows temps n temps' ∧ o.Keeps args temps' v

/-- Under the names that satisfy `P`, calling by number is calling by name. -/
def Program.Knows (p : Program) (P : String → Prop) (call : Callee) (named : NamedCallee) : Prop :=
  ∀ name id, P name → p.lookup name = some id →
    ∀ values, values.length = p.arity id → call id values = named name values

theorem Program.Leads.continues {p : Program} {arity : Nat} {kinds kinds' : Array ResultKind}
    {b : Block} (h : p.Leads arity kinds b kinds') : ∀ inst ∈ b, inst.Continues := by
  induction h with
  | nil => exact fun inst hi => nomatch hi
  | cons hg _ ih =>
    refine List.forall_mem_cons.2 ⟨?_, ih⟩
    rintro value rfl
    contradiction

section Grows

variable {temps temps' temps'' : Array Float} {n m : Nat} {v : Float} {args : List Float}

theorem Grows.refl (temps : Array Float) : Grows temps 0 temps :=
  ⟨#[], rfl, Array.append_empty.symm⟩

theorem Grows.size_eq (h : Grows temps n temps') : temps'.size = temps.size + n := by
  obtain ⟨new, rfl, rfl⟩ := h
  exact Array.size_append

theorem Grows.trans (h : Grows temps n temps') (h' : Grows temps' m temps'') :
    Grows temps (n + m) temps'' := by
  obtain ⟨new, rfl, rfl⟩ := h
  obtain ⟨new', rfl, rfl⟩ := h'
  exact ⟨new ++ new', Array.size_append, Array.append_assoc⟩

theorem grows_push (temps : Array Float) (v : Float) : Grows temps 1 (temps.push v) :=
  ⟨#[v], rfl, rfl⟩

theorem Operand.Keeps.of_grows {o : Operand} (ho : o.Keeps args temps v)
    (h : Grows temps n temps') : o.Keeps args temps' v := by
  obtain ⟨new, -, rfl⟩ := h
  intro later
  rw [Array.append_assoc]
  exact ho _

theorem Operand.Keeps.value_eq {o : Operand} (ho : o.Keeps args temps v) :
    o.value args temps = v := by
  have h := ho #[]
  rwa [Array.append_empty] at h

theorem keeps_push (temps : Array Float) (v : Float) :
    (Operand.temp temps.size).Keeps args (temps.push v) v := by
  intro later
  have ht : temps.size < (temps.push v).size := by simp
  rw [Operand.value, Array.getElem?_append_left ht, Array.getElem?_push_size]
  rfl

end Grows

namespace Expr

variable {P : String → Prop} {p : Program} {params : List String} {call : Callee}
  {named : NamedCallee} {args : List Float}

/-- One more instruction gives its result in the next temporary. -/
theorem simulates_last {temps : Array Float} {last : Inst} {y : Eval Float}
    (h : last.result call args temps = y) :
    Simulates ((Operand.temp temps.size).Holds args temps 1)
      (Block.results call args temps [last]) y := by
  subst h
  have hy : last.result call args temps = last.result call args temps >>= pure := by simp
  rw [hy, Block.results_cons]
  refine (simulates_refl _).bind ?_
  rintro v _ rfl
  exact simulates_pure ⟨grows_push temps v, keeps_push temps v⟩

theorem simulates_lowerBinary (call : Callee) (args : List Float) {start : Nat} {op : Char}
    {left right : Operand} {insts : Block} {code : Code}
    (hc : lowerBinary start op left right insts = .ok code) :
    ∃ tail, code.insts = insts ++ tail ∧
      ∀ {temps : Array Float} {a b : Float}, temps.size = start + insts.length →
        left.Keeps args temps a → right.Keeps args temps b →
        Simulates (code.value.Holds args temps tail.length)
          (Block.results call args temps tail)
          (pure ((operation? op).elim unset fun f => f a b) : Eval Float) := by
  unfold lowerBinary at hc
  simp only at hc
  split at hc
  · rename_i ho
    cases hc
    subst ho
    refine ⟨[.lessThan left right] ++ [.widen (.temp (start + insts.length))],
      by simp [Code.ending], ?_⟩
    intro temps a b hs hl hr
    have hlt : (Inst.lessThan left right).result call args temps =
        pure ((operation? '<').elim unset fun f => f a b) := by
      rw [Inst.result, hl.value_eq, hr.value_eq, operation?_lessThan]
      rfl
    rw [Block.results_append, ← bind_pure (pure _)]
    refine (simulates_last hlt).bind ?_
    rintro t v ⟨hg, hv⟩
    have hw : (Inst.widen (.temp (start + insts.length))).result call args t = pure v := by
      rw [Inst.result, ← hs, hv.value_eq]
    refine (simulates_last hw).mono ?_
    rintro t' v' ⟨hg', hv'⟩
    refine ⟨hg.trans hg', ?_⟩
    rw [hg.size_eq, hs] at hv'
    simpa [Code.ending, Nat.add_assoc] using hv'
  · rename_i ho
    split at hc
    · rename_i arith harith
      cases hc
      refine ⟨[.arith arith left right], rfl, ?_⟩
      intro temps a b hs hl hr
      have ha : (Inst.arith arith left right).result call args temps =
          pure ((operation? op).elim unset fun f => f a b) := by
        rw [Inst.result, hl.value_eq, hr.value_eq, operation?_eq ho, harith]
        rfl
      refine (simulates_last ha).mono ?_
      rintro t v ⟨hg, hv⟩
      rw [hs] at hv
      exact ⟨hg, hv⟩
    · contradiction

mutual

/-- Running lowered code gives the value of the expression. -/
theorem simulates_eval (hcall : p.Knows P call named)
    (hn : args.length = params.length) {e : Expr} (he : e.Names P) {temps : Array Float}
    {code : Code} (h : e.lower p (Scope.ofParams params) temps.size = .ok code) :
    Simulates (code.value.Holds args temps code.insts.length)
      (Block.results call args temps code.insts) (e.eval named (binding params args)) := by
  match e with
  | .literal value =>
    cases h
    exact simulates_pure ⟨.refl temps, fun _ => rfl⟩
  | .var name =>
    unfold lower at h
    split at h
    · rename_i operand ho
      cases h
      exact simulates_pure ⟨.refl temps, fun later => Scope.value_ofParams ho hn _⟩
    · contradiction
  | .binary op left right =>
    obtain ⟨hel, her⟩ := he.of_binary
    unfold lower at h
    obtain ⟨l, hl, h⟩ := Except.bind_eq_ok h
    obtain ⟨r, hr, h⟩ := Except.bind_eq_ok h
    obtain ⟨tail, htail, hop⟩ := simulates_lowerBinary call args h
    unfold eval
    rw [htail, List.append_assoc, Block.results_append]
    refine (simulates_eval hcall hn hel hl).bind fun t a ⟨hg, ha⟩ => ?_
    rw [Block.results_append]
    rw [← hg.size_eq] at hr
    refine (simulates_eval hcall hn her hr).bind fun t' b ⟨hg', hb⟩ => ?_
    have hs : t'.size = temps.size + (l.insts ++ r.insts).length := by
      rw [(hg.trans hg').size_eq, List.length_append]
    refine (hop hs (ha.of_grows hg') hb).mono fun t'' v ⟨hg'', hv⟩ => ⟨?_, hv⟩
    rw [List.length_append, List.length_append, ← Nat.add_assoc]
    exact (hg.trans hg').trans hg''
  | .call callee operands =>
    obtain ⟨hc, hargs⟩ := he.of_call
    unfold lower at h
    split at h
    · contradiction
    · rename_i id hid
      split at h
      · contradiction
      · rename_i hlen
        obtain ⟨a, ha, h⟩ := Except.bind_eq_ok h
        cases h
        unfold eval Code.ending
        simp only
        rw [Block.results_append]
        refine (simulates_evalArgs hcall hn hargs ha).bind fun t vs ⟨hg, hv⟩ => ?_
        have hlast : (Inst.call id a.values).result call args t = named callee vs := by
          have hvs : a.values.map (·.value args t) = vs := by
            have := hv #[]
            rwa [Array.append_empty] at this
          rw [Inst.result, hvs]
          refine hcall callee id hc hid vs ?_
          rw [← hvs, List.length_map, length_values_of_lowerArgs ha, Decidable.not_not.1 hlen]
        refine (simulates_last hlast).mono fun t' v ⟨hg', hv'⟩ => ⟨?_, ?_⟩
        · rw [List.length_append]
          exact hg.trans hg'
        · rwa [hg.size_eq] at hv'

theorem simulates_evalArgs (hcall : p.Knows P call named)
    (hn : args.length = params.length) {es : List Expr} (he : ∀ e ∈ es, e.Names P)
    {temps : Array Float} {code : ArgsCode}
    (h : lowerArgs p (Scope.ofParams params) temps.size es = .ok code) :
    Simulates
      (fun temps' values => Grows temps code.insts.length temps' ∧
        ∀ later, code.values.map (·.value args (temps' ++ later)) = values)
      (Block.results call args temps code.insts) (evalArgs named (binding params args) es) := by
  match es with
  | [] =>
    unfold lowerArgs at h
    cases h
    exact simulates_pure ⟨.refl temps, fun _ => rfl⟩
  | e :: es =>
    obtain ⟨h₁, h₂⟩ := List.forall_mem_cons.1 he
    unfold lowerArgs at h
    obtain ⟨head, hh, h⟩ := Except.bind_eq_ok h
    obtain ⟨tail, ht, h⟩ := Except.bind_eq_ok h
    cases h
    unfold evalArgs
    simp only
    rw [Block.results_append]
    refine (simulates_eval hcall hn h₁ hh).bind fun t v ⟨hg, hv⟩ => ?_
    rw [← hg.size_eq] at ht
    rw [← bind_pure (Block.results call args t tail.insts)]
    refine (simulates_evalArgs hcall hn h₂ ht).bind fun t' vs ⟨hg', hvs⟩ => ?_
    refine simulates_pure ⟨?_, fun later => ?_⟩
    · rw [List.length_append]
      exact hg.trans hg'
    · rw [List.map_cons, hv.of_grows hg', hvs]

end

/-- Running the body that was made of an expression gives the value of the expression. -/
theorem run_of_lower (hp : p.NamesLive) (hcall : p.Knows P call named)
    (hn : args.length = params.length) {e : Expr} (he : e.Names P) {code : Code}
    (h : e.lower p (Scope.ofParams params) 0 = .ok code) :
    Block.run call args #[] (code.insts ++ [.ret code.value]) =
      some <$> e.eval named (binding params args) := by
  have hkinds : e.lower p (Scope.ofParams params) (#[] : Array ResultKind).size = .ok code := h
  obtain ⟨kinds, hk, -⟩ := leads_of_lower hp (Scope.within_ofParams params) hkinds
  have htemps : e.lower p (Scope.ofParams params) (#[] : Array Float).size = .ok code := h
  rw [Block.run_append hk.continues, map_eq_pure_bind]
  apply Simulates.eq
  refine (simulates_eval hcall hn he htemps).bind fun t v ⟨_, hv⟩ => ?_
  exact simulates_pure (congrArg some hv.value_eq)

end Expr

end Reckoner
