import Reckoner.Grammar.Parser

/-!
# The grammar of expressions

Binary operators bind with different strength and group to the left.  An expression is an
operand followed by pairs of an operator and an operand; `climb` takes those pairs whose operator
binds at least as tightly as a given floor, and leaves the others to its caller.

Three productions call each other: an operand may hold expressions in parentheses or as
arguments.  Each call starts at a lighter parser, or at an equal one and goes from the argument
list to the expression to its first operand.
-/

namespace Reckoner

variable {σ : Type} [TokenSupply σ]

/-- How tightly a token binds as a binary operator; `0` for a token that is none. -/
def Token.binding : Token → Nat
  | .operator '<' => 10
  | .operator '+' => 20
  | .operator '-' => 20
  | .operator '*' => 40
  | _ => 0

namespace Parser

mutual

/-- A number, a name, a call, or an expression in parentheses. -/
def operand (p : Parser σ) : Parse p Expr :=
  match _h : p.current with
  | .number value => p.pass (.literal value)
  | .ident name =>
    let step := p.advance
    match step.1 with
    | .error e => ⟨.error (.lex e), step.2, p.weight_advance_le⟩
    | .ok (.operator '(') =>
      let inner := step.2.advance
      have le : inner.2.weight ≤ p.weight :=
        Nat.le_trans step.2.weight_advance_le p.weight_advance_le
      match inner.1 with
      | .error e => ⟨.error (.lex e), inner.2, le⟩
      | .ok (.operator ')') => (inner.2.pass (.call name [])).since le
      | .ok _ =>
        match inner.2.arguments with
        | ⟨.error e, q, hq⟩ => ⟨.error e, q, Nat.le_trans hq le⟩
        | ⟨.ok args, q, hq⟩ => (q.pass (.call name args)).since (Nat.le_trans hq le)
    | .ok _ => ⟨.ok (.var name), step.2, p.weight_advance_le⟩
  | .operator '(' =>
    let step := p.advance
    match step.1 with
    | .error e => ⟨.error (.lex e), step.2, p.weight_advance_le⟩
    | .ok _ =>
      match step.2.expr with
      | ⟨.error e, q, hq⟩ => ⟨.error e, q, Nat.le_trans hq p.weight_advance_le⟩
      | ⟨.ok x, q, hq⟩ =>
        if q.current = .operator ')' then
          (q.pass x).since (Nat.le_trans hq p.weight_advance_le)
        else (q.reject .closeParen).since (Nat.le_trans hq p.weight_advance_le)
  | t => p.fail (.noExpression t)
termination_by 4 * p.weight
decreasing_by
  all_goals
    have h₁ : p.advance.2.weight < p.weight := weight_advance_lt (by simp [_h])
    have h₂ := p.advance.2.weight_advance_le
    omega

/-- The arguments of a call, one at least, up to the closing parenthesis, which stays the
current token. -/
def arguments (p : Parser σ) : Parse p (List Expr) :=
  match p.expr with
  | ⟨.error e, q, hq⟩ => ⟨.error e, q, hq⟩
  | ⟨.ok x, q, hq⟩ =>
    match _hc : q.current with
    | .operator ')' => ⟨.ok [x], q, hq⟩
    | .operator ',' =>
      let step := q.advance
      have le : step.2.weight ≤ p.weight := Nat.le_trans q.weight_advance_le hq
      match step.1 with
      | .error e => ⟨.error (.lex e), step.2, le⟩
      | .ok _ =>
        match step.2.arguments with
        | ⟨.error e, r, hr⟩ => ⟨.error e, r, Nat.le_trans hr le⟩
        | ⟨.ok xs, r, hr⟩ => ⟨.ok (x :: xs), r, Nat.le_trans hr le⟩
    | _ => (q.reject .argumentEnd).since hq
termination_by 4 * p.weight + 2
decreasing_by
  · omega
  · have : q.advance.2.weight < q.weight := weight_advance_lt (by simp [_hc])
    omega

/-- Extends `left` by the operators that bind at least as tightly as `floor`. -/
def climb (p : Parser σ) (floor : Nat) (left : Expr) : Parse p Expr :=
  match _h : p.current with
  | .operator op =>
    if p.current.binding < floor then p.done left
    else
      let step := p.advance
      match step.1 with
      | .error e => ⟨.error (.lex e), step.2, p.weight_advance_le⟩
      | .ok _ =>
        match step.2.operand with
        | ⟨.error e, q, hq⟩ => ⟨.error e, q, Nat.le_trans hq p.weight_advance_le⟩
        | ⟨.ok right, q, hq⟩ =>
          have le : q.weight ≤ p.weight := Nat.le_trans hq p.weight_advance_le
          if p.current.binding < q.current.binding then
            -- the operator that follows takes the operand first
            match q.climb (p.current.binding + 1) right with
            | ⟨.error e, r, hr⟩ => ⟨.error e, r, Nat.le_trans hr le⟩
            | ⟨.ok right', r, hr⟩ =>
              (r.climb floor (.binary op left right')).since (Nat.le_trans hr le)
          else (q.climb floor (.binary op left right)).since le
  | _ => p.done left
termination_by 4 * p.weight
decreasing_by
  all_goals
    have h₁ : p.advance.2.weight < p.weight := weight_advance_lt (by simp [_h])
    try have h₂ : q.weight ≤ p.advance.2.weight := hq
    omega

/-- An expression, as long as it can be continued. -/
def expr (p : Parser σ) : Parse p Expr :=
  match p.operand with
  | ⟨.error e, q, hq⟩ => ⟨.error e, q, hq⟩
  | ⟨.ok left, q, hq⟩ => (q.climb 1 left).since hq
termination_by 4 * p.weight + 1
decreasing_by all_goals omega

end

/-- A production that reads an operand gets closer to the end. -/
theorem weight_operand_lt {p : Parser σ} {x : Expr} (h : p.operand.outcome = .ok x) :
    p.operand.next.weight < p.weight := by
  by_cases hp : p.current = .eof
  · rw [operand] at h
    split at h <;> simp_all [fail]
  have hlt := weight_advance_lt hp
  rw [operand] at h ⊢
  split
  · exact weight_pass_lt _ hp
  · simp only at h ⊢
    split
    · exact hlt
    · split
      · have := p.advance.2.weight_advance_le
        simp only
        omega
      · refine Nat.lt_of_le_of_lt (weight_pass_le _) ?_
        have := p.advance.2.weight_advance_le
        omega
      · have := p.advance.2.weight_advance_le
        split
        · simp only; omega
        · simp only [Parse.next_since]
          refine Nat.lt_of_le_of_lt (weight_pass_le _) ?_
          omega
    · exact hlt
  · simp only at h ⊢
    split
    · exact hlt
    · split
      · simp only; omega
      · split
        · simp only [Parse.next_since]
          refine Nat.lt_of_le_of_lt (weight_pass_le _) ?_
          omega
        · simp only [Parse.next_since, reject, fail]
          omega
  · simp_all [fail]

theorem weight_expr_lt {p : Parser σ} {x : Expr} (h : p.expr.outcome = .ok x) :
    p.expr.next.weight < p.weight := by
  rw [expr] at h ⊢
  split
  · simp_all
  · rename_i left q hq heq
    have h₁ := weight_operand_lt (p := p) (x := left) (by rw [heq])
    rw [heq] at h₁
    simp only [Parse.next_since]
    exact Nat.lt_of_le_of_lt (q.climb 1 left).weight_le h₁

end Parser

end Reckoner
