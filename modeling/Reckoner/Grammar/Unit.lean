import Reckoner.Grammar.Expression

/-!
# Units of a source text

A source text is a sequence of units: definitions, declarations of external functions, and
expressions to be evaluated.  Each production starts at the first token of its unit and stops at
the first token after it.
-/

namespace Reckoner

variable {σ : Type} [TokenSupply σ]

namespace Parser

/-- The parameter names after the current token, up to the first token that is no name. -/
def params (p : Parser σ) : Parse p (List String) :=
  let step := p.advance
  match _h : step.1 with
  | .error e => ⟨.error (.lex e), step.2, p.weight_advance_le⟩
  | .ok (.ident name) =>
    match step.2.params with
    | ⟨.error e, q, hq⟩ => ⟨.error e, q, Nat.le_trans hq p.weight_advance_le⟩
    | ⟨.ok names, q, hq⟩ => ⟨.ok (name :: names), q, Nat.le_trans hq p.weight_advance_le⟩
  | .ok _ => ⟨.ok [], step.2, p.weight_advance_le⟩
termination_by p.weight
decreasing_by exact weight_advance_lt_of_ok _h (by simp)

/-- A function name and its parameter names in parentheses. -/
def proto (p : Parser σ) : Parse p Prototype :=
  match p.current with
  | .ident name =>
    let step := p.advance
    match step.1 with
    | .error e => ⟨.error (.lex e), step.2, p.weight_advance_le⟩
    | .ok (.operator '(') =>
      match step.2.params with
      | ⟨.error e, q, hq⟩ => ⟨.error e, q, Nat.le_trans hq p.weight_advance_le⟩
      | ⟨.ok names, q, hq⟩ =>
        have le : q.weight ≤ p.weight := Nat.le_trans hq p.weight_advance_le
        if q.current = .operator ')' then (q.pass ⟨name, names⟩).since le
        else (q.reject .paramsClose).since le
    | .ok _ => (step.2.reject .paramsOpen).since p.weight_advance_le
  | _ => p.reject .functionName

/-- `def`, a prototype and a body. -/
def definition (p : Parser σ) : Parse p Definition :=
  if p.current = .defKeyword then
    let step := p.advance
    match step.1 with
    | .error e => ⟨.error (.lex e), step.2, p.weight_advance_le⟩
    | .ok _ =>
      match step.2.proto with
      | ⟨.error e, q, hq⟩ => ⟨.error e, q, Nat.le_trans hq p.weight_advance_le⟩
      | ⟨.ok proto, q, hq⟩ =>
        have le : q.weight ≤ p.weight := Nat.le_trans hq p.weight_advance_le
        match q.expr with
        | ⟨.error e, r, hr⟩ => (⟨.error e, r, hr⟩ : Parse q Definition).since le
        | ⟨.ok body, r, hr⟩ => (⟨.ok ⟨proto, body⟩, r, hr⟩ : Parse q Definition).since le
  else p.reject .defKeyword

/-- `extern` and a prototype. -/
def declaration (p : Parser σ) : Parse p Prototype :=
  if p.current = .externKeyword then
    let step := p.advance
    match step.1 with
    | .error e => ⟨.error (.lex e), step.2, p.weight_advance_le⟩
    | .ok _ => step.2.proto.since p.weight_advance_le
  else p.reject .externKeyword

/-- An expression that stands by itself, as an anonymous definition. -/
def standalone (p : Parser σ) : Parse p Definition :=
  match p.expr with
  | ⟨.error e, q, hq⟩ => ⟨.error e, q, hq⟩
  | ⟨.ok body, q, hq⟩ => ⟨.ok (.anonymous body), q, hq⟩

theorem weight_standalone_lt {p : Parser σ} {d : Definition} (h : p.standalone.outcome = .ok d) :
    p.standalone.next.weight < p.weight := by
  unfold standalone at h ⊢
  split
  · simp_all
  · rename_i body q hq heq
    have h₁ := weight_expr_lt (p := p) (x := body) (by rw [heq])
    rwa [heq] at h₁

theorem weight_definition_lt {p : Parser σ} {d : Definition} (h : p.definition.outcome = .ok d) :
    p.definition.next.weight < p.weight := by
  unfold definition at h ⊢
  split at h
  · rename_i hp
    have hlt := weight_advance_lt (p := p) (by simp [hp])
    rw [if_pos hp]
    simp only
    split
    · exact hlt
    · split
      · simp only; omega
      · split <;> (simp only [Parse.next_since]; omega)
  · simp [reject, fail] at h

theorem weight_declaration_lt {p : Parser σ} {d : Prototype}
    (h : p.declaration.outcome = .ok d) :
    p.declaration.next.weight < p.weight := by
  unfold declaration at h ⊢
  split at h
  · rename_i hp
    have hlt := weight_advance_lt (p := p) (by simp [hp])
    rw [if_pos hp]
    simp only
    split
    · exact hlt
    · exact Nat.lt_of_le_of_lt (p.advance.2.proto).weight_le hlt
  · simp [reject, fail] at h

end Parser

end Reckoner
