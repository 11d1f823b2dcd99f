import Reckoner.Proofs.Grammar.Sequence

/-!
# The layers of the grammar

The grammar of expressions in layers: primaries, products of primaries, sums of products, and
comparisons of sums.  Each layer groups to the left and is read by a production of its own kind,
with no strengths of operators compared: `layer n` reads an operand of the layer below and lets
`chain` join more of them to it.

The main statement, `expr_eq_comparison`, is that climbing by strength reads the same.  Climbing
from a floor is chaining through the layers above the floor (`climb_eq_chains`), and a layer stops
only where no operator of it or of a tighter layer follows (`outside_layer`).
-/

namespace Reckoner

variable {σ : Type} [TokenSupply σ] {α β γ : Type}

namespace Parser

/-- The operators that join the operands of a layer: those of products, sums and comparisons. -/
def joiners : Nat → List Char
  | 1 => ['*']
  | 2 => ['+', '-']
  | 3 => ['<']
  | _ => []

mutual

def primary (p : Parser σ) : Parse p Expr :=
  match h : p.current with
  | .number value => p.pass (.literal value)
  | .ident name =>
    p.taking (by simp [h]) fun q _ =>
      if h : q.current = .operator '(' then
        q.taking (by simp [h]) fun r _ =>
          if r.current = .operator ')' then r.pass (.call name [])
          else r.comparisons.bind fun args t _ => t.pass (.call name args)
      else q.done (.var name)
  | .operator '(' =>
    p.taking (by simp [h]) fun q _ =>
      (q.layer 3).bind fun x r _ =>
        if r.current = .operator ')' then r.pass x else r.reject .closeParen
  | t => p.fail (.noExpression t)
termination_by (p.weight, 0)

def comparisons (p : Parser σ) : Parse p (List Expr) :=
  (p.layer 3).bind fun x q _ =>
    if q.current = .operator ')' then q.done [x]
    else if h : q.current = .operator ',' then
      q.taking (by simp [h]) fun r _ => r.comparisons.bind fun xs t _ => t.done (x :: xs)
    else q.reject .argumentEnd
termination_by (p.weight, 5)

/-- The primaries are layer 0.  Each layer above is made of operands of the layer below. -/
def layer (p : Parser σ) (n : Nat) : Parse p Expr :=
  match n with
  | 0 => p.primary
  | n + 1 => (p.layer n).bind fun left q _hq => q.chain n left
termination_by (p.weight, n + 1)
decreasing_by
  · decreasing_tactic
  · decreasing_tactic
  · exact Prod.Lex.right' _ _hq (Nat.succ_pos _)

/-- Joins `left` with the operands of layer `n` that follow, as long as an operator of the layer
above comes first. -/
def chain (p : Parser σ) (n : Nat) (left : Expr) : Parse p Expr :=
  match h : p.current with
  | .operator op =>
    if op ∈ joiners (n + 1) then
      p.taking (by simp [h]) fun q _ =>
        (q.layer n).bind fun right r _ => r.chain n (.binary op left right)
    else p.done left
  | _ => p.done left
termination_by (p.weight, 0)

end

def comparison (p : Parser σ) : Parse p Expr :=
  p.layer 3

def chains (p : Parser σ) (n : Nat) (left : Expr) : Parse p Expr :=
  match n with
  | 0 => p.done left
  | n + 1 => (p.chains n left).bind fun x q _ => q.chain n x

theorem operand_eq_primary_of {p : Parser σ}
    (hl : ∀ q : Parser σ, q.weight < p.weight → q.expr = q.layer 3)
    (ha : ∀ q : Parser σ, q.weight < p.weight → q.arguments = q.comparisons) :
    p.operand = p.primary := by
  rw [primary]
  split
  · rename_i hc
    exact operand_of_number hc
  · rename_i name hc
    rw [operand_of_ident hc]
    refine taking_congr fun q hq => ?_
    split
    · refine taking_congr fun r hr => ?_
      rw [ha r (Nat.lt_trans hr hq)]
    · rfl
  · rename_i hc
    rw [operand_of_paren hc]
    refine taking_congr fun q hq => ?_
    rw [hl q hq]
  · rename_i hn hi ho
    exact operand_of_other hn hi ho

theorem chain_of_operator {p : Parser σ} {n : Nat} {left : Expr} {op : Char}
    (hc : p.current = .operator op) (ho : op ∈ joiners (n + 1)) :
    p.chain n left = p.taking (by simp [hc]) fun q _ =>
      (q.layer n).bind fun right r _ => r.chain n (.binary op left right) := by
  rw [chain]
  split
  · rename_i op' hc'
    obtain rfl : op' = op := by simpa [hc] using hc'.symm
    rw [if_pos ho]
  · rename_i h
    exact absurd hc (h op)

theorem chain_of_other {p : Parser σ} {n : Nat} {left : Expr}
    (h : ∀ op ∈ joiners (n + 1), p.current ≠ .operator op) : p.chain n left = p.done left := by
  rw [chain]
  split
  · rename_i op hc
    rw [if_neg fun ho => h op ho hc]
  · rfl

def Outside (n : Nat) (t : Token) : Prop :=
  ∀ k < n, ∀ op ∈ joiners (k + 1), t ≠ .operator op

theorem chains_of_outside {p : Parser σ} {n : Nat} (h : Outside n p.current) (left : Expr) :
    p.chains n left = p.done left := by
  induction n with
  | zero => rfl
  | succ n ih =>
    have hn : Outside n p.current := fun k hk => h k (Nat.lt_succ_of_lt hk)
    rw [chains, ih hn, done_bind]
    exact chain_of_other (h n (Nat.lt_succ_self n))

theorem layer_eq_primary_bind (p : Parser σ) (n : Nat) :
    p.layer n = p.primary.bind fun left q _ => q.chains n left := by
  induction n with
  | zero => rw [layer]; exact (Parse.bind_done _).symm
  | succ n ih => rw [layer, ih, Parse.bind_assoc]; rfl

theorem outside_chain {n : Nat}
    (hl : ∀ (q : Parser σ) y, (q.layer n).outcome = .ok y → Outside n (q.layer n).next.current)
    {p : Parser σ} {left x : Expr} (hp : Outside n p.current)
    (h : (p.chain n left).outcome = .ok x) : Outside (n + 1) (p.chain n left).next.current := by
  induction hw : p.weight using Nat.strongRecOn generalizing p left x with
  | ind w ih =>
    subst hw
    by_cases hj : ∃ op ∈ joiners (n + 1), p.current = .operator op
    · obtain ⟨op, ho, hc⟩ := hj
      rw [chain_of_operator hc ho] at h ⊢
      obtain ⟨hlt, h₁, hn₁⟩ := taking_eq_ok h
      rw [hn₁]
      obtain ⟨right, h₂, h₃, hn₃⟩ := Parse.bind_eq_ok h₁
      rw [hn₃]
      exact ih _ (Nat.lt_of_le_of_lt (Parse.weight_le _) hlt) (hl _ _ h₂) h₃ rfl
    · have hn : ∀ op ∈ joiners (n + 1), p.current ≠ .operator op := fun op ho hc => hj ⟨op, ho, hc⟩
      rw [chain_of_other hn]
      intro k hk
      rcases Nat.lt_succ_iff_lt_or_eq.1 hk with hk | rfl
      · exact hp k hk
      · exact hn

theorem outside_layer {n : Nat} {p : Parser σ} {x : Expr} (h : (p.layer n).outcome = .ok x) :
    Outside n (p.layer n).next.current := by
  induction n generalizing p x with
  | zero => intro k hk; exact absurd hk (Nat.not_lt_zero k)
  | succ n ih =>
    rw [layer] at h ⊢
    obtain ⟨left, h₁, h₂, hn⟩ := Parse.bind_eq_ok h
    rw [hn]
    exact outside_chain (fun q y => ih) (ih h₁) h₂

theorem chains_of_operator {p : Parser σ} {n k : Nat} {left : Expr} {op : Char} (hk : k < n)
    (ho : op ∈ joiners (k + 1)) (hp : Outside k p.current) (hc : p.current = .operator op) :
    p.chains n left = p.taking (by simp [hc]) fun q _ =>
      (q.layer k).bind fun right r _ => r.chains n (.binary op left right) := by
  induction n with
  | zero => exact absurd hk (Nat.not_lt_zero k)
  | succ n ih =>
    rcases Nat.lt_succ_iff_lt_or_eq.1 hk with hk | rfl
    · rw [chains, ih hk, taking_bind]
      refine taking_congr fun q hq => ?_
      rw [Parse.bind_assoc]
      rfl
    · rw [chains, chains_of_outside hp, done_bind, chain_of_operator hc ho]
      refine taking_congr fun q hq => Parse.bind_congr fun right hr => ?_
      rw [chains, chains_of_outside (outside_layer hr), done_bind]

def strength : Nat → Nat
  | 1 => 40
  | 2 => 20
  | 3 => 10
  | _ => 0

def layersAbove (floor : Nat) : Nat :=
  if floor ≤ 10 then 3 else if floor ≤ 20 then 2 else if floor ≤ 40 then 1 else 0

theorem lt_layersAbove_iff {k floor : Nat} (hf : 0 < floor) :
    k < layersAbove floor ↔ floor ≤ strength (k + 1) := by
  unfold layersAbove
  rcases k with _ | _ | _ | k <;> simp only [strength] <;> (repeat' split) <;> omega

theorem binding_of_mem_joiners {k : Nat} {op : Char} (h : op ∈ joiners (k + 1)) :
    (Token.operator op).binding = strength (k + 1) := by
  match k with
  | 0 => obtain rfl := List.mem_singleton.1 h; rfl
  | 1 =>
    rcases List.mem_cons.1 h with rfl | h
    · rfl
    · obtain rfl := List.mem_singleton.1 h; rfl
  | 2 => obtain rfl := List.mem_singleton.1 h; rfl
  | k + 3 => exact absurd h List.not_mem_nil

theorem exists_mem_joiners (op : Char) (h : 0 < (Token.operator op).binding) :
    ∃ k, op ∈ joiners (k + 1) ∧ layersAbove ((Token.operator op).binding + 1) = k := by
  unfold Token.binding at h ⊢
  split at h
  · rename_i he; obtain rfl := Token.operator.inj he; exact ⟨2, by decide, rfl⟩
  · rename_i he; obtain rfl := Token.operator.inj he; exact ⟨1, by decide, rfl⟩
  · rename_i he; obtain rfl := Token.operator.inj he; exact ⟨1, by decide, rfl⟩
  · rename_i he; obtain rfl := Token.operator.inj he; exact ⟨0, by decide, rfl⟩
  · exact absurd h (Nat.lt_irrefl 0)

theorem exists_operator_of_binding_pos (t : Token) (h : 0 < t.binding) :
    ∃ op, t = .operator op := by
  cases t with
  | operator op => exact ⟨op, rfl⟩
  | _ => exact absurd h (Nat.lt_irrefl 0)

/-- A token that binds more loosely than `floor` joins nothing in the layers above it. -/
theorem outside_of_binding_lt {t : Token} {floor : Nat} (hf : 0 < floor)
    (h : t.binding < floor) : Outside (layersAbove floor) t := by
  rintro k hk op ho rfl
  have := (lt_layersAbove_iff hf).1 hk
  have := binding_of_mem_joiners ho
  omega

/-- Climbing from `floor` is chaining through the layers above it. -/
theorem climb_eq_chains {p : Parser σ} {floor : Nat} (hf : 0 < floor) (left : Expr)
    (hp : ∀ q : Parser σ, q.weight < p.weight → q.operand = q.primary) :
    p.climb floor left = p.chains (layersAbove floor) left := by
  induction hw : p.weight using Nat.strongRecOn generalizing p floor left with
  | ind w ih =>
    subst hw
    by_cases hb : p.current.binding < floor
    · rw [climb_of_looser hb, chains_of_outside (outside_of_binding_lt hf hb)]
    · obtain ⟨op, hc⟩ := exists_operator_of_binding_pos p.current (by omega)
      obtain ⟨k, ho, hk⟩ := exists_mem_joiners op (by rw [← hc]; omega)
      rw [← hc] at hk
      have hlt : k < layersAbove floor := by
        rw [lt_layersAbove_iff hf, ← binding_of_mem_joiners ho, ← hc]
        omega
      -- an operator of layer `k + 1` is outside the layers below it
      have hout : ∀ t : Token, ¬ p.current.binding < t.binding → Outside k t := fun t ht => by
        rw [← hk]
        exact outside_of_binding_lt (Nat.succ_pos _) (by omega)
      rw [climb_of_operator hc hb, chains_of_operator hlt ho (hout _ (Nat.lt_irrefl _)) hc]
      refine taking_congr fun q hq => ?_
      rw [hp q hq, layer_eq_primary_bind, Parse.bind_assoc]
      refine Parse.bind_congr fun right _ => ?_
      have hr : q.primary.next.weight < p.weight := Nat.lt_of_le_of_lt q.primary.weight_le hq
      have hnext : ∀ t : Parser σ, t.weight ≤ q.primary.next.weight → ∀ x,
          t.climb floor x = t.chains (layersAbove floor) x := fun t ht x =>
        ih _ (Nat.lt_of_le_of_lt ht hr) hf x
          (fun s hs => hp s (Nat.lt_trans hs (Nat.lt_of_le_of_lt ht hr))) rfl
      split
      · rw [ih _ hr (Nat.succ_pos _) right (fun s hs => hp s (Nat.lt_trans hs hr)) rfl, hk]
        exact Parse.bind_congr fun right' _ => hnext _ (Parse.weight_le _) _
      · rename_i hn
        rw [chains_of_outside (hout _ hn), done_bind]
        exact hnext _ (Nat.le_refl _) _

theorem arguments_eq_comparisons_of {p : Parser σ}
    (hl : ∀ q : Parser σ, q.weight ≤ p.weight → q.expr = q.layer 3) :
    p.arguments = p.comparisons := by
  induction hw : p.weight using Nat.strongRecOn generalizing p with
  | ind w ih =>
    subst hw
    rw [comparisons, arguments_eq, hl p (Nat.le_refl _)]
    refine Parse.bind_congr fun x _ => ?_
    have hle := (p.layer 3).weight_le
    split
    · rfl
    · split
      · refine taking_congr fun r hr => ?_
        have hlt : r.weight < p.weight := Nat.lt_of_lt_of_le hr hle
        rw [ih _ hlt (fun s hs => hl s (Nat.le_trans hs (Nat.le_of_lt hlt))) rfl]
      · rfl

theorem operand_eq_primary (p : Parser σ) : p.operand = p.primary := by
  induction hw : p.weight using Nat.strongRecOn generalizing p with
  | ind w ih =>
    subst hw
    have hl : ∀ q : Parser σ, q.weight < p.weight → q.expr = q.layer 3 := fun q hq => by
      rw [expr_eq, ih _ hq q rfl, layer_eq_primary_bind]
      exact Parse.bind_congr fun left _ => climb_eq_chains Nat.one_pos left fun s hs =>
        ih _ (Nat.lt_trans hs (Nat.lt_of_le_of_lt (Parse.weight_le _) hq)) s rfl
    exact operand_eq_primary_of hl fun q hq =>
      arguments_eq_comparisons_of fun s hs => hl s (Nat.lt_of_le_of_lt hs hq)

/-- Climbing reads what reading layer by layer does: the same outcome, and the same parser left. -/
theorem expr_eq_comparison (p : Parser σ) : p.expr = p.comparison := by
  rw [expr_eq, comparison, operand_eq_primary, layer_eq_primary_bind]
  exact Parse.bind_congr fun left _ =>
    climb_eq_chains Nat.one_pos left fun q _ => operand_eq_primary q

end Parser
end Reckoner
