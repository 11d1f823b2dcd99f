import Reckoner.Proofs.Grammar.Sequence
import Reckoner.Session.Reader

/-!
# Operators that are read

Almost every character can be an operator token, but few operators join operands.  Climbing takes
an operator only if it binds at least as tightly as a floor, and no floor is zero; so all operators
in the expressions that are read join operands (`Reader.operators_items`).
-/

namespace Reckoner

variable {σ : Type} [TokenSupply σ] {α β : Type} {V : α → Prop} {W : β → Prop}

inductive Expr.Operators (Q : Char → Prop) : Expr → Prop
  | literal {value : Float} : Operators Q (.literal value)
  | var {name : String} : Operators Q (.var name)
  | binary {op : Char} {left right : Expr} (ho : Q op) (hl : Operators Q left)
    (hr : Operators Q right) : Operators Q (.binary op left right)
  | call {callee : String} {args : List Expr} (ha : ∀ a ∈ args, Operators Q a) :
    Operators Q (.call callee args)

theorem Expr.Operators.of_binary {Q : Char → Prop} {op : Char} {left right : Expr}
    (h : (Expr.binary op left right).Operators Q) :
    Q op ∧ left.Operators Q ∧ right.Operators Q := by
  cases h with
  | binary ho hl hr => exact ⟨ho, hl, hr⟩

theorem Expr.Operators.of_call {Q : Char → Prop} {callee : String} {args : List Expr}
    (h : (Expr.call callee args).Operators Q) : ∀ a ∈ args, a.Operators Q := by
  cases h with
  | call ha => exact ha

def Item.Operators (Q : Char → Prop) : Item → Prop
  | .definition d => d.body.Operators Q
  | .expression d => d.body.Operators Q
  | _ => True

def Joins (op : Char) : Prop :=
  0 < (Token.operator op).binding

/-- If the production succeeds, its value satisfies `V`. -/
def Parse.Yields (V : α → Prop) {p : Parser σ} (r : Parse p α) : Prop :=
  ∀ x, r.outcome = .ok x → V x

open Reckoner.Parser

namespace Parse

variable {p : Parser σ}

theorem yields_done {x : α} (h : V x) : (p.done x).Yields V :=
  fun _ hx => Except.ok.inj hx ▸ h

theorem yields_fail (e : ParseError) : (p.fail e : Parse p α).Yields V :=
  nofun

theorem yields_reject (expected : Expected) : (p.reject expected : Parse p α).Yields V :=
  yields_fail _

theorem Yields.bind {r : Parse p α} {f : α → (q : Parser σ) → q.weight ≤ p.weight → Parse q β}
    (h : r.Yields V) (hf : ∀ x, V x → (f x r.next r.weight_le).Yields W) :
    (r.bind f).Yields W := by
  intro y hy
  obtain ⟨x, hx, hfx, -⟩ := bind_eq_ok hy
  exact hf x (h x hx) y hfx

theorem yields_take_bind {f : Token → (q : Parser σ) → q.weight ≤ p.weight → Parse q β}
    (hf : ∀ t, (f t p.take.next p.take.weight_le).Yields W) : (p.take.bind f).Yields W :=
  have ht : p.take.Yields fun _ => True := fun _ _ => trivial
  ht.bind fun t _ => hf t

theorem yields_pass {x : α} (h : V x) : (p.pass x).Yields V := by
  rw [pass_eq]
  exact yields_take_bind fun _ => yields_done h

theorem yields_taking {hp : p.current ≠ .eof}
    {f : (q : Parser σ) → q.weight < p.weight → Parse q α}
    (hf : ∀ hq, (f p.advance.2 hq).Yields V) : (p.taking hp f).Yields V := by
  intro x hx
  obtain ⟨hq, hfx, -⟩ := taking_eq_ok hx
  exact hf hq x hfx

theorem Yields.ite {c : Prop} [Decidable c] {r s : Parse p α} (h : r.Yields V) (h' : s.Yields V) :
    (if c then r else s).Yields V := by
  split
  · exact h
  · exact h'

end Parse

namespace Parser

open Parse

variable {p : Parser σ}

theorem operators_climb
    (ho : ∀ q : Parser σ, q.weight < p.weight → q.operand.Yields (Expr.Operators Joins))
    {floor : Nat} (hf : 0 < floor) {left : Expr} (hl : left.Operators Joins) :
    (p.climb floor left).Yields (Expr.Operators Joins) := by
  induction hw : p.weight using Nat.strongRecOn generalizing p floor left with
  | ind w ih =>
    subst hw
    by_cases hc : ∃ op, p.current = .operator op
    · obtain ⟨op, hc⟩ := hc
      by_cases hb : p.current.binding < floor
      · rw [climb_of_looser hb]
        exact yields_done hl
      · -- What binds more loosely than the floor has been left to the caller.
        have hj : Joins op := by
          unfold Joins
          rw [← hc]
          omega
        have hnext : ∀ q : Parser σ, q.weight < p.weight → ∀ {floor x}, 0 < floor →
            Expr.Operators Joins x → (q.climb floor x).Yields (Expr.Operators Joins) :=
          fun q hq _ _ hf hx => ih _ hq (fun r hr => ho r (Nat.lt_trans hr hq)) hf hx rfl
        rw [climb_of_operator hc hb]
        refine yields_taking fun hq => (ho _ hq).bind fun right hright => ?_
        have hlt := Nat.lt_of_le_of_lt p.advance.2.operand.weight_le hq
        refine Yields.ite ?_ (hnext _ hlt hf (.binary hj hl hright))
        refine (hnext _ hlt (Nat.succ_pos _) hright).bind fun right' hright' => ?_
        exact hnext _ (Nat.lt_of_le_of_lt (Parse.weight_le _) hlt) hf (.binary hj hl hright')
    · rw [climb_of_other fun op h => hc ⟨op, h⟩]
      exact yields_done hl

theorem operators_arguments
    (he : ∀ q : Parser σ, q.weight ≤ p.weight → q.expr.Yields (Expr.Operators Joins)) :
    p.arguments.Yields fun args => ∀ a ∈ args, a.Operators Joins := by
  induction hw : p.weight using Nat.strongRecOn generalizing p with
  | ind w ih =>
    subst hw
    rw [arguments_eq]
    refine (he p (Nat.le_refl _)).bind fun x hx => ?_
    have hle := p.expr.weight_le
    refine Yields.ite (yields_done (List.forall_mem_singleton.2 hx)) ?_
    split
    · refine yields_taking fun hq => ?_
      have hlt := Nat.lt_of_lt_of_le hq hle
      have hrest := ih _ hlt (fun r hr => he r (Nat.le_trans hr (Nat.le_of_lt hlt))) rfl
      exact hrest.bind fun xs hxs => yields_done (List.forall_mem_cons.2 ⟨hx, hxs⟩)
    · exact yields_reject _

theorem operators_operand_of
    (he : ∀ q : Parser σ, q.weight < p.weight → q.expr.Yields (Expr.Operators Joins)) :
    p.operand.Yields (Expr.Operators Joins) := by
  by_cases hn : ∃ value, p.current = .number value
  · obtain ⟨value, hc⟩ := hn
    rw [operand_of_number hc]
    exact yields_pass .literal
  by_cases hi : ∃ name, p.current = .ident name
  · obtain ⟨name, hc⟩ := hi
    rw [operand_of_ident hc]
    refine yields_taking fun hq => ?_
    split
    · refine yields_taking fun hr => Yields.ite (yields_pass (.call nofun)) ?_
      have hlt := Nat.lt_trans hr hq
      have ha := operators_arguments fun s hs => he s (Nat.lt_of_le_of_lt hs hlt)
      exact ha.bind fun args hargs => yields_pass (.call hargs)
    · exact yields_done .var
  by_cases ho : p.current = .operator '('
  · rw [operand_of_paren ho]
    refine yields_taking fun hq => (he _ hq).bind fun x hx => ?_
    exact Yields.ite (yields_pass hx) (yields_reject _)
  rw [operand_of_other (fun v h => hn ⟨v, h⟩) (fun n h => hi ⟨n, h⟩) ho]
  exact yields_fail _

theorem operators_operand (p : Parser σ) : p.operand.Yields (Expr.Operators Joins) := by
  induction hw : p.weight using Nat.strongRecOn generalizing p with
  | ind w ih =>
    subst hw
    refine operators_operand_of fun q hq => ?_
    rw [expr_eq]
    refine (ih _ hq q rfl).bind fun left hl => operators_climb (fun r hr => ih _ ?_ r rfl)
      Nat.one_pos hl
    exact Nat.lt_trans hr (Nat.lt_of_le_of_lt q.operand.weight_le hq)

theorem operators_expr (p : Parser σ) : p.expr.Yields (Expr.Operators Joins) := by
  rw [expr_eq]
  exact (operators_operand p).bind fun left hl =>
    operators_climb (fun q _ => operators_operand q) Nat.one_pos hl

theorem operators_definition (p : Parser σ) :
    p.definition.Yields fun d => d.body.Operators Joins := by
  by_cases hc : p.current = .defKeyword
  · rw [definition_eq hc]
    refine yields_take_bind fun _ => ?_
    have hp (q : Parser σ) : q.proto.Yields fun _ => True := fun _ _ => trivial
    exact (hp _).bind fun proto _ => (operators_expr _).bind fun body hb => yields_done hb
  · unfold definition
    rw [if_neg hc]
    exact yields_reject _

theorem operators_standalone (p : Parser σ) :
    p.standalone.Yields fun d => d.body.Operators Joins := by
  rw [standalone_eq]
  exact (operators_expr p).bind fun body hb => yields_done hb

end Parser

namespace Reader

theorem ofParse_yields {p : Parser σ} {r : Parse p α} (h : r.Yields V) {P : Item → Prop}
    {item : α → Item} (hi : ∀ x, V x → P (item x)) (hf : ∀ e, P (.fault e)) :
    P (ofParse r item).1 := by
  unfold ofParse
  split
  · rename_i x hx
    exact hi x (h x hx)
  · exact hf _

theorem operators_atHead (p : Parser σ) : (atHead p).1.Operators Joins := by
  unfold atHead
  split
  · trivial
  · trivial
  · exact ofParse_yields (operators_definition p) (fun _ => id) fun _ => trivial
  · exact ofParse_yields (V := fun _ => True) (fun _ _ => trivial) (fun _ _ => trivial)
      fun _ => trivial
  · exact ofParse_yields (operators_standalone p) (fun _ => id) fun _ => trivial

/-- All items come from a place where a unit may begin, but for those that say nothing of a unit. -/
theorem forall_items {P : Item → Prop} (hp : P .prompt) (hm : ∀ e, P (.malformed e))
    (hh : ∀ p : Parser σ, P (atHead p).1) (r : Reader σ) : ∀ item ∈ r.items, P item := by
  induction hw : r.weight using Nat.strongRecOn generalizing r with
  | ind w ih =>
    subst hw
    cases hn : r.next with
    | none =>
      unfold items
      rw [walk_of_next_eq_none hn]
      exact nofun
    | some next =>
      obtain ⟨item, s⟩ := next
      unfold items
      rw [walk_of_next_eq_some hn]
      refine List.forall_mem_cons.2 ⟨?_, ih _ (weight_next_lt hn) s rfl⟩
      unfold next at hn
      split at hn
      · obtain ⟨rfl, -⟩ := Prod.mk.inj (Option.some.inj hn)
        exact hp
      · unfold atSkip at hn
        simp only at hn
        split at hn
        · obtain ⟨rfl, -⟩ := Prod.mk.inj (Option.some.inj hn)
          exact hm _
        · exact congrArg Prod.fst (Option.some.inj hn) ▸ hh _
      · exact congrArg Prod.fst (Option.some.inj hn) ▸ hh _
      · contradiction

theorem operators_items (r : Reader σ) : ∀ item ∈ r.items, item.Operators Joins :=
  forall_items trivial (fun _ => trivial) operators_atHead r

end Reader

end Reckoner
