import Reckoner.Proofs.Grammar.Layers
import Reckoner.Proofs.Grammar.Operators

/-!
# Sentences

The rows of tokens that each production stands for, said without the parser.  Expressions come in
layers, as in `Parser.layer`: a layer joins sentences of the layer below by its own operators, from
left to right.  An operand may be joined to an expression by any operator (`Sentence.join_operand`):
if the operator is of a tighter layer, it is the last operand of the expression that takes it.
-/

namespace Reckoner

open Reckoner.Parser (joiners)

inductive Production
  /-- The primaries are layer 0, then come products, sums and comparisons. -/
  | layer (n : Nat)
  /-- The arguments of a call, one at least. -/
  | arguments
  | prototype
  | definition
  | declaration

/-- The tokens are a sentence of the production. -/
inductive Sentence : Production → List Token → Prop
  | number {value : Float} : Sentence (.layer 0) [.number value]
  | var {name : String} : Sentence (.layer 0) [.ident name]
  | emptyCall {name : String} : Sentence (.layer 0) [.ident name, .operator '(', .operator ')']
  | call {name : String} {ts : List Token} (h : Sentence .arguments ts) :
    Sentence (.layer 0) (.ident name :: .operator '(' :: (ts ++ [.operator ')']))
  | group {ts : List Token} (h : Sentence (.layer 3) ts) :
    Sentence (.layer 0) (.operator '(' :: (ts ++ [.operator ')']))
  | single {n : Nat} {ts : List Token} (h : Sentence (.layer n) ts) : Sentence (.layer (n + 1)) ts
  | join {n : Nat} {op : Char} {ts us : List Token} (h : Sentence (.layer (n + 1)) ts)
    (ho : op ∈ joiners (n + 1)) (h' : Sentence (.layer n) us) :
    Sentence (.layer (n + 1)) (ts ++ .operator op :: us)
  | lastArgument {ts : List Token} (h : Sentence (.layer 3) ts) : Sentence .arguments ts
  | argument {ts us : List Token} (h : Sentence (.layer 3) ts) (h' : Sentence .arguments us) :
    Sentence .arguments (ts ++ .operator ',' :: us)
  | prototype {name : String} {params : List String} :
    Sentence .prototype
      (.ident name :: .operator '(' :: (params.map .ident ++ [.operator ')']))
  | definition {ts us : List Token} (h : Sentence .prototype ts) (h' : Sentence (.layer 3) us) :
    Sentence .definition (.defKeyword :: (ts ++ us))
  | declaration {ts : List Token} (h : Sentence .prototype ts) :
    Sentence .declaration (.externKeyword :: ts)

def Production.Begins (s : Production) (ts : List Token) : Prop :=
  ∃ rest, Sentence s (ts ++ rest)

variable {n k : Nat} {op : Char} {ts us : List Token}

theorem Sentence.of_le (h : Sentence (.layer k) ts) (hk : k ≤ n) : Sentence (.layer n) ts := by
  induction hk with
  | refl => exact h
  | step _ ih => exact .single ih

/-- An operator of a layer below takes the last operand of that layer. -/
theorem Sentence.join_of_lt (h : Sentence (.layer n) ts) (hk : k < n) (ho : op ∈ joiners (k + 1))
    (hu : Sentence (.layer k) us) : Sentence (.layer n) (ts ++ .operator op :: us) := by
  induction n generalizing ts with
  | zero => exact absurd hk (Nat.not_lt_zero k)
  | succ n ih =>
    rcases Nat.lt_succ_iff_lt_or_eq.1 hk with hk | rfl
    · cases h with
      | single h => exact .single (ih h hk)
      | join h₁ ho₁ h₂ =>
        rw [List.append_assoc, List.cons_append]
        exact .join h₁ ho₁ (ih h₂ hk)
    · exact .join h ho hu

theorem lt_three_of_mem_joiners (h : op ∈ joiners (k + 1)) : k < 3 := by
  match k with
  | 0 => decide
  | 1 => decide
  | 2 => decide
  | k + 3 => exact absurd h List.not_mem_nil

theorem joins_of_mem_joiners (h : op ∈ joiners (k + 1)) : Joins op := by
  have hk := lt_three_of_mem_joiners h
  unfold Joins
  rw [Parser.binding_of_mem_joiners h]
  match k with
  | 0 => decide
  | 1 => decide
  | 2 => decide

theorem Joins.ne_paren (h : Joins op) : Token.operator op ≠ .operator '(' := by
  intro he
  unfold Joins at h
  rw [he] at h
  exact absurd h (by decide)

theorem Sentence.join_operand (h : Sentence (.layer 3) ts) (ho : Joins op)
    (hu : Sentence (.layer 0) us) : Sentence (.layer 3) (ts ++ .operator op :: us) := by
  obtain ⟨k, hk, -⟩ := Parser.exists_mem_joiners op ho
  exact h.join_of_lt (lt_three_of_mem_joiners hk) hk (hu.of_le (Nat.zero_le k))

end Reckoner
