import Reckoner.Proofs.Grammar.Sequence

/-!
# Passing over tokens

`Passes p ts q` says that a parser at `p` can pass over the tokens `ts`, one after another, and is
then at `q`.  It is the view of a production from outside: what it takes off its supply, whatever it
makes of it.  Read in one direction it tells from a row of tokens what a production reads, in the
other from a production that has ended which tokens it has read.
-/

namespace Reckoner

variable {σ : Type} [TokenSupply σ] {α β : Type}

namespace Parser

inductive Passes : Parser σ → List Token → Parser σ → Prop
  | nil {p : Parser σ} : Passes p [] p
  | cons {p q : Parser σ} {t u : Token} {ts : List Token} (hc : p.current = t) (ht : t ≠ .eof)
    (ha : p.advance.1 = .ok u) (h : Passes p.advance.2 ts q) : Passes p (t :: ts) q

variable {p q r : Parser σ} {t u : Token} {ts us : List Token}

theorem Passes.single (ht : p.current ≠ .eof) (ha : p.advance.1 = .ok u) :
    Passes p [p.current] p.advance.2 :=
  .cons rfl ht ha .nil

theorem Passes.append (h : Passes p ts q) (h' : Passes q us r) : Passes p (ts ++ us) r := by
  induction h with
  | nil => exact h'
  | cons hc ht ha _ ih => exact .cons hc ht ha (ih h')

theorem Passes.of_cons (h : Passes p (t :: ts) q) :
    p.current = t ∧ (∃ u, p.advance.1 = .ok u) ∧ Passes p.advance.2 ts q := by
  cases h with
  | cons hc _ ha h => exact ⟨hc, ⟨_, ha⟩, h⟩

theorem Passes.of_append (h : Passes p (ts ++ us) r) : ∃ q, Passes p ts q ∧ Passes q us r := by
  induction ts generalizing p with
  | nil => exact ⟨p, .nil, h⟩
  | cons t ts ih =>
    cases h with
    | cons hc ht ha h =>
      obtain ⟨q, h, h'⟩ := ih h
      exact ⟨q, .cons hc ht ha h, h'⟩

theorem Passes.weight_le (h : Passes p ts q) : q.weight ≤ p.weight := by
  induction h with
  | nil => exact Nat.le_refl _
  | cons _ _ _ _ ih => exact Nat.le_trans ih (weight_advance_le _)

theorem Passes.eq_of_nil (h : Passes p [] q) : q = p := by
  cases h
  rfl

end Parser

end Reckoner
