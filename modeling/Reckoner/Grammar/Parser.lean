import Reckoner.Expr
import Reckoner.Grammar.Error
import Reckoner.Token.Supply

/-!
# Parsers

A parser holds one token of a supply, the current one; before the first `advance` that is the
end.  `advance` replaces it by the next token.  A malformed lexeme is passed over and leaves the
current token as it was.

`Parser.weight` bounds how often a parser can still advance.  A production started at `p`
returns a `Parse p`, in which the parser left over weighs no more than `p`: tokens are not put
back.  An advance lowers the weight unless it goes from the end to the end, and that is why the
productions terminate.
-/

namespace Reckoner

variable {σ : Type} [TokenSupply σ] {α : Type}

structure Parser (σ : Type) where
  current : Token
  supply : σ
deriving DecidableEq

namespace Parser

/-- A parser that has taken nothing yet. -/
def start (supply : σ) : Parser σ :=
  ⟨.eof, supply⟩

/-- How many more tokens there can be, the current one counted by half. -/
def weight (p : Parser σ) : Nat :=
  2 * TokenSupply.remaining p.supply + if p.current = .eof then 0 else 1

/-- The next result.  A token becomes the current one, an error leaves it. -/
def advance (p : Parser σ) : Lexed × Parser σ :=
  let step := TokenSupply.pull p.supply
  (step.1, ⟨step.1.toOption.getD p.current, step.2⟩)

theorem current_advance_of_ok {p : Parser σ} {t : Token} (h : p.advance.1 = .ok t) :
    p.advance.2.current = t := by
  change (TokenSupply.pull p.supply).1 = .ok t at h
  simp [advance, h, Except.toOption]

theorem current_advance_of_error {p : Parser σ} {e : LexError} (h : p.advance.1 = .error e) :
    p.advance.2.current = p.current := by
  change (TokenSupply.pull p.supply).1 = .error e at h
  simp [advance, h, Except.toOption]

theorem remaining_advance_le (p : Parser σ) :
    TokenSupply.remaining p.advance.2.supply ≤ TokenSupply.remaining p.supply :=
  TokenSupply.remaining_pull_le p.supply

theorem remaining_advance_lt {p : Parser σ} (h : p.advance.1 ≠ .ok .eof) :
    TokenSupply.remaining p.advance.2.supply < TokenSupply.remaining p.supply :=
  TokenSupply.remaining_pull_lt p.supply h

/-- An advance to a token other than the end gets closer to the end. -/
theorem weight_advance_lt_of_ok {p : Parser σ} {t : Token} (h : p.advance.1 = .ok t)
    (ht : t ≠ .eof) : p.advance.2.weight < p.weight := by
  have := remaining_advance_lt (p := p) (by simpa [h] using ht)
  simp only [weight, current_advance_of_ok h, ht, if_false]
  omega

/-- A malformed lexeme uses up the supply. -/
theorem weight_advance_lt_of_error {p : Parser σ} {e : LexError} (h : p.advance.1 = .error e) :
    p.advance.2.weight < p.weight := by
  have := remaining_advance_lt (p := p) (by simp [h])
  simp only [weight, current_advance_of_error h]
  omega

theorem weight_advance_le (p : Parser σ) : p.advance.2.weight ≤ p.weight := by
  cases h : p.advance.1 with
  | error e => exact Nat.le_of_lt (weight_advance_lt_of_error h)
  | ok t =>
    by_cases ht : t = .eof
    · have := remaining_advance_le p
      simp only [weight, current_advance_of_ok h, ht, if_true]
      omega
    · exact Nat.le_of_lt (weight_advance_lt_of_ok h ht)

/-- From a token other than the end, an advance gets closer to the end. -/
theorem weight_advance_lt {p : Parser σ} (hp : p.current ≠ .eof) :
    p.advance.2.weight < p.weight := by
  cases h : p.advance.1 with
  | error e => exact weight_advance_lt_of_error h
  | ok t =>
    by_cases ht : t = .eof
    · have := remaining_advance_le p
      simp only [weight, current_advance_of_ok h, ht, hp, if_true, if_false]
      omega
    · exact weight_advance_lt_of_ok h ht

end Parser

/-- The outcome of a production started at `p`, and the parser it leaves. -/
structure Parse (p : Parser σ) (α : Type) where
  outcome : Except ParseError α
  next : Parser σ
  weight_le : next.weight ≤ p.weight

namespace Parse

/-- The same outcome, seen from a parser that came before. -/
def since {p q : Parser σ} (r : Parse q α) (h : q.weight ≤ p.weight) : Parse p α :=
  ⟨r.outcome, r.next, Nat.le_trans r.weight_le h⟩

@[simp]
theorem next_since {p q : Parser σ} (r : Parse q α) (h : q.weight ≤ p.weight) :
    (r.since h).next = r.next := rfl

end Parse

namespace Parser

/-- Succeeds with `x` without taking anything. -/
def done (p : Parser σ) (x : α) : Parse p α :=
  ⟨.ok x, p, Nat.le_refl _⟩

/-- Fails without taking anything. -/
def fail (p : Parser σ) (e : ParseError) : Parse p α :=
  ⟨.error e, p, Nat.le_refl _⟩

/-- Fails because the current token is not what was looked for. -/
def reject (p : Parser σ) (expected : Expected) : Parse p α :=
  p.fail (.unexpected expected p.current)

/-- Succeeds with `x` after passing over the current token. -/
def pass (p : Parser σ) (x : α) : Parse p α :=
  let step := p.advance
  match step.1 with
  | .ok _ => ⟨.ok x, step.2, p.weight_advance_le⟩
  | .error e => ⟨.error (.lex e), step.2, p.weight_advance_le⟩

theorem weight_pass_le {p : Parser σ} (x : α) : (p.pass x).next.weight ≤ p.weight :=
  (p.pass x).weight_le

theorem weight_pass_lt {p : Parser σ} (x : α) (hp : p.current ≠ .eof) :
    (p.pass x).next.weight < p.weight := by
  have h := weight_advance_lt hp
  simp only [pass]
  split <;> exact h

end Parser

end Reckoner
