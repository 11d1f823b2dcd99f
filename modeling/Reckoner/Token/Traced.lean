import Reckoner.Notice
import Reckoner.Token.Supply

/-!
# Traced supplies

A traced supply hands out the results of another one and keeps a notice of every token, and of
the failure that ended the input when it comes to light.  Nothing else depends on the trace.
-/

namespace Reckoner

structure Traced (σ : Type) where
  supply : σ
  trace : Array Notice := #[]

namespace Traced

variable {σ : Type} [TokenSupply σ]

/-- The notice of a failure that came to light between two states of a supply. -/
def failureNotice (before after : Option String) : List Notice :=
  match before, after with
  | none, some message => [.inputFailed message]
  | _, _ => []

def tokenNotice : Lexed → List Notice
  | .ok t => [.token t]
  | .error _ => []

def pull (s : Traced σ) : Lexed × Traced σ :=
  let (result, rest) := TokenSupply.pull s.supply
  (result,
    { supply := rest
      trace := s.trace ++
        failureNotice (TokenSupply.failure s.supply) (TokenSupply.failure rest) ++
        tokenNotice result })

instance : TokenSupply (Traced σ) where
  pull := pull
  remaining s := TokenSupply.remaining s.supply
  remaining_pull_le s := TokenSupply.remaining_pull_le s.supply
  remaining_pull_lt s h := TokenSupply.remaining_pull_lt s.supply h
  failure s := TokenSupply.failure s.supply

end Traced

end Reckoner
