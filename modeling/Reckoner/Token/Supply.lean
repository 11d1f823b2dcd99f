import Reckoner.Token.Lexer

/-!
# Token supplies

A parser takes its tokens from a supply, one at a time and never back.  A supply says how much
it has left at most, in a number that falls with every result other than the end, so that
parsing terminates.  A lexer is a supply, and so is a list of results; the list is what other
supplies are compared with.
-/

namespace Reckoner

class TokenSupply (σ : Type) where
  /-- The next result, and the supply after it. -/
  pull : σ → Lexed × σ
  /-- A bound on how many results other than the end are left. -/
  remaining : σ → Nat
  remaining_pull_le : ∀ s, remaining (pull s).2 ≤ remaining s
  remaining_pull_lt : ∀ s, (pull s).1 ≠ .ok .eof → remaining (pull s).2 < remaining s
  /-- The failure that ended the supply, if one has. -/
  failure : σ → Option String

instance : TokenSupply Lexer where
  pull := Lexer.next
  remaining l := l.upcoming.length
  remaining_pull_le l := l.length_next.1
  remaining_pull_lt l := l.length_next.2
  failure l := l.source.failure

/-- The first of a list of results, or the end. -/
def Lexed.pullList : List Lexed → Lexed × List Lexed
  | [] => (.ok .eof, [])
  | r :: rs => (r, rs)

instance : TokenSupply (List Lexed) where
  pull := Lexed.pullList
  remaining := List.length
  remaining_pull_le rs := by cases rs <;> simp [Lexed.pullList]
  remaining_pull_lt rs := by cases rs <;> simp [Lexed.pullList]
  failure _ := none

end Reckoner
