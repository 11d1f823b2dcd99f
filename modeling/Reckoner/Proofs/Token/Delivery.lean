import Reckoner.Proofs.Source.Demand
import Reckoner.Proofs.Token.Partition

/-!
# What the calls of a lexer take

The calls of a lexer give the results of the lexemes of its source, one with each call
(`Lexer.Delivers`), and each is counted in characters: what has been taken from the source, and what
has been asked of it.  The source of the lexer is at all times the one it began with, after so many
calls (`Lexer.exists_source_after`).
-/

namespace Reckoner

namespace Lexer

variable {source : Source} {m n : Nat}

/-- A lexer takes its characters from its source one after another. -/
theorem exists_source_next {l : Lexer} (h : ∃ k, l.source = source.after k) :
    ∃ k, l.next.2.source = source.after k := by
  refine keeps_next (I := fun l => ∃ k, l.source = source.after k) ?_ h
  rintro l c - ⟨k, hk⟩
  exact ⟨k + 1, by rw [Source.after_succ, ← hk]; rfl⟩

theorem exists_source_after (source : Source) (n : Nat) :
    ∃ k, ((ofSource source).after n).source = source.after k := by
  induction n with
  | zero => exact ⟨0, rfl⟩
  | succ n ih =>
    rw [after_succ]
    exact exists_source_next ih

theorem asked_next_le (l : Lexer) : l.source.asked ≤ l.next.2.source.asked := by
  refine keeps_next (I := fun l' => l.source.asked ≤ l'.source.asked) ?_ (Nat.le_refl _)
  intro l' c _ h
  exact Nat.le_trans h (Nat.le_trans (Nat.le_succ _) (Nat.le_of_eq l'.source.asked_snd_next.symm))

theorem asked_after_le (l : Lexer) (h : m ≤ n) :
    (l.after m).source.asked ≤ (l.after n).source.asked := by
  obtain ⟨k, rfl⟩ := Nat.exists_eq_add_of_le h
  induction k with
  | zero => exact Nat.le_refl _
  | succ k ih =>
    rw [← Nat.add_assoc, after_succ]
    exact Nat.le_trans (ih (Nat.le_add_right m k)) (asked_next_le _)

/-- The lexer gives the results of the lexemes one after another, and each time it has come to the
end of the lexeme.  Then it gives the end. -/
structure Delivers (source : Source) (lexemes : List Lexer.Piece) : Prop where
  within : ∀ n piece, lexemes[n]? = some piece →
    ((ofSource source).after n).next.1 = piece.result ∧
      Piece.endOf lexemes n + ((ofSource source).after n).next.2.upcoming.length =
        source.chars.length
  beyond : ∀ n, lexemes.length ≤ n → ((ofSource source).after n).next.1 = .ok .eof ∧
    ((ofSource source).after n).next.2.upcoming = []

theorem exists_delivers (source : Source) :
    ∃ lexemes, Cut source.chars lexemes ∧ Delivers source lexemes := by
  obtain ⟨lexemes, hcut, hwithin, hbeyond⟩ := exists_cut (ofSource source) source.chars rfl
  exact ⟨lexemes, hcut, hwithin, hbeyond⟩

variable {lexemes : List Lexer.Piece} {t : Token}

theorem Delivers.exists_piece (h : Delivers source lexemes)
    (ht : ((ofSource source).after n).next.1 = .ok t) (hne : t ≠ .eof) :
    ∃ piece, lexemes[n]? = some piece ∧ piece.result = .ok t := by
  cases hn : lexemes[n]? with
  | none =>
    rw [(h.beyond n (List.getElem?_eq_none_iff.1 hn)).1] at ht
    exact absurd (Except.ok.inj ht).symm hne
  | some piece => exact ⟨piece, rfl, (h.within n piece hn).1.symm.trans ht⟩

/-- After the call for a lexeme, one character more than up to its end has been asked for. -/
theorem Delivers.counts (h : Delivers source lexemes) (hn : n < lexemes.length) :
    ((ofSource source).after (n + 1)).source.taken =
        source.taken + min (Piece.endOf lexemes n + 1) source.chars.length ∧
      ((ofSource source).after (n + 1)).source.asked =
        source.asked + (Piece.endOf lexemes n + 1) := by
  rw [after_succ]
  exact ((balanced_ofSource source).next_after n).counts
    (h.within n _ (List.getElem?_eq_getElem hn)).2

theorem Delivers.taken (h : Delivers source lexemes) (hn : lexemes.length ≤ n) :
    ((ofSource source).after (n + 1)).source.taken = source.taken + source.chars.length := by
  have hend : source.chars.length + ((ofSource source).after n).next.2.upcoming.length =
      source.chars.length := by
    rw [(h.beyond n hn).2]
    rfl
  rw [after_succ, (((balanced_ofSource source).next_after n).counts hend).1,
    Nat.min_eq_right (Nat.le_succ _)]

end Lexer

end Reckoner
