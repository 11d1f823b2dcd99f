import Reckoner.Proofs.Grammar.Consumption

/-!
# The earliest token

What a production takes when it succeeds is a sentence (`takes_sentences`).  Its errors are reported
at the first token that no sentence can have there (`errors_earliest`).
-/

namespace Reckoner

open Reckoner.Parser Goals

variable {σ : Type} [TokenSupply σ] {α : Type}

def Parse.Takes {p : Parser σ} (r : Parse p α) (s : Production) : Prop :=
  ∀ x, r.outcome = .ok x → ∃ ts, Passes p ts r.next ∧ Sentence s ts

structure Parse.Earliest {p : Parser σ} (r : Parse p α) (s : Production) : Prop where
  /-- A token that was found in place of another is the current one.  The tokens before it begin a
  sentence, and none goes on with it. -/
  found : ∀ e t, r.outcome = .error e → e.found? = some t → r.next.current = t ∧
    ∃ ts, Passes p ts r.next ∧ s.Begins ts ∧ ¬ s.Begins (ts ++ [t])
  /-- The tokens before a malformed lexeme begin a sentence.  The last of them is the current
  one. -/
  malformed : ∀ e, r.outcome = .error (.lex e) → ∃ ts q, Passes p ts q ∧ q.current ≠ .eof ∧
    q.advance = (.error e, r.next) ∧ r.next.current = q.current ∧ s.Begins (ts ++ [q.current])

namespace Parse

variable {p : Parser σ} {r : Parse p α} {of : Goals → Goals} {s : Production}

theorem takes_of_tracks (h : ∀ gs, r.Tracks (of gs) gs) (hs : Foretell of s) : r.Takes s := by
  intro x hx
  obtain ⟨ts, gs, hp, hrun, hstep⟩ := (h [.token r.next.current]).passes x hx
  exact ⟨ts, hp, hs.sentence_of_run hrun (hstep.trans (if_pos rfl))⟩

theorem Tracks.earliest (h : r.Tracks (of []) []) (hs : Foretell of s) : r.Earliest s where
  found e t he ht := by
    obtain ⟨ts, gs, hb, hrun, hstep⟩ := h.breaks e he
    generalize r.next = q at hb ⊢
    cases hb with
    | found hp hc =>
      obtain rfl := Option.some.inj (hc.symm.trans ht)
      exact ⟨rfl, ts, hp, hs.begins hrun, hs.not_begins hrun (hstep _ ht)⟩
    | malformed => contradiction
  malformed e he := by
    obtain ⟨ts, gs, hb, hrun, -⟩ := h.breaks _ he
    generalize r.next = q at hb ⊢
    cases hb with
    | found _ hc => contradiction
    | @malformed _ ts q hp hq ha =>
      exact ⟨ts, q, hp, hq, by rw [← ha], current_advance_of_error ha, hs.begins hrun⟩

end Parse

namespace Parser

/-- The sentences are what the productions read. -/
theorem takes_sentences (p : Parser σ) : p.expr.Takes (.layer 3) ∧
    p.definition.Takes .definition ∧ p.declaration.Takes .declaration :=
  ⟨Parse.takes_of_tracks (tracks_expr p) foretell_expression,
    Parse.takes_of_tracks (tracks_definition p) foretell_definition,
    Parse.takes_of_tracks (tracks_declaration p) foretell_declaration⟩

/-- Whatever the tokens are, an error is reported where the tokens taken so far can still be gone on
with, but not with the token that is reported. -/
theorem errors_earliest (p : Parser σ) : p.expr.Earliest (.layer 3) ∧
    p.definition.Earliest .definition ∧ p.declaration.Earliest .declaration :=
  ⟨(tracks_expr p []).earliest foretell_expression,
    (tracks_definition p []).earliest foretell_definition,
    (tracks_declaration p []).earliest foretell_declaration⟩

end Parser

end Reckoner
