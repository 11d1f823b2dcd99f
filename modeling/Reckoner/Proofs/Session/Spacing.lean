import Reckoner.Proofs.Grammar.Ending
import Reckoner.Proofs.Session.Run
import Reckoner.Proofs.Source.Readable
import Reckoner.Proofs.Token.Spacing

/-!
# Sessions and layout

A session on a text depends on the results of lexing it only: on texts that are lexed as the same
results it deals with the same items, and takes the same notices of reading them, as long as reading
the texts does not fail (`run_of_results`).  So layout that is put in between lexemes changes
nothing about a session (`run_spaced`).
-/

namespace Reckoner

theorem Source.failure_of_ending {s : Source} (h : s.ending = none) : s.failure = none := by
  rw [ending_eq_outcome, outcome] at h
  split at h
  · exact h
  · exact (Option.or_eq_none_iff.1 h).2

namespace Lexer

theorem ending_next {l : Lexer} (h : l.source.ending = none) : l.next.2.source.ending = none :=
  keeps_next (I := fun l => l.source.ending = none)
    (fun l _ _ h => (Source.ending_next l.source).trans h) h

theorem failure_eq_none {l : Lexer} (h : l.source.ending = none) : TokenSupply.failure l = none :=
  Source.failure_of_ending h

def unfailing : Bisimulation (Traced Lexer) (Traced Lexer) fun _ => True where
  Rel s t := t.supply.results = s.supply.results ∧ s.supply.source.ending = none ∧
    t.supply.source.ending = none ∧ t.trace = s.trace
  fst_pull := by
    rintro s t ⟨hr, -, -, -⟩
    have hp := t.supply.pullList_results
    rw [hr, s.supply.pullList_results] at hp
    exact (congrArg Prod.fst hp).symm
  snd_pull := by
    rintro s t ⟨hr, hs, ht, htrace⟩
    have hp := t.supply.pullList_results
    rw [hr, s.supply.pullList_results] at hp
    have htoken : t.supply.next.1 = s.supply.next.1 := (congrArg Prod.fst hp).symm
    refine ⟨(congrArg Prod.snd hp).symm, ending_next hs, ending_next ht, ?_⟩
    change t.trace ++ Traced.failureNotice (TokenSupply.failure t.supply)
        (TokenSupply.failure t.supply.next.2) ++ Traced.tokenNotice t.supply.next.1 =
      s.trace ++ Traced.failureNotice (TokenSupply.failure s.supply)
        (TokenSupply.failure s.supply.next.2) ++ Traced.tokenNotice s.supply.next.1
    rw [htrace, htoken, failure_eq_none hs, failure_eq_none ht, failure_eq_none (ending_next hs),
      failure_eq_none (ending_next ht)]
  failure := by
    rintro s t ⟨-, hs, ht, -⟩
    exact (failure_eq_none ht).trans (failure_eq_none hs).symm
  names _ token _ := token.names_true

end Lexer

section Reading

variable {σ τ : Type} [TokenSupply σ] [TokenSupply τ] {P : String → Prop}

/-- Readers that are alike, with the same notices taken, come upon the same items with the same
notices. -/
theorem Reader.noted_match {B : Bisimulation (Traced σ) (Traced τ) P}
    (htrace : ∀ s t, B.Rel s t → t.trace = s.trace) {r : Reader (Traced σ)}
    {r' : Reader (Traced τ)} (h : B.Alike r.parser r'.parser) (hp : r'.phase = r.phase)
    (seen : Nat) : r'.noted seen = r.noted seen := by
  induction hw : r.weight using Nat.strongRecOn generalizing r r' seen with
  | ind w ih =>
    subst hw
    rcases matches_next h hp with ⟨hn, hn'⟩ | ⟨⟨item, s⟩, ⟨item', s'⟩, hn, hn', hi, -, hs, hsp⟩
    · rw [noted_of_next_eq_none hn, noted_of_next_eq_none hn']
    · have hs' : s'.parser.supply.trace = s.parser.supply.trace := htrace _ _ hs.supply
      have hi : item' = item := hi
      rw [noted_of_next_eq_some hn, noted_of_next_eq_some hn',
        ih _ (weight_next_lt hn) hs hsp _ rfl, hs', hi]

end Reading

namespace Session

open Lexer

/-- A session on a source that does not fail depends on the results of lexing it only. -/
theorem run_of_results {source source' : Source}
    (hr : (ofSource source').results = (ofSource source).results) (he : source.ending = none)
    (he' : source'.ending = none) : run (ofSource source') = run (ofSource source) := by
  unfold run
  rw [runFrom_eq_deal, runFrom_eq_deal]
  have halike : unfailing.Alike (Reader.start (Traced.mk (ofSource source) #[])).parser
      (Reader.start (Traced.mk (ofSource source') #[])).parser :=
    ⟨rfl, Token.names_true _, hr, he, he', rfl⟩
  have htrace (s t) (h : unfailing.Rel s t) : t.trace = s.trace := h.2.2.2
  exact congrArg deal (Reader.noted_match htrace halike rfl 0)

/-- Layout that ends all of its comments can be put in wherever no lexeme and no comment is cut by
it: the text is lexed as the same results, and whatever a session starts from, it does the same on
the two texts, whether these are all there or read line by line. -/
theorem run_spaced {u v w : List Char} (hb : ¬ Inside u v) (hw : ClosedLayout w) :
    (ofText (u ++ w ++ v)).results = (ofText (u ++ v)).results ∧
      ∀ source source' : Source, source.chars = u ++ v → source'.chars = u ++ w ++ v →
        source.ending = none → source'.ending = none →
        run (ofSource source') = run (ofSource source) := by
  have hr := results_spaced (not_inside_iff.1 hb) hw
  refine ⟨hr, fun source source' hc hc' he he' => run_of_results ?_ he he'⟩
  rw [results_ofSource (hc'.trans (Source.chars_ofText _).symm),
    results_ofSource (hc.trans (Source.chars_ofText _).symm)]
  exact hr

/-- Layout with a comment and both kinds of line ends, put in between a digit and a bracket. -/
theorem run_spaced_comment :
    let u := ['x', ' ', '1']
    let w := ['\u00a0', '#', '(', '\r', ' ', '\n']
    let v := ['(', '2', ' ', '#', ' ', 'y']
    ¬ Inside u v ∧ ClosedLayout w ∧
      (ofText (u ++ w ++ v)).results = (ofText (u ++ v)).results ∧
      run (ofText (u ++ w ++ v)) = run (ofText (u ++ v)) := by
  intro u w v
  have hb : ¬ Inside u v := by
    have hx : Element ['x'] ([' ', '1'] ++ v) :=
      .lexeme (spells_word rfl ⟨List.forall_mem_singleton.2 rfl, by rintro c ⟨⟩; rfl⟩)
    have h1 : Element ['1'] ([] ++ v) :=
      .lexeme (spells_numeral (List.cons_ne_nil _ _)
        ⟨List.forall_mem_singleton.2 rfl, by rintro c ⟨⟩; rfl⟩)
    exact Whole.not_inside (.element hx (.blank rfl (.element h1 .nil)))
  have hline : ∀ d ∈ ['('], isLineEnd d = false := List.forall_mem_singleton.2 rfl
  have hw : ClosedLayout w :=
    .blank rfl (.comment hline rfl (.blank rfl (.blank rfl .nil)))
  obtain ⟨hresults, hrun⟩ := run_spaced hb hw
  exact ⟨hb, hw, hresults, hrun (.ofText (u ++ v)) (.ofText (u ++ w ++ v)) (Source.chars_ofText _)
    (Source.chars_ofText _) (Source.ending_ofText _) (Source.ending_ofText _)⟩

end Session

end Reckoner
