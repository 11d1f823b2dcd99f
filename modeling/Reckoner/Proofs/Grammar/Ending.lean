import Reckoner.Proofs.Grammar.Bisimulation
import Reckoner.Proofs.Grammar.Pieces
import Reckoner.Proofs.Token.Ending

/-!
# Reading alike to the end

Sources of the same characters that end alike are read alike, however their characters come:
at once or line by line, and whether a failure is known from the beginning or found on the way
(`Reader.items_ofSource`).  While lexers on them hand out the same results, they may differ in what
they know of the failure; at the end, which is where a reader asks for it, they agree.

A reader that skips has no end to answer for: before its first token it stands at the end without
having come to it.  So only the parsers of readers at a head are in step.
-/

namespace Reckoner

variable {failure : Option String}

/-- The lexers hand out the same results, and come to the same ending. -/
structure Lexer.Parallel (failure : Option String) (l l' : Lexer) : Prop where
  results : l'.results = l.results
  left : l.EndsWith failure
  right : l'.EndsWith failure

theorem Lexer.Parallel.next {l l' : Lexer} (h : l.Parallel failure l') :
    l'.next.1 = l.next.1 ∧ l.next.2.Parallel failure l'.next.2 := by
  have hp := l'.pullList_results
  rw [h.results, l.pullList_results] at hp
  obtain ⟨hr, hs⟩ := Prod.mk.inj hp
  exact ⟨hr.symm, hs.symm, h.left.next, h.right.next⟩

namespace Parser

variable {p p' : Parser Lexer}

/-- The parsers are at the same token of parallel lexers; at the end, both lexers have got there. -/
structure Parallel (failure : Option String) (p p' : Parser Lexer) : Prop where
  current : p'.current = p.current
  supply : p.supply.Parallel failure p'.supply
  ended : p.current = .eof → p.supply.last = none ∧ p'.supply.last = none

theorem parallel_advance (h : p.supply.Parallel failure p'.supply) {t : Token}
    (ht : p.advance.1 = .ok t) : p.advance.2.Parallel failure p'.advance.2 := by
  obtain ⟨hf, hs⟩ := h.next
  have ht' : p'.advance.1 = .ok t := hf.trans ht
  refine ⟨?_, hs, fun he => ?_⟩
  · rw [current_advance_of_ok ht, current_advance_of_ok ht']
  · rw [current_advance_of_ok ht] at he
    subst he
    exact ⟨Lexer.last_next ht, Lexer.last_next ht'⟩

theorem Parallel.advance (h : p.Parallel failure p') :
    p.advance.2.Parallel failure p'.advance.2 := by
  cases ha : p.advance.1 with
  | ok t => exact parallel_advance h.supply ha
  | error e =>
    obtain ⟨hf, hs⟩ := h.supply.next
    have ha' : p'.advance.1 = .error e := hf.trans ha
    have hc := current_advance_of_error ha
    refine ⟨by rw [hc, current_advance_of_error ha', h.current], hs, fun he => ?_⟩
    -- a lexer at its end hands out nothing but the end
    have hn := (h.ended (hc ▸ he)).1
    have hu := Lexer.scans_next p.supply
    rw [Lexer.upcoming_eq_nil hn] at hu
    cases ha.symm.trans ((Lexer.Scans.ended rfl).unique hu).1

def parallel (failure : Option String) : Lockstep Lexer Lexer fun _ => True where
  Alike := Parallel failure
  current h := h.current
  names _ := Token.names_true _
  fst_advance h _ := h.supply.next.1
  snd_advance h _ := h.advance
  failure h hc := by
    obtain ⟨hl, hl'⟩ := h.ended hc
    exact (h.supply.right.failure hl').trans (h.supply.left.failure hl).symm

end Parser

namespace Reader

variable {r r' : Reader Lexer}

structure Parallel (failure : Option String) (r r' : Reader Lexer) : Prop where
  phase : r'.phase = r.phase
  supply : r.parser.supply.Parallel failure r'.parser.supply
  head : r.phase = .head → r.parser.Parallel failure r'.parser

theorem finished_atHead {σ : Type} [TokenSupply σ] {p : Parser σ} {g : Option String}
    (h : (atHead p).1 = .finished g) :
    p.current = .eof ∧ TokenSupply.failure p.supply = g := by
  have not_ofParse {α : Type} (r : Parse p α) {item : α → Item} (hi : ∀ x, item x ≠ .finished g) :
      (ofParse r item).1 ≠ .finished g := by
    unfold ofParse
    split
    · exact hi _
    · nofun
  unfold atHead at h
  split at h
  · rename_i hc
    exact ⟨hc, Item.finished.inj h⟩
  · contradiction
  · exact absurd h (not_ofParse _ nofun)
  · exact absurd h (not_ofParse _ nofun)
  · exact absurd h (not_ofParse _ nofun)

/-- Parallel readers come upon the same item and are parallel again; an end is the common one. -/
structure Steps (failure : Option String) (n n' : Item × Reader Lexer) : Prop where
  item : n'.1 = n.1
  ending : ∀ g, n.1 = .finished g → g = failure
  reader : n.2.Parallel failure n'.2

theorem steps_atHead {p p' : Parser Lexer} (h : p.Parallel failure p') :
    Steps failure (atHead p) (atHead p') := by
  obtain ⟨hi, -, hp, hph⟩ := matches_atHead (L := Parser.parallel failure) h
  refine ⟨hi, fun g hg => ?_, hph, Parser.Parallel.supply hp, fun _ => hp⟩
  obtain ⟨hc, rfl⟩ := finished_atHead hg
  exact h.supply.left.failure (h.ended hc).1

theorem steps_atSkip {p p' : Parser Lexer} (h : p.supply.Parallel failure p'.supply) :
    Steps failure (atSkip p) (atSkip p') := by
  obtain ⟨hf, hs⟩ := h.next
  cases ha : p.advance.1 with
  | error e =>
    have ha' : p'.advance.1 = .error e := hf.trans ha
    rw [atSkip_of_error ha, atSkip_of_error ha']
    exact ⟨rfl, nofun, rfl, hs, nofun⟩
  | ok t =>
    have ha' : p'.advance.1 = .ok t := hf.trans ha
    rw [atSkip_of_ok ha, atSkip_of_ok ha']
    exact steps_atHead (Parser.parallel_advance h ha)

theorem Parallel.items (h : r.Parallel failure r') :
    r'.items = r.items ∧ ∀ g, .finished g ∈ r.items → g = failure := by
  induction hw : r.weight using Nat.strongRecOn generalizing r r' with
  | ind w ih =>
    subst hw
    obtain ⟨p, phase⟩ := r
    obtain ⟨p', phase'⟩ := r'
    cases h.phase
    have step {n n' : Item × Reader Lexer} (hn : (⟨p, phase⟩ : Reader Lexer).next = some n)
        (hn' : (⟨p', phase⟩ : Reader Lexer).next = some n') (hs : Steps failure n n') :
        (⟨p', phase⟩ : Reader Lexer).items = (⟨p, phase⟩ : Reader Lexer).items ∧
          ∀ g, .finished g ∈ (⟨p, phase⟩ : Reader Lexer).items → g = failure := by
      obtain ⟨hi, he⟩ := ih _ (weight_next_lt hn) hs.reader rfl
      rw [items_of_next hn, items_of_next hn', hs.item, hi]
      refine ⟨rfl, fun g hg => ?_⟩
      rcases List.mem_cons.1 hg with hg | hg
      · exact hs.ending g hg.symm
      · exact he g hg
    cases phase with
    | start => exact step rfl rfl ⟨rfl, nofun, rfl, h.supply, nofun⟩
    | skipping => exact step rfl rfl (steps_atSkip h.supply)
    | head => exact step rfl rfl (steps_atHead (h.head rfl))
    | _ =>
      rw [items_of_next_eq_none rfl, items_of_next_eq_none rfl]
      exact ⟨rfl, fun g hg => nomatch hg⟩

end Reader

namespace Lexer

theorem results_ofSource {source source' : Source} (h : source'.chars = source.chars) :
    (ofSource source').results = (ofSource source).results := by
  have hs := scansAll_results (ofSource source')
  have hu : (ofSource source').upcoming = (ofSource source).upcoming := congrArg (' ' :: ·) h
  rw [hu] at hs
  exact (scansAll_results _).unique hs

end Lexer

namespace Reader

theorem parallel_start {source source' : Source} (hc : source'.chars = source.chars)
    (he : source'.ending = source.ending) :
    (start (Lexer.ofSource source)).Parallel source.ending (start (Lexer.ofSource source')) :=
  ⟨rfl, ⟨Lexer.results_ofSource hc, Lexer.endsWith_ofSource rfl, Lexer.endsWith_ofSource he⟩, nofun⟩

/-- Sources of the same characters that end alike are read alike. -/
theorem items_ofSource {source source' : Source} (hc : source'.chars = source.chars)
    (he : source'.ending = source.ending) :
    (start (Lexer.ofSource source')).items = (start (Lexer.ofSource source)).items :=
  (parallel_start hc he).items.1

theorem finished_of_mem_items {source : Source} {g : Option String}
    (h : .finished g ∈ (start (Lexer.ofSource source)).items) : g = source.ending :=
  (parallel_start rfl rfl).items.2 g h

/-- What is read of a source ends as the source does. -/
theorem exists_items (source : Source) :
    ∃ before, (start (Lexer.ofSource source)).items = before ++ [.finished source.ending] := by
  have hsettled := Parser.settled_skip (.start (Lexer.ofSource source))
  obtain ⟨rest, -, hcovers⟩ := exists_cuts _ hsettled
  obtain ⟨g, hitems⟩ := hcovers.skip.items
  have hall : (start (Lexer.ofSource source)).items = .prompt :: (_ ++ [.finished g]) :=
    (items_start _).trans (congrArg _ hitems)
  obtain rfl : g = source.ending := finished_of_mem_items (hall ▸ by simp)
  exact ⟨.prompt :: _, hall⟩

end Reader

end Reckoner
