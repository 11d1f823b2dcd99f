import Reckoner.Proofs.Grammar.Lockstep
import Reckoner.Proofs.Token.Scanning
import Reckoner.Token.Traced

/-!
# Bisimilar supplies

What a parser or a reader makes of a supply depends only on the results that the supply hands out.
A `Bisimulation` relates supplies that hand out the same results for ever, so parsers on related
supplies are in step (`Bisimulation.lockstep`).  Readers on them have the same items, and the names
in the items are names of the supply (`Reader.items_match`).

This is used for three relations.  Equality shows where the names of items come from
(`names_items_start`).  A supply is related to the same supply with notices taken of it, so the
notices have no effect on what is read (`items_traced`).  And a lexer over a text is related to the
list of its results (`items_ofText`).
-/

namespace Reckoner

variable {σ τ : Type} [TokenSupply σ] [TokenSupply τ] {P : String → Prop}

/-- Related supplies hand out the same results, whose names satisfy `P`, and stay related. -/
structure Bisimulation (σ τ : Type) [TokenSupply σ] [TokenSupply τ] (P : String → Prop) where
  Rel : σ → τ → Prop
  fst_pull : ∀ {s t}, Rel s t → (TokenSupply.pull t).1 = (TokenSupply.pull s).1
  snd_pull : ∀ {s t}, Rel s t → Rel (TokenSupply.pull s).2 (TokenSupply.pull t).2
  failure : ∀ {s t}, Rel s t → TokenSupply.failure t = TokenSupply.failure s
  names : ∀ {s t}, Rel s t → ∀ token, (TokenSupply.pull s).1 = .ok token → token.Names P

variable {B : Bisimulation σ τ P}

structure Bisimulation.Alike (B : Bisimulation σ τ P) (p : Parser σ) (p' : Parser τ) : Prop where
  current : p'.current = p.current
  names : p.current.Names P
  supply : B.Rel p.supply p'.supply

namespace Bisimulation

variable {p : Parser σ} {p' : Parser τ}

theorem Alike.fst_advance (h : B.Alike p p') : p'.advance.1 = p.advance.1 :=
  B.fst_pull h.supply

theorem Alike.advance (h : B.Alike p p') : B.Alike p.advance.2 p'.advance.2 := by
  have hf := h.fst_advance
  cases hs : p.advance.1 with
  | error e =>
    refine ⟨?_, ?_, B.snd_pull h.supply⟩
    · rw [Parser.current_advance_of_error hs, Parser.current_advance_of_error (hf.trans hs),
        h.current]
    · rw [Parser.current_advance_of_error hs]
      exact h.names
  | ok t =>
    refine ⟨?_, ?_, B.snd_pull h.supply⟩
    · rw [Parser.current_advance_of_ok hs, Parser.current_advance_of_ok (hf.trans hs)]
    · rw [Parser.current_advance_of_ok hs]
      exact B.names h.supply t hs

def lockstep (B : Bisimulation σ τ P) : Lockstep σ τ P where
  Alike := B.Alike
  current h := h.current
  names h := h.names
  fst_advance h _ := h.fst_advance
  snd_advance h _ := h.advance
  failure h _ := B.failure h.supply

end Bisimulation

namespace Reader

variable {r : Reader σ} {r' : Reader τ} {item : Item}

theorem matches_atSkip {p : Parser σ} {p' : Parser τ} (h : B.Alike p p') :
    Matches B.lockstep (atSkip p) (atSkip p') := by
  unfold atSkip
  simp only
  rw [h.fst_advance]
  split
  · exact ⟨rfl, trivial, h.advance, rfl⟩
  · exact matches_atHead h.advance

theorem matches_next (h : B.Alike r.parser r'.parser) (hp : r'.phase = r.phase) :
    (r.next = none ∧ r'.next = none) ∨
      ∃ n n', r.next = some n ∧ r'.next = some n' ∧ Matches B.lockstep n n' := by
  unfold next
  rw [hp]
  cases r.phase with
  | start => exact .inr ⟨_, _, rfl, rfl, rfl, trivial, h, rfl⟩
  | skipping => exact .inr ⟨_, _, rfl, rfl, matches_atSkip h⟩
  | head => exact .inr ⟨_, _, rfl, rfl, matches_atHead h⟩
  | _ => exact .inl ⟨rfl, rfl⟩

theorem items_match (h : B.Alike r.parser r'.parser) (hp : r'.phase = r.phase) :
    r'.items = r.items ∧ ∀ item ∈ r.items, item.Names P := by
  unfold items
  induction hw : r.weight using Nat.strongRecOn generalizing r r' with
  | ind w ih =>
    subst hw
    rcases matches_next h hp with ⟨hn, hn'⟩ | ⟨⟨item, s⟩, ⟨item', s'⟩, hn, hn', hi, hm, hs, hsp⟩
    · rw [walk_of_next_eq_none hn, walk_of_next_eq_none hn']
      exact ⟨rfl, fun item hi => nomatch hi⟩
    · obtain ⟨he, hall⟩ := ih _ (weight_next_lt hn) hs hsp rfl
      rw [walk_of_next_eq_some hn, walk_of_next_eq_some hn', List.map_cons, List.map_cons, he]
      exact ⟨congrArg (· :: s.walk.map Prod.fst) hi, List.forall_mem_cons.2 ⟨hm, hall⟩⟩

theorem items_start_match {s : σ} {t : τ} (h : B.Rel s t) :
    (start t).items = (start s).items ∧ ∀ item ∈ (start s).items, item.Names P :=
  items_match ⟨rfl, fun _ hn => (nomatch hn), h⟩ rfl

end Reader

def Bisimulation.refl (h : TokenSupply.Names σ P) : Bisimulation σ σ P where
  Rel := Eq
  fst_pull he := by rw [he]
  snd_pull he := by rw [he]
  failure he := by rw [he]
  names _ token ht := h _ token ht

def Traced.untraced : Bisimulation σ (Traced σ) fun _ => True where
  Rel s t := t.supply = s
  fst_pull h := by rw [← h]; rfl
  snd_pull h := by rw [← h]; rfl
  failure h := by rw [← h]; rfl
  names _ token _ := token.names_true

def Source.Whole (s : Source) : Prop :=
  s.finished = true ∧ s.failure = none

theorem Source.Whole.next {s : Source} (h : s.Whole) : s.next.2.Whole := by
  rw [Source.next]
  split
  · exact h
  · rw [if_pos h.1]
    exact h

def Lexer.listed : Bisimulation Lexer (List Lexed) fun _ => True where
  Rel l rs := l.source.Whole ∧ l.results = rs
  fst_pull := by
    rintro l _ ⟨-, rfl⟩
    exact congrArg Prod.fst l.pullList_results
  snd_pull := by
    rintro l _ ⟨h, rfl⟩
    exact ⟨Lexer.keeps_next (I := fun l => l.source.Whole) (fun _ _ _ => Source.Whole.next) h,
      (congrArg Prod.snd l.pullList_results).symm⟩
  failure := by
    rintro l _ ⟨h, rfl⟩
    exact h.2.symm
  names _ token _ := token.names_true

namespace Reader

theorem names_items_start (h : TokenSupply.Names σ P) (supply : σ) :
    ∀ item ∈ (start supply).items, item.Names P :=
  (items_start_match (B := .refl h) rfl).2

theorem items_traced (supply : σ) (trace : Array Notice) :
    (start (Traced.mk supply trace)).items = (start supply).items :=
  (items_start_match (B := Traced.untraced) rfl).1

/-- What is read from a text is read from the results of lexing it. -/
theorem items_ofText (text : List Char) :
    (start (Lexer.ofText text)).items = (start (Lexer.ofText text).results).items :=
  (items_start_match (B := Lexer.listed) ⟨⟨rfl, rfl⟩, rfl⟩).1.symm

end Reader

end Reckoner
