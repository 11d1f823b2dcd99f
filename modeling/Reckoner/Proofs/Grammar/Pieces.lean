import Reckoner.Proofs.Grammar.Consumption
import Reckoner.Proofs.Grammar.Semicolon
import Reckoner.Proofs.Token.Scanning

/-!
# The pieces that are read

Reading cuts the results of a lexer into pieces: a semicolon where a unit may begin, the tokens of
a unit, what was taken of a unit that is not well formed up to what makes it so, and a malformed
lexeme that is skipped.  `Parser.Cuts` follows the places where units may begin; the pieces cover
all results (`exists_cuts`), and each of them has one item to show for it.

The measure is the list of the results ahead.  Neither the weight of a parser nor the number of
items would do: a unit may fail at its first token without taking it, and a malformed lexeme is
taken while the current token stays as it was.
-/

namespace Reckoner

def Token.toResults (t : Token) : List Lexed :=
  if t = .eof then [] else [.ok t]

/-- What makes a unit ill-formed, as a result; the end of the source is none. -/
def ParseError.offender : ParseError → List Lexed
  | .unexpected _ found => found.toResults
  | .noExpression found => found.toResults
  | .lex e => [.error e]

def Item.offender : Item → List Lexed
  | .malformed e => [.error e]
  | .fault e => e.offender
  | _ => []

inductive Piece
  | semicolon
  /-- The tokens of a unit, and the item that it is read as. -/
  | unit (item : Item) (tokens : List Token)
  /-- The tokens of a unit up to its error. -/
  | fault (e : ParseError) (tokens : List Token)
  | malformed (e : LexError)

namespace Piece

def item : Piece → Item
  | .semicolon => .prompt
  | .unit item _ => item
  | .fault e _ => .fault e
  | .malformed e => .malformed e

def results : Piece → List Lexed
  | .semicolon => [.ok (.operator ';')]
  | .unit _ tokens => tokens.map .ok
  | .fault e tokens => tokens.map .ok ++ e.offender
  | .malformed e => [.error e]

end Piece

def Lexed.firstToken : List Lexed → Token
  | [] => .eof
  | .ok t :: _ => t
  | .error _ :: rs => firstToken rs

namespace Parser

variable {σ : Type} [TokenSupply σ]

/-- Skips the current token, and malformed lexemes up to the next token.  These are listed. -/
def skip (p : Parser σ) : List LexError × Parser σ :=
  match _h : p.advance.1 with
  | .ok _ => ([], p.advance.2)
  | .error e =>
    let (es, q) := p.advance.2.skip
    (e :: es, q)
termination_by p.weight
decreasing_by exact weight_advance_lt_of_error _h

theorem skip_of_ok {p : Parser σ} {t : Token} (h : p.advance.1 = .ok t) :
    p.skip = ([], p.advance.2) := by
  rw [skip]
  split <;> simp_all

theorem skip_of_error {p : Parser σ} {e : LexError} (h : p.advance.1 = .error e) :
    p.skip = (e :: p.advance.2.skip.1, p.advance.2.skip.2) := by
  rw [skip]
  split <;> simp_all

/-- From a place where a unit may begin, the results are read in these pieces.  After a semicolon
and after a unit that is not well formed the next token is looked for; in the latter case it is the
first one that is left. -/
inductive Cuts : Parser σ → List Piece → Prop
  | over {p : Parser σ} (h : p.current = .eof) : Cuts p []
  | semicolon {p : Parser σ} {pieces : List Piece} (h : p.current = .operator ';')
    (hs : Cuts p.skip.2 pieces) : Cuts p (.semicolon :: (p.skip.1.map .malformed ++ pieces))
  | unit {p q : Parser σ} {item : Item} {ts : List Token} {pieces : List Piece}
    (h : Reader.atHead p = (item, ⟨q, .head⟩)) (hp : Passes p ts q) (hs : Cuts q pieces) :
    Cuts p (.unit item ts :: pieces)
  | fault {p q : Parser σ} {e : ParseError} {ts : List Token} {pieces : List Piece}
    (h : Reader.atHead p = (.fault e, ⟨q, .skipping⟩)) (hb : Breaks p e ts q)
    (hs : Cuts q.skip.2 pieces)
    (hc : q.skip.2.current =
      Lexed.firstToken ((q.skip.1.map Piece.malformed ++ pieces).flatMap Piece.results)) :
    Cuts p (.fault e ts :: (q.skip.1.map .malformed ++ pieces))

end Parser

theorem Lexer.results_cases (l : Lexer) :
    (l.next.1 = .ok .eof ∧ l.results = [] ∧ l.next.2.results = []) ∨
      (l.next.1 ≠ .ok .eof ∧ l.results = l.next.1 :: l.next.2.results) := by
  have hp := l.pullList_results
  cases hr : l.results with
  | nil =>
    rw [hr] at hp
    obtain ⟨ht, hn⟩ := Prod.mk.inj hp
    exact .inl ⟨ht.symm, rfl, hn.symm⟩
  | cons r rs =>
    have hne := (scansAll_results l).not_mem_eof
    rw [hr] at hp hne
    obtain ⟨rfl, rfl⟩ := Prod.mk.inj hp
    exact .inr ⟨fun he => hne (he ▸ List.mem_cons_self), rfl⟩

namespace Parser

def ahead (p : Parser Lexer) : List Lexed :=
  p.current.toResults ++ p.supply.results

/-- At the end nothing is to come. -/
def Settled (p : Parser Lexer) : Prop :=
  p.current = .eof → p.supply.results = []

section Ahead

variable {p q : Parser Lexer} {t : Token} {ts : List Token} {e : ParseError}

theorem ahead_of_ne_eof (hp : p.current ≠ .eof) :
    p.ahead = .ok p.current :: p.supply.results := by
  rw [ahead, Token.toResults, if_neg hp]
  rfl

theorem ahead_of_eof (hp : p.current = .eof) (hs : p.Settled) : p.ahead = [] := by
  rw [ahead, hp, hs hp]
  rfl

theorem results_of_advance_ok (h : p.advance.1 = .ok t) :
    p.supply.results = p.advance.2.ahead := by
  have h : p.supply.next.1 = .ok t := h
  rcases p.supply.results_cases with ⟨he, hr, hn⟩ | ⟨hne, hr⟩
  · have hc : p.advance.2.current = .eof := current_advance_of_ok he
    rw [ahead_of_eof hc fun _ => hn, hr]
  · have hc : p.advance.2.current = t := current_advance_of_ok h
    have ht : t ≠ .eof := by
      rintro rfl
      exact hne h
    rw [ahead_of_ne_eof (hc.symm ▸ ht), hr, h, hc]
    rfl

theorem results_of_advance_error {e : LexError} (h : p.advance.1 = .error e) :
    p.supply.results = .error e :: p.advance.2.supply.results := by
  have h : p.supply.next.1 = .error e := h
  rcases p.supply.results_cases with ⟨he, -⟩ | ⟨-, hr⟩
  · rw [h] at he
    contradiction
  · rw [hr, h]
    rfl

theorem settled_advance (h : p.advance.1 = .ok t) : p.advance.2.Settled := by
  intro hc
  obtain rfl : t = .eof := (current_advance_of_ok h).symm.trans hc
  rcases p.supply.results_cases with ⟨-, -, hn⟩ | ⟨hne, -⟩
  · exact hn
  · exact absurd h hne

theorem Passes.ahead (h : Passes p ts q) : p.ahead = ts.map .ok ++ q.ahead := by
  induction h with
  | nil => rfl
  | cons hc ht ha _ ih =>
    rw [ahead_of_ne_eof (hc ▸ ht), results_of_advance_ok ha, ih, hc]
    rfl

theorem Passes.settled (h : Passes p ts q) (hp : p.Settled) : q.Settled := by
  induction h with
  | nil => exact hp
  | cons _ _ ha _ ih => exact ih (settled_advance ha)

theorem Breaks.ahead (h : Breaks p e ts q) :
    p.ahead = ts.map .ok ++ e.offender ++ q.supply.results := by
  cases h with
  | found h he =>
    have hq : e.offender = q.current.toResults := by
      cases e <;> cases he <;> rfl
    rw [h.ahead, hq, List.append_assoc]
    rfl
  | malformed h hq ha =>
    rw [h.ahead, ahead_of_ne_eof hq, results_of_advance_error ha]
    simp [ParseError.offender]

theorem Breaks.results_ne_nil (h : Breaks p e ts q) (hp : p.current ≠ .eof) :
    (Piece.fault e ts).results ≠ [] := by
  cases h with
  | @found e ts q h he =>
    cases ts with
    | nil =>
      cases h
      have hq : e.offender = p.current.toResults := by
        cases e <;> cases he <;> rfl
      simp [Piece.results, hq, Token.toResults, hp]
    | cons t ts => simp [Piece.results]
  | malformed h hq ha => simp [Piece.results]

end Ahead

section Skip

variable (p : Parser Lexer)

theorem results_eq_skip : p.supply.results = p.skip.1.map .error ++ p.skip.2.ahead := by
  induction hw : p.weight using Nat.strongRecOn generalizing p with
  | ind w ih =>
    subst hw
    cases ha : p.advance.1 with
    | ok t =>
      rw [skip_of_ok ha]
      exact results_of_advance_ok ha
    | error e =>
      rw [skip_of_error ha, results_of_advance_error ha, ih _ (weight_advance_lt_of_error ha) _ rfl]
      rfl

theorem settled_skip : p.skip.2.Settled := by
  induction hw : p.weight using Nat.strongRecOn generalizing p with
  | ind w ih =>
    subst hw
    cases ha : p.advance.1 with
    | ok t =>
      rw [skip_of_ok ha]
      exact settled_advance ha
    | error e =>
      rw [skip_of_error ha]
      exact ih _ (weight_advance_lt_of_error ha) _ rfl

theorem current_skip : p.skip.2.current = Lexed.firstToken p.supply.results := by
  have firstToken_errors (es : List LexError) (rs : List Lexed) :
      Lexed.firstToken (es.map .error ++ rs) = Lexed.firstToken rs := by
    induction es with
    | nil => rfl
    | cons e es ih => exact ih
  rw [results_eq_skip, firstToken_errors]
  by_cases hc : p.skip.2.current = .eof
  · rw [ahead_of_eof hc (settled_skip p), hc]
    rfl
  · rw [ahead_of_ne_eof hc]
    rfl

end Skip

end Parser

namespace Reader

open Reckoner.Parser

section Head

variable {σ : Type} [TokenSupply σ] {α : Type} {p : Parser σ}

theorem items_skip (p : Parser σ) :
    (⟨p, .skipping⟩ : Reader σ).items =
      p.skip.1.map .malformed ++ (⟨p.skip.2, .head⟩ : Reader σ).items := by
  induction hw : p.weight using Nat.strongRecOn generalizing p with
  | ind w ih =>
    subst hw
    cases ha : p.advance.1 with
    | ok t =>
      have hn : (⟨p, .skipping⟩ : Reader σ).next = some _ := congrArg some (atSkip_of_ok ha)
      have hh : (⟨p.advance.2, .head⟩ : Reader σ).next = some _ := rfl
      rw [skip_of_ok ha, items_of_next hn, items_of_next hh]
      rfl
    | error e =>
      have hn : (⟨p, .skipping⟩ : Reader σ).next = some _ := congrArg some (atSkip_of_error ha)
      rw [skip_of_error ha, items_of_next hn, ih _ (weight_advance_lt_of_error ha) _ rfl]
      rfl

theorem ofParse_cases {r : Parse p α} (hr : r.Accounts)
    (hw : ∀ x, r.outcome = .ok x → r.next.weight < p.weight) (item : α → Item) :
    (∃ i q ts, ofParse r item = (i, ⟨q, .head⟩) ∧ Passes p ts q ∧ ts ≠ []) ∨
      ∃ e q ts, ofParse r item = (.fault e, ⟨q, .skipping⟩) ∧ Breaks p e ts q := by
  unfold ofParse
  cases ho : r.outcome with
  | ok x =>
    obtain ⟨ts, hp⟩ := hr.passes x ho
    refine .inl ⟨_, _, ts, rfl, hp, ?_⟩
    rintro rfl
    have hlt := hw x ho
    rw [hp.eq_of_nil] at hlt
    exact absurd hlt (Nat.lt_irrefl _)
  | error e =>
    obtain ⟨ts, hb⟩ := hr.breaks e ho
    exact .inr ⟨e, _, ts, rfl, hb⟩

theorem atHead_of_eof (h : p.current = .eof) :
    atHead p = (.finished (TokenSupply.failure p.supply), ⟨p, .over⟩) := by
  unfold atHead
  rw [h]

theorem atHead_of_semicolon (h : p.current = .operator ';') :
    atHead p = (.prompt, ⟨p, .skipping⟩) := by
  unfold atHead
  rw [h]
  rfl

/-- A unit that has begun is read or breaks off. -/
theorem atHead_cases (he : p.current ≠ .eof) (hs : p.current ≠ .operator ';') :
    (∃ i q ts, atHead p = (i, ⟨q, .head⟩) ∧ Passes p ts q ∧ ts ≠ []) ∨
      ∃ e q ts, atHead p = (.fault e, ⟨q, .skipping⟩) ∧ Breaks p e ts q := by
  unfold atHead
  split
  · contradiction
  · contradiction
  · exact ofParse_cases (accounts_definition p) (fun _ => weight_definition_lt) _
  · exact ofParse_cases (accounts_declaration p) (fun _ => weight_declaration_lt) _
  · exact ofParse_cases (accounts_standalone p) (fun _ => weight_standalone_lt) _

end Head

/-- The pieces cover the results exactly, none of them is empty, and the items of the reader are
theirs. -/
structure Covers (r : Reader Lexer) (rs : List Lexed) (pieces : List Piece) : Prop where
  results : pieces.flatMap Piece.results = rs
  ne_nil : ∀ piece ∈ pieces, piece.results ≠ []
  items : ∃ failure, r.items = pieces.map Piece.item ++ [.finished failure]

section Covers

variable {r s : Reader Lexer} {rs : List Lexed} {piece : Piece} {pieces : List Piece}

theorem Covers.cons (h : Covers s rs pieces) (hn : r.next = some (piece.item, s))
    (hne : piece.results ≠ []) : Covers r (piece.results ++ rs) (piece :: pieces) where
  results := by rw [List.flatMap_cons, h.results]
  ne_nil := List.forall_mem_cons.2 ⟨hne, h.ne_nil⟩
  items := by
    obtain ⟨failure, hi⟩ := h.items
    exact ⟨failure, by rw [items_of_next hn, hi]; rfl⟩

theorem Covers.skip {p : Parser Lexer} (h : Covers ⟨p.skip.2, .head⟩ p.skip.2.ahead pieces) :
    Covers ⟨p, .skipping⟩ p.supply.results (p.skip.1.map .malformed ++ pieces) where
  results := by
    rw [List.flatMap_append, h.results, results_eq_skip, List.flatMap_map, List.map_eq_flatMap]
    rfl
  ne_nil piece hp := by
    rcases List.mem_append.1 hp with hp | hp
    · obtain ⟨e, -, rfl⟩ := List.mem_map.1 hp
      exact List.cons_ne_nil _ _
    · exact h.ne_nil piece hp
  items := by
    obtain ⟨failure, hi⟩ := h.items
    refine ⟨failure, ?_⟩
    rw [items_skip, hi, List.map_append, List.map_map, List.append_assoc]
    rfl

end Covers

/-- Where a unit may begin the results ahead are cut into pieces. -/
theorem exists_cuts (p : Parser Lexer) (hp : p.Settled) :
    ∃ pieces, Cuts p pieces ∧ Covers ⟨p, .head⟩ p.ahead pieces := by
  induction hw : p.ahead.length using Nat.strongRecOn generalizing p with
  | ind w ih =>
    subst hw
    by_cases he : p.current = .eof
    · have hn : (⟨p, .head⟩ : Reader Lexer).next = some _ := congrArg some (atHead_of_eof he)
      refine ⟨[], .over he, (ahead_of_eof he hp).symm, nofun, TokenSupply.failure p.supply, ?_⟩
      rw [items_of_next hn, items_of_next_eq_none rfl]
      rfl
    have skip {q : Parser Lexer} {front : List Lexed} (hf : front ≠ [])
        (ha : p.ahead = front ++ q.supply.results) :
        ∃ pieces, Cuts q.skip.2 pieces ∧ Covers ⟨q.skip.2, .head⟩ q.skip.2.ahead pieces := by
      refine ih _ ?_ _ (settled_skip q) rfl
      have hpos := List.length_pos_iff.2 hf
      rw [ha, results_eq_skip, List.length_append, List.length_append]
      omega
    by_cases hs : p.current = .operator ';'
    · have hn : (⟨p, .head⟩ : Reader Lexer).next = some (Piece.semicolon.item, ⟨p, .skipping⟩) :=
        congrArg some (atHead_of_semicolon hs)
      have ha : p.ahead = Piece.semicolon.results ++ p.supply.results := by
        rw [ahead_of_ne_eof he, hs]
        rfl
      obtain ⟨pieces, hc, hv⟩ := skip (List.cons_ne_nil _ _) ha
      rw [ha]
      exact ⟨_, .semicolon hs hc, hv.skip.cons hn (List.cons_ne_nil _ _)⟩
    rcases atHead_cases he hs with ⟨i, q, ts, hh, hpass, hts⟩ | ⟨e, q, ts, hh, hb⟩
    · have hne : (Piece.unit i ts).results ≠ [] := by simpa [Piece.results] using hts
      have ha : p.ahead = (Piece.unit i ts).results ++ q.ahead := hpass.ahead
      have hlt : q.ahead.length < p.ahead.length := by
        have hpos := List.length_pos_iff.2 hne
        rw [ha, List.length_append]
        omega
      obtain ⟨pieces, hc, hv⟩ := ih _ hlt q (hpass.settled hp) rfl
      rw [ha]
      exact ⟨_, .unit hh hpass hc, hv.cons (congrArg some hh) hne⟩
    · have hne := hb.results_ne_nil he
      have ha : p.ahead = (Piece.fault e ts).results ++ q.supply.results := hb.ahead
      obtain ⟨pieces, hc, hv⟩ := skip hne ha
      have hcur : q.skip.2.current = Lexed.firstToken _ :=
        (current_skip q).trans (congrArg _ hv.skip.results.symm)
      rw [ha]
      exact ⟨_, .fault hh hb hc hcur, hv.skip.cons (congrArg some hh) hne⟩

section AtHead

variable {σ : Type} [TokenSupply σ] {p q : Parser σ} {item : Item}

theorem of_ofParse {α : Type} {r : Parse p α} {f : α → Item} {P : Item → Prop}
    (hf : ∀ x, P (f x)) (h : ofParse r f = (item, ⟨q, .head⟩)) : P item := by
  unfold ofParse at h
  split at h
  · obtain ⟨rfl, -⟩ := Prod.mk.inj h
    exact hf _
  · cases h

theorem of_atHead {P : Item → Prop} (hd : ∀ d, P (.definition d)) (hp : ∀ p, P (.declaration p))
    (he : ∀ d, P (.expression d)) (h : atHead p = (item, ⟨q, .head⟩)) : P item := by
  unfold atHead at h
  split at h
  · cases h
  · cases h
  · exact of_ofParse hd h
  · exact of_ofParse hp h
  · exact of_ofParse he h

theorem offender_of_atHead (h : atHead p = (item, ⟨q, .head⟩)) : item.offender = [] :=
  of_atHead (P := fun item => item.offender = []) (fun _ => rfl) (fun _ => rfl) (fun _ => rfl) h

end AtHead

theorem offender_subset_of_malformed (es : List LexError) :
    ∀ piece ∈ es.map Piece.malformed, piece.item.offender ⊆ piece.results := by
  intro piece hp
  obtain ⟨e, -, rfl⟩ := List.mem_map.1 hp
  exact List.Subset.refl _

theorem offender_subset_of_cuts {p : Parser Lexer} {pieces : List Piece} (h : Cuts p pieces) :
    ∀ piece ∈ pieces, piece.item.offender ⊆ piece.results := by
  induction h with
  | semicolon _ _ ih =>
    exact List.forall_mem_cons.2 ⟨List.nil_subset _,
      List.forall_mem_append.2 ⟨offender_subset_of_malformed _, ih⟩⟩
  | unit h _ _ ih =>
    exact List.forall_mem_cons.2 ⟨offender_of_atHead h ▸ List.nil_subset _, ih⟩
  | fault _ _ _ _ ih =>
    exact List.forall_mem_cons.2 ⟨List.subset_append_right _ _,
      List.forall_mem_append.2 ⟨offender_subset_of_malformed _, ih⟩⟩
  | _ => exact nofun

theorem offender_subset_results (l : Lexer) :
    ∀ item ∈ (start l).items, item.offender ⊆ l.results := by
  have hsettled := settled_skip (.start l)
  obtain ⟨rest, hcuts, hcovers⟩ := exists_cuts _ hsettled
  obtain ⟨hresults, -, failure, hitems⟩ := hcovers.skip
  have hall : (start l).items = .prompt :: _ := (items_start l).trans (congrArg _ hitems)
  rw [hall]
  refine List.forall_mem_cons.2 ⟨List.nil_subset _, List.forall_mem_append.2
    ⟨fun item hi => ?_, List.forall_mem_singleton.2 (List.nil_subset _)⟩⟩
  obtain ⟨piece, hp, rfl⟩ := List.mem_map.1 hi
  have hsub := List.forall_mem_append.2
    ⟨offender_subset_of_malformed _, offender_subset_of_cuts hcuts⟩ piece hp
  intro r hr
  have hm : r ∈ (Parser.start l).supply.results :=
    hresults ▸ List.mem_flatMap.2 ⟨piece, hp, hsub hr⟩
  exact hm

end Reader

end Reckoner
