import Mathlib.Logic.Relation
import Reckoner.Proofs.Grammar.Pieces
import Reckoner.Proofs.Session.Run
import Reckoner.Proofs.Token.Delivery

/-!
# Acting before asking for more

A reader has read a unit once it has come to the lexeme after it, and the lexer has then taken one
character more than that lexeme.  Only then does the session deal with the unit, and only after that
does the reader go on.  So a line is asked for when there has been a turn for all units that the
lines before it let the reader read (`Session.acts_before_asking`).

Where a reader is, is said by the calls of the lexer: how many there have been, and in a place where
a unit may begin, which of them gave the current token (`Reader.Drawn`).
-/

namespace Reckoner

def Item.isUnit : Item → Bool
  | .definition _ => true
  | .declaration _ => true
  | .expression _ => true
  | _ => false

namespace Parser

variable {source : Source} {m n : Nat} {p q : Parser (Traced Lexer)} {t : Token} {ts : List Token}

/-- The current token is the result of call number `n` of the lexer, and that was the last one. -/
structure Stands (source : Source) (n : Nat) (p : Parser (Traced Lexer)) : Prop where
  supply : p.supply.supply = (Lexer.ofSource source).after (n + 1)
  current : ((Lexer.ofSource source).after n).next.1 = .ok p.current

theorem supply_advance (h : p.supply.supply = (Lexer.ofSource source).after n) :
    p.advance.2.supply.supply = (Lexer.ofSource source).after (n + 1) := by
  rw [Lexer.after_succ, ← h]
  rfl

theorem stands_advance (h : p.supply.supply = (Lexer.ofSource source).after n)
    (ha : p.advance.1 = .ok t) : Stands source n p.advance.2 where
  supply := supply_advance h
  current := by
    rw [current_advance_of_ok ha, ← h]
    exact ha

theorem Passes.stands (h : Passes p ts q) (hp : Stands source n p) :
    Stands source (n + ts.length) q ∧
      ∀ k t, ts[k]? = some t → ((Lexer.ofSource source).after (n + k)).next.1 = .ok t ∧
        t ≠ .eof := by
  induction h generalizing n with
  | nil => exact ⟨hp, nofun⟩
  | @cons p q t u ts hc ht ha _ ih =>
    obtain ⟨hq, hcalls⟩ := ih (stands_advance hp.supply ha)
    rw [List.length_cons, ← Nat.add_assoc, Nat.add_right_comm]
    refine ⟨hq, fun k u hk => ?_⟩
    cases k with
    | zero =>
      obtain rfl := Option.some.inj hk
      exact ⟨hc ▸ hp.current, ht⟩
    | succ k =>
      rw [← Nat.add_assoc, Nat.add_right_comm]
      exact hcalls k u hk

theorem Breaks.supply {e : ParseError} (h : Breaks p e ts q) (hp : Stands source n p) :
    ∃ m, n < m ∧ q.supply.supply = (Lexer.ofSource source).after m := by
  cases h with
  | found h _ => exact ⟨_, by omega, (h.stands hp).1.supply⟩
  | @malformed _ ts q h _ _ =>
    exact ⟨n + ts.length + 1 + 1, by omega, supply_advance (h.stands hp).1.supply⟩

end Parser

namespace Reader

open Reckoner.Parser

variable {source : Source} {m n : Nat} {item : Item} {r s : Reader (Traced Lexer)}

/-- The lexer has been called `n` times.  Where a unit may begin, the current token is the result of
the last call. -/
structure Drawn (source : Source) (n : Nat) (r : Reader (Traced Lexer)) : Prop where
  supply : r.parser.supply.supply = (Lexer.ofSource source).after n
  head : r.phase = .head → ∃ m, n = m + 1 ∧ Stands source m r.parser

theorem drawn_start (source : Source) : Drawn source 0 (start ⟨Lexer.ofSource source, #[]⟩) :=
  ⟨rfl, nofun⟩

theorem drawn_of_stands {p : Parser (Traced Lexer)} (h : Stands source n p) (phase : Phase) :
    Drawn source (n + 1) ⟨p, phase⟩ :=
  ⟨h.supply, fun _ => ⟨n, rfl, h⟩⟩

theorem drawn_atHead {p : Parser (Traced Lexer)} (hp : Stands source n p) :
    ∃ m, n < m ∧ Drawn source m (atHead p).2 := by
  by_cases he : p.current = .eof
  · rw [atHead_of_eof he]
    exact ⟨n + 1, Nat.lt_succ_self n, drawn_of_stands hp .over⟩
  by_cases hs : p.current = .operator ';'
  · rw [atHead_of_semicolon hs]
    exact ⟨n + 1, Nat.lt_succ_self n, drawn_of_stands hp .skipping⟩
  rcases atHead_cases he hs with ⟨i, q, ts, hh, hpass, -⟩ | ⟨e, q, ts, hh, hb⟩
  · rw [hh]
    exact ⟨_, by omega, drawn_of_stands (hpass.stands hp).1 .head⟩
  · rw [hh]
    obtain ⟨m, hm, hq⟩ := hb.supply hp
    exact ⟨m, hm, hq, nofun⟩

/-- The next item is no unit, or it is read from a place where a unit may begin. -/
theorem Drawn.next_cases (h : Drawn source n r) (hn : r.next = some (item, s)) :
    (item.isUnit = false ∧ ∃ m, n ≤ m ∧ Drawn source m s) ∨
      ∃ p m, n ≤ m + 1 ∧ Stands source m p ∧ atHead p = (item, s) := by
  unfold Reader.next at hn
  cases hp : r.phase with
  | start =>
    rw [hp] at hn
    cases hn
    exact .inl ⟨rfl, n, Nat.le_refl n, h.supply, nofun⟩
  | head =>
    rw [hp] at hn
    obtain ⟨m, rfl, hs⟩ := h.head hp
    exact .inr ⟨r.parser, m, Nat.le_refl _, hs, Option.some.inj hn⟩
  | skipping =>
    rw [hp] at hn
    have hn : atSkip r.parser = (item, s) := Option.some.inj hn
    cases ha : r.parser.advance.1 with
    | error e =>
      rw [atSkip_of_error ha] at hn
      cases hn
      exact .inl ⟨rfl, n + 1, Nat.le_succ n, supply_advance h.supply, nofun⟩
    | ok t =>
      rw [atSkip_of_ok ha] at hn
      exact .inr ⟨_, n, Nat.le_succ n, stands_advance h.supply ha, hn⟩
  | _ =>
    rw [hp] at hn
    cases hn

theorem Drawn.next (h : Drawn source n r) (hn : r.next = some (item, s)) :
    ∃ m, n ≤ m ∧ Drawn source m s := by
  rcases h.next_cases hn with ⟨-, hs⟩ | ⟨p, m, hm, hp, hh⟩
  · exact hs
  · obtain ⟨m', hm', hd⟩ := drawn_atHead hp
    rw [hh] at hd
    exact ⟨m', Nat.le_trans hm hm', hd⟩

theorem Drawn.walk (h : Drawn source n r) (hm : (item, s) ∈ r.walk) :
    ∃ m, n ≤ m ∧ Drawn source m s := by
  induction hw : r.weight using Nat.strongRecOn generalizing r n with
  | ind w ih =>
    subst hw
    cases hn : r.next with
    | none =>
      rw [walk_of_next_eq_none hn] at hm
      cases hm
    | some next =>
      rw [walk_of_next_eq_some hn] at hm
      obtain ⟨m, hle, hd⟩ := h.next hn
      rcases List.mem_cons.1 hm with heq | hm
      · cases heq
        exact ⟨m, hle, hd⟩
      · obtain ⟨m', hle', hd'⟩ := ih _ (weight_next_lt hn) hd hm rfl
        exact ⟨m', Nat.le_trans hle hle', hd'⟩

/-- The unit `item`, which leaves the reader `r`, among the lexemes of the source. -/
structure UnitAt (source : Source) (lexemes : List Lexer.Piece) (item : Item)
    (r : Reader (Traced Lexer)) where
  /-- The parser that the unit is read with. -/
  parser : Parser (Traced Lexer)
  /-- The number of its first lexeme. -/
  start : Nat
  tokens : List Token
  reads : atHead parser = (item, r)
  stands : Stands source start parser
  passes : Passes parser tokens r.parser
  results : ((lexemes.drop start).take tokens.length).map Lexer.Piece.result = tokens.map .ok

namespace UnitAt

variable {lexemes : List Lexer.Piece}

def stop (u : UnitAt source lexemes item r) : Nat :=
  u.start + u.tokens.length

theorem stands_stop (u : UnitAt source lexemes item r) : Stands source u.stop r.parser :=
  (u.passes.stands u.stands).1

end UnitAt

section Walk

variable {lexemes : List Lexer.Piece}

/-- A unit that is read stands among the lexemes. -/
theorem Drawn.exists_unitAt (h : Drawn source n r) (hl : Lexer.Delivers source lexemes)
    (hn : r.next = some (item, s)) (hu : item.isUnit = true) :
    Nonempty (UnitAt source lexemes item s) := by
  obtain ⟨hu', -⟩ | ⟨p, start, -, hp, hh⟩ := h.next_cases hn
  · exact (Bool.false_ne_true (hu'.symm.trans hu)).elim
  have he : p.current ≠ .eof := by
    intro he
    rw [atHead_of_eof he] at hh
    cases hh
    contradiction
  have hs : p.current ≠ .operator ';' := by
    intro hs
    rw [atHead_of_semicolon hs] at hh
    cases hh
    contradiction
  rcases atHead_cases he hs with ⟨i, q, ts, hh', hpass, -⟩ | ⟨e, q, ts, hh', -⟩
  · cases hh.symm.trans hh'
    refine ⟨⟨p, start, ts, hh, hp, hpass, List.ext_getElem? fun k => ?_⟩⟩
    rw [List.getElem?_map, List.getElem?_map, List.getElem?_take]
    cases hk : ts[k]? with
    | none => rw [if_neg (Nat.not_lt.2 (List.getElem?_eq_none_iff.1 hk))]; rfl
    | some t =>
      obtain ⟨hcall, hne⟩ := (hpass.stands hp).2 k t hk
      obtain ⟨piece, hpiece, hresult⟩ := hl.exists_piece hcall hne
      have hlt : k < ts.length := (List.getElem?_eq_some_iff.1 hk).1
      rw [if_pos hlt, List.getElem?_drop, hpiece, Option.map_some, hresult]
      rfl
  · cases hh.symm.trans hh'
    contradiction

/-- What has been taken by the time the unit has been read. -/
theorem UnitAt.taken (hl : Lexer.Delivers source lexemes) (u : UnitAt source lexemes item r) :
    r.parser.supply.supply.source.taken = source.taken +
      if u.stop < lexemes.length then
        min (Lexer.Piece.endOf lexemes u.stop + 1) source.chars.length
      else source.chars.length := by
  rw [u.stands_stop.supply]
  split
  · exact (hl.counts ‹_›).1
  · exact hl.taken (Nat.le_of_not_lt ‹_›)

theorem Drawn.asked_le (h : Drawn source n r) {found : Item} {s' : Reader (Traced Lexer)}
    (hn : r.next = some (found, s')) (hm : (item, s) ∈ r.walk) :
    s'.parser.supply.supply.source.asked ≤ s.parser.supply.supply.source.asked := by
  obtain ⟨m, -, hd⟩ := h.next hn
  rw [walk_of_next_eq_some hn] at hm
  rcases List.mem_cons.1 hm with heq | hm
  · cases heq
    exact Nat.le_refl _
  · obtain ⟨m', hle, hd'⟩ := hd.walk hm
    rw [hd.supply, hd'.supply]
    exact Lexer.asked_after_le _ hle

/-- A unit that is still to come, and for which the lexeme after it ends before the end of the first
`k` lines, can be read without another line, and so can the next item. -/
theorem Drawn.not_asked {input rest : Lines} {k : Nat} {front : List Char}
    (h : Drawn (.ofLines input) n r) (hl : Lexer.Delivers (.ofLines input) lexemes)
    (hr : input.Reads k front rest) {found : Item} {s' : Reader (Traced Lexer)}
    (hn : r.next = some (found, s')) (u : UnitAt (.ofLines input) lexemes item s)
    (hm : (item, s) ∈ r.walk) (hstop : u.stop < lexemes.length)
    (hlt : Lexer.Piece.endOf lexemes u.stop < front.length) :
    ¬ s'.parser.supply.supply.source.Asked input (k + 1) := by
  intro hasked
  have hle := h.asked_le hn hm
  obtain ⟨m, -, hd⟩ := h.next hn
  obtain ⟨a, ha⟩ := Lexer.exists_source_after (.ofLines input) m
  rw [hd.supply, ha] at hasked hle
  have hfront := (Source.asked_after_iff hr a).1 hasked
  rw [u.stands_stop.supply, (hl.counts hstop).2, Source.asked_after] at hle
  have hnone : (Source.ofLines input).asked = 0 := rfl
  omega

end Walk

end Reader

namespace Session

open Reader Relation

/-- A run in progress: the session as it is, and the reader that the run goes on with, the first
`seen` notices of which have been passed on. -/
structure Stage where
  seen : Nat
  reader : Reader (Traced Lexer)
  session : Session

def Stage.begin (source : Source) (s : Session) : Stage :=
  ⟨0, Reader.start ⟨Lexer.ofSource source, #[]⟩, s⟩

/-- The run reads an item, and then the session deals with it. -/
inductive Turn : Stage → Item → Stage → Prop
  | mk {a : Stage} {item : Item} {r : Reader (Traced Lexer)} {t : Session}
    (hr : a.reader.next = some (item, r))
    (hs : step (r.parser.supply.trace.extract a.seen r.parser.supply.trace.size).toList item
      a.session = .ok () t) : Turn a item ⟨r.parser.supply.trace.size, r, t⟩

def Reaches : Stage → Stage → Prop :=
  ReflTransGen fun a b => ∃ item, Turn a item b

/-- From `s` to `t` the item has been dealt with: what it stands for has been compiled, or evaluated,
and the result or the error is written. -/
structure Carries (s : Session) (item : Item) (t : Session) : Prop where
  options : t.options = s.options
  compiler : t.compiler = (Compiler.engine.step s.options s.compiler item).2
  tells : s.Tells (s.compiler.effect s.options item) t

section Reaches

variable {source : Source} {a b c : Stage} {item : Item} {r : Reader (Traced Lexer)}

theorem Turn.carries (h : Turn a item b) : a.session.Carries item b.session := by
  obtain ⟨-, hs⟩ := h
  obtain ⟨-, ho, hc⟩ := (does_step _ item).leaves _ _ _ rfl rfl hs
  exact ⟨ho, hc, (does_step _ item).tells _ _ _ rfl rfl hs⟩

theorem Turn.runFrom_eq (h : Turn a item b) :
    runFrom a.seen a.reader a.session = runFrom b.seen b.reader b.session := by
  obtain ⟨hr, hs⟩ := h
  rw [runFrom_eq_deal, runFrom_eq_deal, noted_of_next_eq_some hr]
  exact SinkFull.bind_of_ok hs

theorem Turn.next_eq (h : Turn a item b) : a.reader.next = some (item, b.reader) := by
  obtain ⟨hr, -⟩ := h
  exact hr

theorem Reaches.runFrom_eq (h : Reaches a b) :
    runFrom a.seen a.reader a.session = runFrom b.seen b.reader b.session := by
  induction h with
  | refl => rfl
  | tail _ h ih =>
    obtain ⟨item, h⟩ := h
    exact ih.trans h.runFrom_eq

/-- What has been written stays. -/
theorem Reaches.exists_tells (h : Reaches a b) : ∃ e, a.session.Tells e b.session := by
  induction h with
  | refl => exact ⟨{}, tells_empty _⟩
  | tail _ h ih =>
    obtain ⟨item, h⟩ := h
    obtain ⟨e, he⟩ := ih
    exact ⟨_, he.trans h.carries.tells⟩

theorem Reaches.drawn {n : Nat} (h : Reaches a b) (hd : Drawn source n a.reader) :
    ∃ m, Drawn source m b.reader := by
  induction h with
  | refl => exact ⟨n, hd⟩
  | tail _ h ih =>
    obtain ⟨item, h⟩ := h
    obtain ⟨m, hm⟩ := ih
    obtain ⟨m', -, hm'⟩ := hm.next h.next_eq
    exact ⟨m', hm'⟩

/-- What is still to come at a stage was to come before. -/
theorem Reaches.walk_subset (h : Reaches a b) : b.reader.walk ⊆ a.reader.walk := by
  induction h with
  | refl => exact List.Subset.refl _
  | tail _ h ih =>
    obtain ⟨item, h⟩ := h
    rw [walk_of_next_eq_some h.next_eq] at ih
    exact fun r hr => ih (List.mem_cons_of_mem _ hr)

/-- The item is still to come at the stage `b`, or there has been a turn for it on the way. -/
theorem Reaches.mem_walk (h : Reaches a b) (hm : (item, r) ∈ a.reader.walk) :
    (item, r) ∈ b.reader.walk ∨
      ∃ c d, Reaches a c ∧ Turn c item d ∧ d.reader = r ∧ Reaches d b := by
  induction h with
  | refl => exact .inl hm
  | @tail b b' hb h ih =>
    obtain ⟨found, h⟩ := h
    rcases ih with hm | ⟨c, d, hc, hturn, hd, hdb⟩
    · rw [walk_of_next_eq_some h.next_eq] at hm
      rcases List.mem_cons.1 hm with heq | hm
      · cases heq
        exact .inr ⟨b, b', hb, h, rfl, .refl⟩
      · exact .inl hm
    · exact .inr ⟨c, d, hc, hturn, hd, hdb.tail ⟨found, h⟩⟩

def Stage.advance (a : Stage) : Stage :=
  match a.reader.next with
  | none => a
  | some (item, r) =>
    let trace := r.parser.supply.trace
    match step (trace.extract a.seen trace.size).toList item a.session with
    | .ok _ t => ⟨trace.size, r, t⟩
    | .error _ _ => a

theorem reaches_advance (a : Stage) : Reaches a a.advance := by
  unfold Stage.advance
  split
  · exact .refl
  · rename_i item r hr
    simp only
    split
    · rename_i hs
      exact .single ⟨item, .mk hr hs⟩
    · exact .refl

theorem reaches_iterate (a : Stage) (n : Nat) : Reaches a (Stage.advance^[n] a) := by
  induction n with
  | zero => exact .refl
  | succ n ih =>
    rw [Function.iterate_succ_apply']
    exact ih.trans (reaches_advance _)

end Reaches

/-- At each stage of a run, a unit has been read, and is about to be dealt with, once the lexer has
taken the characters up to the end of the lexeme after the unit and one more, or all characters if
there are no more; the turn then compiles it and writes what there is to write.  Where the source
reads lines, and has asked for the line after the first `k` when the next item has been read, there
has been a turn for every unit for which the lexeme after it, say a semicolon, is in these lines and
does not end them: it has been compiled or evaluated, and what was written stands before all that
has been written since. -/
theorem acts_before_asking (source : Source) (s : Session) :
    ∃ lexemes, Lexer.Cut source.chars lexemes ∧
      ∀ a, Reaches (.begin source s) a →
        run (Lexer.ofSource source) s = runFrom a.seen a.reader a.session ∧
        ∀ item r, a.reader.next = some (item, r) →
          (item.isUnit = true →
            (∃ u : UnitAt source lexemes item r,
              r.parser.supply.supply.source.taken = source.taken +
                if u.stop < lexemes.length then
                  min (Lexer.Piece.endOf lexemes u.stop + 1) source.chars.length
                else source.chars.length) ∧
            ∀ found b, Turn a found b →
              found = item ∧ b.reader = r ∧ a.session.Carries item b.session) ∧
          ∀ input k front rest, source = .ofLines input → input.Reads k front rest →
            r.parser.supply.supply.source.Asked input (k + 1) →
            ∀ item' r' (u : UnitAt source lexemes item' r'),
              (item', r') ∈ (Stage.begin source s).reader.walk → u.stop < lexemes.length →
              Lexer.Piece.endOf lexemes u.stop < front.length →
              ∃ b c since, Reaches (.begin source s) b ∧ Turn b item' c ∧ c.reader = r' ∧
                Reaches c a ∧ b.session.Carries item' c.session ∧
                c.session.Tells since a.session := by
  obtain ⟨lexemes, hcut, hl⟩ := Lexer.exists_delivers source
  refine ⟨lexemes, hcut, fun a ha => ⟨ha.runFrom_eq, fun item r hr => ?_⟩⟩
  obtain ⟨n, hn⟩ := ha.drawn (drawn_start source)
  constructor
  · intro hu
    obtain ⟨u⟩ := hn.exists_unitAt hl hr hu
    refine ⟨⟨u, u.taken hl⟩, fun found b h => ?_⟩
    cases hr.symm.trans h.next_eq
    exact ⟨rfl, rfl, h.carries⟩
  · rintro input k front rest rfl hreads hasked item' r' u hm hstop hlt
    rcases ha.mem_walk hm with hm | ⟨b, c, hb, hturn, hc, hca⟩
    · exact absurd hasked (hn.not_asked hl hreads hr u hm hstop hlt)
    · obtain ⟨since, hsince⟩ := hca.exists_tells
      exact ⟨b, c, since, hb, hturn, hc, hca, hturn.carries, hsince⟩

/-- A run on two lines, when the second has been asked for to read the unit on it.  The unit on the
first line has been evaluated, and its value has been written. -/
theorem acts_before_asking_lines :
    let input : Lines := ⟨(utf8 "1+2;\n4;\n").toList, none⟩
    let begun := Stage.begin (.ofLines input) (fresh {} "test" true .unlimited)
    let a := Stage.advance^[3] begun
    ∃ item r item' r', a.reader.next = some (item, r) ∧
      r.parser.supply.supply.source.Asked input 2 ∧
      begun.advance.reader.next = some (item', r') ∧ item'.isUnit = true ∧
      (∃ b c since, Reaches begun b ∧ Turn b item' c ∧ c.reader = r' ∧ Reaches c a ∧
        b.session.Carries item' c.session ∧ c.session.Tells since a.session) ∧
      a.session.out.bytes = utf8 "Evaluated to 3\n" := by
  intro input begun a
  have hfirst : input.read = .line "1+2;\n".toList ⟨(utf8 "4;\n").toList, none⟩ :=
    Lines.read_line (utf8 "1+2;\n").toList _ (by decide +kernel) rfl (by decide +kernel)
  have hsecond : (Lines.mk (utf8 "4;\n").toList none).read = .line "4;\n".toList ⟨[], none⟩ :=
    Lines.read_line (utf8 "4;\n").toList _ (by decide +kernel) rfl (by decide +kernel)
  -- At the stage after the first prompt the unit is read, and five characters are taken then.
  have hunit : begun.advance.reader.next.map
      (fun n => (n.1.isUnit, n.2.parser.supply.supply.source.taken)) = some (true, 5) := by
    decide +kernel
  obtain ⟨⟨item', r'⟩, hn', hfound⟩ := Option.map_eq_some_iff.1 hunit
  obtain ⟨hitem', htaken⟩ := Prod.mk.inj hfound
  -- Two turns later both lines have been read.
  have hlines : a.reader.next.map (fun n => n.2.parser.supply.supply.source.lines) =
      some ⟨[], none⟩ := by decide +kernel
  obtain ⟨⟨item, r⟩, hn, hlines⟩ := Option.map_eq_some_iff.1 hlines
  have hreads : input.Reads 2 ("1+2;\n".toList ++ ("4;\n".toList ++ [])) ⟨[], none⟩ :=
    .cons hfirst (.cons hsecond .nil)
  have hasked : r.parser.supply.supply.source.Asked input 2 :=
    ⟨2, _, hlines ▸ hreads, Nat.le_add_right _ _⟩
  obtain ⟨lexemes, -, h⟩ := acts_before_asking (.ofLines input) (fresh {} "test" true .unlimited)
  obtain ⟨⟨u, hu⟩, -⟩ := ((h _ (reaches_advance begun)).2 item' r' hn').1 hitem'
  have hm : (item', r') ∈ begun.reader.walk := by
    refine (reaches_advance begun).walk_subset ?_
    rw [walk_of_next_eq_some hn']
    exact List.mem_cons_self
  have htotal : (Source.ofLines input).chars.length = 8 := by decide +kernel
  have hstart : (Source.ofLines input).taken = 0 := rfl
  have hstop : u.stop < lexemes.length ∧ Lexer.Piece.endOf lexemes u.stop < 5 := by
    rw [htaken, htotal, hstart] at hu
    split at hu <;> omega
  have hturn := ((h a (reaches_iterate begun 3)).2 item r hn).2 input 1 _ _ rfl (.single hfirst)
    hasked item' r' u hm hstop.1 hstop.2
  exact ⟨item, r, item', r', hn, hasked, hn', hitem', hturn, by decide +kernel⟩

end Session

end Reckoner
