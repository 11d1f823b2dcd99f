import Mathlib.Logic.Function.Iterate
import Reckoner.Proofs.Token.Scanning

/-!
# Lexing as a partition of the text

A text is cut into lexemes with layout before and after them.  Layout is blanks and comments; a
lexeme is a run of letters and digits, a run of digits and points, each as long as it can be, or a
character by itself (`Lexer.Spells`).  What lexing a text does is exactly such a cut: every scan
takes layout and a lexeme off the text (`Scans.exists_spells`), and layout and a lexeme are always
scanned that way (`Spells.scans`).

The main statement, `next_partition`, follows the calls of a lexer one by one.  Each asks the source
for one character more than the lexeme, and after the end no call asks for any.
-/

namespace Reckoner

namespace Lexer

open Text

/-- All of `cs` are in the class, and the first character after them is not. -/
structure Run (p : Char → Bool) (cs rest : List Char) : Prop where
  all : ∀ c ∈ cs, p c = true
  stops : ∀ c ∈ rest.head?, p c = false

section Run

variable {p : Char → Bool} {cs rest : List Char}

theorem run_takeWhile (p : Char → Bool) (cs : List Char) :
    Run p (cs.takeWhile p) (cs.dropWhile p) where
  all := List.all_eq_true.1 List.all_takeWhile
  stops c hc := by
    have h := List.head?_dropWhile_not p cs
    rw [Option.mem_def.1 hc] at h
    exact h

theorem Run.takeWhile_eq (h : Run p cs rest) : (cs ++ rest).takeWhile p = cs := by
  have hr : rest.takeWhile p = [] := by
    cases rest with
    | nil => rfl
    | cons c rest => simp [h.stops c rfl]
  rw [List.takeWhile_append_of_pos h.all, hr, List.append_nil]

theorem Run.dropWhile_eq (h : Run p cs rest) : (cs ++ rest).dropWhile p = rest := by
  rw [List.dropWhile_append_of_pos h.all]
  cases rest with
  | nil => rfl
  | cons c rest => simp [h.stops c rfl]

end Run

/-- The characters before `rest` are passed over: blanks, and comments that go on up to the end of
their line or of the text. -/
inductive Layout : List Char → List Char → Prop
  | nil {rest : List Char} : Layout [] rest
  | blank {c : Char} {cs rest : List Char} (h : isBlank c = true) (hl : Layout cs rest) :
    Layout (c :: cs) rest
  | comment {text cs rest : List Char}
    (h : Run (fun c => !(c == '\n' || c == '\r')) text (cs ++ rest)) (hl : Layout cs rest) :
    Layout ('#' :: (text ++ cs)) rest

/-- The lexeme, as it stands before `rest`, gives the result. -/
inductive Spells : List Char → Lexed → List Char → Prop
  | defKeyword {c : Char} {cs rest : List Char} (hc : c.isAlpha = true)
    (h : Run Char.isAlphanum (c :: cs) rest) (hw : String.ofList (c :: cs) = "def") :
    Spells (c :: cs) (.ok .defKeyword) rest
  | externKeyword {c : Char} {cs rest : List Char} (hc : c.isAlpha = true)
    (h : Run Char.isAlphanum (c :: cs) rest) (hw : String.ofList (c :: cs) = "extern") :
    Spells (c :: cs) (.ok .externKeyword) rest
  | ident {c : Char} {cs rest : List Char} (hc : c.isAlpha = true)
    (h : Run Char.isAlphanum (c :: cs) rest) (hd : String.ofList (c :: cs) ≠ "def")
    (he : String.ofList (c :: cs) ≠ "extern") :
    Spells (c :: cs) (.ok (.ident (String.ofList (c :: cs)))) rest
  | number {cs rest : List Char} (h : Run (fun c => c.isDigit || c == '.') cs rest)
    (hd : ∃ c ∈ cs, c.isDigit = true) (hp : cs.count '.' ≤ 1) :
    Spells cs
      (.ok (.number (Float.ofScientific (Decimal.digitsValue cs) true
        (Decimal.placesAfterPoint cs)))) rest
  | malformed {cs rest : List Char} (hne : cs ≠ [])
    (h : Run (fun c => c.isDigit || c == '.') cs rest)
    (hn : (∀ c ∈ cs, c.isDigit = false) ∨ 2 ≤ cs.count '.') :
    Spells cs (.error (.malformedNumber (String.ofList cs))) rest
  | symbol {c : Char} {rest : List Char} (hb : isBlank c = false) (ha : c.isAlpha = false)
    (hn : c.isDigit = false) (hp : c ≠ '.') (hh : c ≠ '#') :
    Spells [c] (.ok (.operator c)) rest

/-- A lexeme with the layout before it, and the result that it gives. -/
structure Piece where
  layout : List Char
  lexeme : List Char
  result : Lexed

/-- The characters are those of the pieces, one after another, and layout after the last one. -/
inductive Cut : List Char → List Piece → Prop
  | nil {tail : List Char} (h : Layout tail []) : Cut tail []
  | cons {layout lexeme rest : List Char} {r : Lexed} {pieces : List Piece}
    (hl : Layout layout (lexeme ++ rest)) (hs : Spells lexeme r rest) (h : Cut rest pieces) :
    Cut (layout ++ (lexeme ++ rest)) (⟨layout, lexeme, r⟩ :: pieces)

/-- How many characters there are up to the end of the lexeme of number `n`. -/
def Piece.endOf (pieces : List Piece) (n : Nat) : Nat :=
  ((pieces.take (n + 1)).flatMap fun p => p.layout ++ p.lexeme).length

theorem Piece.endOf_cons_zero (piece : Piece) (pieces : List Piece) :
    endOf (piece :: pieces) 0 = piece.layout.length + piece.lexeme.length := by
  simp [endOf]

theorem Piece.endOf_cons_succ (piece : Piece) (pieces : List Piece) (n : Nat) :
    endOf (piece :: pieces) (n + 1) =
      piece.layout.length + piece.lexeme.length + endOf pieces n := by
  rw [endOf, List.take_succ_cons, List.flatMap_cons, List.length_append, List.length_append]
  rfl

section Scans

variable {cs rest layout lexeme : List Char} {r : Lexed}

theorem Layout.blanks {bs : List Char} (hb : ∀ c ∈ bs, isBlank c = true) (h : Layout cs rest) :
    Layout (bs ++ cs) rest := by
  induction bs with
  | nil => exact h
  | cons b bs ih =>
    obtain ⟨hb, hbs⟩ := List.forall_mem_cons.1 hb
    exact .blank hb (ih hbs)

theorem Layout.exists_of_dropWhile {es : List Char} (h : Layout layout es)
    (hd : cs.dropWhile isBlank = layout ++ es) :
    ∃ layout', cs = layout' ++ es ∧ Layout layout' es := by
  refine ⟨cs.takeWhile isBlank ++ layout, ?_, h.blanks (run_takeWhile isBlank cs).all⟩
  rw [List.append_assoc, ← hd, List.takeWhile_append_dropWhile]

theorem Layout.comment_of_dropWhile {ds es : List Char} (h : Layout layout es)
    (hd : ('#' :: ds).dropWhile (!isLineEnd ·) = layout ++ es) :
    ∃ layout', '#' :: ds = layout' ++ es ∧ Layout layout' es := by
  rw [List.dropWhile_cons_of_pos rfl] at hd
  refine ⟨'#' :: (ds.takeWhile (!isLineEnd ·) ++ layout), ?_, .comment ?_ h⟩
  · rw [List.cons_append, List.append_assoc, ← hd, List.takeWhile_append_dropWhile]
  · rw [← hd]
    exact run_takeWhile _ ds

theorem spells_word {c : Char} (hc : c.isAlpha = true) (h : Run Char.isAlphanum (c :: cs) rest) :
    Spells (c :: cs) (.ok (.ofWord (String.ofList (c :: cs)))) rest := by
  unfold Token.ofWord
  split
  · exact .defKeyword hc h ‹_›
  · split
    · exact .externKeyword hc h ‹_›
    · exact .ident hc h ‹_› ‹_›

theorem isLiteral_iff (h : ∀ c ∈ cs, Decimal.isNumeral c = true) :
    Decimal.isLiteral cs = true ↔ (∃ c ∈ cs, c.isDigit = true) ∧ cs.count '.' ≤ 1 := by
  simp [Decimal.isLiteral, List.all_eq_true.2 h]

theorem spells_numeral (hne : cs ≠ []) (h : Run Decimal.isNumeral cs rest) :
    Spells cs (numeral cs) rest := by
  unfold numeral Decimal.readLiteral?
  by_cases hl : Decimal.isLiteral cs = true
  · obtain ⟨hd, hp⟩ := (isLiteral_iff h.all).1 hl
    rw [if_pos hl]
    exact .number h hd hp
  · rw [if_neg hl]
    refine .malformed hne h ?_
    rw [isLiteral_iff h.all] at hl
    rcases Decidable.not_and_iff_or_not.1 hl with hd | hp
    · exact .inl fun c hc => Bool.eq_false_iff.2 fun hd' => hd ⟨c, hc, hd'⟩
    · exact .inr (Nat.lt_of_not_le hp)

/-- A scan that gives a result takes layout and a lexeme. -/
theorem Scans.exists_spells (h : Scans cs r rest) (hr : r ≠ .ok .eof) :
    ∃ layout lexeme, cs = layout ++ (lexeme ++ rest) ∧ Layout layout (lexeme ++ rest) ∧
      Spells lexeme r rest := by
  -- The blanks before the lexeme are the same in all cases.
  have of_lexeme {cs lexeme rest : List Char} {r : Lexed} (hs : Spells lexeme r rest)
      (hd : cs.dropWhile isBlank = lexeme ++ rest) :
      ∃ layout lexeme, cs = layout ++ (lexeme ++ rest) ∧ Layout layout (lexeme ++ rest) ∧
        Spells lexeme r rest := by
    obtain ⟨layout, hcs, hl⟩ := Layout.nil.exists_of_dropWhile hd
    exact ⟨layout, lexeme, hcs, hl, hs⟩
  induction h with
  | ended h => exact absurd rfl hr
  | @word cs ds c hd hc =>
    have hrun := run_takeWhile Char.isAlphanum (c :: ds)
    have hcons := List.takeWhile_cons_of_pos (p := Char.isAlphanum) (a := c) (l := ds)
      (by simp [Char.isAlphanum, hc])
    refine of_lexeme ?_ (hd.trans (List.takeWhile_append_dropWhile (p := Char.isAlphanum)).symm)
    rw [hcons] at hrun ⊢
    exact spells_word hc hrun
  | @number cs ds c hd hc hn =>
    refine of_lexeme (spells_numeral ?_ (run_takeWhile Decimal.isNumeral (c :: ds)))
      (hd.trans List.takeWhile_append_dropWhile.symm)
    rw [List.takeWhile_cons_of_pos hn]
    exact List.cons_ne_nil _ _
  | @comment cs ds rest r hd _ ih =>
    obtain ⟨layout, lexeme, he, hl, hs⟩ := ih hr
    obtain ⟨layout, hds, hl⟩ := hl.comment_of_dropWhile he
    obtain ⟨layout, hcs, hl⟩ := hl.exists_of_dropWhile (hd.trans hds)
    exact ⟨layout, lexeme, hcs, hl, hs⟩
  | @symbol cs ds c hd hc hn hh =>
    have hb : isBlank c = false := (run_takeWhile isBlank cs).stops c (by rw [hd]; rfl)
    simp only [Decimal.isNumeral, Bool.or_eq_false_iff, beq_eq_false_iff_ne] at hn
    exact of_lexeme (.symbol hb hc hn.1 hn.2 hh) hd

theorem Scans.layout_of_eof (h : Scans cs (.ok .eof) rest) : Layout cs [] := by
  generalize he : (.ok .eof : Lexed) = end' at h
  -- With nothing after it the layout is all there is.
  have whole {cs : List Char} (h : ∃ layout, cs = layout ++ [] ∧ Layout layout []) :
      Layout cs [] := by
    obtain ⟨layout, rfl, hl⟩ := h
    rwa [List.append_nil]
  induction h with
  | ended h => exact whole (Layout.nil.exists_of_dropWhile h)
  | word => cases Token.ofWord_ne_eof _ (Except.ok.inj he).symm
  | number => cases numeral_ne_eof _ he.symm
  | @comment cs ds rest r hd _ ih =>
    obtain ⟨layout, hds, hl⟩ := (ih he).comment_of_dropWhile (List.append_nil _).symm
    exact whole (hl.exists_of_dropWhile (hd.trans hds))
  | symbol => cases he

theorem Layout.scans {es : List Char} (hl : Layout layout es) (h : Scans es r rest) :
    Scans (layout ++ es) r rest := by
  induction hl with
  | nil => exact h
  | @blank c cs es hb _ ih =>
    refine (ih h).of_dropWhile_eq ?_
    rw [List.cons_append, List.dropWhile_cons_of_pos hb]
  | @comment text cs es hrun _ ih =>
    have hd : ('#' :: (text ++ cs) ++ es).dropWhile isBlank = '#' :: (text ++ cs ++ es) := rfl
    refine .comment hd ?_
    rw [List.dropWhile_cons_of_pos rfl, List.append_assoc]
    exact (Run.dropWhile_eq (p := (!isLineEnd ·)) hrun).symm ▸ ih h

theorem dropWhile_isBlank {c : Char} (hb : isBlank c = false) (cs : List Char) :
    (c :: cs).dropWhile isBlank = c :: cs :=
  List.dropWhile_cons_of_neg (by simp [hb])

theorem isAlpha_iff {c : Char} :
    c.isAlpha = true ↔ (65 ≤ c.toNat ∧ c.toNat ≤ 90) ∨ (97 ≤ c.toNat ∧ c.toNat ≤ 122) := by
  have h : c.isAlpha = (decide (65 ≤ c.val ∧ c.val ≤ 90) ||
      (decide (97 ≤ c.val) && decide (c.val ≤ 122))) := rfl
  rw [h]
  simp only [Bool.or_eq_true, Bool.and_eq_true, decide_eq_true_eq, UInt32.le_iff_toNat_le]
  rfl

theorem isDigit_iff {c : Char} : c.isDigit = true ↔ 48 ≤ c.toNat ∧ c.toNat ≤ 57 := by
  simp only [Char.isDigit, Bool.and_eq_true, decide_eq_true_eq, ge_iff_le,
    UInt32.le_iff_toNat_le]
  rfl

theorem isBlank_of_isAlpha {c : Char} (h : c.isAlpha = true) : isBlank c = false := by
  rw [isAlpha_iff] at h
  exact isBlank_eq_false (by omega) (by omega)

theorem isNumeral_apart {c : Char} (h : Decimal.isNumeral c = true) :
    c.isAlpha = false ∧ isBlank c = false := by
  simp only [Decimal.isNumeral, Bool.or_eq_true, beq_iff_eq] at h
  rcases h with hd | rfl
  · rw [isDigit_iff] at hd
    refine ⟨Bool.eq_false_iff.2 fun ha => ?_, isBlank_eq_false (by omega) (by omega)⟩
    rw [isAlpha_iff] at ha
    omega
  · decide

theorem scans_word {c : Char} (hc : c.isAlpha = true) (h : Run Char.isAlphanum (c :: cs) rest) :
    Scans (c :: cs ++ rest) (.ok (.ofWord (String.ofList (c :: cs)))) rest := by
  have hs := Scans.word (dropWhile_isBlank (isBlank_of_isAlpha hc) (cs ++ rest)) hc
  rwa [← List.cons_append, h.takeWhile_eq, h.dropWhile_eq] at hs

theorem scans_numeral (hne : lexeme ≠ []) (h : Run Decimal.isNumeral lexeme rest) :
    Scans (lexeme ++ rest) (numeral lexeme) rest := by
  obtain ⟨c, cs, rfl⟩ := List.exists_cons_of_ne_nil hne
  have hn := h.all c List.mem_cons_self
  obtain ⟨ha, hb⟩ := isNumeral_apart hn
  have hs := Scans.number (dropWhile_isBlank hb (cs ++ rest)) ha hn
  rwa [← List.cons_append, h.takeWhile_eq, h.dropWhile_eq] at hs

theorem Spells.scans (h : Spells lexeme r rest) : Scans (lexeme ++ rest) r rest := by
  cases h with
  | defKeyword hc h hw =>
    have hs := scans_word hc h
    rwa [hw] at hs
  | externKeyword hc h hw =>
    have hs := scans_word hc h
    rwa [hw] at hs
  | ident hc h hd he =>
    have hs := scans_word hc h
    rwa [Token.ofWord, if_neg hd, if_neg he] at hs
  | number h hd hp =>
    have hs := scans_numeral (fun hn => by simp [hn] at hd) h
    rwa [numeral, Decimal.readLiteral?, if_pos ((isLiteral_iff h.all).2 ⟨hd, hp⟩)] at hs
  | malformed hne h hn =>
    have hs := scans_numeral hne h
    have hl : ¬ Decimal.isLiteral lexeme = true := by
      rw [isLiteral_iff h.all]
      rintro ⟨⟨c, hc, hd⟩, hp⟩
      rcases hn with hn | hn
      · rw [hn c hc] at hd
        contradiction
      · omega
    rwa [numeral, Decimal.readLiteral?, if_neg hl] at hs
  | symbol hb ha hn hp hh =>
    exact .symbol (dropWhile_isBlank hb rest) ha (by simp [Decimal.isNumeral, hn, hp]) hh

end Scans

def after (l : Lexer) (n : Nat) : Lexer :=
  (fun l => l.next.2)^[n] l

theorem after_succ (l : Lexer) (n : Nat) : l.after (n + 1) = (l.after n).next.2 :=
  Function.iterate_succ_apply' _ n l

section Calls

variable {l : Lexer}

theorem next_after_of_eof (h : l.next.1 = .ok .eof) (n : Nat) :
    (l.after n).next.1 = .ok .eof ∧ (l.after n).next.2.upcoming = [] := by
  induction n generalizing l with
  | zero =>
    have hs := scans_next l
    rw [h] at hs
    exact ⟨h, hs.eq_nil⟩
  | succ n ih =>
    have hs := scans_next l
    rw [h] at hs
    have hnext := scans_next l.next.2
    rw [hs.eq_nil] at hnext
    exact ih ((Scans.ended rfl).unique hnext).1

/-- The calls of a lexer cut what is upcoming, up to blanks before it, into pieces. -/
theorem exists_cut (l : Lexer) (text : List Char)
    (h : text.dropWhile isBlank = l.upcoming.dropWhile isBlank) :
    ∃ pieces, Cut text pieces ∧
      (∀ n piece, pieces[n]? = some piece → (l.after n).next.1 = piece.result ∧
        Piece.endOf pieces n + (l.after n).next.2.upcoming.length = text.length) ∧
      ∀ n, pieces.length ≤ n →
        (l.after n).next.1 = .ok .eof ∧ (l.after n).next.2.upcoming = [] := by
  induction hw : l.upcoming.length using Nat.strongRecOn generalizing l text with
  | ind w ih =>
    subst hw
    have hs := (scans_next l).of_dropWhile_eq h
    by_cases he : l.next.1 = .ok .eof
    · rw [he] at hs
      exact ⟨[], .nil hs.layout_of_eof, by simp, fun n _ => next_after_of_eof he n⟩
    · obtain ⟨layout, lexeme, rfl, hl, hsp⟩ := hs.exists_spells he
      obtain ⟨pieces, hcut, hcalls, hend⟩ := ih _ (l.length_next.2 he) l.next.2 _ rfl rfl
      refine ⟨⟨layout, lexeme, l.next.1⟩ :: pieces, .cons hl hsp hcut, ?_, ?_⟩
      · intro n piece hn
        cases n with
        | zero =>
          cases hn
          refine ⟨rfl, ?_⟩
          simp [Piece.endOf_cons_zero, after, Nat.add_assoc]
        | succ n =>
          obtain ⟨hr, hlen⟩ := hcalls n piece hn
          have hlater : l.after (n + 1) = l.next.2.after n := rfl
          refine ⟨hr, ?_⟩
          rw [Piece.endOf_cons_succ, hlater, Nat.add_assoc, hlen]
          simp [Nat.add_assoc]
      · intro n hn
        cases n with
        | zero => simp at hn
        | succ n => exact hend n (Nat.le_of_succ_le_succ hn)

/-- What has been taken from the source and what is upcoming make up what there was, and each
character was asked for once. -/
structure Balanced (source : Source) (l : Lexer) : Prop where
  asked : l.source.asked + l.upcoming.length = source.asked + source.chars.length + 1
  taken : l.source.taken + l.source.chars.length = source.taken + source.chars.length
  ended : l.last = none → l.source.chars = []

variable {source : Source}

theorem balanced_ofSource (source : Source) : Balanced source (ofSource source) where
  asked := rfl
  taken := rfl
  ended := nofun

theorem Balanced.bump (h : Balanced source l) {c : Char} (hc : l.last = some c) :
    Balanced source l.bump where
  asked := by
    have ha : l.bump.source.asked = l.source.asked + 1 := l.source.asked_snd_next
    rw [← h.asked, upcoming_eq_cons hc, ha, List.length_cons]
    omega
  taken := l.source.taken_snd_next.trans h.taken
  ended hn := by
    have hs : l.source.chars = [] := by
      rw [← List.head?_eq_none_iff, ← Source.fst_next]
      exact hn
    exact l.source.chars_snd_next.trans (by rw [hs]; rfl)

theorem Balanced.next_after (h : Balanced source l) (n : Nat) :
    Balanced source (l.after n).next.2 := by
  induction n generalizing l with
  | zero => exact keeps_next (fun _ _ hc hb => hb.bump hc) h
  | succ n ih => exact ih (keeps_next (fun _ _ hc hb => hb.bump hc) h)

/-- Where a lexer has come to the offset `k`, it has asked for one character more. -/
theorem Balanced.counts (h : Balanced source l) {k : Nat}
    (hk : k + l.upcoming.length = source.chars.length) :
    l.source.taken = source.taken + min (k + 1) source.chars.length ∧
      l.source.asked = source.asked + (k + 1) := by
  have hchars : l.source.chars.length = l.upcoming.length - 1 := by
    unfold upcoming
    cases hl : l.last with
    | none => simp [h.ended hl]
    | some c => simp
  have ha := h.asked
  have ht := h.taken
  omega

/-- The text of a source is cut into lexemes with layout before and after them.  The calls of a
lexer give the results of the lexemes one after another, and then the end for ever.  After each call
one character more has been asked for than there are up to the end of the lexeme, and all of those
that there are have been taken; after the end none is asked for any more. -/
theorem next_partition (source : Source) :
    ∃ pieces, Cut source.chars pieces ∧
      (∀ n piece, pieces[n]? = some piece →
        let call := ((ofSource source).after n).next
        call.1 = piece.result ∧
        call.2.source.taken =
          source.taken + min (Piece.endOf pieces n + 1) source.chars.length ∧
        call.2.source.asked = source.asked + (Piece.endOf pieces n + 1)) ∧
      ∀ n, pieces.length ≤ n →
        let call := ((ofSource source).after n).next
        call.1 = .ok .eof ∧
        call.2.source.taken = source.taken + source.chars.length ∧
        call.2.source.asked = source.asked + (source.chars.length + 1) := by
  obtain ⟨pieces, hcut, hcalls, hend⟩ := exists_cut (ofSource source) source.chars rfl
  have hb := (balanced_ofSource source).next_after
  refine ⟨pieces, hcut, fun n piece hn => ?_, fun n hn => ?_⟩
  · obtain ⟨hr, hlen⟩ := hcalls n piece hn
    exact ⟨hr, (hb n).counts hlen⟩
  · obtain ⟨hr, hu⟩ := hend n hn
    obtain ⟨ht, ha⟩ := (hb n).counts (k := source.chars.length) (by rw [hu]; rfl)
    exact ⟨hr, by rw [ht, Nat.min_eq_right (Nat.le_succ _)], ha⟩

end Calls

end Lexer

end Reckoner
