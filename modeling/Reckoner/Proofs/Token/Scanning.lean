import Reckoner.Token.Supply

/-!
# Lexing as a relation between characters

What a lexer gives depends only on the characters that are upcoming, wherever it takes them from.
`Lexer.Scans` says of a list of characters what the next result is and which characters are after
it; the step of a lexer is such a scan (`scans_next`), and there is only one (`Scans.unique`).

No lexeme goes on past a line feed, and a comment ends there.  So lexing a text with a line feed in
it is lexing what is before it and then what is after it (`results_newline`).
-/

namespace Reckoner

theorem Token.ofWord_ne_eof (word : String) : Token.ofWord word ≠ .eof := by
  unfold Token.ofWord
  split
  · nofun
  · split <;> nofun

namespace Lexer

open Decimal Text

/-- The next result of lexing the characters, and the characters after it. -/
inductive Scans : List Char → Lexed → List Char → Prop
  | ended {cs : List Char} (h : cs.dropWhile isBlank = []) : Scans cs (.ok .eof) []
  | word {cs ds : List Char} {c : Char} (h : cs.dropWhile isBlank = c :: ds)
    (hc : c.isAlpha = true) :
    Scans cs (.ok (.ofWord (String.ofList ((c :: ds).takeWhile Char.isAlphanum))))
      ((c :: ds).dropWhile Char.isAlphanum)
  | number {cs ds : List Char} {c : Char} (h : cs.dropWhile isBlank = c :: ds)
    (hc : c.isAlpha = false) (hn : isNumeral c = true) :
    Scans cs (numeral ((c :: ds).takeWhile isNumeral)) ((c :: ds).dropWhile isNumeral)
  | comment {cs ds rest : List Char} {r : Lexed} (h : cs.dropWhile isBlank = '#' :: ds)
    (hr : Scans (('#' :: ds).dropWhile (!isLineEnd ·)) r rest) : Scans cs r rest
  | symbol {cs ds : List Char} {c : Char} (h : cs.dropWhile isBlank = c :: ds)
    (hc : c.isAlpha = false) (hn : isNumeral c = false) (hh : c ≠ '#') :
    Scans cs (.ok (.operator c)) ds

theorem Scans.unique {cs rest rest' : List Char} {r r' : Lexed} (h : Scans cs r rest)
    (h' : Scans cs r' rest') : r' = r ∧ rest' = rest := by
  -- The first character that is not blank decides between the cases.
  induction h with
  | ended he => cases h' <;> simp_all
  | word hw hc =>
    cases h' with
    | comment h => cases hw.symm.trans h; contradiction
    | _ => simp_all
  | number hw hc hn =>
    cases h' with
    | comment h => cases hw.symm.trans h; contradiction
    | _ => simp_all
  | comment hw hr ih =>
    cases h' with
    | comment h h' => cases hw.symm.trans h; exact ih h'
    | ended h => cases hw.symm.trans h
    | word h hc => cases hw.symm.trans h; contradiction
    | number h hc hn => cases hw.symm.trans h; contradiction
    | symbol h hc hn hh => cases hw.symm.trans h; contradiction
  | symbol hw hc hn hh =>
    cases h' with
    | comment h => cases hw.symm.trans h; contradiction
    | _ => simp_all

/-- The step of a lexer is a scan of its characters. -/
theorem scans_next (l : Lexer) : Scans l.upcoming l.next.1 l.next.2.upcoming := by
  have upcoming_of_last {l : Lexer} {c : Char} (h : (l.skipWhile isBlank).last = some c) :
      l.upcoming.dropWhile isBlank = c :: (l.skipWhile isBlank).bump.upcoming := by
    rw [← upcoming_skipWhile]
    exact upcoming_eq_cons h
  fun_induction next l with
  | case1 l start h =>
    rw [upcoming_eq_nil h]
    refine .ended ?_
    rw [← upcoming_skipWhile]
    exact upcoming_eq_nil h
  | case2 l start c h hc word rest hw =>
    have hword : word = start.upcoming.takeWhile Char.isAlphanum := by rw [← fst_takeWhile, hw]
    have hrest : rest.upcoming = start.upcoming.dropWhile Char.isAlphanum := by
      rw [← upcoming_snd_takeWhile, hw]
    rw [hword, hrest, upcoming_eq_cons h]
    exact .word (upcoming_of_last h) hc
  | case3 l start c h hc hn text rest hw =>
    have htext : text = start.upcoming.takeWhile isNumeral := by rw [← fst_takeWhile, hw]
    have hrest : rest.upcoming = start.upcoming.dropWhile isNumeral := by
      rw [← upcoming_snd_takeWhile, hw]
    rw [htext, hrest, upcoming_eq_cons h]
    exact .number (upcoming_of_last h) (Bool.not_eq_true _ ▸ hc) hn
  | case4 l start h hc hn ih =>
    refine .comment (upcoming_of_last h) ?_
    rw [upcoming_skipWhile, upcoming_eq_cons h] at ih
    exact ih
  | case5 l start c h hc hn hh =>
    exact .symbol (upcoming_of_last h) (Bool.not_eq_true _ ▸ hc) (Bool.not_eq_true _ ▸ hn) hh

theorem numeral_ne_eof (text : List Char) : numeral text ≠ .ok .eof := by
  unfold numeral
  split <;> nofun

section Newline

variable {cs es rest rest' : List Char} {c : Char} {r : Lexed} {p : Char → Bool}

theorem dropWhile_newline (hp : p '\n' = false) (cs ds : List Char) :
    (cs ++ '\n' :: ds).dropWhile p = cs.dropWhile p ++ '\n' :: ds := by
  induction cs with
  | nil => rw [List.nil_append, List.dropWhile_cons, hp]; rfl
  | cons c cs ih =>
    rw [List.cons_append, List.dropWhile_cons, List.dropWhile_cons, ih]
    split <;> rfl

theorem takeWhile_newline (hp : p '\n' = false) (cs ds : List Char) :
    (cs ++ '\n' :: ds).takeWhile p = cs.takeWhile p := by
  induction cs with
  | nil => rw [List.nil_append, List.takeWhile_cons, hp]; rfl
  | cons c cs ih => rw [List.cons_append, List.takeWhile_cons, List.takeWhile_cons, ih]

theorem dropWhile_append_of_cons (h : cs.dropWhile p = c :: es) (ds : List Char) :
    (cs ++ ds).dropWhile p = c :: (es ++ ds) := by
  rw [List.dropWhile_append, h]
  rfl

theorem Scans.of_dropWhile_eq {ds : List Char} (h : Scans ds r rest)
    (hd : cs.dropWhile isBlank = ds.dropWhile isBlank) : Scans cs r rest := by
  cases h with
  | ended h => exact .ended (hd.trans h)
  | word h hc => exact .word (hd.trans h) hc
  | number h hc hn => exact .number (hd.trans h) hc hn
  | comment h hr => exact .comment (hd.trans h) hr
  | symbol h hc hn hh => exact .symbol (hd.trans h) hc hn hh

theorem Scans.newline (h : Scans cs r rest) (hr : r ≠ .ok .eof) (ds : List Char) :
    Scans (cs ++ '\n' :: ds) r (rest ++ '\n' :: ds) := by
  induction h with
  | ended h => exact absurd rfl hr
  | @word cs es c h hc =>
    have hw := Scans.word (dropWhile_append_of_cons h ('\n' :: ds)) hc
    rwa [← List.cons_append, takeWhile_newline rfl, dropWhile_newline rfl] at hw
  | @number cs es c h hc hn =>
    have hw := Scans.number (dropWhile_append_of_cons h ('\n' :: ds)) hc hn
    rwa [← List.cons_append, takeWhile_newline rfl, dropWhile_newline rfl] at hw
  | @comment cs es rest r h _ ih =>
    refine .comment (dropWhile_append_of_cons h ('\n' :: ds)) ?_
    rw [← List.cons_append, dropWhile_newline rfl]
    exact ih hr
  | symbol h hc hn hh => exact .symbol (dropWhile_append_of_cons h ('\n' :: ds)) hc hn hh

theorem Scans.newline_of_eof (h : Scans cs (.ok .eof) rest) {ds : List Char}
    (hd : Scans ds r rest') : Scans (cs ++ '\n' :: ds) r rest' := by
  generalize he : (.ok .eof : Lexed) = end' at h
  induction h with
  | ended h =>
    refine hd.of_dropWhile_eq ?_
    rw [List.dropWhile_append, h, List.dropWhile_cons]
    rfl
  | word => cases Token.ofWord_ne_eof _ (Except.ok.inj he).symm
  | number => cases numeral_ne_eof _ he.symm
  | comment h _ ih =>
    refine .comment (dropWhile_append_of_cons h ('\n' :: ds)) ?_
    rw [← List.cons_append, dropWhile_newline rfl]
    exact ih he
  | symbol => cases he

end Newline

theorem Scans.eq_nil {cs rest : List Char} (h : Scans cs (.ok .eof) rest) : rest = [] := by
  generalize he : (.ok .eof : Lexed) = end' at h
  induction h with
  | ended => rfl
  | word => cases Token.ofWord_ne_eof _ (Except.ok.inj he).symm
  | number => cases numeral_ne_eof _ he.symm
  | comment _ _ ih => exact ih he
  | symbol => cases he

inductive ScansAll : List Char → List Lexed → Prop
  | nil {cs rest : List Char} (h : Scans cs (.ok .eof) rest) : ScansAll cs []
  | cons {cs rest : List Char} {r : Lexed} {rs : List Lexed} (h : Scans cs r rest)
    (hr : r ≠ .ok .eof) (hrs : ScansAll rest rs) : ScansAll cs (r :: rs)

section ScansAll

variable {cs ds : List Char} {rs rs' : List Lexed}

theorem ScansAll.unique (h : ScansAll cs rs) (h' : ScansAll cs rs') : rs' = rs := by
  induction h generalizing rs' with
  | nil h =>
    cases h' with
    | nil => rfl
    | cons h' hr => exact absurd (h.unique h').1 hr
  | cons h hr _ ih =>
    cases h' with
    | nil h' => exact absurd (h'.unique h).1 hr
    | cons h' hr' hrs' =>
      obtain ⟨rfl, rfl⟩ := h.unique h'
      rw [ih hrs']

theorem ScansAll.newline (h : ScansAll cs rs) (h' : ScansAll ds rs') :
    ScansAll (cs ++ '\n' :: ds) (rs ++ rs') := by
  induction h with
  | nil h =>
    cases h' with
    | nil h' => exact .nil (h.newline_of_eof h')
    | cons h' hr hrs => exact .cons (h.newline_of_eof h') hr hrs
  | cons h hr _ ih => exact .cons (h.newline hr ds) hr ih

theorem ScansAll.of_dropWhile_eq (h : ScansAll ds rs)
    (hd : cs.dropWhile isBlank = ds.dropWhile isBlank) : ScansAll cs rs := by
  cases h with
  | nil h => exact .nil (h.of_dropWhile_eq hd)
  | cons h hr hrs => exact .cons (h.of_dropWhile_eq hd) hr hrs

theorem ScansAll.not_mem_eof (h : ScansAll cs rs) : .ok .eof ∉ rs := by
  induction h with
  | nil => exact List.not_mem_nil
  | cons h hr _ ih =>
    intro hm
    rcases List.mem_cons.1 hm with he | hm
    · exact hr he.symm
    · exact ih hm

theorem scansAll_results (l : Lexer) : ScansAll l.upcoming l.results := by
  fun_induction results l with
  | case1 l step h =>
    have hs := scans_next l
    rw [Lexed.isEnd_iff.1 h] at hs
    exact .nil hs
  | case2 l step h ih => exact .cons (scans_next l) (mt Lexed.isEnd_iff.2 h) ih

theorem pullList_results (l : Lexer) :
    Lexed.pullList l.results = (l.next.1, l.next.2.results) := by
  have hs := scans_next l
  by_cases he : l.next.1 = .ok .eof
  · rw [he] at hs ⊢
    have hn : l.next.2.results = [] := by
      have hr := scansAll_results l.next.2
      rw [hs.eq_nil] at hr
      exact (ScansAll.nil (.ended rfl)).unique hr
    rw [(ScansAll.nil hs).unique (scansAll_results l), hn]
    rfl
  · rw [(ScansAll.cons hs he (scansAll_results _)).unique (scansAll_results l)]
    rfl

theorem scansAll_ofText (text : List Char) : ScansAll text (ofText text).results := by
  have h : ScansAll (' ' :: text) (ofText text).results := by
    have hu : (ofText text).upcoming = ' ' :: text := congrArg _ (Source.chars_ofText text)
    rw [← hu]
    exact scansAll_results _
  exact h.of_dropWhile_eq rfl

/-- The results of lexing lines are those of the first lines and then those of the others. -/
theorem results_newline (text text' : List Char) :
    (ofText (text ++ '\n' :: text')).results = (ofText text).results ++ (ofText text').results :=
  ((scansAll_ofText text).newline (scansAll_ofText text')).unique (scansAll_ofText _)

theorem results_nil : (ofText []).results = [] :=
  (ScansAll.nil (.ended rfl)).unique (scansAll_ofText _)

theorem results_semicolon (text text' : List Char) :
    (ofText (text ++ ['\n', ';', '\n'] ++ text')).results =
      (ofText text).results ++ .ok (.operator ';') :: (ofText text').results := by
  have hs : ScansAll [';'] [.ok (.operator ';')] :=
    .cons (.symbol rfl rfl rfl (by decide)) nofun (.nil (.ended rfl))
  have ht := (scansAll_ofText text).newline (hs.newline (scansAll_ofText text'))
  rw [List.append_assoc]
  exact ht.unique (scansAll_ofText _)

end ScansAll

section Keeps

variable {I : Lexer → Prop} {l : Lexer}

theorem keeps_skipWhile (hI : ∀ l c, l.last = some c → I l → I l.bump) (p : Char → Bool)
    (h : I l) : I (l.skipWhile p) := by
  fun_induction skipWhile p l with
  | case1 l c hc _ ih => exact ih (hI l c hc h)
  | case2 l c _ _ => exact h
  | case3 l _ => exact h

/-- What a lexer keeps from one character to the next it keeps from one token to the next. -/
theorem keeps_next (hI : ∀ l c, l.last = some c → I l → I l.bump) (h : I l) : I l.next.2 := by
  fun_induction next l with
  | case1 l start _ => exact keeps_skipWhile hI _ h
  | case2 l start c _ _ word rest hw =>
    have hr : rest = start.skipWhile Char.isAlphanum := by rw [← snd_takeWhile, hw]
    rw [hr]
    exact keeps_skipWhile hI _ (keeps_skipWhile hI _ h)
  | case3 l start c _ _ _ text rest hw =>
    have hr : rest = start.skipWhile isNumeral := by rw [← snd_takeWhile, hw]
    rw [hr]
    exact keeps_skipWhile hI _ (keeps_skipWhile hI _ h)
  | case4 l start _ _ _ ih => exact ih (keeps_skipWhile hI _ (keeps_skipWhile hI _ h))
  | case5 l start c hc _ _ _ => exact hI _ c hc (keeps_skipWhile hI _ h)

end Keeps

end Lexer

end Reckoner
