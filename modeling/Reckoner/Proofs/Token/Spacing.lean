import Reckoner.Proofs.Token.Partition

/-!
# Layout between lexemes

A place in a text either has whole lexemes, comments and blanks before it (`Lexer.Whole`), or is
strictly inside a lexeme or a comment (`Lexer.Inside`), and never both (`not_inside_iff`).  At a
place of the first kind layout can be put in or left out, as long as its comments are closed, and
nothing changes in what the text is lexed as (`results_spaced`).

The argument goes along the parts before the place.  Only the last of them can be concerned.  A
lexeme there ends in front of layout as it does in front of anything else; a comment there takes in
what is put after it up to the end of the line, and what is left is again layout whose comments are
closed.
-/

namespace Reckoner

namespace Lexer

open Text

/-- Layout that ends all of its comments itself. -/
inductive ClosedLayout : List Char → Prop
  | nil : ClosedLayout []
  | blank {c : Char} {w : List Char} (hb : isBlank c = true) (hw : ClosedLayout w) :
    ClosedLayout (c :: w)
  | comment {text w : List Char} {c : Char} (ht : ∀ d ∈ text, isLineEnd d = false)
    (hc : isLineEnd c = true) (hw : ClosedLayout w) : ClosedLayout ('#' :: (text ++ c :: w))

/-- A lexeme, or a comment up to the end of its line or of the text, as it stands before `rest`. -/
inductive Element : List Char → List Char → Prop
  | lexeme {e rest : List Char} {r : Lexed} (h : Spells e r rest) : Element e rest
  | comment {text rest : List Char} (h : Run (!isLineEnd ·) text rest) : Element ('#' :: text) rest

/-- The characters before `rest` are blanks, lexemes and comments that do not go on in it. -/
inductive Whole : List Char → List Char → Prop
  | nil {rest : List Char} : Whole [] rest
  | blank {c : Char} {cs rest : List Char} (hb : isBlank c = true) (h : Whole cs rest) :
    Whole (c :: cs) rest
  | element {e cs rest : List Char} (he : Element e (cs ++ rest)) (h : Whole cs rest) :
    Whole (e ++ cs) rest

/-- A lexeme or a comment of `u ++ v` begins before the end of `u` and ends after it. -/
def Inside (u v : List Char) : Prop :=
  ∃ front left right back, u = front ++ left ∧ v = right ++ back ∧ left ≠ [] ∧ right ≠ [] ∧
    Whole front (left ++ (right ++ back)) ∧ Element (left ++ right) back

section Runs

variable {p : Char → Bool} {cs rest rest' lexeme : List Char} {r : Lexed}

theorem Run.congr_rest (h : Run p cs rest)
    (hs : ∀ c ∈ rest'.head?, p c = false ∨ c ∈ rest.head?) : Run p cs rest' where
  all := h.all
  stops c hc := (hs c hc).elim id (h.stops c)

theorem Run.extend (h : Run p cs rest) (w : List Char) :
    Run p (cs ++ w.takeWhile p) (w.dropWhile p ++ rest) where
  all := List.forall_mem_append.2 ⟨h.all, (run_takeWhile p w).all⟩
  stops := by
    cases hd : w.dropWhile p with
    | nil => exact h.stops
    | cons c ds =>
      have hs := (run_takeWhile p w).stops
      rw [hd] at hs
      exact hs

theorem not_isAlphanum {c : Char} (ha : c.isAlpha = false) (hn : Decimal.isNumeral c = false) :
    c.isAlphanum = false := by
  rw [Decimal.isNumeral, Bool.or_eq_false_iff] at hn
  rw [Char.isAlphanum, ha, hn.1]
  rfl

theorem not_isNumeral_of_isBlank {c : Char} (hb : isBlank c = true) :
    Decimal.isNumeral c = false :=
  Bool.eq_false_iff.2 fun hn => by simp [(isNumeral_apart hn).2] at hb

theorem not_isAlphanum_of_isBlank {c : Char} (hb : isBlank c = true) : c.isAlphanum = false := by
  refine not_isAlphanum (Bool.eq_false_iff.2 fun ha => ?_) (not_isNumeral_of_isBlank hb)
  simp [isBlank_of_isAlpha ha] at hb

theorem isBlank_of_isLineEnd {c : Char} (h : isLineEnd c = true) : isBlank c = true := by
  simp only [isLineEnd, Bool.or_eq_true, beq_iff_eq] at h
  rcases h with rfl | rfl <;> decide

theorem Spells.congr_rest (h : Spells lexeme r rest)
    (hs : ∀ c ∈ rest'.head?,
      (c.isAlphanum = false ∧ Decimal.isNumeral c = false) ∨ c ∈ rest.head?) :
    Spells lexeme r rest' := by
  have word {cs : List Char} (h : Run Char.isAlphanum cs rest) : Run Char.isAlphanum cs rest' :=
    h.congr_rest fun c hc => (hs c hc).imp_left And.left
  have numeral {cs : List Char} (h : Run Decimal.isNumeral cs rest) :
      Run Decimal.isNumeral cs rest' :=
    h.congr_rest fun c hc => (hs c hc).imp_left And.right
  cases h with
  | defKeyword hc h hw => exact .defKeyword hc (word h) hw
  | externKeyword hc h hw => exact .externKeyword hc (word h) hw
  | ident hc h hd he => exact .ident hc (word h) hd he
  | number h hd hp => exact .number (numeral h) hd hp
  | malformed hne h hn => exact .malformed hne (numeral h) hn
  | symbol hb ha hn hp hh => exact .symbol hb ha hn hp hh

theorem Spells.ne_eof (h : Spells lexeme r rest) : r ≠ .ok .eof := by
  cases h <;> nofun

/-- A lexeme begins with a character that is neither blank nor begins a comment. -/
theorem Spells.exists_cons (h : Spells lexeme r rest) :
    ∃ c cs, lexeme = c :: cs ∧ isBlank c = false ∧ c ≠ '#' := by
  have word {c : Char} (hc : c.isAlpha = true) : isBlank c = false ∧ c ≠ '#' :=
    ⟨isBlank_of_isAlpha hc, by rintro rfl; exact Bool.false_ne_true hc⟩
  have numeral (hne : lexeme ≠ []) (h : Run Decimal.isNumeral lexeme rest) :
      ∃ c cs, lexeme = c :: cs ∧ isBlank c = false ∧ c ≠ '#' := by
    obtain ⟨c, cs, rfl⟩ := List.exists_cons_of_ne_nil hne
    have hc := h.all c List.mem_cons_self
    refine ⟨c, cs, rfl, (isNumeral_apart hc).2, ?_⟩
    rintro rfl
    exact Bool.false_ne_true hc
  cases h with
  | defKeyword hc h hw => exact ⟨_, _, rfl, word hc⟩
  | externKeyword hc h hw => exact ⟨_, _, rfl, word hc⟩
  | ident hc h hd he => exact ⟨_, _, rfl, word hc⟩
  | number h hd hp => exact numeral (fun hn => by simp [hn] at hd) h
  | malformed hne h hn => exact numeral hne h
  | symbol hb ha hn hp hh => exact ⟨_, [], rfl, hb, hh⟩

end Runs

section Elements

variable {e e' rest rest' u v : List Char}

theorem Element.exists_cons (h : Element e rest) : ∃ c cs, e = c :: cs ∧ isBlank c = false := by
  cases h with
  | lexeme h =>
    obtain ⟨c, cs, rfl, hb, -⟩ := h.exists_cons
    exact ⟨c, cs, rfl, hb⟩
  | @comment text => exact ⟨'#', text, rfl, by decide⟩

theorem Element.unique (h : Element e rest) (h' : Element e' rest')
    (heq : e ++ rest = e' ++ rest') : e = e' ∧ rest = rest' := by
  have of_rest (hr : rest = rest') : e = e' ∧ rest = rest' := by
    rw [hr] at heq
    exact ⟨List.append_cancel_right heq, hr⟩
  have apart {e text rest rest' : List Char} {r : Lexed} (h : Spells e r rest) :
      e ++ rest ≠ '#' :: text ++ rest' := by
    obtain ⟨c, cs, rfl, -, hc⟩ := h.exists_cons
    exact fun heq => hc (List.cons.inj heq).1
  cases h with
  | lexeme h =>
    cases h' with
    | lexeme h' => exact of_rest ((heq ▸ h'.scans).unique h.scans).2
    | comment h' => exact absurd heq (apart h)
  | comment h =>
    cases h' with
    | lexeme h' => exact absurd heq.symm (apart h')
    | comment h' =>
      refine of_rest ?_
      have hd := congrArg (List.dropWhile (!isLineEnd ·)) (List.cons.inj heq).2
      exact h.dropWhile_eq.symm.trans (hd.trans h'.dropWhile_eq)

theorem exists_element {c : Char} (hb : isBlank c = false) (cs : List Char) :
    ∃ e rest, c :: cs = e ++ rest ∧ Element e rest := by
  -- A run that `c` begins is an element if it spells something.
  have of_run {p : Char → Bool} (hc : p c = true)
      (hs : ∀ ds, Run p (c :: ds) (cs.dropWhile p) → ∃ r, Spells (c :: ds) r (cs.dropWhile p)) :
      ∃ e rest, c :: cs = e ++ rest ∧ Element e rest := by
    have hrun := run_takeWhile p (c :: cs)
    rw [List.takeWhile_cons_of_pos hc, List.dropWhile_cons_of_pos hc] at hrun
    obtain ⟨r, hs⟩ := hs _ hrun
    refine ⟨_, _, ?_, .lexeme hs⟩
    rw [List.cons_append, List.takeWhile_append_dropWhile]
  by_cases ha : c.isAlpha = true
  · exact of_run (p := Char.isAlphanum) (by simp [Char.isAlphanum, ha])
      fun ds h => ⟨_, spells_word ha h⟩
  by_cases hn : Decimal.isNumeral c = true
  · exact of_run hn fun ds h => ⟨_, spells_numeral (List.cons_ne_nil _ _) h⟩
  by_cases hc : c = '#'
  · subst hc
    refine ⟨_, _, ?_, .comment (run_takeWhile (!isLineEnd ·) cs)⟩
    rw [List.cons_append, List.takeWhile_append_dropWhile]
  · simp only [Decimal.isNumeral, Bool.or_eq_true, beq_iff_eq, not_or, Bool.not_eq_true] at hn
    exact ⟨[c], cs, rfl, .lexeme (.symbol hb (Bool.not_eq_true _ ▸ ha) hn.1 hn.2 hc)⟩

/-- Every place in a text has whole parts before it or is inside one of them. -/
theorem whole_or_inside (u v : List Char) : Whole u v ∨ Inside u v := by
  induction hn : u.length using Nat.strongRecOn generalizing u with
  | ind n ih =>
    subst hn
    cases u with
    | nil => exact .inl .nil
    | cons c u =>
      by_cases hb : isBlank c = true
      · refine (ih _ (Nat.lt_succ_self _) u rfl).imp (.blank hb) ?_
        rintro ⟨front, left, right, back, rfl, rfl, hl, hr, hw, he⟩
        exact ⟨c :: front, left, right, back, rfl, rfl, hl, hr, .blank hb hw, he⟩
      obtain ⟨e, rest, heq, he⟩ := exists_element (Bool.not_eq_true _ ▸ hb) (u ++ v)
      rw [← List.cons_append] at heq
      rcases List.append_eq_append_iff.1 heq with ⟨right, rfl, rfl⟩ | ⟨cs, hu, rfl⟩
      · by_cases hr : right = []
        · subst hr
          rw [List.append_nil] at he
          have hw : Whole (c :: u ++ []) ([] ++ rest) := .element he .nil
          rw [List.append_nil] at hw
          exact .inl hw
        · exact .inr ⟨[], c :: u, right, rest, rfl, rfl, List.cons_ne_nil _ _, hr, .nil, he⟩
      · obtain ⟨d, ds, rfl, -⟩ := he.exists_cons
        rw [hu]
        have hlt : cs.length < (c :: u).length := by
          rw [hu, List.length_append, List.length_cons]
          omega
        refine (ih _ hlt cs rfl).imp (.element he) ?_
        rintro ⟨front, left, right, back, rfl, rfl, hl, hr, hw, he'⟩
        refine ⟨d :: ds ++ front, left, right, back, ?_, rfl, hl, hr, .element ?_ hw, he'⟩
        · rw [List.append_assoc]
        · simpa using he

theorem Whole.of_blank {c : Char} (hb : isBlank c = true) (h : Whole (c :: u) v) : Whole u v := by
  generalize hc : c :: u = cs at h
  cases h with
  | nil => contradiction
  | blank _ h =>
    cases hc
    exact h
  | element he _ =>
    obtain ⟨d, ds, rfl, hd⟩ := he.exists_cons
    rw [(List.cons.inj hc).1, hd] at hb
    contradiction

theorem Whole.of_element (he : Element e (u ++ v)) (h : Whole (e ++ u) v) : Whole u v := by
  generalize hc : e ++ u = cs at h
  obtain ⟨d, ds, rfl, hd⟩ := he.exists_cons
  cases h with
  | nil => contradiction
  | blank hb _ =>
    rw [← (List.cons.inj hc).1, hd] at hb
    contradiction
  | element he' h =>
    obtain ⟨-, hr⟩ := he'.unique he (by rw [← List.append_assoc, ← hc, List.append_assoc])
    rwa [List.append_cancel_right hr] at h

theorem Whole.of_append {front : List Char} (hf : Whole front (u ++ v)) (h : Whole (front ++ u) v) :
    Whole u v := by
  generalize hr : u ++ v = rest at hf
  induction hf with
  | nil => exact h
  | blank hb _ ih => exact ih (h.of_blank hb) hr
  | element he _ ih =>
    subst hr
    rw [List.append_assoc] at h
    exact ih (h.of_element (by rwa [List.append_assoc])) rfl

theorem Whole.not_inside (h : Whole u v) : ¬ Inside u v := by
  rintro ⟨front, left, right, back, rfl, rfl, hl, hr, hf, he⟩
  have hw := hf.of_append h
  cases hw with
  | nil => exact hl rfl
  | blank hb _ =>
    obtain ⟨d, ds, hd, hd'⟩ := he.exists_cons
    rw [(List.cons.inj hd).1, hd'] at hb
    contradiction
  | @element e cs _ he' _ =>
    obtain ⟨heq, -⟩ := he'.unique he (by simp)
    have hlen := congrArg List.length heq
    have := List.length_pos_iff.2 hr
    simp only [List.length_append] at hlen
    omega

theorem not_inside_iff : ¬ Inside u v ↔ Whole u v :=
  ⟨(whole_or_inside u v).resolve_right, Whole.not_inside⟩

end Elements

section ScansAll

variable {u v w es front : List Char} {rs : List Lexed}

theorem Layout.scansAll (hl : Layout front es) (h : ScansAll es rs) :
    ScansAll (front ++ es) rs := by
  cases h with
  | nil h => exact .nil (hl.scans h)
  | cons h hr hrs => exact .cons (hl.scans h) hr hrs

theorem Layout.of_scansAll (hl : Layout front es) (h : ScansAll (front ++ es) rs) :
    ScansAll es rs := by
  have he := scansAll_ofText es
  rwa [(hl.scansAll he).unique h]

theorem layout_blank {c : Char} (hb : isBlank c = true) (rest : List Char) : Layout [c] rest :=
  .blank hb .nil

theorem layout_comment {text rest : List Char} (h : Run (!isLineEnd ·) text rest) :
    Layout ('#' :: text) rest := by
  have hl : Layout ('#' :: (text ++ [])) rest := .comment h .nil
  rwa [List.append_nil] at hl

theorem ClosedLayout.layout (hw : ClosedLayout w) (rest : List Char) : Layout w rest := by
  induction hw with
  | nil => exact .nil
  | blank hb _ ih => exact .blank hb ih
  | @comment text w c ht hc _ ih =>
    refine .comment ⟨fun d hd => ?_, ?_⟩ (.blank (isBlank_of_isLineEnd hc) ih)
    · exact congrArg not (ht d hd)
    · rintro d ⟨⟩
      exact congrArg not hc

theorem ClosedLayout.dropLine (hw : ClosedLayout w) :
    ClosedLayout (w.dropWhile (!isLineEnd ·)) := by
  induction hw with
  | nil => exact .nil
  | @blank c w hb hw ih =>
    rw [List.dropWhile_cons]
    split
    · exact ih
    · exact .blank hb hw
  | @comment text w c ht hc hw ih =>
    have hrun : Run (!isLineEnd ·) ('#' :: text) (c :: w) := by
      refine ⟨List.forall_mem_cons.2 ⟨rfl, fun d hd => congrArg not (ht d hd)⟩, ?_⟩
      rintro d ⟨⟩
      exact congrArg not hc
    rw [← List.cons_append, hrun.dropWhile_eq]
    exact .blank (isBlank_of_isLineEnd hc) hw

/-- A lexeme could not go on with layout. -/
theorem ClosedLayout.head (hw : ClosedLayout w) (v : List Char) :
    ∀ c ∈ (w ++ v).head?,
      (c.isAlphanum = false ∧ Decimal.isNumeral c = false) ∨ c ∈ v.head? := by
  cases hw with
  | nil => exact fun c hc => .inr hc
  | blank hb _ =>
    rintro c ⟨⟩
    exact .inl ⟨not_isAlphanum_of_isBlank hb, not_isNumeral_of_isBlank hb⟩
  | comment ht hc _ =>
    rintro c ⟨⟩
    exact .inl ⟨by decide, by decide⟩

/-- A comment at the end of the parts before the layout takes in the first line of it. -/
theorem ScansAll.comment_spaced {text : List Char} (h : Run (!isLineEnd ·) text v)
    (hw : ClosedLayout w) (hrs : ScansAll v rs) : ScansAll ('#' :: text ++ (w ++ v)) rs := by
  have hs := (layout_comment (h.extend w)).scansAll ((hw.dropLine.layout v).scansAll hrs)
  have hw : w = w.takeWhile (!isLineEnd ·) ++ w.dropWhile (!isLineEnd ·) :=
    List.takeWhile_append_dropWhile.symm
  rw [hw]
  simpa only [List.cons_append, List.append_assoc] using hs

/-- Layout can be put in after whole parts. -/
theorem ScansAll.spaced (hu : Whole u v) (hw : ClosedLayout w) (h : ScansAll (u ++ v) rs) :
    ScansAll (u ++ (w ++ v)) rs := by
  induction hu generalizing rs with
  | nil => exact (hw.layout _).scansAll h
  | blank hb _ ih => exact (layout_blank hb _).scansAll (ih ((layout_blank hb _).of_scansAll h))
  | @element e cs v he _ ih =>
    rw [List.append_assoc] at h ⊢
    -- Only after the last part the layout is the next thing.
    have hhead (hcs : cs ≠ []) : (cs ++ (w ++ v)).head? = (cs ++ v).head? := by
      obtain ⟨c, cs, rfl⟩ := List.exists_cons_of_ne_nil hcs
      rfl
    cases he with
    | @lexeme _ _ r he =>
      obtain ⟨rs', hrs'⟩ : ∃ rs', ScansAll (cs ++ v) rs' := ⟨_, scansAll_ofText _⟩
      rw [← h.unique (.cons he.scans he.ne_eof hrs')]
      refine .cons (Spells.scans (he.congr_rest fun c hc => ?_)) he.ne_eof (ih hrs')
      by_cases hcs : cs = []
      · subst hcs
        exact hw.head v c hc
      · exact .inr (hhead hcs ▸ hc)
    | comment he =>
      have hrs := (layout_comment he).of_scansAll h
      by_cases hcs : cs = []
      · subst hcs
        exact .comment_spaced (v := v) he hw hrs
      · exact (layout_comment (he.congr_rest fun c hc => .inr (hhead hcs ▸ hc))).scansAll (ih hrs)

/-- Layout put in at a place that is inside no lexeme and no comment changes no result. -/
theorem results_spaced (hu : Whole u v) (hw : ClosedLayout w) :
    (ofText (u ++ w ++ v)).results = (ofText (u ++ v)).results := by
  have hs := (scansAll_ofText (u ++ v)).spaced hu hw
  rw [← List.append_assoc] at hs
  exact hs.unique (scansAll_ofText _)

end ScansAll

end Lexer

end Reckoner
