import Reckoner.Proofs.Grammar.Names
import Reckoner.Proofs.Grammar.Passage
import Reckoner.Proofs.Token.Partition

/-!
# Expressions as source text

`Expr.source` writes an expression the way a source text has it: operators between their operands,
and parentheses only where the operators do not group by themselves.  A left operand needs them if
its operator binds more loosely than the one it belongs to, a right operand also if it binds
equally.  Blanks may stand around operators and after commas.

A written expression is lexed as its tokens (`Expr.Writable.lexes`), whatever comes after it, as
long as that does not go on with the last word or number.
-/

namespace Reckoner

open Lexer

def Expr.operators : List Char :=
  ['<', '+', '-', '*']

namespace Decimal

/-- A finite double without a minus sign whose text, where it is a number literal, reads as the
double itself. -/
structure Readable (value : Float) : Prop where
  not_nan : value.isNaN = false
  not_inf : value.isInf = false
  unsigned : value.toBits.toNat < Nat.pow 2 63
  reads : ∀ x, readLiteral? (Layout.plain.text value).toList = some x → x = value

theorem readable_of_eq {value : Float} (hn : value.isNaN = false) (hi : value.isInf = false)
    (hs : value.toBits.toNat < Nat.pow 2 63)
    (hr : readLiteral? (Layout.plain.text value).toList = some value) : Readable value :=
  ⟨hn, hi, hs, fun x hx => by rw [hr] at hx; exact (Option.some.inj hx).symm⟩

section Literal

variable {ds es : List Char}

theorem count_point_eq_zero (h : ∀ c ∈ ds, c.isDigit = true) : ds.count '.' = 0 :=
  List.count_eq_zero.2 fun hp => absurd (h _ hp) (by decide)

theorem isLiteral_digits (hne : ds ≠ []) (h : ∀ c ∈ ds, c.isDigit = true) :
    isLiteral ds = true := by
  rw [isLiteral_iff fun c hc => isNumeral_of_isDigit (h c hc), count_point_eq_zero h]
  obtain ⟨c, hc⟩ := List.exists_mem_of_ne_nil ds hne
  exact ⟨⟨c, hc, h c hc⟩, Nat.zero_le 1⟩

theorem isLiteral_point (hne : ds ≠ []) (h : ∀ c ∈ ds, c.isDigit = true)
    (h' : ∀ c ∈ es, c.isDigit = true) : isLiteral (ds ++ '.' :: es) = true := by
  have hall : ∀ c ∈ ds ++ '.' :: es, isNumeral c = true := by
    intro c hc
    rcases List.mem_append.1 hc with hc | hc
    · exact isNumeral_of_isDigit (h c hc)
    · rcases List.mem_cons.1 hc with rfl | hc
      · rfl
      · exact isNumeral_of_isDigit (h' c hc)
  rw [isLiteral_iff hall, List.count_append, List.count_cons_self, count_point_eq_zero h,
    count_point_eq_zero h']
  obtain ⟨c, hc⟩ := List.exists_mem_of_ne_nil ds hne
  exact ⟨⟨c, List.mem_append_left _ hc, h c hc⟩, Nat.le_refl 1⟩

theorem isLiteral_fixed (hne : ds ≠ []) (h : ∀ c ∈ ds, c.isDigit = true) (whole : Int) :
    isLiteral (Layout.plain.fixed ds whole) = true := by
  unfold Layout.fixed
  split
  · have hzero : ∀ c ∈ ['0'], c.isDigit = true := List.forall_mem_singleton.2 rfl
    refine isLiteral_point (List.cons_ne_nil _ _) hzero fun c hc => ?_
    rcases List.mem_append.1 hc with hc | hc
    · exact isDigit_of_mem_zeros hc
    · exact h c hc
  · split
    · rw [show Layout.plain.pointZero = false from rfl, if_neg Bool.false_ne_true, List.append_nil]
      refine isLiteral_digits (by simp [hne]) fun c hc => ?_
      rcases List.mem_append.1 hc with hc | hc
      · exact h c hc
      · exact isDigit_of_mem_zeros hc
    · rw [List.append_assoc]
      refine isLiteral_point ?_ (fun c hc => h c (List.mem_of_mem_take hc))
        fun c hc => h c (List.mem_of_mem_drop hc)
      simp only [ne_eq, List.take_eq_nil_iff, hne, or_false]
      omega

theorem Readable.isLiteral {value : Float} (h : Readable value) :
    isLiteral (Layout.plain.text value).toList = true := by
  unfold Layout.text
  rw [if_neg (ne_true_of_eq_false h.not_nan)]
  simp only [h.not_inf, Bool.false_eq_true, if_false, String.toList_ofList]
  rw [if_pos h.unsigned, List.nil_append]
  split
  · decide
  · exact isLiteral_fixed Nat.toDigits_ne_nil (fun _ => isDigit_of_mem_toDigits) _

theorem Readable.numeral_eq {value : Float} (h : Readable value) :
    numeral (Layout.plain.text value).toList = .ok (.number value) := by
  have hr : readLiteral? (Layout.plain.text value).toList =
      some (Float.ofScientific _ true _) := if_pos h.isLiteral
  rw [numeral, hr, h.reads _ hr]

end Literal

end Decimal

namespace Lexer

/-- The text begins with the tokens, and what comes after them is `rest`. -/
inductive Lexes : List Char → List Token → List Char → Prop
  | nil {rest : List Char} : Lexes rest [] rest
  | cons {cs cs' rest : List Char} {t : Token} {ts : List Token} (h : Scans cs (.ok t) cs')
    (ht : t ≠ .eof) (hs : Lexes cs' ts rest) : Lexes cs (t :: ts) rest

def Apart (rest : List Char) : Prop :=
  ∀ c ∈ rest.head?, c.isAlphanum = false ∧ Decimal.isNumeral c = false

section Lexes

variable {cs ds rest : List Char} {t : Token} {ts us : List Token}

theorem Lexes.append (h : Lexes cs ts ds) (h' : Lexes ds us rest) : Lexes cs (ts ++ us) rest := by
  induction h with
  | nil => exact h'
  | cons hs ht _ ih => exact .cons hs ht (ih h')

theorem Lexes.blanks {gap : List Char} (hgap : ∀ c ∈ gap, Text.isBlank c = true)
    (h : Lexes cs ts rest) (hts : ts ≠ []) : Lexes (gap ++ cs) ts rest := by
  cases h with
  | nil => contradiction
  | cons hs ht h => exact .cons (hs.of_dropWhile_eq (List.dropWhile_append_of_pos hgap)) ht h

theorem apart_cons {c : Char} (ha : c.isAlphanum = false) (hn : Decimal.isNumeral c = false) :
    Apart (c :: rest) := by
  intro d hd
  obtain rfl := Option.some.inj hd
  exact ⟨ha, hn⟩

theorem apart_blank {c : Char} (h : Text.isBlank c = true) : Apart (c :: rest) := by
  have hn : Decimal.isNumeral c = false := by
    refine Bool.eq_false_iff.2 fun hn => ?_
    rw [(isNumeral_apart hn).2] at h
    contradiction
  refine apart_cons ?_ hn
  simp only [Char.isAlphanum, Bool.or_eq_false_iff]
  refine ⟨Bool.eq_false_iff.2 fun ha => ?_, ?_⟩
  · rw [isBlank_of_isAlpha ha] at h
    contradiction
  · simp only [Decimal.isNumeral, Bool.or_eq_false_iff] at hn
    exact hn.1

theorem Apart.blanks {gap : List Char} (hgap : ∀ c ∈ gap, Text.isBlank c = true)
    (h : Apart rest) : Apart (gap ++ rest) := by
  cases gap with
  | nil => exact h
  | cons c gap => exact apart_blank (hgap c List.mem_cons_self)

def punctuation : List Char :=
  Expr.operators ++ ['(', ')', ',', ';']

theorem punctuation_apart {c : Char} (h : c ∈ punctuation) :
    Text.isBlank c = false ∧ c.isAlpha = false ∧ c.isDigit = false ∧ c ≠ '.' ∧ c ≠ '#' := by
  simp only [punctuation, Expr.operators, List.cons_append, List.nil_append, List.mem_cons,
    List.not_mem_nil, or_false] at h
  rcases h with rfl | rfl | rfl | rfl | rfl | rfl | rfl | rfl <;> decide

theorem apart_punctuation {c : Char} (h : c ∈ punctuation) : Apart (c :: rest) := by
  obtain ⟨-, ha, hd, hp, -⟩ := punctuation_apart h
  exact apart_cons (by simp [Char.isAlphanum, ha, hd]) (by simp [Decimal.isNumeral, hd, hp])

theorem lexes_punctuation {c : Char} (h : c ∈ punctuation) (hs : Lexes cs ts rest) :
    Lexes (c :: cs) (.operator c :: ts) rest := by
  obtain ⟨hb, ha, hd, hp, hh⟩ := punctuation_apart h
  exact .cons (Spells.symbol hb ha hd hp hh).scans (by simp) hs

theorem lexes_word {name : String} (h : IsWord name) (hr : Apart rest) :
    Lexes (name.toList ++ rest) [.ident name] rest := by
  obtain ⟨⟨c, cs, hn, hc, hcs⟩, hd, he⟩ := h
  obtain rfl : String.ofList (c :: cs) = name := by rw [← hn, String.ofList_toList]
  have hrun : Run Char.isAlphanum (c :: cs) rest :=
    ⟨List.forall_mem_cons.2 ⟨by simp [Char.isAlphanum, hc], hcs⟩, fun d hd => (hr d hd).1⟩
  rw [String.toList_ofList]
  exact .cons (Spells.ident hc hrun hd he).scans (by simp) .nil

theorem isBlank_space : ∀ c ∈ [' '], Text.isBlank c = true :=
  List.forall_mem_singleton.2 (by decide)

/-- Letters before a space are a word by themselves. -/
theorem scans_spaced {c : Char} (word : List Char) (hc : c.isAlpha = true)
    (hword : word.all Char.isAlphanum = true) :
    Scans (c :: word ++ ' ' :: cs) (.ok (.ofWord (String.ofList (c :: word)))) (' ' :: cs) :=
  scans_word hc ⟨List.forall_mem_cons.2 ⟨by simp [Char.isAlphanum, hc], List.all_eq_true.1 hword⟩,
    fun d hd => (apart_blank (isBlank_space ' ' (by simp)) d hd).1⟩

theorem lexes_def (h : Lexes cs ts rest) (hts : ts ≠ []) :
    Lexes ("def ".toList ++ cs) (.defKeyword :: ts) rest :=
  have hs : Scans ("def ".toList ++ cs) (.ok .defKeyword) (' ' :: cs) :=
    scans_spaced ['e', 'f'] (by decide) (by decide)
  .cons hs (by simp) (h.blanks isBlank_space hts)

theorem lexes_extern (h : Lexes cs ts rest) (hts : ts ≠ []) :
    Lexes ("extern ".toList ++ cs) (.externKeyword :: ts) rest :=
  have hs : Scans ("extern ".toList ++ cs) (.ok .externKeyword) (' ' :: cs) :=
    scans_spaced ['x', 't', 'e', 'r', 'n'] (by decide) (by decide)
  .cons hs (by simp) (h.blanks isBlank_space hts)

theorem lexes_literal {value : Float} (h : Decimal.Readable value) (hr : Apart rest) :
    Lexes ((Decimal.Layout.plain.text value).toList ++ rest) [.number value] rest := by
  have hl := h.isLiteral
  simp only [Decimal.isLiteral, Bool.and_eq_true, List.any_eq_true, List.all_eq_true] at hl
  obtain ⟨⟨⟨c, hc, -⟩, -⟩, hall⟩ := hl
  have hs := scans_numeral (List.ne_nil_of_mem hc) ⟨hall, fun d hd => (hr d hd).2⟩
  rw [h.numeral_eq] at hs
  exact .cons hs (by simp) .nil

end Lexes

end Lexer

namespace Expr

/-- How tightly an operator holds its operands. -/
def tightness : Char → Nat
  | '*' => 3
  | '+' => 2
  | '-' => 2
  | '<' => 1
  | _ => 0

/-- Where an expression stands: by itself, or as an operand of an operator. -/
inductive Position
  | whole
  | left (parent : Char)
  | right (parent : Char)

def Position.encloses : Position → Char → Bool
  | .whole, _ => false
  | .left parent, op => tightness op < tightness parent
  | .right parent, op => tightness op ≤ tightness parent

def enclose {α : Type} (first last : α) (wanted : Bool) (body : List α) : List α :=
  if wanted then first :: (body ++ [last]) else body

mutual

/-- The source text of an expression with `gap` around operators and after commas. -/
def source (gap : List Char) (pos : Position) : Expr → List Char
  | .literal value => (Decimal.Layout.plain.text value).toList
  | .var name => name.toList
  | .binary op left right =>
    enclose '(' ')' (pos.encloses op)
      (left.source gap (.left op) ++ (gap ++ op :: (gap ++ right.source gap (.right op))))
  | .call callee args =>
    callee.toList ++ enclose '(' ')' true (List.intercalate (',' :: gap) (sources gap args))

def sources (gap : List Char) : List Expr → List (List Char)
  | [] => []
  | e :: es => e.source gap .whole :: sources gap es

end

example : String.ofList
    ((binary '-' (binary '-' (var "a") (var "b")) (var "c")).source [' '] .whole) =
      "a - b - c" := by
  decide

example : String.ofList
    ((binary '-' (var "a") (binary '-' (var "b") (var "c"))).source [] .whole) = "a-(b-c)" := by
  decide

mutual

def tokens (pos : Position) : Expr → List Token
  | .literal value => [.number value]
  | .var name => [.ident name]
  | .binary op left right =>
    enclose (.operator '(') (.operator ')') (pos.encloses op)
      (left.tokens (.left op) ++ .operator op :: right.tokens (.right op))
  | .call callee args =>
    .ident callee :: enclose (.operator '(') (.operator ')') true
      (List.intercalate [.operator ','] (tokenLists args))

def tokenLists : List Expr → List (List Token)
  | [] => []
  | e :: es => e.tokens .whole :: tokenLists es

end

/-- An expression that a source text can spell: its names are words, its operators are those of the
grammar, and its literals are read back. -/
inductive Writable : Expr → Prop
  | literal {value : Float} (h : Decimal.Readable value) : Writable (.literal value)
  | var {name : String} (h : IsWord name) : Writable (.var name)
  | binary {op : Char} {left right : Expr} (ho : op ∈ operators)
    (hl : Writable left) (hr : Writable right) : Writable (.binary op left right)
  | call {callee : String} {args : List Expr} (hc : IsWord callee)
    (ha : ∀ a ∈ args, Writable a) : Writable (.call callee args)

/-- The first token of an expression is not the one that ends a list of arguments. -/
theorem exists_tokens : ∀ (e : Expr) (pos : Position),
    ∃ t ts, e.tokens pos = t :: ts ∧ t ≠ .operator ')'
  | .literal value, _ => ⟨.number value, [], rfl, by simp⟩
  | .var name, _ => ⟨.ident name, [], rfl, by simp⟩
  | .call callee _, _ => ⟨.ident callee, _, rfl, by simp⟩
  | .binary op left right, pos => by
    obtain ⟨t, ts, ht, hne⟩ := exists_tokens left (.left op)
    rw [tokens, enclose]
    split
    · exact ⟨_, _, rfl, by simp⟩
    · exact ⟨t, _, by rw [ht]; rfl, hne⟩

theorem exists_intercalate_tokens (e : Expr) (es : List Expr) :
    ∃ t ts, List.intercalate [.operator ','] (tokenLists (e :: es)) = t :: ts ∧
      t ≠ .operator ')' := by
  obtain ⟨t, ts, ht, hne⟩ := exists_tokens e .whole
  cases es with
  | nil => exact ⟨t, ts, by simpa [tokenLists] using ht, hne⟩
  | cons e' es =>
    rw [tokenLists, tokenLists, List.intercalate_cons_cons, ht]
    exact ⟨t, _, rfl, hne⟩

theorem tokens_ne_nil (e : Expr) (pos : Position) : e.tokens pos ≠ [] := by
  obtain ⟨t, ts, ht, -⟩ := e.exists_tokens pos
  simp [ht]

theorem intercalate_tokens_ne_nil (e : Expr) (es : List Expr) :
    List.intercalate [.operator ','] (tokenLists (e :: es)) ≠ [] := by
  obtain ⟨t, ts, ht, -⟩ := exists_intercalate_tokens e es
  simp [ht]

section Lexes

variable {rest : List Char}

theorem lexes_enclose (wanted : Bool) {body : List Char} {ts : List Token}
    (h : ∀ rest, Apart rest → Lexes (body ++ rest) ts rest) (hr : Apart rest) :
    Lexes (enclose '(' ')' wanted body ++ rest)
      (enclose (.operator '(') (.operator ')') wanted ts) rest := by
  unfold enclose
  split
  · have hclose : Lexes (')' :: rest) [.operator ')'] rest := lexes_punctuation (by decide) .nil
    have hbody := (h _ (apart_punctuation (by decide))).append hclose
    simpa using lexes_punctuation (c := '(') (by decide) hbody
  · exact h rest hr

theorem apart_enclose {body : List Char} : Apart (enclose '(' ')' true body ++ rest) := by
  rw [enclose, if_pos rfl]
  exact apart_punctuation (by decide)

theorem lexes_sources {gap : List Char} (hgap : ∀ c ∈ gap, Text.isBlank c = true)
    {args : List Expr}
    (h : ∀ a ∈ args, ∀ rest, Apart rest →
      Lexes (a.source gap .whole ++ rest) (a.tokens .whole) rest) (hr : Apart rest) :
    Lexes (List.intercalate (',' :: gap) (sources gap args) ++ rest)
      (List.intercalate [.operator ','] (tokenLists args)) rest := by
  induction args with
  | nil => simpa [sources, tokenLists] using .nil
  | cons a args ih =>
    obtain ⟨ha, hargs⟩ := List.forall_mem_cons.1 h
    cases args with
    | nil => simpa [sources, tokenLists] using ha rest hr
    | cons b args =>
      have hlast := (ih hargs).blanks hgap (intercalate_tokens_ne_nil b args)
      have hcomma := lexes_punctuation (c := ',') (by decide) hlast
      have hfirst := (ha _ (apart_punctuation (by decide))).append hcomma
      simpa [sources, tokenLists, List.intercalate_cons_cons] using hfirst

theorem Writable.lexes {e : Expr} (he : e.Writable) {gap : List Char}
    (hgap : ∀ c ∈ gap, Text.isBlank c = true) (pos : Position) (hr : Apart rest) :
    Lexes (e.source gap pos ++ rest) (e.tokens pos) rest := by
  induction he generalizing pos rest with
  | literal h =>
    rw [source, tokens]
    exact lexes_literal h hr
  | var h =>
    rw [source, tokens]
    exact lexes_word h hr
  | @binary op left right ho _ _ ihl ihr =>
    rw [source, tokens]
    refine lexes_enclose _ (fun rest hr => ?_) hr
    have hop : op ∈ punctuation := List.mem_append_left _ ho
    have hright := (ihr (.right op) hr).blanks hgap (right.tokens_ne_nil _)
    have hmid := (lexes_punctuation hop hright).blanks hgap (List.cons_ne_nil _ _)
    have hleft := (ihl (.left op) ((apart_punctuation hop).blanks hgap)).append hmid
    simpa using hleft
  | call hc _ iha =>
    rw [source, tokens]
    have hargs := lexes_enclose true
      (fun rest hr => lexes_sources hgap (fun a ha rest hr => iha a ha .whole hr) hr) hr
    simpa using (lexes_word hc apart_enclose).append hargs

end Lexes

end Expr

namespace Prototype

def tokens (proto : Prototype) : List Token :=
  .ident proto.name :: .operator '(' :: (proto.params.map .ident ++ [.operator ')'])

variable {rest : List Char}

theorem lexes_params {params : List String} (h : ∀ n ∈ params, IsWord n) (hr : Apart rest) :
    Lexes (List.intercalate [' '] (params.map String.toList) ++ rest) (params.map .ident)
      rest := by
  induction params with
  | nil => exact .nil
  | cons n params ih =>
    obtain ⟨hn, hparams⟩ := List.forall_mem_cons.1 h
    cases params with
    | nil => simpa using lexes_word hn hr
    | cons m params =>
      have hlast := (ih hparams).blanks isBlank_space (by simp)
      have hfirst := (lexes_word hn (apart_blank (isBlank_space ' ' (by simp)))).append hlast
      simpa [List.intercalate_cons_cons] using hfirst

theorem Names.lexes {proto : Prototype} (h : proto.Names IsWord) :
    Lexes (proto.text.toList ++ rest) proto.tokens rest := by
  obtain ⟨hname, hparams⟩ := h
  have hclose : Lexes (')' :: rest) [.operator ')'] rest := lexes_punctuation (by decide) .nil
  have hrow := (lexes_params hparams (apart_punctuation (by decide))).append hclose
  have hopen := lexes_punctuation (c := '(') (by decide) hrow
  have hall := (lexes_word hname (apart_punctuation (by decide))).append hopen
  have htext : proto.text = proto.name ++ "(" ++ String.intercalate " " proto.params ++ ")" := by
    simp [text, isAnonymous, hname.ne_empty]
  simpa [htext, tokens, String.toList_intercalate] using hall

end Prototype

section Units

theorem lexes_semicolon (rest : List Char) : Lexes (';' :: rest) [.operator ';'] rest :=
  lexes_punctuation (by decide) .nil

theorem Definition.lexes {rest gap : List Char} {d : Definition} (hp : d.proto.Names IsWord)
    (hd : d.body.Writable) (hgap : ∀ c ∈ gap, Text.isBlank c = true) :
    Lexes (("def " ++ d.proto.text ++ " ").toList ++ (d.body.source gap .whole ++ ';' :: rest))
      (.defKeyword :: (d.proto.tokens ++ d.body.tokens .whole ++ [.operator ';'])) rest := by
  have hbody := (hd.lexes hgap .whole (apart_punctuation (by decide))).append
    (lexes_semicolon rest)
  have hunit := hp.lexes.append (hbody.blanks isBlank_space (by simp))
  simpa using lexes_def hunit (by simp)

theorem Prototype.lexes_declaration {rest : List Char} {proto : Prototype}
    (h : proto.Names IsWord) :
    Lexes (("extern " ++ proto.text).toList ++ ';' :: rest)
      (.externKeyword :: (proto.tokens ++ [.operator ';'])) rest := by
  have hunit := h.lexes.append (lexes_semicolon rest)
  simpa using lexes_extern hunit (by simp)

end Units

end Reckoner
