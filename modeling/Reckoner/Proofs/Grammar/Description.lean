import Reckoner.Proofs.Decimal.Reading
import Reckoner.Proofs.Grammar.Names
import Reckoner.Proofs.Text.Separation
import Reckoner.Proofs.Token.Partition

/-!
# Texts of expressions are unambiguous

The text of an expression says which expression it is (`Expr.text_inj`), whatever characters the
operators are: a blank, a comma, a parenthesis or a letter does no harm there.

The text of an operation opens with a parenthesis, and the character after that is its operator.
Every other text opens with a number, a name or a callee, which goes on as long as it can: this is
the lead of the text.  Its first character tells numbers from words, and what comes after it tells
callees from names.  So a text can be read off from the left if it stands before something that ends
it (`Expr.Unambiguous`), and that is how operands and arguments stand.  The line that is written for a
unit says which unit it is, likewise (`Definition.line_inj`).
-/

namespace Reckoner

open Decimal Lexer

/-- There is one way of taking a run off the front. -/
theorem Lexer.Run.unique {p : Char → Bool} {cs cs' rest rest' : List Char} (h : Run p cs rest)
    (h' : Run p cs' rest') (he : cs ++ rest = cs' ++ rest') : cs = cs' ∧ rest = rest' := by
  constructor
  · rw [← h.takeWhile_eq, he, h'.takeWhile_eq]
  · rw [← h.dropWhile_eq, he, h'.dropWhile_eq]

namespace Expr

/-- The names are words, and the literals are finite.  The operators may be any characters. -/
inductive Plain : Expr → Prop
  | literal {value : Float} (hn : value.isNaN = false) (hi : value.isInf = false) :
    Plain (.literal value)
  | var {name : String} (h : IsWord name) : Plain (.var name)
  | binary {op : Char} {left right : Expr} (hl : Plain left) (hr : Plain right) :
    Plain (.binary op left right)
  | call {callee : String} {args : List Expr} (hc : IsWord callee) (ha : ∀ a ∈ args, Plain a) :
    Plain (.call callee args)

section Parts

variable {e e' : Expr} {args args' : List Expr} {rest rest' : List Char}

def lead : Expr → List Char
  | .literal value => (Layout.plain.text value).toList
  | .var name => name.toList
  | .binary .. => []
  | .call callee _ => callee.toList

/-- What comes after an argument if `args` are the arguments after it. -/
def afterArgument (rest : List Char) : List Expr → List Char
  | [] => ')' :: rest
  | a :: args => ',' :: ' ' :: (a.text.toList ++ afterArgument rest args)

def arguments (rest : List Char) : List Expr → List Char
  | [] => ')' :: rest
  | a :: args => a.text.toList ++ afterArgument rest args

/-- What comes after the lead of a text, if `rest` comes after the text. -/
def trail (rest : List Char) : Expr → List Char
  | .literal _ => rest
  | .var _ => rest
  | .binary op left right =>
    '(' :: op :: ' ' :: (left.text.toList ++ ' ' :: (right.text.toList ++ ')' :: rest))
  | .call _ args => '(' :: arguments rest args

theorem intercalate_texts (rest : List Char) (args : List Expr) :
    [',', ' '].intercalate ((texts args).map String.toList) ++ ')' :: rest =
      arguments rest args := by
  cases args with
  | nil => rfl
  | cons a args =>
    induction args generalizing a with
    | nil => simp [texts, arguments, afterArgument]
    | cons b args ih =>
      have hb := ih b
      rw [texts_cons, List.map_cons] at hb
      rw [texts_cons, texts_cons, List.map_cons, List.map_cons, List.intercalate_cons_cons,
        List.append_assoc, List.append_assoc, hb]
      rfl

theorem toList_text_append (e : Expr) (rest : List Char) :
    e.text.toList ++ rest = e.lead ++ e.trail rest := by
  cases e with
  | literal value => rw [text, lead, trail]
  | var name => rw [text, lead, trail]
  | binary op left right => simp [text, lead, trail]
  | call callee args =>
    rw [lead, trail, ← intercalate_texts, text]
    simp [String.toList_intercalate]

def Ends (rest : List Char) : Prop :=
  ∀ c ∈ rest.head?, c = ' ' ∨ c = ',' ∨ c = ')'

theorem ends_nil : Ends [] :=
  nofun

theorem ends_cons {c : Char} (h : c = ' ' ∨ c = ',' ∨ c = ')') (rest : List Char) :
    Ends (c :: rest) := by
  intro d hd
  rwa [← Option.some.inj hd]

theorem ends_afterArgument (rest : List Char) (args : List Expr) :
    Ends (afterArgument rest args) := by
  cases args with
  | nil => exact ends_cons (by simp) _
  | cons a args => exact ends_cons (by simp) _

theorem isTextual_of_isAlphanum {c : Char} (h : c.isAlphanum = true) : isTextual c = true := by
  simp [isTextual, h]

theorem Plain.run_lead (h : e.Plain) (hr : Ends rest) : Run isTextual e.lead (e.trail rest) := by
  have hstops : ∀ c ∈ rest.head?, isTextual c = false := by
    intro c hc
    rcases hr c hc with rfl | rfl | rfl <;> decide
  have hparen {cs : List Char} : ∀ c ∈ ('(' :: cs).head?, isTextual c = false := by
    rintro c ⟨⟩
    decide
  cases h with
  | literal _ _ => exact ⟨isTextual_of_mem_text, hstops⟩
  | var h => exact ⟨fun c hc => isTextual_of_isAlphanum (h.isAlphanum c hc), hstops⟩
  | binary _ _ => exact ⟨nofun, hparen⟩
  | call h _ => exact ⟨fun c hc => isTextual_of_isAlphanum (h.isAlphanum c hc), hparen⟩

end Parts

section Form

variable {e e' : Expr} {rest rest' : List Char}

inductive Form
  | number
  | name
  | operation
  | call

def form : Expr → Form
  | .literal _ => .number
  | .var _ => .name
  | .binary .. => .operation
  | .call .. => .call

def Form.ofText : List Char → List Char → Form
  | [], _ => .operation
  | c :: _, after =>
    if c.isAlpha then if after.head? = some '(' then .call else .name
    else .number

theorem exists_cons_of_finite {value : Float} (hn : value.isNaN = false)
    (hi : value.isInf = false) :
    ∃ c cs, (Layout.plain.text value).toList = c :: cs ∧ c.isAlpha = false := by
  obtain ⟨c, cs, hcs, hc⟩ := unsigned_eq_cons Layout.plain hi
  rw [toList_text Layout.plain hn, hcs]
  split
  · exact ⟨c, cs, rfl, (isNumeral_apart (isNumeral_of_isDigit hc)).1⟩
  · exact ⟨'-', c :: cs, rfl, rfl⟩

theorem Plain.form_eq (h : e.Plain) (hr : Ends rest) :
    e.form = Form.ofText e.lead (e.trail rest) := by
  cases h with
  | literal hn hi =>
    obtain ⟨c, cs, hcs, hc⟩ := exists_cons_of_finite hn hi
    rw [lead, hcs, Form.ofText, if_neg (ne_true_of_eq_false hc)]
    rfl
  | var h =>
    obtain ⟨⟨c, cs, hcs, hc, -⟩, -⟩ := h
    have hne : rest.head? ≠ some '(' := fun hp => absurd (hr '(' hp) (by decide)
    rw [lead, hcs, Form.ofText, if_pos hc, trail, if_neg hne]
    rfl
  | binary _ _ => rfl
  | call h _ =>
    obtain ⟨⟨c, cs, hcs, hc, -⟩, -⟩ := h
    rw [lead, hcs, Form.ofText, if_pos hc]
    rfl

theorem Plain.parts_eq (h : e.Plain) (h' : e'.Plain) (hr : Ends rest) (hr' : Ends rest')
    (he : e.text.toList ++ rest = e'.text.toList ++ rest') :
    e.form = e'.form ∧ e.lead = e'.lead ∧ e.trail rest = e'.trail rest' := by
  rw [toList_text_append, toList_text_append] at he
  obtain ⟨hl, ht⟩ := (h.run_lead hr).unique (h'.run_lead hr') he
  exact ⟨by rw [h.form_eq hr, h'.form_eq hr', hl, ht], hl, ht⟩

end Form

section Unambiguous

variable {e e' : Expr} {args args' : List Expr} {rest rest' : List Char}

/-- The text of the expression is that of no other one, and it is clear where it ends. -/
def Unambiguous (e : Expr) : Prop :=
  ∀ e' rest rest', e'.Plain → Ends rest → Ends rest' →
    e.text.toList ++ rest = e'.text.toList ++ rest' → e = e' ∧ rest = rest'

theorem afterArgument_unique (h : ∀ a ∈ args, a.Unambiguous) (h' : ∀ a ∈ args', a.Plain)
    (he : afterArgument rest args = afterArgument rest' args') :
    args = args' ∧ rest = rest' := by
  induction args generalizing args' with
  | nil =>
    cases args' with
    | nil => exact ⟨rfl, (List.cons.inj he).2⟩
    | cons a' args' => exact absurd (List.cons.inj he).1 (by decide)
  | cons a args ih =>
    cases args' with
    | nil => exact absurd (List.cons.inj he).1 (by decide)
    | cons a' args' =>
      obtain ⟨ha, hargs⟩ := List.forall_mem_cons.1 h
      obtain ⟨ha', hargs'⟩ := List.forall_mem_cons.1 h'
      have he := (List.cons.inj (List.cons.inj he).2).2
      obtain ⟨rfl, hafter⟩ := ha a' _ _ ha' (ends_afterArgument _ _) (ends_afterArgument _ _) he
      obtain ⟨rfl, hrest⟩ := ih hargs hargs' hafter
      exact ⟨rfl, hrest⟩

/-- No text begins like the end of a list of arguments. -/
theorem Plain.text_append_ne (h : e.Plain) (cs : List Char) :
    e.text.toList ++ rest ≠ ')' :: cs := by
  intro he
  rw [toList_text_append] at he
  cases hl : e.lead with
  | cons c ds =>
    have hc : isTextual c = true := (h.run_lead ends_nil).all c (hl ▸ List.mem_cons_self)
    rw [hl] at he
    rw [(List.cons.inj he).1] at hc
    contradiction
  | nil =>
    -- only an operation has no lead
    have hform := h.form_eq ends_nil
    rw [hl] at hform
    cases h with
    | binary _ _ => exact absurd (List.cons.inj he).1 (by decide)
    | _ => contradiction

theorem arguments_unique (h : ∀ a ∈ args, a.Unambiguous) (hp : ∀ a ∈ args, a.Plain)
    (h' : ∀ a ∈ args', a.Plain) (he : arguments rest args = arguments rest' args') :
    args = args' ∧ rest = rest' := by
  cases args with
  | nil =>
    cases args' with
    | nil => exact ⟨rfl, (List.cons.inj he).2⟩
    | cons a' args' => exact absurd he.symm ((h' a' List.mem_cons_self).text_append_ne _)
  | cons a args =>
    cases args' with
    | nil => exact absurd he ((hp a List.mem_cons_self).text_append_ne _)
    | cons a' args' =>
      obtain ⟨ha, hargs⟩ := List.forall_mem_cons.1 h
      obtain ⟨ha', hargs'⟩ := List.forall_mem_cons.1 h'
      obtain ⟨rfl, hafter⟩ := ha a' _ _ ha' (ends_afterArgument _ _) (ends_afterArgument _ _) he
      obtain ⟨rfl, hrest⟩ := afterArgument_unique hargs hargs' hafter
      exact ⟨rfl, hrest⟩

theorem Plain.unambiguous (h : e.Plain) : e.Unambiguous := by
  induction h with
  | literal hn hi =>
    intro e' rest rest' h' hr hr' he
    obtain ⟨hform, hlead, htrail⟩ := (Plain.literal hn hi).parts_eq h' hr hr' he
    cases h' with
    | literal _ _ =>
      exact ⟨congrArg _ (text_injective _ (String.toList_inj.1 hlead)), htrail⟩
    | _ => contradiction
  | var h =>
    intro e' rest rest' h' hr hr' he
    obtain ⟨hform, hlead, htrail⟩ := (Plain.var h).parts_eq h' hr hr' he
    cases h' with
    | var _ => exact ⟨congrArg _ (String.toList_inj.1 hlead), htrail⟩
    | _ => contradiction
  | @binary op left right hl hr ihl ihr =>
    intro e' rest rest' h' hends hends' he
    obtain ⟨hform, -, htrail⟩ := (Plain.binary hl hr).parts_eq h' hends hends' he
    cases h' with
    | @binary op' left' right' hl' hr' =>
      simp only [trail, List.cons.injEq, true_and] at htrail
      obtain ⟨rfl, hoperands⟩ := htrail
      obtain ⟨rfl, hright⟩ := ihl left' _ _ hl' (ends_cons (by simp) _) (ends_cons (by simp) _)
        hoperands
      obtain ⟨rfl, hclose⟩ := ihr right' _ _ hr' (ends_cons (by simp) _) (ends_cons (by simp) _)
        (List.cons.inj hright).2
      exact ⟨rfl, (List.cons.inj hclose).2⟩
    | _ => contradiction
  | @call callee args hc ha ih =>
    intro e' rest rest' h' hr hr' he
    obtain ⟨hform, hlead, htrail⟩ := (Plain.call hc ha).parts_eq h' hr hr' he
    cases h' with
    | @call callee' args' hc' ha' =>
      obtain rfl := String.toList_inj.1 hlead
      obtain ⟨rfl, hrest⟩ := arguments_unique ih ha ha' (List.cons.inj htrail).2
      exact ⟨rfl, hrest⟩
    | _ => contradiction

/-- The text of an expression determines it. -/
theorem text_inj (h : e.Plain) (h' : e'.Plain) : e.text = e'.text ↔ e = e' := by
  constructor
  · intro ht
    exact (h.unambiguous e' [] [] h' ends_nil ends_nil (by rw [ht])).1
  · exact congrArg text

/-- The operator is a comma.  The texts are `f((, x y()), -0.5)` and `f((, x() y), -0.5)`. -/
theorem text_inj_swapped :
    let e : Expr := .call "f" [.binary ',' (.var "x") (.call "y" []), .literal (-0.5)]
    let e' : Expr := .call "f" [.binary ',' (.call "x" []) (.var "y"), .literal (-0.5)]
    e.Plain ∧ e'.Plain ∧ e ≠ e' ∧ e.text ≠ e'.text := by
  intro e e'
  have word {name : String} {c : Char} (hn : name.toList = [c]) (hc : c.isAlpha = true)
      (hd : name ≠ "def") (he : name ≠ "extern") : IsWord name :=
    isWord_of_letters hn hc rfl hd he
  have hx : IsWord "x" := word rfl rfl (by decide) (by decide)
  have hy : IsWord "y" := word rfl rfl (by decide) (by decide)
  have hf : IsWord "f" := word rfl rfl (by decide) (by decide)
  have hv : Plain (.literal (-0.5)) := .literal (by decide +kernel) (by decide +kernel)
  have hp : e.Plain := by
    refine .call hf (List.forall_mem_cons.2 ⟨.binary (.var hx) (.call hy nofun), ?_⟩)
    exact List.forall_mem_singleton.2 hv
  have hp' : e'.Plain := by
    refine .call hf (List.forall_mem_cons.2 ⟨.binary (.call hx nofun) (.var hy), ?_⟩)
    exact List.forall_mem_singleton.2 hv
  have hne : e ≠ e' := by simp [e, e']
  exact ⟨hp, hp', hne, fun ht => hne ((text_inj hp hp').1 ht)⟩

end Unambiguous

end Expr

section Definition

open Text

variable {p p' : Prototype} {d d' : Definition}

def Prototype.Plain (p : Prototype) : Prop :=
  p = .anonymous ∨ p.Names IsWord

def Prototype.title (p : Prototype) : String :=
  if p.isAnonymous then "<anonymous>" else p.name

namespace Prototype

theorem toList_text (p : Prototype) :
    p.text.toList =
      p.title.toList ++ '(' :: ([' '].intercalate (p.params.map String.toList) ++ [')']) := by
  simp [text, title, String.toList_intercalate]

theorem Plain.title_cases (h : p.Plain) :
    (p.name = "" ∧ p.title = "<anonymous>") ∨ (IsWord p.name ∧ p.title = p.name) := by
  rcases h with rfl | ⟨hn, -⟩
  · exact .inl ⟨rfl, rfl⟩
  · have ha : p.isAnonymous = false := decide_eq_false hn.ne_empty
    exact .inr ⟨hn, by rw [title, ha, if_neg Bool.false_ne_true]⟩

theorem Plain.isWord_params (h : p.Plain) : ∀ name ∈ p.params, IsWord name := by
  rcases h with rfl | ⟨-, hp⟩
  · exact nofun
  · exact hp

theorem Plain.paren_not_mem_title (h : p.Plain) : '(' ∉ p.title.toList := by
  rcases h.title_cases with ⟨-, ht⟩ | ⟨hn, ht⟩
  · rw [ht]
    decide
  · rw [ht]
    exact hn.not_mem rfl

theorem Plain.name_eq (h : p.Plain) (h' : p'.Plain) (ht : p.title = p'.title) :
    p.name = p'.name := by
  have hne {q : Prototype} (hq : IsWord q.name) : q.name ≠ "<anonymous>" := by
    intro he
    have hmem : '<' ∉ q.name.toList := hq.not_mem rfl
    rw [he] at hmem
    exact hmem (by decide)
  rcases h.title_cases with ⟨hn, hp⟩ | ⟨hn, hp⟩ <;>
    rcases h'.title_cases with ⟨hn', hp'⟩ | ⟨hn', hp'⟩ <;> rw [hp, hp'] at ht
  · rw [hn, hn']
  · exact absurd ht.symm (hne hn')
  · exact absurd ht (hne hn)
  · exact ht

theorem Plain.unique (h : p.Plain) (h' : p'.Plain) {rest rest' : List Char}
    (he : p.text.toList ++ rest = p'.text.toList ++ rest') : p = p' ∧ rest = rest' := by
  have hparams {q : Prototype} (hq : q.Plain) :
      ∀ name ∈ q.params.map String.toList, ' ' ∉ name ∧ name ≠ [] := by
    refine List.forall_mem_map.2 fun name hn => ⟨(hq.isWord_params name hn).not_mem rfl, ?_⟩
    exact fun hnil => (hq.isWord_params name hn).ne_empty (String.toList_eq_nil_iff.1 hnil)
  have hclose {q : Prototype} (hq : q.Plain) :
      ')' ∉ [' '].intercalate (q.params.map String.toList) := by
    refine not_mem_intercalate (by decide) (List.forall_mem_map.2 fun name hn => ?_)
    exact (hq.isWord_params name hn).not_mem rfl
  simp only [toList_text, List.append_assoc, List.cons_append, List.nil_append] at he
  obtain ⟨htitle, hafter⟩ := append_cons_inj h.paren_not_mem_title h'.paren_not_mem_title he
  obtain ⟨hlist, hrest⟩ := append_cons_inj (hclose h) (hclose h') hafter
  have hname := h.name_eq h' (String.toList_inj.1 htitle)
  have hmap := intercalate_inj (hparams h) (hparams h') hlist
  have hps : p.params = p'.params := map_inj_of_mem (fun _ _ _ _ => String.toList_inj.1) hmap
  cases p
  cases p'
  exact ⟨congr (congrArg mk hname) hps, hrest⟩

end Prototype

theorem Definition.line_inj (hp : d.proto.Plain) (hb : d.body.Plain) (hp' : d'.proto.Plain)
    (hb' : d'.body.Plain) : d.text = d'.text ↔ d = d' := by
  constructor
  · intro ht
    have hcs := congrArg String.toList ht
    simp only [text, String.toList_append, List.append_assoc, List.append_cancel_left_eq] at hcs
    obtain ⟨hproto, hrest⟩ := hp.unique hp' hcs
    have hbody := String.toList_inj.1 (List.append_cancel_left hrest)
    have hbody := (hb.unambiguous _ [] [] hb' Expr.ends_nil Expr.ends_nil (by rw [hbody])).1
    cases d
    cases d'
    exact congr (congrArg mk hproto) hbody
  · exact congrArg text

end Definition

end Reckoner
