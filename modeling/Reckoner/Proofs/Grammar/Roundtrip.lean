import Reckoner.Proofs.Grammar.SourceText

/-!
# Reading back what is written

A parser that comes upon the tokens of a written expression reads that expression and stops at the
token after it (`Expr.Writable.above_eq`).  The statement is about the rest of an expression, read
from a floor: the tokens of a left operand are read by the same climb as the operator after them, so
the climb must be followed through the operand and beyond.

The main statement, `reads_units`, puts the lexer before the parser: a definition or a declaration
that is written out as text is read back as it was, and reading stops at the semicolon after it.
-/

namespace Reckoner

variable {σ : Type} [TokenSupply σ] {α β : Type}

def Token.EndsExpr (t : Token) : Prop :=
  t.binding = 0 ∧ t ≠ .operator '('

namespace Parser

/-- An operand, extended by the operators that bind at least as tightly as `floor`. -/
def above (p : Parser σ) (floor : Nat) : Parse p Expr :=
  p.operand.bind fun left q _ => q.climb floor left

theorem expr_eq_above (p : Parser σ) : p.expr = p.above 1 :=
  expr_eq p

/-- The right operand of an operator is what binds more tightly. -/
theorem climb_eq_above {p : Parser σ} {floor : Nat} {left : Expr} {op : Char}
    (hc : p.current = .operator op) (hf : floor ≤ p.current.binding) :
    p.climb floor left = p.taking (by simp [hc]) fun q _ =>
      (q.above (p.current.binding + 1)).bind fun right r _ =>
        r.climb floor (.binary op left right) := by
  rw [climb_of_operator hc (Nat.not_lt.2 hf)]
  refine taking_congr fun q _ => ?_
  rw [above, Parse.bind_assoc]
  refine Parse.bind_congr fun right _ => ?_
  split
  · rfl
  · rename_i h
    rw [climb_of_looser (Nat.lt_succ_of_le (Nat.not_lt.1 h)), done_bind]

variable {p q : Parser σ} {ts : List Token} {e : Expr}

theorem above_of_operand {h : q.weight ≤ p.weight} (ho : p.operand = (q.done e).since h)
    (floor : Nat) : p.above floor = (q.climb floor e).since h := by
  rw [above, ho, Parse.since_bind, done_bind]

/-- An expression is read where it is read from the lowest floor and no operator comes after it. -/
theorem expr_of_above {h : q.weight ≤ p.weight} (ha : p.above 1 = (q.climb 1 e).since h)
    (hq : q.current.binding = 0) : p.expr = (q.done e).since h := by
  rw [expr_eq_above, ha, climb_of_looser (by rw [hq]; exact Nat.one_pos)]

theorem operand_of_passes_enclosed
    (h : Passes p (.operator '(' :: (ts ++ [.operator ')'])) q)
    (he : ∀ {p q : Parser σ} (h : Passes p ts q), q.current = .operator ')' →
      p.expr = (q.done e).since h.weight_le) :
    p.operand = (q.done e).since h.weight_le := by
  obtain ⟨hc, ⟨t, ha⟩, hrest⟩ := h.of_cons
  obtain ⟨r, hbody, hlast⟩ := hrest.of_append
  obtain ⟨hr, ⟨u, hu⟩, hnil⟩ := hlast.of_cons
  cases hnil
  rw [operand_of_paren hc, taking_of_ok ha, he hbody hr, Parse.since_bind, done_bind, if_pos hr,
    pass_of_ok hu]
  rfl

theorem arguments_of_passes {args : List Expr} (hne : args ≠ [])
    (he : ∀ a ∈ args, ∀ {p q : Parser σ} (h : Passes p (a.tokens .whole) q), q.current.EndsExpr →
      p.expr = (q.done a).since h.weight_le)
    (h : Passes p (List.intercalate [.operator ','] (Expr.tokenLists args)) q)
    (hq : q.current = .operator ')') :
    p.arguments = (q.done args).since h.weight_le := by
  induction args generalizing p with
  | nil => contradiction
  | cons a args ih =>
    obtain ⟨ha, hargs⟩ := List.forall_mem_cons.1 he
    cases args with
    | nil =>
      have hlast : Passes p (a.tokens .whole) q := by simpa [Expr.tokenLists] using h
      rw [arguments_eq, ha hlast (by rw [hq]; exact ⟨rfl, by simp⟩), Parse.since_bind, done_bind,
        if_pos hq]
    | cons b args =>
      have hrow : Passes p (a.tokens .whole ++ .operator ',' ::
          List.intercalate [.operator ','] (Expr.tokenLists (b :: args))) q := by
        simpa [Expr.tokenLists, List.intercalate_cons_cons] using h
      obtain ⟨r, hfirst, hrest⟩ := hrow.of_append
      obtain ⟨hr, ⟨t, ht⟩, hlast⟩ := hrest.of_cons
      rw [arguments_eq, ha hfirst (by rw [hr]; exact ⟨rfl, by simp⟩), Parse.since_bind, done_bind,
        if_neg (by simp [hr]), dif_pos hr, taking_of_ok ht,
        ih (List.cons_ne_nil _ _) hargs hlast, Parse.since_bind, done_bind]
      rfl

theorem operand_of_passes_call {callee : String} {args : List Expr}
    (he : ∀ a ∈ args, ∀ {p q : Parser σ} (h : Passes p (a.tokens .whole) q), q.current.EndsExpr →
      p.expr = (q.done a).since h.weight_le)
    {pos : Expr.Position} (h : Passes p ((Expr.call callee args).tokens pos) q) :
    p.operand = (q.done (.call callee args)).since h.weight_le := by
  have hrow : Passes p (.ident callee :: .operator '(' ::
      (List.intercalate [.operator ','] (Expr.tokenLists args) ++ [.operator ')'])) q := by
    simpa [Expr.tokens, Expr.enclose] using h
  obtain ⟨hc, ⟨t, ha⟩, hrest⟩ := hrow.of_cons
  obtain ⟨ho, ⟨u, hu⟩, hrest⟩ := hrest.of_cons
  rw [operand_of_ident hc, taking_of_ok ha, dif_pos ho, taking_of_ok hu]
  obtain ⟨r, hargs, hlast⟩ := hrest.of_append
  obtain ⟨hr, ⟨v, hv⟩, hnil⟩ := hlast.of_cons
  cases hnil
  cases args with
  | nil =>
    obtain rfl : p.advance.2.advance.2 = r := by
      simp only [Expr.tokenLists, List.intercalate_nil] at hargs
      cases hargs
      rfl
    rw [if_pos hr, pass_of_ok hv]
    rfl
  | cons a args =>
    have hfirst : p.advance.2.advance.2.current ≠ .operator ')' := by
      obtain ⟨w, ws, hw, hne⟩ := Expr.exists_intercalate_tokens a args
      rw [hw] at hargs
      rwa [hargs.of_cons.1]
    rw [if_neg hfirst, arguments_of_passes (List.cons_ne_nil _ _) he hargs hr, Parse.since_bind,
      done_bind, pass_of_ok hv]
    rfl

end Parser

namespace Expr

open Reckoner.Parser

/-- The floor from which an operation is read that stands without parentheses. -/
def Position.floor : Position → Nat
  | .whole => 1
  | .left parent => (Token.operator parent).binding
  | .right parent => (Token.operator parent).binding + 1

def Position.Proper : Position → Prop
  | .whole => True
  | .left parent => parent ∈ operators
  | .right parent => parent ∈ operators

theorem floor_le_binding (pos : Position) (hp : pos.Proper) {op : Char} (ho : op ∈ operators)
    (h : pos.encloses op = false) : pos.floor ≤ (Token.operator op).binding := by
  simp only [operators, List.mem_cons, List.not_mem_nil, or_false] at ho
  cases pos with
  | whole => rcases ho with rfl | rfl | rfl | rfl <;> decide
  | left parent =>
    simp only [Position.Proper, operators, List.mem_cons, List.not_mem_nil, or_false] at hp
    rcases hp with rfl | rfl | rfl | rfl <;> rcases ho with rfl | rfl | rfl | rfl <;>
      revert h <;> decide
  | right parent =>
    simp only [Position.Proper, operators, List.mem_cons, List.not_mem_nil, or_false] at hp
    rcases hp with rfl | rfl | rfl | rfl <;> rcases ho with rfl | rfl | rfl | rfl <;>
      revert h <;> decide

/-- From any floor that its position allows, an expression is read from its tokens, and the climb
goes on after them. -/
theorem Writable.above_eq {e : Expr} (he : e.Writable) (pos : Position) (hpos : pos.Proper)
    (floor : Nat) {p q : Parser σ} (h : Passes p (e.tokens pos) q) (hf : floor ≤ pos.floor)
    (hb : q.current.binding ≤ pos.floor) (hq : q.current ≠ .operator '(') :
    p.above floor = (q.climb floor e).since h.weight_le := by
  induction he generalizing pos floor p q with
  | literal hv =>
    obtain ⟨hc, ⟨t, ha⟩, hnil⟩ := h.of_cons
    cases hnil
    refine above_of_operand ?_ floor
    rw [operand_of_number hc, pass_of_ok ha]
  | var hn =>
    obtain ⟨hc, ⟨t, ha⟩, hnil⟩ := h.of_cons
    cases hnil
    refine above_of_operand ?_ floor
    rw [operand_of_ident hc, taking_of_ok ha, dif_neg hq]
  | @binary op left right ho _ _ ihl ihr =>
    have hop : Token.operator op ≠ .operator '(' := by
      rintro he
      cases he
      contradiction
    -- What stands there without parentheses is read from any floor up to its own operator.
    have hbody {p q : Parser σ} {floor : Nat}
        (h : Passes p (left.tokens (.left op) ++ .operator op :: right.tokens (.right op)) q)
        (hf : floor ≤ (Token.operator op).binding)
        (hb : q.current.binding ≤ (Token.operator op).binding)
        (hq : q.current ≠ .operator '(') :
        p.above floor = (q.climb floor (.binary op left right)).since h.weight_le := by
      obtain ⟨r, hleft, hrest⟩ := h.of_append
      obtain ⟨hc, ⟨t, ha⟩, hright⟩ := hrest.of_cons
      rw [ihl (.left op) ho floor hleft hf (by rw [hc]; exact Nat.le_refl _) (by rwa [hc]),
        climb_eq_above hc (by rwa [hc]), taking_of_ok ha, hc,
        ihr (.right op) ho ((Token.operator op).binding + 1) hright (Nat.le_refl _)
          (Nat.le_succ_of_le hb) hq,
        Parse.since_bind, climb_of_looser (Nat.lt_succ_of_le hb), done_bind]
      rfl
    cases hen : pos.encloses op with
    | false =>
      have hle := floor_le_binding pos hpos ho hen
      have hrow : Passes p
          (left.tokens (.left op) ++ .operator op :: right.tokens (.right op)) q := by
        simpa [tokens, enclose, hen] using h
      exact hbody hrow (Nat.le_trans hf hle) (Nat.le_trans hb hle) hq
    | true =>
      have hrow : Passes p (.operator '(' :: ((left.tokens (.left op) ++
          .operator op :: right.tokens (.right op)) ++ [.operator ')'])) q := by
        simpa [tokens, enclose, hen] using h
      refine above_of_operand (operand_of_passes_enclosed hrow fun {p q} h hq => ?_) floor
      have hle : 1 ≤ (Token.operator op).binding := floor_le_binding .whole trivial ho rfl
      have hzero : q.current.binding = 0 := by
        rw [hq]
        rfl
      exact expr_of_above (hbody h hle (by simp [hzero]) (by simp [hq])) hzero
  | call hc _ iha =>
    refine above_of_operand (operand_of_passes_call (fun a ha {p q} h hq => ?_) h) floor
    exact expr_of_above
      (iha a ha .whole trivial 1 h (Nat.le_refl _) (by simp [hq.1]) hq.2) hq.1

theorem Writable.expr_eq {e : Expr} (he : e.Writable) {p q : Parser σ}
    (h : Passes p (e.tokens .whole) q) (hq : q.current.EndsExpr) :
    p.expr = (q.done e).since h.weight_le :=
  expr_of_above
    (he.above_eq .whole trivial 1 h (Nat.le_refl _) (by simp [hq.1]) hq.2) hq.1

end Expr

namespace Parser

section Units

variable {p q : Parser σ}

theorem params_of_passes {t : Token} {names : List String}
    (h : Passes p (t :: names.map .ident) q) (hq : ∀ name, q.current ≠ .ident name) :
    p.params = (q.done names).since h.weight_le := by
  induction names generalizing p t with
  | nil =>
    obtain ⟨-, ⟨u, ha⟩, hnil⟩ := h.of_cons
    cases hnil
    rw [params_eq, take_bind_of_ok ha]
    cases u with
    | ident name => exact absurd (current_advance_of_ok ha) (hq name)
    | _ => rfl
  | cons name names ih =>
    obtain ⟨-, ⟨u, ha⟩, hrest⟩ := h.of_cons
    obtain rfl : u = .ident name := (current_advance_of_ok ha).symm.trans hrest.of_cons.1
    rw [params_eq, take_bind_of_ok ha]
    simp only
    rw [ih hrest, Parse.since_bind, done_bind]
    rfl

theorem proto_of_passes {proto : Prototype} (h : Passes p proto.tokens q) :
    p.proto = (q.done proto).since h.weight_le := by
  have hrow : Passes p (.ident proto.name ::
      ((.operator '(' :: proto.params.map .ident) ++ [.operator ')'])) q := h
  obtain ⟨hc, ⟨t, ha⟩, hrest⟩ := hrow.of_cons
  obtain ⟨r, hparams, hlast⟩ := hrest.of_append
  obtain ⟨hr, ⟨u, hu⟩, hnil⟩ := hlast.of_cons
  cases hnil
  rw [proto_of_ident hc, take_bind_of_ok ha, if_pos hparams.of_cons.1,
    params_of_passes hparams (by simp [hr]), Parse.since_bind, done_bind, if_pos hr,
    pass_of_ok hu]
  rfl

theorem definition_of_passes {d : Definition} (hd : d.body.Writable)
    (h : Passes p (.defKeyword :: (d.proto.tokens ++ d.body.tokens .whole)) q)
    (hq : q.current.EndsExpr) : p.definition = (q.done d).since h.weight_le := by
  obtain ⟨hc, ⟨t, ha⟩, hrest⟩ := h.of_cons
  obtain ⟨r, hproto, hbody⟩ := hrest.of_append
  rw [definition_eq hc, take_bind_of_ok ha, proto_of_passes hproto, Parse.since_bind, done_bind,
    hd.expr_eq hbody hq, Parse.since_bind, done_bind]
  rfl

theorem declaration_of_passes {proto : Prototype}
    (h : Passes p (.externKeyword :: proto.tokens) q) :
    p.declaration = (q.done proto).since h.weight_le := by
  obtain ⟨hc, ⟨t, ha⟩, hrest⟩ := h.of_cons
  rw [declaration_eq hc, take_bind_of_ok ha, proto_of_passes hrest]
  rfl

end Units

section Lexer

open Lexer

variable {p : Parser Lexer} {t u : Token} {ts : List Token} {rest : List Char}

theorem advance_of_lexes (h : Lexes p.supply.upcoming (t :: ts) rest) :
    p.advance.1 = .ok t ∧ p.advance.2.current ≠ .eof ∧
      Lexes p.advance.2.supply.upcoming ts rest := by
  cases h with
  | cons hs ht h =>
    obtain ⟨ha, rfl⟩ := hs.unique (scans_next p.supply)
    have hc : p.advance.1 = .ok t := ha
    rw [current_advance_of_ok hc]
    exact ⟨hc, ht, h⟩

/-- A parser over a lexer passes over the tokens that its text begins with. -/
theorem passes_of_lexes (hp : p.current ≠ .eof) (h : Lexes p.supply.upcoming (ts ++ [u]) rest) :
    ∃ q, Passes p (p.current :: ts) q ∧ q.current = u ∧ q.supply.upcoming = rest := by
  induction ts generalizing p with
  | nil =>
    obtain ⟨ha, -, hnil⟩ := advance_of_lexes h
    refine ⟨p.advance.2, .single hp ha, current_advance_of_ok ha, ?_⟩
    cases hnil
    rfl
  | cons t ts ih =>
    obtain ⟨ha, hne, hs⟩ := advance_of_lexes h
    obtain ⟨q, hpass, hq, hrest⟩ := ih hne hs
    rw [current_advance_of_ok ha] at hpass
    exact ⟨q, .cons rfl hp ha hpass, hq, hrest⟩

theorem passes_of_unit {lead cs : List Char} (hlead : ∀ c ∈ lead, Text.isBlank c = true)
    (hp : p.supply.upcoming = lead ++ cs) (h : Lexes cs (t :: (ts ++ [u])) rest) :
    p.advance.1 = .ok t ∧ ∃ q, Passes p.advance.2 (t :: ts) q ∧ q.current = u ∧
      q.supply.upcoming = rest := by
  have hall := h.blanks hlead (List.cons_ne_nil _ _)
  rw [← hp] at hall
  obtain ⟨ha, hne, hs⟩ := advance_of_lexes hall
  obtain ⟨q, hpass, hq, hrest⟩ := passes_of_lexes hne hs
  rw [current_advance_of_ok ha] at hpass
  exact ⟨ha, q, hpass, hq, hrest⟩

/-- A definition or a declaration that stands next in the text, with a semicolon after it, is read
as it is, and reading stops at the semicolon, whatever comes then. -/
theorem reads_units {lead gap rest : List Char} (hlead : ∀ c ∈ lead, Text.isBlank c = true)
    (hgap : ∀ c ∈ gap, Text.isBlank c = true) (p : Parser Lexer) :
    (∀ d : Definition, d.proto.Names IsWord → d.body.Writable →
      p.supply.upcoming = lead ++ (("def " ++ d.proto.text ++ " ").toList ++
        (d.body.source gap .whole ++ ';' :: rest)) →
      p.advance.1 = .ok .defKeyword ∧ p.advance.2.definition.outcome = .ok d ∧
        p.advance.2.definition.next.current = .operator ';' ∧
        p.advance.2.definition.next.supply.upcoming = rest) ∧
    ∀ proto : Prototype, proto.Names IsWord →
      p.supply.upcoming = lead ++ (("extern " ++ proto.text).toList ++ ';' :: rest) →
      p.advance.1 = .ok .externKeyword ∧ p.advance.2.declaration.outcome = .ok proto ∧
        p.advance.2.declaration.next.current = .operator ';' ∧
        p.advance.2.declaration.next.supply.upcoming = rest := by
  constructor
  · intro d hproto hbody hp
    obtain ⟨ha, q, hpass, hq, hrest⟩ :=
      passes_of_unit hlead hp (Definition.lexes hproto hbody hgap)
    have he : q.current.EndsExpr := by
      rw [hq]
      exact ⟨rfl, by simp⟩
    rw [definition_of_passes hbody hpass he]
    exact ⟨ha, rfl, hq, hrest⟩
  · intro proto hproto hp
    obtain ⟨ha, q, hpass, hq, hrest⟩ := passes_of_unit hlead hp (Prototype.lexes_declaration hproto)
    rw [declaration_of_passes hpass]
    exact ⟨ha, rfl, hq, hrest⟩

/-- A product with a sum in it, less a difference that must not be regrouped. -/
def scaled : Definition where
  proto := ⟨"scale", ["x", "y"]⟩
  body := .binary '-' (.binary '*' (.var "x") (.binary '+' (.var "y") (.literal 2.5)))
    (.binary '-' (.call "f" [.var "x", .literal 1]) (.var "y"))

theorem names_scaled : scaled.proto.Names IsWord := by
  have hx : IsWord "x" := isWord_of_letters rfl rfl (by decide) (by decide) (by decide)
  have hy : IsWord "y" := isWord_of_letters rfl rfl (by decide) (by decide) (by decide)
  exact ⟨isWord_of_letters rfl rfl (by decide) (by decide) (by decide),
    List.forall_mem_cons.2 ⟨hx, List.forall_mem_singleton.2 hy⟩⟩

theorem writable_scaled : scaled.body.Writable := by
  have hx : (Expr.var "x").Writable := .var (names_scaled.2 "x" (by decide))
  have hy : (Expr.var "y").Writable := .var (names_scaled.2 "y" (by decide))
  have hf : IsWord "f" := isWord_of_letters rfl rfl (by decide) (by decide) (by decide)
  have hone : Decimal.Readable 1 :=
    Decimal.readable_of_eq (by decide) (by decide) (by decide) (by decide +kernel)
  have hhalf : Decimal.Readable 2.5 :=
    Decimal.readable_of_eq (by decide) (by decide) (by decide) (by decide +kernel)
  have hcall : (Expr.call "f" [.var "x", .literal 1]).Writable :=
    .call hf (List.forall_mem_cons.2 ⟨hx, List.forall_mem_singleton.2 (.literal hone)⟩)
  have hsum : (Expr.binary '+' (.var "y") (.literal 2.5)).Writable :=
    .binary (by decide) hy (.literal hhalf)
  exact .binary (by decide) (.binary (by decide) hx hsum) (.binary (by decide) hcall hy)

theorem reads_units_scaled :
    (let p := (Parser.start (Lexer.ofText
        "def scale(x y) x * (y + 2.5) - (f(x, 1) - y); 1.2.3".toList)).advance;
      p.1 = .ok .defKeyword ∧ p.2.definition.outcome = .ok scaled ∧
        p.2.definition.next.current = .operator ';' ∧
        p.2.definition.next.supply.upcoming = " 1.2.3".toList) ∧
    (let p := (Parser.start (Lexer.ofText "extern scale(x y);".toList)).advance;
      p.1 = .ok .externKeyword ∧ p.2.declaration.outcome = .ok scaled.proto ∧
        p.2.declaration.next.current = .operator ';' ∧
        p.2.declaration.next.supply.upcoming = []) :=
  ⟨(reads_units isBlank_space isBlank_space _).1 scaled names_scaled writable_scaled
      (by decide +kernel),
    (reads_units isBlank_space isBlank_space _).2 scaled.proto names_scaled (by decide +kernel)⟩

end Lexer

end Parser

end Reckoner
