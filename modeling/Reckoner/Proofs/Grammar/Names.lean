import Reckoner.Session.Reader

/-!
# Names

The names that occur in expressions, prototypes and tokens, as far as they are spoken of: `Names P`
says that all of them satisfy `P`.  Those that a lexer hands out are words (`Lexer.names_isWord`),
which keeps them apart from the empty name of an expression that stands by itself.
-/

namespace Reckoner

variable {P : String → Prop}

inductive Expr.Names (P : String → Prop) : Expr → Prop
  | literal {value : Float} : Names P (.literal value)
  | var {name : String} (h : P name) : Names P (.var name)
  | binary {op : Char} {left right : Expr} (hl : Names P left) (hr : Names P right) :
    Names P (.binary op left right)
  | call {callee : String} {args : List Expr} (hc : P callee) (ha : ∀ a ∈ args, Names P a) :
    Names P (.call callee args)

theorem Expr.Names.of_binary {op : Char} {left right : Expr}
    (h : (Expr.binary op left right).Names P) : left.Names P ∧ right.Names P := by
  cases h with
  | binary hl hr => exact ⟨hl, hr⟩

theorem Expr.Names.of_call {callee : String} {args : List Expr}
    (h : (Expr.call callee args).Names P) : P callee ∧ ∀ a ∈ args, a.Names P := by
  cases h with
  | call hc ha => exact ⟨hc, ha⟩

def Prototype.Names (P : String → Prop) (proto : Prototype) : Prop :=
  P proto.name ∧ ∀ n ∈ proto.params, P n

/-- The names in an item satisfy `P`, and an expression has no name of its own. -/
def Item.Names (P : String → Prop) : Item → Prop
  | .definition d => d.proto.Names P ∧ d.body.Names P
  | .declaration p => p.Names P
  | .expression d => d.proto = .anonymous ∧ d.body.Names P
  | _ => True

def Token.Names (P : String → Prop) (t : Token) : Prop :=
  ∀ name, t = .ident name → P name

theorem Token.names_true (t : Token) : t.Names fun _ => True :=
  fun _ _ => trivial

def TokenSupply.Names (σ : Type) [TokenSupply σ] (P : String → Prop) : Prop :=
  ∀ (s : σ) (t : Token), (TokenSupply.pull s).1 = .ok t → t.Names P

/-- A letter, and letters and digits after it, that are no keyword. -/
def IsWord (name : String) : Prop :=
  (∃ c cs, name.toList = c :: cs ∧ c.isAlpha ∧ ∀ d ∈ cs, d.isAlphanum) ∧
    name ≠ "def" ∧ name ≠ "extern"

theorem isWord_of_letters {name : String} {c : Char} {cs : List Char} (hn : name.toList = c :: cs)
    (hc : c.isAlpha = true) (hcs : cs.all Char.isAlphanum = true) (hd : name ≠ "def")
    (he : name ≠ "extern") : IsWord name :=
  ⟨⟨c, cs, hn, hc, List.all_eq_true.1 hcs⟩, hd, he⟩

theorem IsWord.ne_empty {name : String} (h : IsWord name) : name ≠ "" := by
  rintro rfl
  obtain ⟨⟨c, cs, hc, -⟩, -⟩ := h
  contradiction

theorem IsWord.isAlphanum {name : String} (h : IsWord name) :
    ∀ c ∈ name.toList, c.isAlphanum = true := by
  obtain ⟨⟨c, cs, hname, hc, hcs⟩, -⟩ := h
  rw [hname]
  exact List.forall_mem_cons.2 ⟨by simp [Char.isAlphanum, hc], hcs⟩

theorem IsWord.not_mem {name : String} (h : IsWord name) {c : Char} (hc : c.isAlphanum = false) :
    c ∉ name.toList := by
  intro hm
  rw [h.isAlphanum c hm] at hc
  contradiction

theorem Token.ofWord_eq_ident {word name : String} (h : Token.ofWord word = .ident name) :
    word = name ∧ name ≠ "def" ∧ name ≠ "extern" := by
  unfold Token.ofWord at h
  split at h
  · contradiction
  · split at h
    · contradiction
    · cases h
      exact ⟨rfl, ‹_›, ‹_›⟩

theorem Lexer.names_isWord : TokenSupply.Names Lexer IsWord := by
  rintro l t ht name rfl
  change l.next.1 = .ok (.ident name) at ht
  fun_induction next l with
  | case1 l start h => cases Except.ok.inj ht
  | case2 l start c h hc word rest hw =>
    obtain ⟨rfl, hne⟩ := Token.ofWord_eq_ident (Except.ok.inj ht)
    have hword : word = start.upcoming.takeWhile Char.isAlphanum := by
      rw [← fst_takeWhile, hw]
    rw [upcoming_eq_cons h, List.takeWhile_cons, if_pos (by simp [Char.isAlphanum, hc])] at hword
    subst hword
    refine ⟨⟨c, _, String.toList_ofList, hc, fun d hd => ?_⟩, hne⟩
    exact List.all_eq_true.1 List.all_takeWhile d hd
  | case3 l start c h hc hn text rest hw =>
    unfold numeral at ht
    split at ht
    · cases Except.ok.inj ht
    · contradiction
  | case4 l start h hc hn ih => exact ih ht
  | case5 l start c h hc hn hh => cases Except.ok.inj ht

end Reckoner
