import Reckoner.Grammar.Unit

/-!
# Productions in sequence

`Parse.bind` goes on after a success and `Parser.taking` after the current token.  Both hand on
that the parser has not become heavier, so that a production can be defined and reasoned about by
recursion on weight.  The productions for expressions are written with them here, one equation
for each case of the current token; nothing after this module unfolds the productions themselves.
-/

namespace Reckoner

variable {σ : Type} [TokenSupply σ] {α β γ : Type}

namespace Parse

def bind {p : Parser σ} (r : Parse p α)
    (f : α → (q : Parser σ) → q.weight ≤ p.weight → Parse q β) : Parse p β :=
  match r with
  | ⟨.error e, q, h⟩ => ⟨.error e, q, h⟩
  | ⟨.ok x, q, h⟩ => (f x q h).since h

theorem bind_congr {p : Parser σ} {r : Parse p α}
    {f g : α → (q : Parser σ) → q.weight ≤ p.weight → Parse q β}
    (h : ∀ x, r.outcome = .ok x → f x r.next r.weight_le = g x r.next r.weight_le) :
    r.bind f = r.bind g := by
  obtain ⟨o, q, hq⟩ := r
  cases o with
  | error e => rfl
  | ok x => simp only [bind, h x rfl]

theorem bind_assoc {p : Parser σ} (r : Parse p α)
    (f : α → (q : Parser σ) → q.weight ≤ p.weight → Parse q β)
    (g : β → (q : Parser σ) → q.weight ≤ p.weight → Parse q γ) :
    (r.bind f).bind g =
      r.bind fun x q hq => (f x q hq).bind fun y t ht => g y t (Nat.le_trans ht hq) := by
  obtain ⟨o, q, hq⟩ := r
  cases o with
  | error e => rfl
  | ok x =>
    simp only [bind]
    obtain ⟨o, t, ht⟩ := f x q hq
    cases o <;> rfl

theorem bind_done {p : Parser σ} (r : Parse p α) : (r.bind fun x q _ => q.done x) = r := by
  obtain ⟨o, q, hq⟩ := r
  cases o <;> rfl

theorem since_bind {p q : Parser σ} (r : Parse q α) (h : q.weight ≤ p.weight)
    (f : α → (t : Parser σ) → t.weight ≤ p.weight → Parse t β) :
    (r.since h).bind f = (r.bind fun x t ht => f x t (Nat.le_trans ht h)).since h := by
  obtain ⟨o, t, ht⟩ := r
  cases o <;> rfl

theorem bind_eq_ok {p : Parser σ} {r : Parse p α}
    {f : α → (q : Parser σ) → q.weight ≤ p.weight → Parse q β} {y : β}
    (h : (r.bind f).outcome = .ok y) :
    ∃ x, r.outcome = .ok x ∧ (f x r.next r.weight_le).outcome = .ok y ∧
      (r.bind f).next = (f x r.next r.weight_le).next := by
  obtain ⟨o, q, hq⟩ := r
  cases o with
  | error e => exact absurd h (by simp [bind])
  | ok x => exact ⟨x, rfl, h, rfl⟩

end Parse

namespace Parser

@[simp]
theorem done_bind {p : Parser σ} (x : α)
    (f : α → (q : Parser σ) → q.weight ≤ p.weight → Parse q β) :
    (p.done x).bind f = f x p (Nat.le_refl _) := rfl

def take (p : Parser σ) : Parse p Token :=
  match p.advance.1 with
  | .error e => ⟨.error (.lex e), p.advance.2, p.weight_advance_le⟩
  | .ok t => ⟨.ok t, p.advance.2, p.weight_advance_le⟩

theorem take_of_error {p : Parser σ} {e : LexError} (he : p.advance.1 = .error e) :
    p.take = ⟨.error (.lex e), p.advance.2, p.weight_advance_le⟩ := by
  rw [take, he]

theorem take_of_ok {p : Parser σ} {t : Token} (ht : p.advance.1 = .ok t) :
    p.take = ⟨.ok t, p.advance.2, p.weight_advance_le⟩ := by
  rw [take, ht]

theorem pass_eq (p : Parser σ) (x : α) : p.pass x = p.take.bind fun _ q _ => q.done x := by
  unfold pass
  simp only
  split
  · rename_i t ht
    rw [take_of_ok ht]; rfl
  · rename_i e he
    rw [take_of_error he]; rfl

theorem take_bind_of_ok {p : Parser σ} {t : Token} (h : p.advance.1 = .ok t)
    (f : Token → (q : Parser σ) → q.weight ≤ p.weight → Parse q β) :
    p.take.bind f = (f t p.advance.2 p.weight_advance_le).since p.weight_advance_le := by
  rw [take_of_ok h]
  rfl

theorem pass_of_ok {p : Parser σ} {t : Token} (h : p.advance.1 = .ok t) (x : α) :
    p.pass x = (p.advance.2.done x).since p.weight_advance_le := by
  rw [pass_eq, take_bind_of_ok h]

def taking (p : Parser σ) (h : p.current ≠ .eof)
    (f : (q : Parser σ) → q.weight < p.weight → Parse q α) : Parse p α :=
  match p.advance.1 with
  | .error e => ⟨.error (.lex e), p.advance.2, p.weight_advance_le⟩
  | .ok _ => (f p.advance.2 (weight_advance_lt h)).since p.weight_advance_le

theorem taking_of_error {p : Parser σ} {h : p.current ≠ .eof}
    {f : (q : Parser σ) → q.weight < p.weight → Parse q α} {e : LexError}
    (he : p.advance.1 = .error e) :
    p.taking h f = ⟨.error (.lex e), p.advance.2, p.weight_advance_le⟩ := by
  rw [taking, he]

theorem taking_of_ok {p : Parser σ} {h : p.current ≠ .eof}
    {f : (q : Parser σ) → q.weight < p.weight → Parse q α} {t : Token}
    (ht : p.advance.1 = .ok t) :
    p.taking h f = (f p.advance.2 (weight_advance_lt h)).since p.weight_advance_le := by
  rw [taking, ht]

theorem taking_eq_ok {p : Parser σ} {h : p.current ≠ .eof}
    {f : (q : Parser σ) → q.weight < p.weight → Parse q α} {x : α}
    (hx : (p.taking h f).outcome = .ok x) :
    ∃ hq : p.advance.2.weight < p.weight, (f p.advance.2 hq).outcome = .ok x ∧
      (p.taking h f).next = (f p.advance.2 hq).next := by
  refine ⟨weight_advance_lt h, ?_⟩
  cases hs : p.advance.1 with
  | error e => rw [taking_of_error hs] at hx; contradiction
  | ok t => rw [taking_of_ok hs] at hx ⊢; exact ⟨hx, rfl⟩

theorem taking_congr {p : Parser σ} {h : p.current ≠ .eof}
    {f g : (q : Parser σ) → q.weight < p.weight → Parse q α} (hfg : ∀ q hq, f q hq = g q hq) :
    p.taking h f = p.taking h g := by
  rw [show f = g from funext fun q => funext (hfg q)]

theorem taking_bind {p : Parser σ} {h : p.current ≠ .eof}
    (f : (q : Parser σ) → q.weight < p.weight → Parse q α)
    (g : α → (q : Parser σ) → q.weight ≤ p.weight → Parse q β) :
    (p.taking h f).bind g = p.taking h fun q hq =>
      (f q hq).bind fun x r hr => g x r (Nat.le_trans hr (Nat.le_of_lt hq)) := by
  cases hs : p.advance.1 with
  | error e => rw [taking_of_error hs, taking_of_error hs]; rfl
  | ok t =>
    rw [taking_of_ok hs, taking_of_ok hs]
    obtain ⟨o, q, hq⟩ := f p.advance.2 (weight_advance_lt h)
    cases o <;> rfl

theorem expr_eq (p : Parser σ) : p.expr = p.operand.bind fun left q _ => q.climb 1 left := by
  rw [expr]
  cases p.operand with
  | mk o q h => cases o <;> rfl

theorem arguments_eq (p : Parser σ) :
    p.arguments = p.expr.bind fun x q _ =>
      if q.current = .operator ')' then q.done [x]
      else if h : q.current = .operator ',' then
        q.taking (by simp [h]) fun r _ => r.arguments.bind fun xs t _ => t.done (x :: xs)
      else q.reject .argumentEnd := by
  rw [arguments]
  cases p.expr with
  | mk o q h =>
    cases o with
    | error e => rfl
    | ok x =>
      simp only [Parse.bind]
      split
      · rename_i hc
        rw [if_pos hc]; rfl
      · rename_i hc
        rw [if_neg (by simp [hc]), dif_pos hc]
        split
        · rename_i e he
          rw [taking_of_error he]; rfl
        · rename_i t ht
          rw [taking_of_ok ht]
          cases q.advance.2.arguments with
          | mk o r hr => cases o <;> rfl
      · rename_i h₁ h₂
        rw [if_neg h₁, dif_neg h₂]

theorem climb_of_operator {p : Parser σ} {floor : Nat} {left : Expr} {op : Char}
    (hc : p.current = .operator op) (hf : ¬ p.current.binding < floor) :
    p.climb floor left = p.taking (by simp [hc]) fun q _ =>
      q.operand.bind fun right r _ =>
        if p.current.binding < r.current.binding then
          (r.climb (p.current.binding + 1) right).bind fun right' t _ =>
            t.climb floor (.binary op left right')
        else r.climb floor (.binary op left right) := by
  rw [climb]
  split
  · rename_i op' hc'
    obtain rfl : op' = op := by simpa [hc] using hc'.symm
    rw [if_neg hf]
    simp only
    split
    · rename_i e he
      rw [taking_of_error he]
    · rename_i t ht
      rw [taking_of_ok ht]
      cases p.advance.2.operand with
      | mk o q h =>
        cases o with
        | error e => rfl
        | ok right =>
          simp only [Parse.bind]
          split
          · cases q.climb (p.current.binding + 1) right with
            | mk o r h => cases o <;> rfl
          · rfl
  · rename_i h
    exact absurd hc (h op)

theorem climb_of_looser {p : Parser σ} {floor : Nat} {left : Expr}
    (hf : p.current.binding < floor) : p.climb floor left = p.done left := by
  rw [climb]
  split
  · rw [if_pos hf]
  · rfl

theorem climb_of_other {p : Parser σ} {floor : Nat} {left : Expr}
    (h : ∀ op, p.current ≠ .operator op) : p.climb floor left = p.done left := by
  rw [climb]
  split
  · rename_i op hc
    exact absurd hc (h op)
  · rfl

theorem operand_of_number {p : Parser σ} {value : Float} (hc : p.current = .number value) :
    p.operand = p.pass (.literal value) := by
  rw [operand]
  split <;> simp_all

theorem operand_of_ident {p : Parser σ} {name : String} (hc : p.current = .ident name) :
    p.operand = p.taking (by simp [hc]) fun q _ =>
      if h : q.current = .operator '(' then
        q.taking (by simp [h]) fun r _ =>
          if r.current = .operator ')' then r.pass (.call name [])
          else r.arguments.bind fun args t _ => t.pass (.call name args)
      else q.done (.var name) := by
  rw [operand]
  split
  · simp_all
  · rename_i name' hc'
    obtain rfl : name' = name := by simpa [hc] using hc'.symm
    simp only
    split
    · rename_i e he
      rw [taking_of_error he]
    · rename_i ht
      rw [taking_of_ok ht, dif_pos (current_advance_of_ok ht)]
      split
      · rename_i e he
        rw [taking_of_error he]; rfl
      · rename_i hu
        rw [taking_of_ok hu, if_pos (current_advance_of_ok hu)]; rfl
      · rename_i t hn hu
        rw [taking_of_ok hu, if_neg (by simpa [current_advance_of_ok hu] using hn)]
        cases p.advance.2.advance.2.arguments with
        | mk o r h => cases o <;> rfl
    · rename_i t hn ht
      rw [taking_of_ok ht, dif_neg (by simpa [current_advance_of_ok ht] using hn)]; rfl
  · simp_all
  · simp_all

theorem operand_of_paren {p : Parser σ} (hc : p.current = .operator '(') :
    p.operand = p.taking (by simp [hc]) fun q _ =>
      q.expr.bind fun x r _ =>
        if r.current = .operator ')' then r.pass x else r.reject .closeParen := by
  rw [operand]
  split
  · simp_all
  · simp_all
  · simp only
    split
    · rename_i e he
      rw [taking_of_error he]
    · rename_i t ht
      rw [taking_of_ok ht]
      cases p.advance.2.expr with
      | mk o r h =>
        cases o with
        | error e => rfl
        | ok x =>
          simp only [Parse.bind]
          split <;> rfl
  · simp_all

theorem operand_of_other {p : Parser σ} (hn : ∀ v, p.current ≠ .number v)
    (hi : ∀ n, p.current ≠ .ident n) (ho : p.current ≠ .operator '(') :
    p.operand = p.fail (.noExpression p.current) := by
  rw [operand]
  split <;> simp_all

/-! ## Units -/

theorem params_eq (p : Parser σ) :
    p.params = p.take.bind fun t q _ =>
      match t with
      | .ident name => q.params.bind fun names r _ => r.done (name :: names)
      | _ => q.done [] := by
  rw [params]
  split
  · rename_i e he
    rw [take_of_error he]; rfl
  · rename_i name ht
    rw [take_of_ok ht]
    simp only [Parse.bind]
    cases p.advance.2.params with
    | mk o q h => cases o <;> rfl
  · rename_i t hn ht
    rw [take_of_ok ht]
    cases t with
    | ident name => exact absurd rfl (hn name)
    | _ => rfl

theorem proto_of_ident {p : Parser σ} {name : String} (hc : p.current = .ident name) :
    p.proto = p.take.bind fun _ q _ =>
      if q.current = .operator '(' then
        q.params.bind fun names r _ =>
          if r.current = .operator ')' then r.pass ⟨name, names⟩ else r.reject .paramsClose
      else q.reject .paramsOpen := by
  unfold proto
  split
  · rename_i name' hc'
    obtain rfl : name' = name := by simpa [hc] using hc'.symm
    simp only
    split
    · rename_i e he
      rw [take_of_error he]; rfl
    · rename_i ht
      rw [take_of_ok ht]
      simp only [Parse.bind, if_pos (current_advance_of_ok ht)]
      cases p.advance.2.params with
      | mk o q h =>
        cases o with
        | error e => rfl
        | ok names =>
          simp only
          split <;> rfl
    · rename_i t hn ht
      rw [take_of_ok ht]
      have hne : p.advance.2.current ≠ .operator '(' := by
        rw [current_advance_of_ok ht]
        exact fun h => hn (h ▸ rfl)
      simp only [Parse.bind, if_neg hne]
  · rename_i h
    exact absurd hc (h name)

theorem proto_of_other {p : Parser σ} (hn : ∀ name, p.current ≠ .ident name) :
    p.proto = p.reject .functionName := by
  unfold proto
  split
  · rename_i name hc
    exact absurd hc (hn name)
  · rfl

theorem definition_eq {p : Parser σ} (hc : p.current = .defKeyword) :
    p.definition = p.take.bind fun _ q _ =>
      q.proto.bind fun proto r _ => r.expr.bind fun body t _ => t.done ⟨proto, body⟩ := by
  unfold definition
  rw [if_pos hc]
  simp only
  split
  · rename_i e he
    rw [take_of_error he]; rfl
  · rename_i t ht
    rw [take_of_ok ht]
    simp only [Parse.bind]
    cases p.advance.2.proto with
    | mk o q h =>
      cases o with
      | error e => rfl
      | ok proto =>
        simp only
        cases q.expr with
        | mk o r hr => cases o <;> rfl

theorem declaration_eq {p : Parser σ} (hc : p.current = .externKeyword) :
    p.declaration = p.take.bind fun _ q _ => q.proto := by
  unfold declaration
  rw [if_pos hc]
  simp only
  split
  · rename_i e he
    rw [take_of_error he]; rfl
  · rename_i t ht
    rw [take_of_ok ht]; rfl

theorem standalone_eq (p : Parser σ) :
    p.standalone = p.expr.bind fun body q _ => q.done (.anonymous body) := by
  unfold standalone
  cases p.expr with
  | mk o q h => cases o <;> rfl

end Parser

end Reckoner
