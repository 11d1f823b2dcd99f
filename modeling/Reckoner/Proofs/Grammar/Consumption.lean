import Reckoner.Proofs.Grammar.Goals
import Reckoner.Proofs.Grammar.Lockstep
import Reckoner.Proofs.Grammar.Passage

/-!
# What a production takes

A production that succeeds has passed over tokens and stands at the next one.  A production that
fails has passed over tokens too, and then either stands at the token that its error carries, or has
met a malformed lexeme after one more token (`Parser.Breaks`).  `Parse.Accounts` says so of one
production, and what a failed production has taken tells where reading is resumed.

A production takes tokens only as the goals allow them, and rejects a token only if they do not
(`Parse.Tracks`).  The goals before and after it are fixed, like `.operand :: gs` and `gs` for an
operand.  The goals that are left may be others, if they agree with those on the token that comes
next: after a name that is not called, say, the arguments are still allowed.
-/

namespace Reckoner

variable {σ : Type} [TokenSupply σ] {α β : Type}

/-- The token that was found in place of another, unless it was a malformed lexeme. -/
def ParseError.found? : ParseError → Option Token
  | .unexpected _ found => some found
  | .noExpression found => some found
  | .lex _ => none

namespace Parser

/-- From `p` the tokens are taken and then the error is met, and that leaves `q`.  A token that was
found in place of another is not among them. -/
inductive Breaks (p : Parser σ) : ParseError → List Token → Parser σ → Prop
  | found {e : ParseError} {ts : List Token} {q : Parser σ} (h : Passes p ts q)
    (he : e.found? = some q.current) : Breaks p e ts q
  | malformed {e : LexError} {ts : List Token} {q : Parser σ} (h : Passes p ts q)
    (hq : q.current ≠ .eof) (ha : q.advance.1 = .error e) :
    Breaks p (.lex e) (ts ++ [q.current]) q.advance.2

theorem Passes.breaks {p q r : Parser σ} {ts us : List Token} {e : ParseError}
    (h : Passes p ts q) (h' : Breaks q e us r) : Breaks p e (ts ++ us) r := by
  cases h' with
  | found h' he => exact .found (h.append h') he
  | malformed h' hr ha =>
    rw [← List.append_assoc]
    exact .malformed (h.append h') hr ha

variable {p q : Parser σ} {ts : List Token} {e : ParseError}

theorem Passes.eq_nil_or_cons (h : Passes p ts q) :
    ts = [] ∧ q = p ∨ ∃ us, ts = p.current :: us := by
  cases h with
  | nil => exact .inl ⟨rfl, rfl⟩
  | cons hc _ _ _ =>
    subst hc
    exact .inr ⟨_, rfl⟩

theorem Breaks.eq_nil_or_cons (h : Breaks p e ts q) :
    ts = [] ∧ e.found? = some p.current ∨ ∃ us, ts = p.current :: us := by
  cases h with
  | found h he =>
    rcases h.eq_nil_or_cons with ⟨rfl, rfl⟩ | hus
    · exact .inl ⟨rfl, he⟩
    · exact .inr hus
  | malformed h hq ha =>
    rcases h.eq_nil_or_cons with ⟨rfl, rfl⟩ | ⟨us, rfl⟩
    · exact .inr ⟨[], rfl⟩
    · exact .inr ⟨_, rfl⟩

end Parser

open Reckoner.Parser Goals

structure Parse.Accounts {p : Parser σ} (r : Parse p α) : Prop where
  passes : ∀ x, r.outcome = .ok x → ∃ ts, Passes p ts r.next
  breaks : ∀ e, r.outcome = .error e → ∃ ts, Breaks p e ts r.next

/-- The tokens that the production takes lead from the one goals to the others.  If it breaks off,
they lead somewhere too, and the token that was found in place of another cannot come next. -/
structure Parse.Tracks {p : Parser σ} (r : Parse p α) (gs gs' : Goals) : Prop where
  passes : ∀ x, r.outcome = .ok x → ∃ ts hs, Passes p ts r.next ∧ run gs ts = some hs ∧
    step hs r.next.current = step gs' r.next.current
  breaks : ∀ e, r.outcome = .error e → ∃ ts hs, Breaks p e ts r.next ∧ run gs ts = some hs ∧
    ∀ t, e.found? = some t → step hs t = none

namespace Parse

variable {p q : Parser σ} {gs gs' gs'' : Goals} {t : Token} {ts : List Token}

theorem Tracks.accounts {r : Parse p α} (h : r.Tracks gs gs') : r.Accounts where
  passes x hx := by
    obtain ⟨ts, _, hp, _⟩ := h.passes x hx
    exact ⟨ts, hp⟩
  breaks e he := by
    obtain ⟨ts, _, hb, _⟩ := h.breaks e he
    exact ⟨ts, hb⟩

theorem tracks_done (x : α) : (p.done x).Tracks gs gs where
  passes _ _ := ⟨[], gs, .nil, rfl, rfl⟩
  breaks _ he := nomatch he

theorem tracks_fail {e : ParseError} (he : e.found? = some p.current)
    (h : step gs p.current = none) : (p.fail e : Parse p α).Tracks gs gs' where
  passes _ hx := nomatch hx
  breaks e' h' := by
    obtain rfl := Except.error.inj h'
    refine ⟨[], gs, .found .nil he, rfl, fun t ht => ?_⟩
    obtain rfl := Option.some.inj (he.symm.trans ht)
    exact h

theorem tracks_reject {expected : Expected} (h : step gs p.current = none) :
    (p.reject expected : Parse p α).Tracks gs gs' :=
  tracks_fail rfl h

/-- Of the goals before, it matters only where they lead from the current token. -/
theorem Tracks.of_step_eq {r : Parse p α} (h : r.Tracks gs gs')
    (hgs : step gs'' p.current = step gs p.current) : r.Tracks gs'' gs' where
  passes x hx := by
    obtain ⟨ts, hs, hp, hrun, hstep⟩ := h.passes x hx
    rcases hp.eq_nil_or_cons with ⟨rfl, hnext⟩ | ⟨us, rfl⟩
    · obtain rfl := Option.some.inj hrun
      exact ⟨[], gs'', hp, rfl, by rw [hnext, hgs, ← hnext, hstep]⟩
    · rw [run_cons, ← hgs, ← run_cons] at hrun
      exact ⟨_, hs, hp, hrun, hstep⟩
  breaks e he := by
    obtain ⟨ts, hs, hb, hrun, hstep⟩ := h.breaks e he
    rcases hb.eq_nil_or_cons with ⟨rfl, hf⟩ | ⟨us, rfl⟩
    · obtain rfl := Option.some.inj hrun
      refine ⟨[], gs'', hb, rfl, fun t ht => ?_⟩
      obtain rfl := Option.some.inj (hf.symm.trans ht)
      exact hgs.trans (hstep _ hf)
    · rw [run_cons, ← hgs, ← run_cons] at hrun
      exact ⟨_, hs, hb, hrun, hstep⟩

theorem Tracks.trans_step_eq {r : Parse p α} (h : r.Tracks gs gs')
    (hgs : ∀ x, r.outcome = .ok x → step gs' r.next.current = step gs'' r.next.current) :
    r.Tracks gs gs'' where
  passes x hx := by
    obtain ⟨ts, hs, hp, hrun, hstep⟩ := h.passes x hx
    exact ⟨ts, hs, hp, hrun, hstep.trans (hgs x hx)⟩
  breaks := h.breaks

theorem Tracks.after {r : Parse q α} {s : Parse p α} (h : r.Tracks gs' gs'')
    (hp : Passes p ts q) (hrun : run gs ts = some gs') (ho : s.outcome = r.outcome)
    (hn : s.next = r.next) : s.Tracks gs gs'' where
  passes x hx := by
    obtain ⟨us, hs, hus, hrun', hstep⟩ := h.passes x (ho ▸ hx)
    exact ⟨ts ++ us, hs, hn ▸ hp.append hus, (run_append_of_run hrun us).trans hrun', hn ▸ hstep⟩
  breaks e he := by
    obtain ⟨us, hs, hus, hrun', hstep⟩ := h.breaks e (ho ▸ he)
    exact ⟨ts ++ us, hs, hn ▸ hp.breaks hus, (run_append_of_run hrun us).trans hrun', hstep⟩

theorem tracks_malformed {s : Parse p α} {e : LexError} (hp : p.current ≠ .eof)
    (hgs : step gs p.current = some gs') (ha : p.advance.1 = .error e)
    (ho : s.outcome = .error (.lex e)) (hn : s.next = p.advance.2) : s.Tracks gs gs'' where
  passes x hx := nomatch ho.symm.trans hx
  breaks e' he := by
    obtain rfl := Except.error.inj (ho.symm.trans he)
    exact ⟨[p.current], gs', hn ▸ .malformed .nil hp ha, (run_single _ _).trans hgs, nofun⟩

theorem Tracks.bind {r : Parse p α} (h : r.Tracks gs gs')
    {f : α → (q : Parser σ) → q.weight ≤ p.weight → Parse q β}
    (hf : ∀ x, r.outcome = .ok x → (f x r.next r.weight_le).Tracks gs' gs'') :
    (r.bind f).Tracks gs gs'' := by
  obtain ⟨o, q, hq⟩ := r
  cases o with
  | error e =>
    refine ⟨nofun, fun e' he => ?_⟩
    obtain rfl := Except.error.inj he
    exact h.breaks e rfl
  | ok x =>
    obtain ⟨ts, hs, hp, hrun, hstep⟩ := h.passes x rfl
    exact ((hf x rfl).of_step_eq hstep).after hp hrun rfl rfl

theorem tracks_taking {hp : p.current ≠ .eof} (hc : p.current = t) (hgs : step gs t = some gs')
    {f : (q : Parser σ) → q.weight < p.weight → Parse q α}
    (hf : ∀ hq, (f p.advance.2 hq).Tracks gs' gs'') : (p.taking hp f).Tracks gs gs'' := by
  subst hc
  cases ha : p.advance.1 with
  | error e =>
    rw [taking_of_error ha]
    exact tracks_malformed hp hgs ha rfl rfl
  | ok t =>
    rw [taking_of_ok ha]
    exact (hf _).after (.single hp ha) ((run_single _ _).trans hgs) rfl rfl

theorem tracks_take_bind (hp : p.current ≠ .eof) (hc : p.current = t) (hgs : step gs t = some gs')
    {f : Token → (q : Parser σ) → q.weight ≤ p.weight → Parse q α}
    (hf : ∀ hq, (f p.advance.2.current p.advance.2 hq).Tracks gs' gs'') :
    (p.take.bind f).Tracks gs gs'' := by
  subst hc
  cases ha : p.advance.1 with
  | error e =>
    rw [take_of_error ha]
    exact tracks_malformed hp hgs ha rfl rfl
  | ok t =>
    rw [current_advance_of_ok ha] at hf
    rw [take_bind_of_ok ha]
    exact (hf _).after (.single hp ha) ((run_single _ _).trans hgs) rfl rfl

theorem tracks_pass (hp : p.current ≠ .eof) (hc : p.current = t) (hgs : step gs t = some gs')
    (x : α) : (p.pass x).Tracks gs gs' := by
  rw [pass_eq]
  exact tracks_take_bind hp hc hgs fun _ => tracks_done x

end Parse

namespace Parser

open Parse

variable {p : Parser σ} {gs gs' : Goals}

/-! ## Where productions end -/

/-- Climbing from `floor` ends at a token that binds more loosely. -/
theorem binding_lt_of_climb {floor : Nat} (hf : 0 < floor) {left x : Expr}
    (h : (p.climb floor left).outcome = .ok x) :
    (p.climb floor left).next.current.binding < floor := by
  induction hw : p.weight using Nat.strongRecOn generalizing p left x with
  | ind w ih =>
    subst hw
    by_cases hb : p.current.binding < floor
    · rw [climb_of_looser hb]
      exact hb
    · obtain ⟨op, hc⟩ := exists_operator_of_binding_pos p.current (by omega)
      rw [climb_of_operator hc hb] at h ⊢
      obtain ⟨hlt, hx, hn⟩ := taking_eq_ok h
      obtain ⟨right, -, hx, hn'⟩ := bind_eq_ok hx
      rw [hn, hn']
      have hlt := Nat.lt_of_le_of_lt p.advance.2.operand.weight_le hlt
      generalize p.advance.2.operand.next = r at hx hlt ⊢
      by_cases hr : p.current.binding < r.current.binding
      · rw [if_pos hr] at hx ⊢
        obtain ⟨right', -, hx, hn⟩ := bind_eq_ok hx
        rw [hn]
        exact ih _ (Nat.lt_of_le_of_lt (Parse.weight_le _) hlt) hx rfl
      · rw [if_neg hr] at hx ⊢
        exact ih _ hlt hx rfl

theorem binding_of_expr {x : Expr} (h : p.expr.outcome = .ok x) :
    ¬ 0 < p.expr.next.current.binding := by
  rw [expr_eq] at h ⊢
  obtain ⟨left, -, hx, hn⟩ := bind_eq_ok h
  rw [hn]
  exact Nat.not_lt.2 (Nat.le_of_lt_succ (binding_lt_of_climb Nat.one_pos hx))

theorem current_of_params (hp : p.current ≠ .eof) {names : List String}
    (h : p.params.outcome = .ok names) (name : String) : p.params.next.current ≠ .ident name := by
  induction hw : p.weight using Nat.strongRecOn generalizing p names with
  | ind w ih =>
    subst hw
    rw [params_eq] at h ⊢
    cases ha : p.advance.1 with
    | error e =>
      rw [take_of_error ha] at h
      contradiction
    | ok t =>
      have hc := current_advance_of_ok ha
      rw [take_bind_of_ok ha] at h ⊢
      by_cases hi : ∃ n, t = .ident n
      · obtain ⟨n, rfl⟩ := hi
        obtain ⟨rest, hrest, -, hn⟩ := bind_eq_ok (r := p.advance.2.params) h
        rw [next_since, hn]
        exact ih _ (weight_advance_lt hp) (by simp [hc]) hrest rfl
      · rw [next_since]
        split
        · exact absurd ⟨_, rfl⟩ hi
        · exact fun hn => hi ⟨name, hc.symm.trans hn⟩

/-! ## Productions -/

theorem tracks_climb (ho : ∀ (q : Parser σ) gs, q.weight < p.weight →
      q.operand.Tracks (.operand :: gs) gs) {floor : Nat} (hf : 0 < floor) (left : Expr) :
    (p.climb floor left).Tracks (.joined :: gs) (.joined :: gs) := by
  induction hw : p.weight using Nat.strongRecOn generalizing p floor left with
  | ind w ih =>
    subst hw
    by_cases hb : p.current.binding < floor
    · rw [climb_of_looser hb]
      exact tracks_done left
    · obtain ⟨op, hc⟩ := exists_operator_of_binding_pos p.current (by omega)
      have hnext : ∀ q : Parser σ, q.weight < p.weight → ∀ floor, 0 < floor → ∀ x,
          (q.climb floor x).Tracks (.joined :: gs) (.joined :: gs) := fun q hq floor hf x =>
        ih _ hq (fun r gs hr => ho r gs (Nat.lt_trans hr hq)) hf x rfl
      have hop : Joins op := by
        unfold Joins
        rw [← hc]
        omega
      rw [climb_of_operator hc hb]
      refine tracks_taking hc (step_joined_of_joins hop) fun hq => ?_
      refine (ho _ _ hq).bind fun right _ => ?_
      have hlt := Nat.lt_of_le_of_lt p.advance.2.operand.weight_le hq
      split
      · refine (hnext _ hlt _ (Nat.succ_pos _) right).bind fun right' _ => hnext _ ?_ _ hf _
        exact Nat.lt_of_le_of_lt (Parse.weight_le _) hlt
      · exact hnext _ hlt _ hf _

theorem tracks_expr_of (ho : ∀ (q : Parser σ) gs, q.weight ≤ p.weight →
      q.operand.Tracks (.operand :: gs) gs) : p.expr.Tracks (.operand :: .joined :: gs) gs := by
  have hjoined : p.expr.Tracks (.operand :: .joined :: gs) (.joined :: gs) := by
    rw [expr_eq]
    refine (ho p _ (Nat.le_refl _)).bind fun left _ => tracks_climb (fun q gs hq => ho q gs ?_)
      Nat.one_pos left
    exact Nat.le_trans (Nat.le_of_lt hq) (Parse.weight_le _)
  exact hjoined.trans_step_eq fun x hx => step_joined_of_not_joins (binding_of_expr hx)

theorem tracks_arguments (gs : Goals) (he : ∀ (q : Parser σ) gs, q.weight ≤ p.weight →
      q.expr.Tracks (.operand :: .joined :: gs) gs) :
    p.arguments.Tracks (.operand :: .joined :: .argumentEnd :: gs) (.argumentEnd :: gs) := by
  induction hw : p.weight using Nat.strongRecOn generalizing p with
  | ind w ih =>
    subst hw
    rw [arguments_eq]
    refine (he p _ (Nat.le_refl _)).bind fun x _ => ?_
    have hle := p.expr.weight_le
    split
    · exact tracks_done [x]
    · rename_i hr
      split
      · rename_i hc
        refine tracks_taking hc rfl fun hq => ?_
        have hlt := Nat.lt_of_lt_of_le hq hle
        refine (ih _ hlt (fun r gs hr => ?_) rfl).bind fun xs _ => tracks_done (x :: xs)
        exact he r gs (Nat.le_trans hr (Nat.le_of_lt hlt))
      · rename_i hc
        exact tracks_reject (step_argumentEnd_of_other hr hc)

theorem tracks_operand_of (he : ∀ (q : Parser σ) gs, q.weight < p.weight →
      q.expr.Tracks (.operand :: .joined :: gs) gs) : p.operand.Tracks (.operand :: gs) gs := by
  by_cases hn : ∃ value, p.current = .number value
  · obtain ⟨value, hc⟩ := hn
    rw [operand_of_number hc]
    exact tracks_pass (by simp [hc]) hc rfl _
  by_cases hi : ∃ name, p.current = .ident name
  · obtain ⟨name, hc⟩ := hi
    rw [operand_of_ident hc]
    refine tracks_taking hc rfl fun hq => ?_
    split
    · rename_i ho
      refine tracks_taking ho rfl fun hr => ?_
      split
      · rename_i hp
        exact tracks_pass (by simp [hp]) hp rfl _
      · rename_i hp
        have hlt := Nat.lt_trans hr hq
        have ha := tracks_arguments gs fun s gs hs => he s gs (Nat.lt_of_le_of_lt hs hlt)
        refine (ha.of_step_eq (step_inner_of_ne hp)).bind fun args hargs => ?_
        have hcur := current_of_arguments hargs
        exact tracks_pass (by simp [hcur]) hcur rfl _
    · rename_i ho
      exact (tracks_done _).of_step_eq (step_applied_of_ne ho)
  by_cases ho : p.current = .operator '('
  · rw [operand_of_paren ho]
    refine tracks_taking ho rfl fun hq => (he _ _ hq).bind fun x _ => ?_
    split
    · rename_i hp
      exact tracks_pass (by simp [hp]) hp rfl _
    · rename_i hp
      exact tracks_reject (step_token_of_ne hp)
  rw [operand_of_other (fun v h => hn ⟨v, h⟩) (fun n h => hi ⟨n, h⟩) ho]
  exact tracks_fail rfl
    (step_operand_of_other (fun v h => hn ⟨v, h⟩) (fun n h => hi ⟨n, h⟩) ho)

theorem tracks_operand (p : Parser σ) (gs : Goals) : p.operand.Tracks (.operand :: gs) gs := by
  induction hw : p.weight using Nat.strongRecOn generalizing p gs with
  | ind w ih =>
    subst hw
    exact tracks_operand_of fun q gs hq =>
      tracks_expr_of fun r gs hr => ih _ (Nat.lt_of_le_of_lt hr hq) r gs rfl

theorem tracks_expr (p : Parser σ) (gs : Goals) :
    p.expr.Tracks (.operand :: .joined :: gs) gs :=
  tracks_expr_of fun q gs _ => tracks_operand q gs

theorem tracks_params {t : Token} (hp : p.current ≠ .eof) (hc : p.current = t)
    (hgs : step gs t = some (.params :: gs')) : p.params.Tracks gs (.params :: gs') := by
  induction hw : p.weight using Nat.strongRecOn generalizing p gs t with
  | ind w ih =>
    subst hw
    rw [params_eq]
    refine tracks_take_bind hp hc hgs fun _ => ?_
    split
    · rename_i name hn
      have hrest : p.advance.2.params.Tracks (.params :: gs') (.params :: gs') :=
        ih _ (weight_advance_lt hp) (by simp [hn]) hn rfl rfl
      exact hrest.bind fun names _ => tracks_done (name :: names)
    · exact tracks_done []

theorem tracks_proto (p : Parser σ) (gs : Goals) : p.proto.Tracks (ofPrototype gs) gs := by
  by_cases hi : ∃ name, p.current = .ident name
  · obtain ⟨name, hc⟩ := hi
    rw [proto_of_ident hc]
    refine tracks_take_bind (by simp [hc]) hc rfl fun _ => ?_
    split
    · rename_i ho
      have hne : p.advance.2.current ≠ .eof := by simp [ho]
      refine (tracks_params hne ho rfl).bind fun names hnames => ?_
      split
      · rename_i hr
        exact tracks_pass (by simp [hr]) hr rfl _
      · rename_i hr
        exact tracks_reject (step_params_of_other (current_of_params hne hnames) hr)
    · rename_i ho
      exact tracks_reject (step_token_of_ne ho)
  · rw [proto_of_other fun name h => hi ⟨name, h⟩]
    exact tracks_reject (step_name_of_other fun name h => hi ⟨name, h⟩)

theorem tracks_definition (p : Parser σ) (gs : Goals) :
    p.definition.Tracks (ofDefinition gs) gs := by
  by_cases hc : p.current = .defKeyword
  · rw [definition_eq hc]
    refine tracks_take_bind (by simp [hc]) hc rfl fun _ => ?_
    refine (tracks_proto _ _).bind fun proto _ => ?_
    exact (tracks_expr _ _).bind fun body _ => tracks_done _
  · unfold definition
    rw [if_neg hc]
    exact tracks_reject (step_token_of_ne hc)

theorem tracks_declaration (p : Parser σ) (gs : Goals) :
    p.declaration.Tracks (ofDeclaration gs) gs := by
  by_cases hc : p.current = .externKeyword
  · rw [declaration_eq hc]
    exact tracks_take_bind (by simp [hc]) hc rfl fun _ => tracks_proto _ _
  · unfold declaration
    rw [if_neg hc]
    exact tracks_reject (step_token_of_ne hc)

theorem tracks_standalone (p : Parser σ) (gs : Goals) :
    p.standalone.Tracks (ofExpression gs) gs := by
  rw [standalone_eq]
  exact (tracks_expr p gs).bind fun body _ => tracks_done _

theorem accounts_definition (p : Parser σ) : p.definition.Accounts :=
  (tracks_definition p []).accounts

theorem accounts_declaration (p : Parser σ) : p.declaration.Accounts :=
  (tracks_declaration p []).accounts

theorem accounts_standalone (p : Parser σ) : p.standalone.Accounts :=
  (tracks_standalone p []).accounts

end Parser

end Reckoner
