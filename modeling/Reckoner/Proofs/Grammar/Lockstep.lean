import Reckoner.Proofs.Grammar.Names
import Reckoner.Proofs.Grammar.Sequence

/-!
# Parsers in step

A `Lockstep` relates parsers that are at the same token and advance alike, except perhaps past a
semicolon.  That exception costs nothing: a semicolon is neither an operand nor an operator nor a
name, so a production that comes to one stops there.  Parsers in step read alike
(`Parse.Matches`): they come to the same outcome and are in step again, and all names in what they
have read are names of their tokens.
-/

namespace Reckoner

variable {σ τ : Type} [TokenSupply σ] [TokenSupply τ] {α β : Type} {P : String → Prop}

/-- A relation between parsers that are at the same token and, unless that is a semicolon, advance
alike and are related again.  At the end their supplies have ended alike.  The names of their tokens
satisfy `P`. -/
structure Lockstep (σ τ : Type) [TokenSupply σ] [TokenSupply τ] (P : String → Prop) where
  Alike : Parser σ → Parser τ → Prop
  current : ∀ {p p'}, Alike p p' → p'.current = p.current
  names : ∀ {p p'}, Alike p p' → p.current.Names P
  fst_advance : ∀ {p p'}, Alike p p' → p.current ≠ .operator ';' → p'.advance.1 = p.advance.1
  snd_advance : ∀ {p p'}, Alike p p' → p.current ≠ .operator ';' →
    Alike p.advance.2 p'.advance.2
  failure : ∀ {p p'}, Alike p p' → p.current = .eof →
    TokenSupply.failure p'.supply = TokenSupply.failure p.supply

variable {L : Lockstep σ τ P}

/-- The parses have the same outcome, which satisfies `V` if it is a success, and end alike. -/
structure Parse.Matches (L : Lockstep σ τ P) (V : α → Prop) {p : Parser σ} {p' : Parser τ}
    (r : Parse p α) (r' : Parse p' α) : Prop where
  outcome : r'.outcome = r.outcome
  next : L.Alike r.next r'.next
  value : ∀ x, r.outcome = .ok x → V x

namespace Lockstep

variable {p : Parser σ} {p' : Parser τ}

theorem Alike.current (h : L.Alike p p') : p'.current = p.current :=
  L.current h

theorem Alike.current_eq_iff (h : L.Alike p p') (t : Token) : p'.current = t ↔ p.current = t := by
  rw [h.current]

theorem Alike.current_ne (h : L.Alike p p') {t : Token} (hn : p.current ≠ t) : p'.current ≠ t :=
  fun he => hn ((h.current_eq_iff t).1 he)

theorem Alike.names_of_advance (h : L.Alike p p') (hc : p.current ≠ .operator ';') {t : Token}
    (ht : p.advance.1 = .ok t) : t.Names P := by
  have hn := L.names (L.snd_advance h hc)
  rwa [Parser.current_advance_of_ok ht] at hn

end Lockstep

namespace Parse

variable {V : α → Prop} {W : β → Prop} {p : Parser σ} {p' : Parser τ}

section Bind

variable {r : Parse p α} {r' : Parse p' α}
  {g : α → (q : Parser σ) → q.weight ≤ p.weight → Parse q β}
  {g' : α → (q : Parser τ) → q.weight ≤ p'.weight → Parse q β}

theorem Matches.bind_next (h : r.Matches L V r')
    (hg : ∀ x, r.outcome = .ok x → V x → L.Alike r.next r'.next →
      (g x r.next r.weight_le).Matches L W (g' x r'.next r'.weight_le)) :
    (r.bind g).Matches L W (r'.bind g') := by
  obtain ⟨o, q, hq⟩ := r
  obtain ⟨o', q', hq'⟩ := r'
  obtain ⟨ho, hn, hv⟩ := h
  cases ho
  cases o with
  | error e => exact ⟨rfl, hn, fun x hx => nomatch hx⟩
  | ok x =>
    obtain ⟨ho, hn, hw⟩ := hg x rfl (hv x rfl) hn
    exact ⟨ho, hn, hw⟩

theorem Matches.bind (h : r.Matches L V r')
    (hg : ∀ x q q' hq hq', V x → L.Alike q q' → (g x q hq).Matches L W (g' x q' hq')) :
    (r.bind g).Matches L W (r'.bind g') :=
  h.bind_next fun x _ hv hn => hg x _ _ _ _ hv hn

end Bind

theorem Matches.ite {c c' : Prop} [Decidable c] [Decidable c'] (hc : c' ↔ c) {r s : Parse p α}
    {r' s' : Parse p' α} (h : c → r.Matches L V r') (h' : ¬c → s.Matches L V s') :
    (if c then r else s).Matches L V (if c' then r' else s') := by
  by_cases hp : c
  · rw [if_pos hp, if_pos (hc.2 hp)]
    exact h hp
  · rw [if_neg hp, if_neg fun hp' => hp (hc.1 hp')]
    exact h' hp

theorem matches_done (h : L.Alike p p') {x : α} (hx : V x) :
    (p.done x).Matches L V (p'.done x) :=
  ⟨rfl, h, fun _ he => Except.ok.inj he ▸ hx⟩

theorem matches_fail (h : L.Alike p p') (e : ParseError) :
    (p.fail e : Parse p α).Matches L V (p'.fail e) :=
  ⟨rfl, h, fun _ he => nomatch he⟩

theorem matches_reject (h : L.Alike p p') (e : Expected) :
    (p.reject e : Parse p α).Matches L V (p'.reject e) := by
  unfold Parser.reject
  rw [h.current]
  exact matches_fail h _

theorem matches_take (h : L.Alike p p') (hc : p.current ≠ .operator ';') :
    p.take.Matches L (Token.Names P) p'.take := by
  have hf := L.fst_advance h hc
  have hn := L.snd_advance h hc
  cases hs : p.advance.1 with
  | error e =>
    rw [Parser.take_of_error hs, Parser.take_of_error (hf.trans hs)]
    exact ⟨rfl, hn, fun x hx => nomatch hx⟩
  | ok t =>
    rw [Parser.take_of_ok hs, Parser.take_of_ok (hf.trans hs)]
    exact ⟨rfl, hn, fun x hx => Except.ok.inj hx ▸ h.names_of_advance hc hs⟩

theorem matches_pass (h : L.Alike p p') (hc : p.current ≠ .operator ';') {x : α} (hx : V x) :
    (p.pass x).Matches L V (p'.pass x) := by
  rw [Parser.pass_eq, Parser.pass_eq]
  exact (matches_take h hc).bind fun _ q q' _ _ _ hq => matches_done hq hx

theorem matches_taking (h : L.Alike p p') (hc : p.current ≠ .operator ';')
    {hp : p.current ≠ .eof} {hp' : p'.current ≠ .eof}
    {g : (q : Parser σ) → q.weight < p.weight → Parse q α}
    {g' : (q : Parser τ) → q.weight < p'.weight → Parse q α}
    (hg : ∀ q q' hq hq', L.Alike q q' → (g q hq).Matches L V (g' q' hq')) :
    (p.taking hp g).Matches L V (p'.taking hp' g') := by
  have hf := L.fst_advance h hc
  have hn := L.snd_advance h hc
  cases hs : p.advance.1 with
  | error e =>
    rw [Parser.taking_of_error hs, Parser.taking_of_error (hf.trans hs)]
    exact ⟨rfl, hn, fun x hx => nomatch hx⟩
  | ok t =>
    rw [Parser.taking_of_ok hs, Parser.taking_of_ok (hf.trans hs)]
    obtain ⟨ho, hn, hv⟩ := hg _ _ (Parser.weight_advance_lt hp) (Parser.weight_advance_lt hp') hn
    exact ⟨ho, hn, hv⟩

end Parse

namespace Parser

open Parse

variable {p : Parser σ} {p' : Parser τ}

theorem matches_climb (h : L.Alike p p')
    (ho : ∀ (q : Parser σ) (q' : Parser τ), q.weight < p.weight → L.Alike q q' →
      q.operand.Matches L (Expr.Names P) q'.operand)
    {floor : Nat} (hf : 0 < floor) {left : Expr} (hl : left.Names P) :
    (p.climb floor left).Matches L (Expr.Names P) (p'.climb floor left) := by
  induction hw : p.weight using Nat.strongRecOn generalizing p p' floor left with
  | ind w ih =>
    subst hw
    by_cases hb : p.current.binding < floor
    · rw [climb_of_looser hb, climb_of_looser (h.current.symm ▸ hb)]
      exact matches_done h hl
    · by_cases hc : ∃ op, p.current = .operator op
      · obtain ⟨op, hc⟩ := hc
        have hc' : p'.current = .operator op := h.current.trans hc
        have hs : p.current ≠ .operator ';' := by
          intro hs
          rw [hs] at hb
          exact hb hf
        rw [climb_of_operator hc hb, climb_of_operator hc' (h.current.symm ▸ hb)]
        refine matches_taking h hs fun q q' hq _ hqq => ?_
        refine (ho q q' hq hqq).bind fun right r r' hr _ hright hrr => ?_
        have hlt : r.weight < p.weight := Nat.lt_of_le_of_lt hr hq
        have hnext : ∀ (t : Parser σ) (t' : Parser τ), t.weight ≤ r.weight → L.Alike t t' →
            ∀ {floor}, 0 < floor → ∀ {x : Expr}, x.Names P →
              (t.climb floor x).Matches L (Expr.Names P) (t'.climb floor x) := by
          intro t t' ht htt floor hf x hx
          have htp := Nat.lt_of_le_of_lt ht hlt
          exact ih _ htp htt (fun s s' hs => ho s s' (Nat.lt_trans hs htp)) hf hx rfl
        refine Matches.ite (by rw [h.current, hrr.current]) (fun _ => ?_) fun _ => ?_
        · rw [h.current]
          have hinner := hnext r r' (Nat.le_refl _) hrr (Nat.succ_pos p.current.binding) hright
          exact hinner.bind fun x t t' ht _ hx htt => hnext t t' ht htt hf (.binary hl hx)
        · exact hnext r r' (Nat.le_refl _) hrr hf (.binary hl hright)
      · have hn : ∀ op, p.current ≠ .operator op := fun op h => hc ⟨op, h⟩
        rw [climb_of_other hn, climb_of_other fun op => h.current_ne (hn op)]
        exact matches_done h hl

theorem current_of_arguments {args : List Expr} (h : p.arguments.outcome = .ok args) :
    p.arguments.next.current = .operator ')' := by
  induction hw : p.weight using Nat.strongRecOn generalizing p args with
  | ind w ih =>
    subst hw
    rw [arguments_eq] at h ⊢
    obtain ⟨x, -, hx, hn⟩ := Parse.bind_eq_ok h
    have hle := p.expr.weight_le
    rw [hn]
    generalize p.expr.next = q at hx hle ⊢
    by_cases hp : q.current = .operator ')'
    · rw [if_pos hp]
      exact hp
    · rw [if_neg hp] at hx ⊢
      by_cases hc : q.current = .operator ','
      · rw [dif_pos hc] at hx ⊢
        obtain ⟨hlt, hr, hn⟩ := taking_eq_ok hx
        obtain ⟨xs, hxs, -, hn'⟩ := Parse.bind_eq_ok hr
        rw [hn, hn']
        exact ih _ (Nat.lt_of_lt_of_le hlt hle) hxs rfl
      · rw [dif_neg hc] at hx
        contradiction

theorem matches_arguments (h : L.Alike p p')
    (he : ∀ (q : Parser σ) (q' : Parser τ), q.weight ≤ p.weight → L.Alike q q' →
      q.expr.Matches L (Expr.Names P) q'.expr) :
    p.arguments.Matches L (fun args => ∀ a ∈ args, a.Names P) p'.arguments := by
  induction hw : p.weight using Nat.strongRecOn generalizing p p' with
  | ind w ih =>
    subst hw
    rw [arguments_eq, arguments_eq]
    refine (he p p' (Nat.le_refl _) h).bind fun x q q' hq _ hx hqq => ?_
    refine Matches.ite (hqq.current_eq_iff _) (fun _ => matches_done hqq ?_) fun _ => ?_
    · intro a ha
      rwa [List.mem_singleton.1 ha]
    · by_cases hc : q.current = .operator ','
      · rw [dif_pos hc, dif_pos ((hqq.current_eq_iff _).2 hc)]
        refine matches_taking hqq (by simp [hc]) fun r r' hr _ hrr => ?_
        have hlt := Nat.lt_of_lt_of_le hr hq
        have hrest := ih _ hlt hrr
          (fun s s' hs => he s s' (Nat.le_trans hs (Nat.le_of_lt hlt))) rfl
        refine hrest.bind fun xs t t' _ _ hxs htt => matches_done htt ?_
        intro a ha
        rcases List.mem_cons.1 ha with rfl | ha
        · exact hx
        · exact hxs a ha
      · rw [dif_neg hc, dif_neg (hqq.current_ne hc)]
        exact matches_reject hqq _

theorem matches_operand_of (h : L.Alike p p')
    (he : ∀ (q : Parser σ) (q' : Parser τ), q.weight < p.weight → L.Alike q q' →
      q.expr.Matches L (Expr.Names P) q'.expr) :
    p.operand.Matches L (Expr.Names P) p'.operand := by
  have other (hn : ∀ v, p.current ≠ .number v) (hi : ∀ n, p.current ≠ .ident n)
      (ho : p.current ≠ .operator '(') : p.operand.Matches L (Expr.Names P) p'.operand := by
    rw [operand_of_other hn hi ho, operand_of_other (fun v => h.current_ne (hn v))
      (fun n => h.current_ne (hi n)) (h.current_ne ho), h.current]
    exact matches_fail h _
  cases hc : p.current with
  | number value =>
    rw [operand_of_number hc, operand_of_number (h.current.trans hc)]
    exact matches_pass h (by simp [hc]) .literal
  | ident name =>
    have hname : P name := L.names h name hc
    rw [operand_of_ident hc, operand_of_ident (h.current.trans hc)]
    refine matches_taking h (by simp [hc]) fun q q' hq _ hqq => ?_
    by_cases ho : q.current = .operator '('
    · rw [dif_pos ho, dif_pos ((hqq.current_eq_iff _).2 ho)]
      refine matches_taking hqq (by simp [ho]) fun r r' hr _ hrr => ?_
      refine Matches.ite (hrr.current_eq_iff _) (fun hp => ?_) fun _ => ?_
      · exact matches_pass hrr (by simp [hp]) (.call hname fun a ha => nomatch ha)
      · have hargs := matches_arguments hrr fun s s' hs =>
          he s s' (Nat.lt_of_le_of_lt hs (Nat.lt_trans hr hq))
        refine hargs.bind_next fun args ho ha htt => matches_pass htt ?_ (.call hname ha)
        rw [current_of_arguments ho]
        decide
    · rw [dif_neg ho, dif_neg (hqq.current_ne ho)]
      exact matches_done hqq (.var hname)
  | operator op =>
    by_cases ho : op = '('
    · subst ho
      rw [operand_of_paren hc, operand_of_paren (h.current.trans hc)]
      refine matches_taking h (by simp [hc]) fun q q' hq _ hqq => ?_
      refine (he q q' hq hqq).bind fun x r r' _ _ hx hrr => ?_
      exact Matches.ite (hrr.current_eq_iff _) (fun hp => matches_pass hrr (by simp [hp]) hx)
        fun _ => matches_reject hrr _
    · exact other (by simp [hc]) (by simp [hc]) (by simp [hc, ho])
  | eof => exact other (by simp [hc]) (by simp [hc]) (by simp [hc])
  | defKeyword => exact other (by simp [hc]) (by simp [hc]) (by simp [hc])
  | externKeyword => exact other (by simp [hc]) (by simp [hc]) (by simp [hc])

theorem matches_expr_of (h : L.Alike p p')
    (ho : ∀ (q : Parser σ) (q' : Parser τ), q.weight ≤ p.weight → L.Alike q q' →
      q.operand.Matches L (Expr.Names P) q'.operand) :
    p.expr.Matches L (Expr.Names P) p'.expr := by
  rw [expr_eq, expr_eq]
  refine (ho p p' (Nat.le_refl _) h).bind fun left q q' hq _ hl hqq => ?_
  exact matches_climb hqq (fun s s' hs => ho s s' (Nat.le_trans (Nat.le_of_lt hs) hq))
    Nat.one_pos hl

theorem matches_operand (h : L.Alike p p') : p.operand.Matches L (Expr.Names P) p'.operand := by
  induction hw : p.weight using Nat.strongRecOn generalizing p p' with
  | ind w ih =>
    subst hw
    exact matches_operand_of h fun q q' hq hqq =>
      matches_expr_of hqq fun s s' hs hss => ih _ (Nat.lt_of_le_of_lt hs hq) hss rfl

theorem matches_expr (h : L.Alike p p') : p.expr.Matches L (Expr.Names P) p'.expr :=
  matches_expr_of h fun _ _ _ => matches_operand

theorem matches_params (h : L.Alike p p') (hc : p.current ≠ .operator ';') :
    p.params.Matches L (fun names => ∀ n ∈ names, P n) p'.params := by
  induction hw : p.weight using Nat.strongRecOn generalizing p p' with
  | ind w ih =>
    subst hw
    have hf := L.fst_advance h hc
    have hn := L.snd_advance h hc
    rw [params_eq, params_eq]
    cases hs : p.advance.1 with
    | error e =>
      rw [take_of_error hs, take_of_error (hf.trans hs)]
      exact ⟨rfl, hn, fun x hx => nomatch hx⟩
    | ok t =>
      rw [take_of_ok hs, take_of_ok (hf.trans hs)]
      cases t with
      | ident name =>
        have hlt := weight_advance_lt_of_ok hs (by simp)
        have hname : p.advance.2.current ≠ .operator ';' := by simp [current_advance_of_ok hs]
        have hrest := (ih _ hlt hn hname rfl).bind fun names r r' _ _ hnames hrr =>
          matches_done (x := name :: names) (V := fun names => ∀ n ∈ names, P n) hrr ?_
        · exact ⟨hrest.outcome, hrest.next, hrest.value⟩
        · intro n hmem
          rcases List.mem_cons.1 hmem with rfl | hmem
          · exact h.names_of_advance hc hs _ rfl
          · exact hnames n hmem
      | _ => exact ⟨rfl, hn, fun x hx => Except.ok.inj hx ▸ fun n hmem => nomatch hmem⟩

theorem matches_proto (h : L.Alike p p') :
    p.proto.Matches L (Prototype.Names P) p'.proto := by
  by_cases hc : ∃ name, p.current = .ident name
  · obtain ⟨name, hc⟩ := hc
    rw [proto_of_ident hc, proto_of_ident (h.current.trans hc)]
    refine (matches_take h (by simp [hc])).bind fun _ q q' _ _ _ hqq => ?_
    refine Matches.ite (hqq.current_eq_iff _) (fun ho => ?_) fun _ => matches_reject hqq _
    refine (matches_params hqq (by simp [ho])).bind fun names r r' _ _ hnames hrr => ?_
    refine Matches.ite (hrr.current_eq_iff _) (fun hp => ?_) fun _ => matches_reject hrr _
    exact matches_pass hrr (by simp [hp]) ⟨L.names h name hc, hnames⟩
  · have hn : ∀ name, p.current ≠ .ident name := fun name h => hc ⟨name, h⟩
    rw [proto_of_other hn, proto_of_other fun name => h.current_ne (hn name)]
    exact matches_reject h _

theorem matches_definition (h : L.Alike p p') (hc : p.current = .defKeyword) :
    p.definition.Matches L (fun d => d.proto.Names P ∧ d.body.Names P) p'.definition := by
  rw [definition_eq hc, definition_eq (h.current.trans hc)]
  refine (matches_take h (by simp [hc])).bind fun _ q q' _ _ _ hqq => ?_
  refine (matches_proto hqq).bind fun proto r r' _ _ hproto hrr => ?_
  exact (matches_expr hrr).bind fun body t t' _ _ hbody htt => matches_done htt ⟨hproto, hbody⟩

theorem matches_declaration (h : L.Alike p p') (hc : p.current = .externKeyword) :
    p.declaration.Matches L (Prototype.Names P) p'.declaration := by
  rw [declaration_eq hc, declaration_eq (h.current.trans hc)]
  exact (matches_take h (by simp [hc])).bind fun _ q q' _ _ _ hqq => matches_proto hqq

theorem matches_standalone (h : L.Alike p p') :
    p.standalone.Matches L (fun d => d.proto = .anonymous ∧ d.body.Names P) p'.standalone := by
  rw [standalone_eq, standalone_eq]
  exact (matches_expr h).bind fun body q q' _ _ hbody hqq => matches_done hqq ⟨rfl, hbody⟩

end Parser

namespace Reader

variable {r : Reader σ} {r' : Reader τ} {item : Item}

structure Matches (L : Lockstep σ τ P) (n : Item × Reader σ) (n' : Item × Reader τ) : Prop where
  item : n'.1 = n.1
  names : n.1.Names P
  parser : L.Alike n.2.parser n'.2.parser
  phase : n'.2.phase = n.2.phase

theorem matches_ofParse {V : α → Prop} {p : Parser σ} {p' : Parser τ} {r : Parse p α}
    {r' : Parse p' α} (h : r.Matches L V r') {item : α → Item} (hi : ∀ x, V x → (item x).Names P) :
    Matches L (ofParse r item) (ofParse r' item) := by
  unfold ofParse
  rw [h.outcome]
  cases ho : r.outcome with
  | ok x => exact ⟨rfl, hi x (h.value x ho), h.next, rfl⟩
  | error e => exact ⟨rfl, trivial, h.next, rfl⟩

theorem matches_atHead {p : Parser σ} {p' : Parser τ} (h : L.Alike p p') :
    Matches L (atHead p) (atHead p') := by
  unfold atHead
  rw [h.current]
  split
  · rename_i hc
    exact ⟨congrArg Item.finished (L.failure h hc), trivial, h, rfl⟩
  · exact ⟨rfl, trivial, h, rfl⟩
  · rename_i hc
    exact matches_ofParse (Parser.matches_definition h hc) fun d hd => hd
  · rename_i hc
    exact matches_ofParse (Parser.matches_declaration h hc) fun d hd => hd
  · exact matches_ofParse (Parser.matches_standalone h) fun d hd => hd

end Reader

end Reckoner
