import Reckoner.Proofs.Grammar.Sentences

/-!
# What may come next

While a sentence is read there are goals: the things that are still to come, the nearest first.
Each token that is allowed leads to new goals (`Goals.step`), and the goals tell everything about how
the tokens so far can go on.  Goals can always be met (`Goals.exists_meets`), so tokens that lead to
goals begin a sentence; and every sentence leads through them (`Sentence.leads`), so tokens that do
not lead to any begin none.  Both are put together for each of the productions that a unit is made
of (`Goals.Foretell`).
-/

namespace Reckoner

inductive Goal
  | token (t : Token)
  | name
  /-- Parameters, and the parenthesis that closes them. -/
  | params
  | operand
  /-- After a name: the arguments that make it a call, or nothing. -/
  | applied
  /-- After the parenthesis that opens a call: arguments, or none, and the closing one. -/
  | inner
  /-- After an argument: more of them, each after a comma, and the closing parenthesis. -/
  | argumentEnd
  /-- After an operand: operators, each with an operand after it, or nothing. -/
  | joined

abbrev Goals := List Goal

namespace Goals

def startOperand (gs : Goals) : Token → Option Goals
  | .number _ => some gs
  | .ident _ => some (.applied :: gs)
  | .operator '(' => some (.operand :: .joined :: .token (.operator ')') :: gs)
  | _ => none

/-- The goals after a token, or `none` if the token cannot come next. -/
def step : Goals → Token → Option Goals
  | [], _ => none
  | .token u :: gs, t => if t = u then some gs else none
  | .name :: gs, t =>
    match t with
    | .ident _ => some gs
    | _ => none
  | .params :: gs, t =>
    match t with
    | .ident _ => some (.params :: gs)
    | .operator ')' => some gs
    | _ => none
  | .operand :: gs, t => startOperand gs t
  | .applied :: gs, t => if t = .operator '(' then some (.inner :: gs) else step gs t
  | .inner :: gs, t =>
    if t = .operator ')' then some gs else startOperand (.joined :: .argumentEnd :: gs) t
  | .argumentEnd :: gs, t =>
    if t = .operator ')' then some gs
    else if t = .operator ',' then some (.operand :: .joined :: .argumentEnd :: gs)
    else none
  | .joined :: gs, t => if 0 < t.binding then some (.operand :: .joined :: gs) else step gs t

def run (gs : Goals) (ts : List Token) : Option Goals :=
  ts.foldlM step gs

variable {gs gs' : Goals} {t u : Token} {ts : List Token}

theorem run_cons (gs : Goals) (t : Token) (ts : List Token) :
    run gs (t :: ts) = (step gs t).bind fun gs' => run gs' ts := rfl

theorem run_cons_of_step (h : step gs t = some gs') (ts : List Token) :
    run gs (t :: ts) = run gs' ts := by
  rw [run_cons, h]
  rfl

theorem run_append (gs : Goals) (ts us : List Token) :
    run gs (ts ++ us) = (run gs ts).bind fun gs' => run gs' us :=
  List.foldlM_append

theorem run_append_of_run (h : run gs ts = some gs') (us : List Token) :
    run gs (ts ++ us) = run gs' us := by
  rw [run_append, h]
  rfl

theorem run_single (gs : Goals) (t : Token) : run gs [t] = step gs t := by
  rw [run_cons]
  cases step gs t <;> rfl

/-! ## Steps in single goals -/

theorem step_operand_of_other (hn : ∀ v, t ≠ .number v) (hi : ∀ n, t ≠ .ident n)
    (ho : t ≠ .operator '(') : step (.operand :: gs) t = none := by
  unfold step startOperand
  split <;> simp_all

theorem step_name_of_other (hi : ∀ n, t ≠ .ident n) : step (.name :: gs) t = none := by
  unfold step
  split <;> simp_all

theorem step_params_of_other (hi : ∀ n, t ≠ .ident n) (hr : t ≠ .operator ')') :
    step (.params :: gs) t = none := by
  unfold step
  split <;> simp_all

theorem step_token_of_ne (h : t ≠ u) : step (.token u :: gs) t = none :=
  if_neg h

theorem step_argumentEnd_of_other (hr : t ≠ .operator ')') (hc : t ≠ .operator ',') :
    step (.argumentEnd :: gs) t = none :=
  (if_neg hr).trans (if_neg hc)

theorem step_applied_of_ne (h : t ≠ .operator '(') : step (.applied :: gs) t = step gs t :=
  if_neg h

theorem step_inner_of_ne (h : t ≠ .operator ')') :
    step (.inner :: gs) t = step (.operand :: .joined :: .argumentEnd :: gs) t :=
  if_neg h

theorem step_joined_of_joins {op : Char} (h : Joins op) :
    step (.joined :: gs) (.operator op) = some (.operand :: .joined :: gs) :=
  if_pos h

theorem step_joined_of_not_joins (h : ¬ 0 < t.binding) : step (.joined :: gs) t = step gs t :=
  if_neg h

/-! ## Tokens that meet goals -/

def ClosesCall (ts : List Token) : Prop :=
  ∃ us, ts = us ++ [.operator ')'] ∧ Sentence .arguments us

end Goals

/-- The tokens do what the goal asks for, in terms of the sentence that they complete. -/
def Goal.Meets : Goal → List Token → Prop
  | .token t, ts => ts = [t]
  | .name, ts => ∃ name, ts = [.ident name]
  | .params, ts => ∃ names : List String, ts = names.map .ident ++ [.operator ')']
  | .operand, ts => Sentence (.layer 0) ts
  | .applied, ts => ∀ name, Sentence (.layer 0) (.ident name :: ts)
  | .inner, ts => ∀ name, Sentence (.layer 0) (.ident name :: .operator '(' :: ts)
  | .argumentEnd, ts => ∀ us, Sentence (.layer 3) us → Goals.ClosesCall (us ++ ts)
  | .joined, ts => ∀ us, Sentence (.layer 3) us → Sentence (.layer 3) (us ++ ts)

namespace Goals

variable {gs gs' : Goals} {t : Token} {ts us : List Token}

def Meets : Goals → List Token → Prop
  | [], ts => ts = []
  | g :: gs, ts => ∃ us vs, ts = us ++ vs ∧ g.Meets us ∧ Meets gs vs

theorem Meets.cons {g : Goal} (hg : g.Meets us) (h : Meets gs ts) :
    Meets (g :: gs) (us ++ ts) :=
  ⟨us, ts, rfl, hg, h⟩

theorem Meets.skip {g : Goal} (hg : g.Meets []) (h : Meets gs ts) : Meets (g :: gs) ts :=
  .cons hg h

theorem meets_applied_nil : Goal.applied.Meets [] :=
  fun _ => .var

theorem meets_joined_nil : Goal.joined.Meets [] := by
  intro us h
  rwa [List.append_nil]

theorem Meets.expression (h : Meets (.operand :: .joined :: gs) ts) :
    ∃ us vs, ts = us ++ vs ∧ Sentence (.layer 3) us ∧ Meets gs vs := by
  obtain ⟨us, _, rfl, ho, vs, ws, rfl, hj, h⟩ := h
  exact ⟨us ++ vs, ws, (List.append_assoc us vs ws).symm, hj us (ho.of_le (Nat.zero_le 3)), h⟩

theorem Meets.arguments (h : Meets (.operand :: .joined :: .argumentEnd :: gs) ts) :
    ∃ us vs, ts = us ++ vs ∧ ClosesCall us ∧ Meets gs vs := by
  obtain ⟨us, _, rfl, hus, vs, ws, rfl, he, h⟩ := h.expression
  exact ⟨us ++ vs, ws, (List.append_assoc us vs ws).symm, he us hus, h⟩

theorem ClosesCall.meets_inner (h : ClosesCall ts) : Goal.inner.Meets ts := by
  obtain ⟨us, rfl, hus⟩ := h
  exact fun _ => .call hus

/-! Each token that is allowed is the first of tokens that meet the goals. -/

theorem Meets.group (h : Meets (.operand :: .joined :: .token (.operator ')') :: gs) ts) :
    Meets (.operand :: gs) (.operator '(' :: ts) := by
  obtain ⟨us, _, rfl, hus, _, ws, rfl, rfl, hws⟩ := h.expression
  exact ⟨_, ws, by simp, .group hus, hws⟩

theorem Meets.param {name : String} (h : Meets (.params :: gs) ts) :
    Meets (.params :: gs) (.ident name :: ts) := by
  obtain ⟨_, vs, rfl, ⟨names, rfl⟩, hvs⟩ := h
  exact ⟨_, vs, rfl, ⟨name :: names, rfl⟩, hvs⟩

theorem Meets.firstArgument (h : Meets (.operand :: .joined :: .argumentEnd :: gs) ts) :
    Meets (.inner :: gs) ts := by
  obtain ⟨us, vs, rfl, hus, hvs⟩ := h.arguments
  exact .cons hus.meets_inner hvs

theorem Meets.nextArgument (h : Meets (.operand :: .joined :: .argumentEnd :: gs) ts) :
    Meets (.argumentEnd :: gs) (.operator ',' :: ts) := by
  obtain ⟨_, vs, rfl, ⟨us, rfl, hus⟩, hvs⟩ := h.arguments
  refine ⟨.operator ',' :: (us ++ [.operator ')']), vs, rfl, fun ws hws => ?_, hvs⟩
  exact ⟨ws ++ .operator ',' :: us, by simp, .argument hws hus⟩

theorem Meets.join {op : Char} (ho : Joins op) (h : Meets (.operand :: .joined :: gs) ts) :
    Meets (.joined :: gs) (.operator op :: ts) := by
  obtain ⟨us, _, rfl, hus, vs, ws, rfl, hvs, hws⟩ := h
  refine ⟨.operator op :: (us ++ vs), ws, by simp, fun xs hxs => ?_, hws⟩
  have hx := hvs _ (hxs.join_operand ho hus)
  rwa [List.append_assoc] at hx

theorem meets_of_startOperand (h : startOperand gs t = some gs') (hts : Meets gs' ts) :
    Meets (.operand :: gs) (t :: ts) := by
  unfold startOperand at h
  split at h
  · obtain rfl := Option.some.inj h
    exact ⟨_, ts, rfl, .number, hts⟩
  · obtain rfl := Option.some.inj h
    obtain ⟨us, vs, rfl, hus, hvs⟩ := hts
    exact ⟨_, vs, rfl, hus _, hvs⟩
  · obtain rfl := Option.some.inj h
    exact hts.group
  · contradiction

/-- A token and what meets the goals after it meet the goals before it. -/
theorem meets_of_step (h : step gs t = some gs') (hts : Meets gs' ts) : Meets gs (t :: ts) := by
  induction gs with
  | nil => contradiction
  | cons g gs ih =>
    cases g with
    | token u =>
      obtain ⟨rfl, hgs⟩ := Option.ite_none_right_eq_some.1 h
      obtain rfl := Option.some.inj hgs
      exact ⟨[t], ts, rfl, rfl, hts⟩
    | name =>
      unfold step at h
      split at h
      · rename_i name
        obtain rfl := Option.some.inj h
        exact ⟨_, ts, rfl, ⟨name, rfl⟩, hts⟩
      · contradiction
    | params =>
      unfold step at h
      split at h
      · obtain rfl := Option.some.inj h
        exact hts.param
      · obtain rfl := Option.some.inj h
        exact ⟨_, ts, rfl, ⟨[], rfl⟩, hts⟩
      · contradiction
    | operand => exact meets_of_startOperand h hts
    | applied =>
      unfold step at h
      split at h
      · rename_i ht
        subst ht
        obtain rfl := Option.some.inj h
        obtain ⟨us, vs, rfl, hus, hvs⟩ := hts
        exact ⟨_, vs, rfl, hus, hvs⟩
      · exact .skip meets_applied_nil (ih h)
    | inner =>
      unfold step at h
      split at h
      · rename_i ht
        subst ht
        obtain rfl := Option.some.inj h
        exact ⟨_, ts, rfl, fun _ => .emptyCall, hts⟩
      · exact (meets_of_startOperand h hts).firstArgument
    | argumentEnd =>
      unfold step at h
      split at h
      · rename_i ht
        subst ht
        obtain rfl := Option.some.inj h
        exact ⟨_, ts, rfl, fun us hus => ⟨us, rfl, .lastArgument hus⟩, hts⟩
      · obtain ⟨rfl, hgs⟩ := Option.ite_none_right_eq_some.1 h
        obtain rfl := Option.some.inj hgs
        exact hts.nextArgument
    | joined =>
      unfold step at h
      split at h
      · rename_i ht
        obtain ⟨op, rfl⟩ := Parser.exists_operator_of_binding_pos t ht
        obtain rfl := Option.some.inj h
        exact hts.join ht
      · exact .skip meets_joined_nil (ih h)

theorem meets_of_run (h : run gs ts = some gs') (hus : Meets gs' us) : Meets gs (ts ++ us) := by
  induction ts generalizing gs with
  | nil =>
    obtain rfl := Option.some.inj h
    exact hus
  | cons t ts ih =>
    obtain ⟨gs₁, h₁, h₂⟩ := Option.bind_eq_some_iff.1 (run_cons gs t ts ▸ h)
    exact meets_of_step h₁ (ih h₂)

theorem exists_meets_goal (g : Goal) : ∃ ts, g.Meets ts := by
  cases g with
  | token t => exact ⟨[t], rfl⟩
  | name => exact ⟨[.ident "f"], "f", rfl⟩
  | params => exact ⟨[.operator ')'], [], rfl⟩
  | operand => exact ⟨[.number 0], .number⟩
  | applied => exact ⟨[], meets_applied_nil⟩
  | inner => exact ⟨[.operator ')'], fun _ => .emptyCall⟩
  | argumentEnd => exact ⟨[.operator ')'], fun us hus => ⟨us, rfl, .lastArgument hus⟩⟩
  | joined => exact ⟨[], meets_joined_nil⟩

/-- Whatever is still to be read can be. -/
theorem exists_meets (gs : Goals) : ∃ ts, Meets gs ts := by
  induction gs with
  | nil => exact ⟨[], rfl⟩
  | cons g gs ih =>
    obtain ⟨us, hus⟩ := exists_meets_goal g
    obtain ⟨ts, hts⟩ := ih
    exact ⟨us ++ ts, .cons hus hts⟩

/-! ## Goals that sentences lead to -/

/-- The goals are `gs`, or they were reached by a name that may still be called. -/
def Acts (gs gs' : Goals) : Prop :=
  gs' = gs ∨ gs' = .applied :: gs

theorem Acts.step_eq (h : Acts gs gs') (ht : t ≠ .operator '(') : step gs' t = step gs t := by
  rcases h with rfl | rfl
  · rfl
  · exact step_applied_of_ne ht

/-- Where the first argument can begin, the parenthesis cannot be closed. -/
theorem run_inner_of_run (hts : ts ≠ [])
    (h : run (.operand :: .joined :: .argumentEnd :: gs) ts = some gs') :
    run (.inner :: gs) ts = some gs' := by
  cases ts with
  | nil => contradiction
  | cons t ts =>
    rw [run_cons] at h ⊢
    have ht : t ≠ .operator ')' := by
      rintro rfl
      contradiction
    rw [step_inner_of_ne ht]
    exact h

theorem run_params (params : List String) :
    run (.params :: gs) (params.map .ident ++ [.operator ')']) = some gs := by
  induction params with
  | nil => rfl
  | cons name params ih => exact ih

/-! ## Goals of the productions

Each is put before the goals that come after it. -/

def ofExpression (gs : Goals) : Goals :=
  .operand :: .joined :: gs

def ofPrototype (gs : Goals) : Goals :=
  .name :: .token (.operator '(') :: .params :: gs

def ofDefinition (gs : Goals) : Goals :=
  .token .defKeyword :: ofPrototype (ofExpression gs)

def ofDeclaration (gs : Goals) : Goals :=
  .token .externKeyword :: ofPrototype gs

end Goals

open Goals

def Production.Leads : Production → List Token → Prop
  | .layer _, ts => ∀ gs, ∃ gs', run (.operand :: .joined :: gs) ts = some gs' ∧
      Acts (.joined :: gs) gs'
  | .arguments, ts => ∀ gs,
      run (.operand :: .joined :: .argumentEnd :: gs) (ts ++ [.operator ')']) = some gs
  | .prototype, ts => ∀ gs, run (ofPrototype gs) ts = some gs
  | .definition, ts => ∃ gs, run (ofDefinition []) ts = some gs
  | .declaration, ts => ∃ gs, run (ofDeclaration []) ts = some gs

theorem Sentence.leads {s : Production} {ts : List Token} (h : Sentence s ts) : s.Leads ts := by
  induction h with
  | number => exact fun gs => ⟨_, rfl, .inl rfl⟩
  | var => exact fun gs => ⟨_, rfl, .inr rfl⟩
  | emptyCall => exact fun gs => ⟨_, rfl, .inl rfl⟩
  | @call name ts _ ih => exact fun gs => ⟨_, run_inner_of_run (by simp) (ih _), .inl rfl⟩
  | @group ts _ ih =>
    intro gs
    obtain ⟨gs', hrun, hacts⟩ := ih (.token (.operator ')') :: .joined :: gs)
    have hclose : run gs' [.operator ')'] = some (.joined :: gs) :=
      (run_single _ _).trans ((hacts.step_eq (by decide)).trans rfl)
    exact ⟨.joined :: gs, (run_append_of_run hrun _).trans hclose, .inl rfl⟩
  | single _ ih => exact ih
  | @join n op ts us _ ho _ ih ih' =>
    intro gs
    have hj := joins_of_mem_joiners ho
    obtain ⟨gs', hrun, hacts⟩ := ih gs
    have hstep : step gs' (.operator op) = some (.operand :: .joined :: gs) :=
      (hacts.step_eq hj.ne_paren).trans (step_joined_of_joins hj)
    rw [run_append_of_run hrun, run_cons_of_step hstep]
    exact ih' gs
  | lastArgument _ ih =>
    intro gs
    obtain ⟨gs', hrun, hacts⟩ := ih (.argumentEnd :: gs)
    rw [run_append_of_run hrun, run_single]
    exact (hacts.step_eq (by decide)).trans rfl
  | argument _ _ ih ih' =>
    intro gs
    obtain ⟨gs', hrun, hacts⟩ := ih (.argumentEnd :: gs)
    have hstep : step gs' (.operator ',') = some (.operand :: .joined :: .argumentEnd :: gs) :=
      (hacts.step_eq (by decide)).trans rfl
    rw [List.append_assoc, run_append_of_run hrun, List.cons_append, run_cons_of_step hstep]
    exact ih' gs
  | prototype => exact fun gs => run_params _
  | definition _ _ ih ih' =>
    obtain ⟨gs', hrun, -⟩ := ih' []
    exact ⟨gs', (run_append_of_run (ih (ofExpression [])) _).trans hrun⟩
  | declaration _ ih => exact ⟨[], ih []⟩

namespace Goals

/-- The goals tell what the sentences of the production are like. -/
structure Foretell (of : Goals → Goals) (s : Production) : Prop where
  sentence : ∀ gs ts, Meets (of gs) ts → ∃ us vs, ts = us ++ vs ∧ Sentence s us ∧ Meets gs vs
  leads : ∀ ts, Sentence s ts → ∃ gs, run (of []) ts = some gs

variable {of : Goals → Goals} {gs : Goals} {s : Production} {t : Token} {ts : List Token}

/-- Tokens that lead to goals begin a sentence. -/
theorem Foretell.begins (h : Foretell of s) (hts : run (of []) ts = some gs) : s.Begins ts := by
  obtain ⟨us, hus⟩ := exists_meets gs
  obtain ⟨vs, _, heq, hvs, rfl⟩ := h.sentence [] _ (meets_of_run hts hus)
  rw [List.append_nil] at heq
  exact ⟨us, heq ▸ hvs⟩

/-- No sentence goes on with a token that the goals do not allow. -/
theorem Foretell.not_begins (h : Foretell of s) (hts : run (of []) ts = some gs)
    (ht : step gs t = none) : ¬ s.Begins (ts ++ [t]) := by
  rintro ⟨us, hus⟩
  obtain ⟨_, hrun⟩ := h.leads _ hus
  rw [List.append_assoc, run_append_of_run hts, List.singleton_append, run_cons, ht] at hrun
  contradiction

/-- Tokens after which only the goals that come after are left are a sentence.  Some token is put
there to tell. -/
theorem Foretell.sentence_of_run (h : Foretell of s) (hts : run (of [.token t]) ts = some gs)
    (ht : step gs t = some []) : Sentence s ts := by
  have hrun : run (of [.token t]) (ts ++ [t]) = some [] :=
    (run_append_of_run hts _).trans ((run_single _ _).trans ht)
  obtain ⟨us, _, heq, hus, _, _, rfl, rfl, rfl⟩ := h.sentence _ _ (meets_of_run hrun rfl)
  rw [List.append_nil, List.append_nil] at heq
  rwa [List.append_cancel_right heq]

theorem foretell_expression : Foretell ofExpression (.layer 3) where
  sentence _ _ hts := hts.expression
  leads ts hts := by
    obtain ⟨gs, hrun, -⟩ := hts.leads []
    exact ⟨gs, hrun⟩

/-- After a comma there has to be another argument. -/
example : ¬ Production.Begins (.layer 3)
    ([.ident "f", .operator '(', .ident "x", .operator ','] ++ [.operator ')']) :=
  foretell_expression.not_begins rfl rfl

theorem Meets.prototype (h : Meets (ofPrototype gs) ts) :
    ∃ us vs, ts = us ++ vs ∧ Sentence .prototype us ∧ Meets gs vs := by
  obtain ⟨_, _, rfl, ⟨name, rfl⟩, _, _, rfl, rfl, _, vs, rfl, ⟨params, rfl⟩, h⟩ := h
  have hs : Sentence .prototype (.ident name :: .operator '(' :: (params.map .ident ++ [_])) :=
    .prototype
  exact ⟨_, vs, by simp, hs, h⟩

theorem foretell_definition : Foretell ofDefinition .definition where
  sentence _ _ hts := by
    obtain ⟨_, _, rfl, rfl, hts⟩ := hts
    obtain ⟨us, _, rfl, hus, hts⟩ := Meets.prototype hts
    obtain ⟨vs, ws, rfl, hvs, hws⟩ := hts.expression
    exact ⟨_, ws, by simp, .definition hus hvs, hws⟩
  leads _ hts := hts.leads

theorem foretell_declaration : Foretell ofDeclaration .declaration where
  sentence _ _ hts := by
    obtain ⟨_, _, rfl, rfl, hts⟩ := hts
    obtain ⟨us, vs, rfl, hus, hvs⟩ := Meets.prototype hts
    exact ⟨_, vs, rfl, .declaration hus, hvs⟩
  leads _ hts := hts.leads

end Goals

end Reckoner
