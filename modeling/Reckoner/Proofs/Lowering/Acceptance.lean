import Reckoner.Lowering
import Reckoner.Proofs.Program.Acceptance

/-!
# Lowered bodies are accepted

`Program.Leads` follows the kinds of results through instructions without a return.  Lowered code
leads from any kinds to kinds in which its value is a double, so with a return of that value it is
an accepted body (`accepts_of_lower`).
-/

namespace Reckoner

variable {arity : Nat}

namespace Program

/-- The instructions are in order after results of kinds `kinds`, and with theirs the kinds are
`kinds'`. -/
inductive Leads (p : Program) (arity : Nat) : Array ResultKind → Block → Array ResultKind → Prop
  | nil {kinds : Array ResultKind} : Leads p arity kinds [] kinds
  | cons {kinds kinds' : Array ResultKind} {inst : Inst} {kind : ResultKind} {rest : Block}
    (h : p.Gives arity kinds inst kind) (hr : Leads p arity (kinds.push kind) rest kinds') :
    Leads p arity kinds (inst :: rest) kinds'

variable {p : Program} {kinds kinds' kinds'' : Array ResultKind} {a b : Block}

theorem Leads.append (ha : p.Leads arity kinds a kinds') (hb : p.Leads arity kinds' b kinds'') :
    p.Leads arity kinds (a ++ b) kinds'' := by
  induction ha with
  | nil => exact hb
  | cons h _ ih => exact .cons h (ih hb)

theorem Leads.single {inst : Inst} {kind : ResultKind} (h : p.Gives arity kinds inst kind) :
    p.Leads arity kinds [inst] (kinds.push kind) :=
  .cons h .nil

theorem Leads.size_eq (h : p.Leads arity kinds a kinds') :
    kinds'.size = kinds.size + a.length := by
  induction h with
  | nil => simp
  | cons _ _ ih => rw [ih, Array.size_push, List.length_cons]; omega

theorem Leads.getElem?_eq (h : p.Leads arity kinds a kinds') {t : Nat} (ht : t < kinds.size) :
    kinds'[t]? = kinds[t]? := by
  induction h with
  | nil => rfl
  | cons _ _ ih =>
    have hs := Nat.lt_trans ht (Nat.lt_succ_self _)
    rw [ih (by rwa [Array.size_push]), Array.getElem?_push_lt ht, Array.getElem?_eq_getElem ht]

theorem Leads.kind_eq (h : p.Leads arity kinds a kinds') {o : Operand} {kind : ResultKind}
    (ho : o.kind arity kinds = .ok kind) : o.kind arity kinds' = .ok kind := by
  cases o with
  | const value => exact ho
  | param i => exact ho
  | temp t =>
    have ht : t < kinds.size := by
      rcases Nat.lt_or_ge t kinds.size with ht | ht
      · exact ht
      · simp [Operand.kind, Array.getElem?_eq_none ht] at ho
    rw [← ho, Operand.kind, Operand.kind, h.getElem?_eq ht]

theorem Leads.accepts (h : p.Leads arity kinds a kinds') {value : Operand}
    (hv : value.kind arity kinds' = .ok .double) :
    p.Accepts arity kinds (a ++ [.ret value]) := by
  induction h with
  | nil => exact .ret hv
  | cons h _ ih => exact .cons h (ih hv)

def NamesLive (p : Program) : Prop :=
  ∀ name id, p.lookup name = some id → ∃ f, p.func? id = some f

end Program

def Scope.Within (arity : Nat) (scope : Scope) : Prop :=
  ∀ name operand, scope.lookup name = some operand → ∃ i < arity, operand = .param i

namespace Scope

theorem lookup_foldl_ofParams (entries : List (String × Nat)) (scope : Scope) (name : String) :
    (entries.foldl (fun scope (name, i) =>
      (name, .param i) :: scope.filter (·.1 ≠ name)) scope : Scope).lookup name =
      ((entries.reverse.lookup name).map Operand.param).or (scope.lookup name) := by
  induction entries generalizing scope with
  | nil => rfl
  | cons entry entries ih =>
    obtain ⟨k, i⟩ := entry
    rw [List.foldl_cons, ih, List.reverse_cons, List.lookup_append]
    by_cases hk : name = k
    · subst hk
      cases entries.reverse.lookup name <;> simp
    · have hb : (name == k) = false := by simpa using hk
      have hf := (List.lookup_filter_ne scope k name).trans (if_neg hk)
      rw [List.lookup_cons, hb, hf]
      cases entries.reverse.lookup name <;> simp [List.lookup_cons, hb]

/-- A name stands for the last parameter of that name. -/
theorem lookup_ofParams (params : List String) (name : String) :
    (ofParams params).lookup name = (params.zipIdx.reverse.lookup name).map Operand.param := by
  unfold ofParams
  rw [lookup_foldl_ofParams]
  exact Option.or_none

theorem within_ofParams (params : List String) : (ofParams params).Within params.length := by
  intro name operand h
  rw [lookup_ofParams] at h
  obtain ⟨i, hi, rfl⟩ := Option.map_eq_some_iff.1 h
  have hm : (name, i) ∈ params.zipIdx.reverse := by
    obtain ⟨before, after, he, -⟩ := List.lookup_eq_some_iff.1 hi
    simp [he]
  exact ⟨i, (List.mem_zipIdx' (List.mem_reverse.1 hm)).1, rfl⟩

end Scope

def Except.error? {ε α : Type} : Except ε α → Option ε
  | .ok _ => none
  | .error e => some e

theorem Except.error?_eq_some_iff {ε α : Type} {x : Except ε α} {e : ε} :
    Except.error? x = some e ↔ x = .error e := by
  cases x <;> simp [Except.error?]

theorem Except.error?_bind {ε α β : Type} {x : Except ε α} {g : α → Except ε β}
    {first rest : Option ε} (hx : Except.error? x = first)
    (hg : ∀ a, x = .ok a → Except.error? (g a) = rest) :
    Except.error? (x >>= g) = first.or rest := by
  subst hx
  cases x with
  | error e => rfl
  | ok a => exact hg a rfl

theorem Except.bind_eq_ok {ε α β : Type} {x : Except ε α} {g : α → Except ε β} {y : β}
    (h : x >>= g = .ok y) : ∃ a, x = .ok a ∧ g a = .ok y := by
  cases x with
  | error e => contradiction
  | ok a => exact ⟨a, rfl, h⟩

theorem Except.bind_eq_error {ε α β : Type} {x : Except ε α} {g : α → Except ε β} {e : ε}
    (h : x >>= g = .error e) : x = .error e ∨ ∃ a, x = .ok a ∧ g a = .error e := by
  cases x with
  | error e' =>
    cases h
    exact .inl rfl
  | ok a => exact .inr ⟨a, rfl, h⟩

namespace Expr

variable {p : Program} {scope : Scope}

theorem length_values_of_lowerArgs {es : List Expr} {code : ArgsCode} {start : Nat}
    (h : lowerArgs p scope start es = .ok code) : code.values.length = es.length := by
  induction es generalizing start code with
  | nil => unfold lowerArgs at h; cases h; rfl
  | cons e es ih =>
    unfold lowerArgs at h
    obtain ⟨head, _, h⟩ := Except.bind_eq_ok h
    obtain ⟨tail, ht, h⟩ := Except.bind_eq_ok h
    cases h
    exact congrArg (· + 1) (ih ht)

theorem leads_ending {kinds kinds' : Array ResultKind} {insts : Block} {last : Inst}
    {kind : ResultKind} (h : p.Leads arity kinds insts kinds')
    (hl : p.Gives arity kinds' last kind) :
    p.Leads arity kinds (Code.ending kinds.size insts last).insts (kinds'.push kind) ∧
      (Code.ending kinds.size insts last).value = .temp kinds'.size := by
  refine ⟨h.append (.single hl), ?_⟩
  rw [Code.ending, ← h.size_eq]

theorem leads_lowerBinary {kinds kinds' : Array ResultKind} {insts : Block} {op : Char}
    {left right : Operand} {code : Code} (h : p.Leads arity kinds insts kinds')
    (hl : left.kind arity kinds' = .ok .double) (hr : right.kind arity kinds' = .ok .double)
    (hc : lowerBinary kinds.size op left right insts = .ok code) :
    ∃ kinds'', p.Leads arity kinds code.insts kinds'' ∧
      code.value.kind arity kinds'' = .ok .double := by
  unfold lowerBinary at hc
  simp only at hc
  split at hc
  · cases hc
    obtain ⟨h₁, hv₁⟩ := leads_ending h (.lessThan hl hr)
    have hf : (Operand.temp kinds'.size).kind arity (kinds'.push .flag) = .ok .flag := by
      rw [Operand.kind, Array.getElem?_push_size]
    rw [hv₁]
    obtain ⟨h₂, hv₂⟩ := leads_ending h₁ (.widen hf)
    refine ⟨_, h₂, ?_⟩
    rw [hv₂, Operand.kind, Array.getElem?_push_size]
  · split at hc
    · rename_i arith ha
      cases hc
      have hg : p.Gives arity kinds' (.arith arith left right) .double := .arith hl hr
      obtain ⟨h₁, hv₁⟩ := leads_ending h hg
      refine ⟨_, h₁, ?_⟩
      rw [hv₁, Operand.kind, Array.getElem?_push_size]
    · contradiction

mutual

theorem leads_of_lower (hp : p.NamesLive) (hs : scope.Within arity) {e : Expr} {code : Code}
    {kinds : Array ResultKind} (h : e.lower p scope kinds.size = .ok code) :
    ∃ kinds', p.Leads arity kinds code.insts kinds' ∧
      code.value.kind arity kinds' = .ok .double := by
  match e with
  | .literal value =>
    cases h
    exact ⟨kinds, .nil, rfl⟩
  | .var name =>
    unfold lower at h
    split at h
    · rename_i operand ho
      cases h
      obtain ⟨i, hi, rfl⟩ := hs name operand ho
      exact ⟨kinds, .nil, if_pos hi⟩
    · contradiction
  | .binary op left right =>
    unfold lower at h
    obtain ⟨l, hl, h⟩ := Except.bind_eq_ok h
    obtain ⟨r, hr, h⟩ := Except.bind_eq_ok h
    obtain ⟨kl, hkl, hvl⟩ := leads_of_lower hp hs hl
    rw [← hkl.size_eq] at hr
    obtain ⟨kr, hkr, hvr⟩ := leads_of_lower hp hs hr
    exact leads_lowerBinary (hkl.append hkr) (hkr.kind_eq hvl) hvr h
  | .call callee args =>
    unfold lower at h
    split at h
    · contradiction
    · rename_i id hid
      split at h
      · contradiction
      · rename_i hn
        obtain ⟨a, ha, h⟩ := Except.bind_eq_ok h
        cases h
        obtain ⟨ka, hka, hva⟩ := leads_of_lowerArgs hp hs ha
        obtain ⟨f, hf⟩ := hp callee id hid
        have hlen : f.params.length = a.values.length := by
          rw [length_values_of_lowerArgs ha, ← Decidable.not_not.1 hn, Program.arity,
            Program.params, hf]
          rfl
        obtain ⟨h₁, hv₁⟩ := leads_ending hka (.call hf hlen hva)
        refine ⟨_, h₁, ?_⟩
        rw [hv₁, Operand.kind, Array.getElem?_push_size]

theorem leads_of_lowerArgs (hp : p.NamesLive) (hs : scope.Within arity) {es : List Expr}
    {code : ArgsCode} {kinds : Array ResultKind} (h : lowerArgs p scope kinds.size es = .ok code) :
    ∃ kinds', p.Leads arity kinds code.insts kinds' ∧
      ∀ v ∈ code.values, v.kind arity kinds' = .ok .double := by
  match es with
  | [] =>
    unfold lowerArgs at h
    cases h
    exact ⟨kinds, .nil, fun v hv => nomatch hv⟩
  | e :: es =>
    unfold lowerArgs at h
    obtain ⟨head, hh, h⟩ := Except.bind_eq_ok h
    obtain ⟨tail, ht, h⟩ := Except.bind_eq_ok h
    cases h
    obtain ⟨kh, hkh, hvh⟩ := leads_of_lower hp hs hh
    rw [← hkh.size_eq] at ht
    obtain ⟨kt, hkt, hvt⟩ := leads_of_lowerArgs hp hs ht
    refine ⟨kt, hkh.append hkt, fun v hv => ?_⟩
    rcases List.mem_cons.1 hv with rfl | hv
    · exact hkt.kind_eq hvh
    · exact hvt v hv

end

/-- The body of a function whose expression could be lowered is accepted. -/
theorem accepts_of_lower (hp : p.NamesLive) (hs : scope.Within arity) {e : Expr} {code : Code}
    (h : e.lower p scope 0 = .ok code) :
    p.Accepts arity #[] (code.insts ++ [.ret code.value]) := by
  have h₀ : e.lower p scope (#[] : Array ResultKind).size = .ok code := h
  obtain ⟨kinds, hk, hv⟩ := leads_of_lower hp hs h₀
  exact hk.accepts hv

end Expr

end Reckoner
