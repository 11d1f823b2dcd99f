import Reckoner.Program.Listing
import Reckoner.Proofs.Block.Gaps
import Reckoner.Proofs.Decimal.Reading
import Reckoner.Proofs.Grammar.Names
import Reckoner.Proofs.Program.Store
import Reckoner.Proofs.Text.Separation

/-!
# Lines of a listing

The text of an operand determines it, where the operand is legible (`Operand.Legible`): a parameter
has a word for its name that no temporary is written with, and no later parameter has the same
name.  In a program of well named functions the text of an instruction with legible operands then
determines the instruction, and its number too unless it is a return (`instText?_inj`).
-/

namespace Reckoner

open Text

def IsTempName (name : String) : Prop :=
  ∃ n : Nat, name = "t" ++ toString n

/-- The operand can be told from others by its text. -/
def Operand.Legible (params : List String) : Operand → Prop
  | .const _ => True
  | .param i => ∃ name, params[i]? = some name ∧ IsWord name ∧ ¬IsTempName name ∧
      ∀ j, params[j]? = some name → j ≤ i
  | .temp _ => True

structure Inst.Legible (p : Program) (params : List String) (inst : Inst) : Prop where
  operands : ∀ o ∈ inst.operands, o.Legible params
  callee : ∀ id args, inst = .call id args → ∃ g, p.func? id = some g

def isOperandChar (c : Char) : Bool :=
  Decimal.isTextual c || c == '%'

theorem isAlphanum_of_mem_toString {n : Nat} :
    ∀ c ∈ (toString n).toList, c.isAlphanum = true := by
  intro c hc
  rw [Nat.toString_eq_ofList_toDigits, String.toList_ofList] at hc
  simp [Char.isAlphanum, Decimal.isDigit_of_mem_toDigits hc]

theorem toString_inj {m n : Nat} (h : toString m = toString n) : m = n := by
  rw [Nat.toString_eq_ofList_toDigits, Nat.toString_eq_ofList_toDigits] at h
  have hd : Nat.toDigits 10 m = Nat.toDigits 10 n := String.ofList_injective h
  rw [← Nat.ofDigitChars_ten_toDigits (n := m), hd, Nat.ofDigitChars_ten_toDigits]

theorem not_mem_of_forall {q : Char → Bool} {cs : List Char} (h : ∀ c ∈ cs, q c = true) {c : Char}
    (hc : q c = false) : c ∉ cs := by
  intro hm
  rw [h c hm] at hc
  contradiction

namespace Program

variable {p : Program} {f : Func} {o o' : Operand}

theorem toList_operandText_param {i : Nat} {name : String} (h : f.params[i]? = some name) :
    (operandText f (.param i)).toList = '%' :: name.toList := by
  simp only [operandText, h, String.toList_append]
  rfl

theorem toList_operandText_temp (t : Nat) :
    (operandText f (.temp t)).toList = '%' :: 't' :: (toString t).toList := by
  simp only [operandText, String.toList_append]
  rfl

theorem isOperandChar_of_mem (h : o.Legible f.params) :
    ∀ c ∈ (operandText f o).toList, isOperandChar c = true := by
  have ha {c : Char} (hc : c.isAlphanum = true) : isOperandChar c = true := by
    simp [isOperandChar, Decimal.isTextual, hc]
  cases o with
  | const value =>
    intro c hc
    simp [isOperandChar, Decimal.isTextual_of_mem_text c hc]
  | param i =>
    obtain ⟨name, hi, hw, -⟩ := h
    rw [toList_operandText_param hi]
    exact List.forall_mem_cons.2 ⟨rfl, fun c hc => ha (hw.isAlphanum c hc)⟩
  | temp t =>
    rw [toList_operandText_temp]
    exact List.forall_mem_cons.2 ⟨rfl, List.forall_mem_cons.2
      ⟨rfl, fun c hc => ha (isAlphanum_of_mem_toString c hc)⟩⟩

/-- The text of a constant does not begin like that of a parameter or a temporary. -/
theorem text_ne_cons {value : Float} {cs : List Char} :
    (Decimal.Layout.literal.text value).toList ≠ '%' :: cs := by
  intro h
  have := Decimal.isTextual_of_mem_text (l := Decimal.Layout.literal) (x := value) '%'
    (h ▸ List.mem_cons_self)
  contradiction

theorem operandText_inj (ho : o.Legible f.params) (ho' : o'.Legible f.params)
    (h : operandText f o = operandText f o') : o = o' := by
  have hl := congrArg String.toList h
  cases o with
  | const value =>
    cases o' with
    | const value' => exact congrArg _ (Decimal.text_injective _ h)
    | param i =>
      obtain ⟨name, hi, -⟩ := ho'
      rw [toList_operandText_param hi] at hl
      exact absurd hl text_ne_cons
    | temp t =>
      rw [toList_operandText_temp] at hl
      exact absurd hl text_ne_cons
  | param i =>
    obtain ⟨name, hi, hw, ht, hlast⟩ := ho
    rw [toList_operandText_param hi] at hl
    cases o' with
    | const value => exact absurd hl.symm text_ne_cons
    | param j =>
      obtain ⟨name', hj, hw', ht', hlast'⟩ := ho'
      rw [toList_operandText_param hj] at hl
      obtain rfl := String.toList_inj.1 (List.cons.inj hl).2
      exact congrArg _ (Nat.le_antisymm (hlast' i hi) (hlast j hj))
    | temp t =>
      rw [toList_operandText_temp] at hl
      refine absurd ⟨t, String.toList_inj.1 ?_⟩ ht
      rw [(List.cons.inj hl).2, String.toList_append]
      rfl
  | temp t =>
    rw [toList_operandText_temp] at hl
    cases o' with
    | const value => exact absurd hl.symm text_ne_cons
    | param j =>
      obtain ⟨name', hj, hw', ht', hlast'⟩ := ho'
      rw [toList_operandText_param hj] at hl
      refine absurd ⟨t, String.toList_inj.1 ?_⟩ ht'
      rw [← (List.cons.inj hl).2, String.toList_append]
      rfl
    | temp t' =>
      rw [toList_operandText_temp] at hl
      have ht := (List.cons.inj (List.cons.inj hl).2).2
      exact congrArg _ (toString_inj (String.toList_inj.1 ht))

/-- A legible operand ends where a character comes that operands are not written with. -/
theorem operandText_append_inj {c : Char} (hc : isOperandChar c = false)
    (ho : o.Legible f.params) (ho' : o'.Legible f.params) {s t : List Char}
    (h : (operandText f o).toList ++ c :: s = (operandText f o').toList ++ c :: t) :
    o = o' ∧ s = t := by
  obtain ⟨h, hst⟩ := append_cons_inj (not_mem_of_forall (isOperandChar_of_mem ho) hc)
    (not_mem_of_forall (isOperandChar_of_mem ho') hc) h
  exact ⟨operandText_inj ho ho' (String.toList_inj.1 h), hst⟩

/-- Every function has a word for its name or none, and no name belongs to two functions. -/
structure WellNamed (p : Program) : Prop where
  name : ∀ id f, p.func? id = some f → f.name = "" ∨ IsWord f.name
  unique : ∀ id id' f f', p.func? id = some f → p.func? id' = some f' → f.name = f'.name → id = id'

theorem symbol_inj {f g : Func} (hf : f.name = "" ∨ IsWord f.name)
    (hg : g.name = "" ∨ IsWord g.name) (h : f.symbol = g.symbol) : f.name = g.name := by
  have hw {name : String} (h : IsWord name) : name ≠ "__anon_expr" := by
    rintro rfl
    exact absurd (h.isAlphanum '_' (by decide)) (by decide)
  unfold Func.symbol at h
  split at h
  · rename_i hf'
    split at h
    · rename_i hg'
      exact hf'.trans hg'.symm
    · rename_i hg'
      exact absurd h.symm (hw (hg.resolve_left hg'))
  · rename_i hf'
    split at h
    · exact absurd h (hw (hf.resolve_left hf'))
    · exact h

theorem not_mem_symbol {f : Func} (hf : f.name = "" ∨ IsWord f.name) {c : Char}
    (hc : c.isAlphanum = false) (hc' : c ≠ '_') : c ∉ f.symbol.toList := by
  unfold Func.symbol
  split
  · intro h
    have hall : "__anon_expr".toList.all (fun d => d.isAlphanum || d == '_') = true := by rfl
    have hor := List.all_eq_true.1 hall c h
    simp [hc, hc'] at hor
  · rename_i hn
    exact not_mem_of_forall (hf.resolve_left hn).isAlphanum hc

section Inst

variable {inst inst' : Inst} {i j : Nat} {text : String}

def opcode : Inst → String
  | .arith op _ _ => op.mnemonic
  | .lessThan _ _ => "fcmp"
  | .widen _ => "uitofp"
  | .call _ _ => "call"
  | .ret _ => "ret"
  | .nop => ""

def detail (p : Program) (f : Func) : Inst → String
  | .arith _ left right => "double " ++ operandText f left ++ ", " ++ operandText f right
  | .lessThan left right => "ult double " ++ operandText f left ++ ", " ++ operandText f right
  | .widen flag => "i1 " ++ operandText f flag ++ " to double"
  | .call callee args =>
    "double @" ++ p.calleeText callee ++ "(" ++
      String.intercalate ", " (args.map fun a => "double " ++ operandText f a) ++ ")"
  | .ret value => "double " ++ operandText f value
  | .nop => ""

theorem not_mem_opcode (inst : Inst) {c : Char} (hc : c.isAlphanum = false) :
    c ∉ (opcode inst).toList := by
  refine not_mem_of_forall ?_ hc
  cases inst with
  | arith op l r => cases op <;> simp [opcode, ArithOp.mnemonic]
  | _ => simp [opcode]

theorem pair_inj {k : String} {l r l' r' : Operand} (hl : l.Legible f.params)
    (hr : r.Legible f.params) (hl' : l'.Legible f.params) (hr' : r'.Legible f.params)
    (h : k ++ operandText f l ++ ", " ++ operandText f r =
      k ++ operandText f l' ++ ", " ++ operandText f r') : l = l' ∧ r = r' := by
  have hcs := congrArg String.toList h
  simp only [String.toList_append, List.append_assoc, List.append_cancel_left_eq,
    show ", ".toList = [',', ' '] from rfl, List.cons_append, List.nil_append] at hcs
  obtain ⟨rfl, hrest⟩ := operandText_append_inj (c := ',') rfl hl hl' hcs
  exact ⟨rfl, operandText_inj hr hr' (String.toList_inj.1 (List.cons.inj hrest).2)⟩

def argText (f : Func) (a : Operand) : String :=
  "double " ++ operandText f a

theorem argText_inj {a a' : Operand} (ha : a.Legible f.params) (ha' : a'.Legible f.params)
    (h : argText f a = argText f a') : a = a' := by
  have hcs := congrArg String.toList h
  simp only [argText, String.toList_append, List.append_cancel_left_eq] at hcs
  exact operandText_inj ha ha' (String.toList_inj.1 hcs)

theorem not_mem_argText {a : Operand} (ha : a.Legible f.params) :
    ',' ∉ (argText f a).toList ∧ (argText f a).toList ≠ [] := by
  rw [argText, String.toList_append]
  refine ⟨?_, by simp⟩
  rw [List.mem_append, not_or]
  exact ⟨by decide, not_mem_of_forall (isOperandChar_of_mem ha) rfl⟩

theorem args_inj {args args' : List Operand} (h₁ : ∀ a ∈ args, a.Legible f.params)
    (h₂ : ∀ a ∈ args', a.Legible f.params)
    (h : String.intercalate ", " (args.map (argText f)) =
      String.intercalate ", " (args'.map (argText f))) :
    args = args' := by
  have hcs := congrArg String.toList h
  rw [String.toList_intercalate, String.toList_intercalate, List.map_map, List.map_map] at hcs
  have hmap := intercalate_inj (List.forall_mem_map.2 fun a ha => not_mem_argText (h₁ a ha))
    (List.forall_mem_map.2 fun a ha => not_mem_argText (h₂ a ha)) hcs
  exact map_inj_of_mem (fun a ha b hb hab =>
    argText_inj (h₁ a ha) (h₂ b hb) (String.toList_inj.1 hab)) hmap

theorem mnemonic_inj {op op' : ArithOp} (h : op.mnemonic = op'.mnemonic) : op = op' := by
  revert h
  cases op <;> cases op' <;> decide

/-- The instructions are the same but for what they read and call. -/
inductive Akin : Inst → Inst → Prop
  | arith {op : ArithOp} {l r l' r' : Operand} : Akin (.arith op l r) (.arith op l' r')
  | lessThan {l r l' r' : Operand} : Akin (.lessThan l r) (.lessThan l' r')
  | widen {flag flag' : Operand} : Akin (.widen flag) (.widen flag')
  | call {id id' : FuncId} {args args' : List Operand} : Akin (.call id args) (.call id' args')
  | ret {value value' : Operand} : Akin (.ret value) (.ret value')
  | nop : Akin .nop .nop

theorem opcode_ne_mnemonic (hn : ∀ op l r, inst ≠ .arith op l r) (op : ArithOp) :
    opcode inst ≠ op.mnemonic := by
  cases inst with
  | arith op' l r => exact absurd rfl (hn op' l r)
  | _ => cases op <;> simp [opcode, ArithOp.mnemonic]

theorem akin_of_opcode_eq (h : opcode inst = opcode inst') : Akin inst inst' := by
  cases inst with
  | arith op l r =>
    cases inst' with
    | arith op' l' r' =>
      obtain rfl := mnemonic_inj h
      exact .arith
    | _ => exact absurd h.symm (opcode_ne_mnemonic (by simp) op)
  | _ =>
    cases inst' with
    | arith op l r => exact absurd h (opcode_ne_mnemonic (by simp) op)
    | _ => first | constructor | exact absurd h (by simp [opcode])

theorem callee_inj (hp : p.WellNamed) {id id' : FuncId} {g g' : Func} (hg : p.func? id = some g)
    (hg' : p.func? id' = some g') {s t : List Char}
    (h : (p.calleeText id).toList ++ '(' :: s = (p.calleeText id').toList ++ '(' :: t) :
    id = id' ∧ s = t := by
  have hn := hp.name id g hg
  have hn' := hp.name id' g' hg'
  have hc : p.calleeText id = g.symbol := by rw [calleeText, hg]; rfl
  have hc' : p.calleeText id' = g'.symbol := by rw [calleeText, hg']; rfl
  rw [hc, hc'] at h
  obtain ⟨h, hst⟩ := append_cons_inj (not_mem_symbol hn rfl (by decide))
    (not_mem_symbol hn' rfl (by decide)) h
  exact ⟨hp.unique id id' g g' hg hg' (symbol_inj hn hn' (String.toList_inj.1 h)), hst⟩

/-- Of two instructions that begin with the same word, what comes after it tells which is which. -/
theorem detail_inj (hp : p.WellNamed) (h₁ : inst.Legible p f.params)
    (h₂ : inst'.Legible p f.params) (ho : opcode inst = opcode inst')
    (h : p.detail f inst = p.detail f inst') : inst = inst' := by
  have hl₁ := h₁.operands
  have hl₂ := h₂.operands
  cases akin_of_opcode_eq ho with
  | arith =>
    simp only [Inst.operands, List.forall_mem_cons] at hl₁ hl₂
    obtain ⟨rfl, rfl⟩ := pair_inj hl₁.1 hl₁.2.1 hl₂.1 hl₂.2.1 h
    rfl
  | lessThan =>
    simp only [Inst.operands, List.forall_mem_cons] at hl₁ hl₂
    obtain ⟨rfl, rfl⟩ := pair_inj hl₁.1 hl₁.2.1 hl₂.1 hl₂.2.1 h
    rfl
  | widen =>
    simp only [Inst.operands, List.forall_mem_singleton] at hl₁ hl₂
    have hcs := congrArg String.toList h
    simp only [detail, String.toList_append, List.append_assoc, List.append_cancel_left_eq,
      List.append_cancel_right_eq] at hcs
    rw [operandText_inj hl₁ hl₂ (String.toList_inj.1 hcs)]
  | @call id id' args args' =>
    obtain ⟨g, hg⟩ := h₁.callee id args rfl
    obtain ⟨g', hg'⟩ := h₂.callee id' args' rfl
    have hcs := congrArg String.toList h
    simp only [detail, String.toList_append, List.append_assoc, List.append_cancel_left_eq,
      show "(".toList = ['('] from rfl, List.cons_append, List.nil_append] at hcs
    obtain ⟨rfl, hargs⟩ := callee_inj hp hg hg' hcs
    rw [List.append_cancel_right_eq] at hargs
    obtain rfl := args_inj hl₁ hl₂ (String.toList_inj.1 hargs)
    rfl
  | ret =>
    simp only [Inst.operands, List.forall_mem_singleton] at hl₁ hl₂
    rw [argText_inj hl₁ hl₂ h]
  | nop => rfl

theorem toList_of_instText? (hc : inst.Continues) (ht : p.instText? f i inst = some text) :
    text.toList = '%' :: 't' :: ((toString i).toList ++
      ' ' :: '=' :: ' ' :: ((opcode inst).toList ++ ' ' :: (p.detail f inst).toList)) := by
  cases inst with
  | ret value => exact absurd rfl (hc value)
  | nop => contradiction
  | _ =>
    cases ht
    simp [opcode, detail]

theorem instText?_inj (hp : p.WellNamed) (h₁ : inst.Legible p f.params)
    (h₂ : inst'.Legible p f.params) (ht : p.instText? f i inst = some text)
    (ht' : p.instText? f j inst' = some text) : inst = inst' ∧ (inst.Continues → i = j) := by
  rcases Block.continues_or_ret inst with hc | ⟨value, rfl⟩
  · rcases Block.continues_or_ret inst' with hc' | ⟨value', rfl⟩
    · have hcs := (toList_of_instText? hc ht).symm.trans (toList_of_instText? hc' ht')
      have hnumber : ∀ n : Nat, ' ' ∉ (toString n).toList := fun n =>
        not_mem_of_forall isAlphanum_of_mem_toString rfl
      obtain ⟨hi, hrest⟩ := append_cons_inj (hnumber i) (hnumber j)
        (List.cons.inj (List.cons.inj hcs).2).2
      obtain ⟨ho, hd⟩ := append_cons_inj (not_mem_opcode inst rfl) (not_mem_opcode inst' rfl)
        (List.cons.inj (List.cons.inj hrest).2).2
      exact ⟨detail_inj hp h₁ h₂ (String.toList_inj.1 ho) (String.toList_inj.1 hd),
        fun _ => toString_inj (String.toList_inj.1 hi)⟩
    · cases ht'
      have hcs := toList_of_instText? hc ht
      rw [String.toList_append] at hcs
      exact absurd (List.cons.inj hcs).1 (by decide)
  · rcases Block.continues_or_ret inst' with hc' | ⟨value', rfl⟩
    · cases ht
      have hcs := toList_of_instText? hc' ht'
      rw [String.toList_append] at hcs
      exact absurd (List.cons.inj hcs).1 (by decide)
    · cases ht
      have hv := h₁.operands value (List.mem_singleton.2 rfl)
      have hv' := h₂.operands value' (List.mem_singleton.2 rfl)
      have hcs := congrArg String.toList (Option.some.inj ht')
      rw [String.toList_append, String.toList_append, List.append_cancel_left_eq] at hcs
      rw [operandText_inj hv hv' (String.toList_inj.1 hcs.symm)]
      exact ⟨rfl, fun hc => absurd rfl (hc value')⟩

theorem newline_not_mem_detail (hp : p.WellNamed) (h : inst.Legible p f.params) :
    '\n' ∉ (p.detail f inst).toList := by
  have ho : ∀ o ∈ inst.operands, '\n' ∉ (operandText f o).toList :=
    fun o hm => not_mem_of_forall (isOperandChar_of_mem (h.operands o hm)) rfl
  cases inst with
  | call id args =>
    obtain ⟨g, hg⟩ := h.callee id args rfl
    have hs : '\n' ∉ g.symbol.toList := not_mem_symbol (hp.name id g hg) rfl (by decide)
    have ha : '\n' ∉ [',', ' '].intercalate
        ((args.map fun a => "double " ++ operandText f a).map String.toList) := by
      refine not_mem_intercalate (by decide) ?_
      simpa [Inst.operands] using ho
    simpa [detail, calleeText, hg, hs] using ha
  | nop => simp [detail]
  | _ => simpa [detail, Inst.operands] using ho

theorem newline_not_mem_of_instText? (hp : p.WellNamed) (h : inst.Legible p f.params)
    (ht : p.instText? f i inst = some text) : '\n' ∉ text.toList := by
  rcases Block.continues_or_ret inst with hc | ⟨value, rfl⟩
  · have hn : '\n' ∉ (toString i).toList := not_mem_of_forall isAlphanum_of_mem_toString rfl
    have ho : '\n' ∉ (opcode inst).toList := not_mem_opcode inst rfl
    have hd := newline_not_mem_detail hp h
    rw [toList_of_instText? hc ht]
    simp only [List.mem_cons, List.mem_append, hn, ho, hd]
    decide
  · cases ht
    have hv := h.operands value (List.mem_singleton.2 rfl)
    rw [String.toList_append, List.mem_append, not_or]
    exact ⟨by decide, not_mem_of_forall (isOperandChar_of_mem hv) rfl⟩

end Inst

section Body

variable {b b' : Block}

def entryText (p : Program) (f : Func) (entry : Option Nat × Inst) : String :=
  (p.instText? f (entry.1.getD 0) entry.2).getD ""

theorem bodyLines_eq (i : Nat) (b : Block) :
    p.bodyLines f i b = (b.listed i).map fun entry => "  " ++ p.entryText f entry ++ "\n" := by
  induction b generalizing i with
  | nil => rfl
  | cons inst rest ih =>
    cases inst <;> simp [bodyLines, Block.listed, ih, entryText, instText?]

theorem exists_instText? {n : Option Nat} {inst : Inst} (hn : inst ≠ .nop) :
    p.instText? f (n.getD 0) inst = some (p.entryText f (n, inst)) := by
  cases inst with
  | nop => contradiction
  | _ => rfl

/-- The text of what is listed determines it. -/
theorem entryText_inj (hp : p.WellNamed) (h₁ : ∀ inst ∈ b, inst.Legible p f.params)
    (h₂ : ∀ inst ∈ b', inst.Legible p f.params) {i j : Nat} {x y : Option Nat × Inst}
    (hx : x ∈ b.listed i) (hy : y ∈ b'.listed j) (h : p.entryText f x = p.entryText f y) :
    x = y := by
  obtain ⟨m, inst⟩ := x
  obtain ⟨n, inst'⟩ := y
  obtain ⟨hm, hinst, hc⟩ := Block.of_mem_listed hx
  obtain ⟨hm', hinst', hc'⟩ := Block.of_mem_listed hy
  have hy := exists_instText? (p := p) (f := f) (n := n) hinst'
  rw [← h] at hy
  obtain ⟨rfl, hnumber⟩ :=
    instText?_inj hp (h₁ inst hm) (h₂ inst' hm') (exists_instText? (n := m) hinst) hy
  cases m with
  | none =>
    cases n with
    | none => rfl
    | some n => exact absurd rfl (hc.1 (hc'.2 nofun))
  | some m =>
    cases n with
    | none => exact absurd rfl (hc'.1 (hc.2 nofun))
    | some n => rw [show m = n from hnumber (hc.2 nofun)]

theorem listed_eq_of_join_eq (hp : p.WellNamed) (h₁ : ∀ inst ∈ b, inst.Legible p f.params)
    (h₂ : ∀ inst ∈ b', inst.Legible p f.params)
    (h : String.join (p.bodyLines f 0 b) = String.join (p.bodyLines f 0 b')) :
    b.listed 0 = b'.listed 0 := by
  have hlines (b : Block) : (String.join (p.bodyLines f 0 b)).toList =
      ((b.listed 0).map fun x => ("  " ++ p.entryText f x).toList).flatMap (· ++ ['\n']) := by
    rw [bodyLines_eq, String.toList_join, List.flatMap_map, List.flatMap_map]
    simp only [String.toList_append, show "\n".toList = ['\n'] from rfl]
  have hnewline {b : Block} (hb : ∀ inst ∈ b, inst.Legible p f.params) :
      ∀ line ∈ (b.listed 0).map fun x => ("  " ++ p.entryText f x).toList, '\n' ∉ line := by
    refine List.forall_mem_map.2 ?_
    rintro ⟨n, inst⟩ hx
    obtain ⟨hm, hinst, -⟩ := Block.of_mem_listed hx
    have ht := newline_not_mem_of_instText? hp (hb inst hm) (exists_instText? (n := n) hinst)
    rw [String.toList_append, List.mem_append, not_or]
    exact ⟨by decide, ht⟩
  have hcs := congrArg String.toList h
  rw [hlines b, hlines b'] at hcs
  have hmap := flatMap_line_inj (hnewline h₁) (hnewline h₂) hcs
  refine map_inj_of_mem (fun x hx y hy hxy => ?_) hmap
  rw [String.toList_append, String.toList_append, List.append_cancel_left_eq] at hxy
  exact entryText_inj hp h₁ h₂ hx hy (String.toList_inj.1 hxy)

end Body

section Function

variable {q : Program} {f' : Func}

theorem operandText_congr (h : f'.params = f.params) : operandText f' = operandText f := by
  funext o
  cases o <;> simp [operandText, h]

theorem bodyLines_congr (hc : ∀ id, q.calleeText id = p.calleeText id)
    (h : f'.params = f.params) (i : Nat) (b : Block) :
    q.bodyLines f' i b = p.bodyLines f i b := by
  have ho := operandText_congr h
  induction b generalizing i with
  | nil => rfl
  | cons inst rest ih =>
    cases inst <;> simp [bodyLines, instText?, ih, ho, hc]

/-- The listings of two functions that are called alike determine what is listed of their bodies. -/
theorem listed_eq_of_funcText_eq {name : String} {params : List String} {b b' : Block}
    (hp : p.WellNamed) (hc : ∀ id, q.calleeText id = p.calleeText id)
    (h₁ : ∀ inst ∈ b, inst.Legible p params) (h₂ : ∀ inst ∈ b', inst.Legible p params)
    (h : p.funcText ⟨name, params, some b⟩ = q.funcText ⟨name, params, some b'⟩) :
    b.listed 0 = b'.listed 0 := by
  have hlines : q.bodyLines ⟨name, params, some b'⟩ 0 b' =
      p.bodyLines ⟨name, params, some b⟩ 0 b' := bodyLines_congr hc (by rfl) 0 b'
  have hhead : headText ⟨name, params, some b'⟩ = headText ⟨name, params, some b⟩ := rfl
  refine listed_eq_of_join_eq (f := ⟨name, params, some b⟩) hp h₁ h₂ ?_
  unfold funcText at h
  simp only [hhead, hlines] at h
  have hcs := congrArg String.toList h
  simp only [String.toList_append, List.append_cancel_left_eq, List.append_cancel_right_eq] at hcs
  exact String.toList_inj.1 hcs

end Function

end Program

end Reckoner
