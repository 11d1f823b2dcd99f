import Reckoner.Proofs.Compiler.Definition
import Reckoner.Proofs.Lowering.Operands
import Reckoner.Proofs.Program.Lines

/-!
# Listings of definitions

Of two definitions under the same prototype that a compiler accepts, the listings are equal only if
the bodies are equal but for removed instructions, and then the programs they lead to do the same
(`listsFaithfully_of_target`).  This holds as long as no parameter of the function is
named like a temporary.
-/

namespace Reckoner

namespace Program

variable {p q q' : Program} {id : FuncId} {params : List String}

def Worded (p : Program) : Prop :=
  ∀ id f, p.func? id = some f → IsWord f.name ∧ ∀ x ∈ f.params, IsWord x

theorem legible_of_accepts {arity : Nat} {kinds : Array ResultKind} {b : Block}
    (hb : p.Accepts arity kinds b) (ho : ∀ inst ∈ b, ∀ o ∈ inst.operands, o.Legible params) :
    ∀ inst ∈ b, inst.Legible p params := by
  induction hb with
  | ret h =>
    refine List.forall_mem_singleton.2 ⟨ho _ List.mem_cons_self, ?_⟩
    rintro id args ⟨⟩
  | cons hg _ ih =>
    obtain ⟨hi, hrest⟩ := List.forall_mem_cons.1 ho
    refine List.forall_mem_cons.2 ⟨⟨hi, ?_⟩, ih hrest⟩
    rintro id args rfl
    cases hg with
    | call hf => exact ⟨_, hf⟩

/-- Names of parameters stand for legible operands, if they are words and none is a temporary's. -/
theorem operands_ofParams (hw : ∀ x ∈ params, IsWord x) (ht : ∀ x ∈ params, ¬IsTempName x) :
    (Scope.ofParams params).Operands (Operand.Legible params) where
  const _ := trivial
  temp _ := trivial
  param name o h := by
    obtain ⟨i, rfl, hi, hlast⟩ := Scope.last_of_lookup h
    have hm := List.mem_of_getElem? hi
    exact ⟨name, hi, hw name hm, ht name hm, hlast⟩

section Sets

variable {name : String} {b b' : Block}

/-- Two programs that differ in the body of a function do the same if the bodies do. -/
theorem callWithin_eq_of_sets (h : p.Sets id ⟨name, params, some b⟩ q)
    (h' : p.Sets id ⟨name, params, some b'⟩ q')
    (hb : ∀ call args, Block.run call args #[] b = Block.run call args #[] b') (depth : Nat) :
    q.callWithin depth = q'.callWithin depth := by
  have henter (inner : Option Callee) : q.enter inner = q'.enter inner := by
    funext i args
    have hq := h.func? i
    have hq' := h'.func? i
    by_cases hi : i = id
    · rw [if_pos hi] at hq hq'
      cases inner with
      | none => rw [enter_none hq rfl, enter_none hq' rfl]
      | some call => rw [enter_some hq rfl, enter_some hq' rfl, hb]
    · rw [if_neg hi] at hq hq'
      unfold enter
      rw [hq, hq']
  induction depth with
  | zero => exact henter none
  | succ depth ih => rw [callWithin_succ, callWithin_succ, ih, henter]

theorem calleeText_eq_of_sets (h : p.Sets id ⟨name, params, some b⟩ q)
    (h' : p.Sets id ⟨name, params, some b'⟩ q') (i : FuncId) :
    q'.calleeText i = q.calleeText i := by
  unfold calleeText
  rw [h.func?, h'.func?]
  split <;> rfl

end Sets

end Program

namespace Compiler

open Program

variable {c : Compiler} {d d' : Definition} {id id' : FuncId}

/-- Of two accepted definitions under the prototype, equal listings mean that they define the same
function, with the same body but for removed instructions, and that all calls do the same
afterwards. -/
def ListsFaithfully (c : Compiler) (proto : Prototype) : Prop :=
  ∀ d d' id id', d.proto = proto → d'.proto = proto →
    (c.define d).outcome = .ok id → (c.define d').outcome = .ok id' →
    (c.define d).compiler.program.funcListing id = (c.define d').compiler.program.funcListing id' →
    id = id' ∧
      (∃ b b', (c.define d).compiler.program.body? id = some b ∧
        (c.define d').compiler.program.body? id' = some b' ∧
        b.filter (· ≠ .nop) = b'.filter (· ≠ .nop)) ∧
      ∀ depth, (c.define d).compiler.program.callWithin depth =
        (c.define d').compiler.program.callWithin depth

/-- What the definition has become: a function with a body in order that reads legible operands. -/
structure Written (c : Compiler) (proto : Prototype) (id : FuncId) (params : List String)
    (b : Block) (q : Program) : Prop where
  sets : c.program.Sets id ⟨proto.name, params, some b⟩ q
  consistent : q.Consistent
  wellNamed : q.WellNamed
  legible : ∀ inst ∈ b, inst.Legible q params

theorem Defined.exists_target {q : Program} (hd : Defined c d (.ok id) q) :
    ∃ p, c.program.Target d.proto id (q.params id) p := by
  cases hd with
  | placed ht hc hs =>
    rw [params_of_func? ((hs.func? _).trans (if_pos rfl))]
    exact ⟨_, ht⟩

theorem operands_tidied {P : Operand → Prop} (hc : ∀ value, P (.const value)) {b : Block}
    (h : ∀ inst ∈ b, ∀ o ∈ inst.operands, P o) :
    ∀ inst ∈ c.tidied b, ∀ o ∈ inst.operands, P o := by
  unfold tidied
  split
  · exact Block.operands_clean hc h
  · exact h

theorem wellNamed_of_sets {p q : Program} {name : String} {params : List String} {b : Block}
    (hp : p.Worded) (hn : name = "" ∨ IsWord name) (hs : p.Sets id ⟨name, params, some b⟩ q)
    (hq : q.Consistent) : q.WellNamed where
  name i f hf := by
    rw [hs.func?] at hf
    split at hf
    · cases hf
      exact hn
    · exact .inr (hp i f hf).1
  unique i i' f f' hf hf' hname := by
    have hl := (hq.lookup_iff f.name i).2 ⟨f, hf, rfl⟩
    have hl' := (hq.lookup_iff f.name i').2 ⟨f', hf', hname.symm⟩
    exact Option.some.inj (hl.symm.trans hl')

/-- An accepted definition is written legibly if no parameter is named like a temporary. -/
theorem Defined.exists_written (h : c.program.Consistent) (hw : c.program.Worded)
    (hn : d.proto.name = "" ∨ IsWord d.proto.name) {params : List String} {p q : Program}
    (ht : c.program.Target d.proto id params p) (hp : ∀ x ∈ params, IsWord x)
    (htemp : ∀ x ∈ params, ¬IsTempName x) {id' : FuncId} (hd : Defined c d (.ok id') q) :
    id = id' ∧ ∃ b, Written c d.proto id params b q := by
  have hq := hd.consistent h
  cases hd with
  | placed ht' hc hs =>
    obtain ⟨rfl, rfl, rfl⟩ := ht.unique ht'
    obtain ⟨hi, hv⟩ := Expr.operands_of_lower (operands_ofParams hp htemp) hc
    have hf := hs.func? id
    rw [if_pos rfl] at hf
    refine ⟨rfl, _, hs, hq, wellNamed_of_sets hw hn hs hq,
      legible_of_accepts (hq.accepts id _ _ hf rfl) ?_⟩
    refine operands_tidied (fun _ => trivial) (List.forall_mem_append.2 ⟨hi, ?_⟩)
    exact List.forall_mem_singleton.2 (List.forall_mem_singleton.2 hv)

/-- What is written of a function determines what it does. -/
theorem Written.eq_of_funcListing_eq {proto : Prototype} {params : List String} {b b' : Block}
    {q q' : Program} (h : Written c proto id params b q) (h' : Written c proto id params b' q')
    (hl : q.funcListing id = q'.funcListing id) :
    (∃ b b', q.body? id = some b ∧ q'.body? id = some b' ∧
      b.filter (· ≠ .nop) = b'.filter (· ≠ .nop)) ∧
      ∀ depth, q.callWithin depth = q'.callWithin depth := by
  have hf : q.func? id = some ⟨proto.name, params, some b⟩ := (h.sets.func? id).trans (if_pos rfl)
  have hf' : q'.func? id = some ⟨proto.name, params, some b'⟩ :=
    (h'.sets.func? id).trans (if_pos rfl)
  have ha := h.consistent.accepts id _ _ hf rfl
  have ha' := h'.consistent.accepts id _ _ hf' rfl
  have hcallee := calleeText_eq_of_sets h.sets h'.sets
  have hlegible : ∀ inst ∈ b', inst.Legible q params := fun inst hi =>
    ⟨(h'.legible inst hi).operands, fun i args hc => by
      obtain ⟨g, hg⟩ := (h'.legible inst hi).callee i args hc
      rw [h'.sets.func?] at hg
      rw [h.sets.func?]
      split
      · exact ⟨_, rfl⟩
      · rename_i hne
        exact ⟨g, by rw [← hg, if_neg hne]⟩⟩
  unfold funcListing at hl
  rw [hf, hf'] at hl
  have hlisted : b.listed 0 = b'.listed 0 :=
    listed_eq_of_funcText_eq h.wellNamed hcallee h.legible hlegible hl
  refine ⟨⟨b, b', body?_of_func? hf, body?_of_func? hf', ?_⟩, ?_⟩
  · rw [← Block.map_snd_listed 0 b, hlisted, Block.map_snd_listed]
  · exact callWithin_eq_of_sets h.sets h'.sets fun call args =>
      Block.run_eq_of_listed_eq ha ha' rfl rfl hlisted

/-- Listings are faithful to definitions under a prototype if no parameter of the function that it
belongs to is named like a temporary. -/
theorem listsFaithfully_of_target (h : c.program.Consistent) (hw : c.program.Worded)
    {proto : Prototype} (hn : proto.name = "" ∨ IsWord proto.name) {params : List String}
    {p : Program} (ht : c.program.Target proto id params p) (hp : ∀ x ∈ params, IsWord x)
    (htemp : ∀ x ∈ params, ¬IsTempName x) : c.ListsFaithfully proto := by
  rintro d d' i i' rfl hproto ho ho' hl
  have hd := (define_defined h d).1
  have hd' := (define_defined h d').1
  rw [ho] at hd
  rw [ho'] at hd'
  obtain ⟨rfl, b, hb⟩ := hd.exists_written h hw hn ht hp htemp
  rw [← hproto] at hn ht
  obtain ⟨rfl, b', hb'⟩ := hd'.exists_written h hw hn ht hp htemp
  rw [hproto] at hb'
  exact ⟨rfl, hb.eq_of_funcListing_eq hb' hl⟩

end Compiler

end Reckoner
