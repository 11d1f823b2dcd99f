import Reckoner.Proofs.Compiler.Outcome

/-!
# What defining and declaring do

`Compiler.Defined` lists the ways in which a definition can end in a consistent program, and what
the program is like afterwards, as others see it: the name is taken, the body has a fault and all is
as before, or the body is in its place.  That a body which could be lowered is rejected is not among
them.  Every other fact about such definitions is read off this list, the first being that programs
stay consistent.
-/

namespace Reckoner

namespace Compiler

variable {c : Compiler} {d : Definition} {id : FuncId}

/-- The ways in which a definition can end, with the program that it leaves. -/
inductive Defined (c : Compiler) (d : Definition) : Except CompileError FuncId → Program → Prop
  | redefinition {id : FuncId} (hl : c.program.lookup d.proto.name = some id)
    (hb : c.program.hasBody id = true) :
    Defined c d (.error (.redefinition d.proto.name)) c.program
  | faulty {id : FuncId} {params : List String} {p q : Program} {e : CompileError}
    (ht : c.program.Target d.proto id params p)
    (he : d.body.lower p (Scope.ofParams params) 0 = .error e) (ha : q.Agrees c.program)
    (hi : q.Idle) (hn : q.slots.size = p.slots.size) : Defined c d (.error e) q
  | placed {id : FuncId} {params : List String} {p q : Program} {code : Code}
    (ht : c.program.Target d.proto id params p)
    (hc : d.body.lower p (Scope.ofParams params) 0 = .ok code)
    (hs : c.program.Sets id
      ⟨d.proto.name, params, some (c.tidied (code.insts ++ [.ret code.value]))⟩ q)
    (hi : q.Idle) (hn : q.slots.size = p.slots.size) : Defined c d (.ok id) q

theorem sets_setBody {p q : Program} {name : String} {params : List String} (b : Block)
    (hs : p.Sets id ⟨name, params, none⟩ q) :
    p.Sets id ⟨name, params, some b⟩ (q.setBody id (some b)) := by
  refine ⟨hs.room, hs.params, fun i => ?_, hs.lookup⟩
  rw [Program.func?_setBody, hs.func?]
  by_cases hi : i = id
  · rw [if_pos hi, if_pos hi, if_pos hi]
    rfl
  · rw [if_neg hi, if_neg hi, if_neg hi]

theorem cleaning_build (c : Compiler) (id : FuncId) (d : Definition) (reused : Bool) :
    (c.build id d reused).compiler.cleaning = c.cleaning := by
  unfold build abandon accept
  simp only
  split
  · cases reused <;> rfl
  · split
    · rw [Compiled.compiler_after]
      split <;> rfl
    · cases reused <;> rfl

theorem cleaning_define (c : Compiler) (d : Definition) :
    (c.define d).compiler.cleaning = c.cleaning := by
  unfold define
  split
  · split
    · rfl
    · exact cleaning_build _ _ _ _
  · exact cleaning_build _ _ _ _

theorem define_defined (h : c.program.Consistent) (d : Definition) :
    Defined c d (c.define d).outcome (c.define d).compiler.program ∧
      (c.define d).compiler.cleaning = c.cleaning := by
  refine ⟨?_, cleaning_define c d⟩
  have hd := define_ends h.named d
  generalize (c.define d).outcome = o, (c.define d).compiler.program = q at hd ⊢
  cases hd with
  | taken hl hb => exact .redefinition hl hb
  | withdrawn ht he =>
    exact .faulty ht he ⟨Program.func?_withdrawn _ _, Program.lookup_withdrawn _ _⟩
      (Program.idle_withdrawn _ _) ht.size_withdrawn
  | @placed id params p code ht hc =>
    have hi := (ht.consistent h).idle
    rw [install_eq_of_idle hi]
    exact .placed ht hc (sets_setBody _ (ht.sets h)) hi (Program.size_setBody _ _ _)

section Inversion

variable {params : List String} {o : Except CompileError FuncId} {p q : Program}

theorem Defined.of_hasBody (hd : Defined c d o q) (hl : c.program.lookup d.proto.name = some id)
    (hb : c.program.hasBody id = true) :
    o = .error (.redefinition d.proto.name) ∧ q = c.program := by
  cases hd with
  | redefinition => exact ⟨rfl, rfl⟩
  | faulty ht =>
    rw [ht.hasBody_eq_false hl] at hb
    contradiction
  | placed ht =>
    rw [ht.hasBody_eq_false hl] at hb
    contradiction

theorem Defined.of_fault (hd : Defined c d o q) (ht : c.program.Target d.proto id params p)
    {e : CompileError} (he : d.body.lower p (Scope.ofParams params) 0 = .error e) :
    o = .error e ∧ q.Agrees c.program ∧ q.slots.size = p.slots.size := by
  cases hd with
  | redefinition hl hb =>
    rw [ht.hasBody_eq_false hl] at hb
    contradiction
  | faulty ht' he' ha hi hn =>
    obtain ⟨rfl, rfl, rfl⟩ := ht.unique ht'
    cases he.symm.trans he'
    exact ⟨rfl, ha, hn⟩
  | placed ht' hc =>
    obtain ⟨rfl, rfl, rfl⟩ := ht.unique ht'
    cases he.symm.trans hc

theorem Defined.of_code (hd : Defined c d o q) (ht : c.program.Target d.proto id params p)
    {code : Code} (hc : d.body.lower p (Scope.ofParams params) 0 = .ok code) :
    o = .ok id ∧ c.program.Sets id
      ⟨d.proto.name, params, some (c.tidied (code.insts ++ [.ret code.value]))⟩ q ∧
      q.slots.size = p.slots.size := by
  cases hd with
  | redefinition hl hb =>
    rw [ht.hasBody_eq_false hl] at hb
    contradiction
  | faulty ht' he =>
    obtain ⟨rfl, rfl, rfl⟩ := ht.unique ht'
    cases hc.symm.trans he
  | placed ht' hc' hs hi hn =>
    obtain ⟨rfl, rfl, rfl⟩ := ht.unique ht'
    cases hc.symm.trans hc'
    exact ⟨rfl, hs, hn⟩

end Inversion

theorem Defined.consistent (h : c.program.Consistent) {o : Except CompileError FuncId}
    {q : Program} (hd : Defined c d o q) : q.Consistent := by
  cases hd with
  | redefinition => exact h
  | faulty ht he ha hi => exact h.of_agrees ha hi
  | @placed id params p q code ht hc hs hi =>
    refine hs.consistent h hi fun b hb => ?_
    cases hb
    have hp := ht.consistent h
    have ha := Expr.accepts_of_lower hp.namesLive (Scope.within_ofParams params) hc
    refine (accepts_tidied ha).of_extends fun i f hf => ?_
    rw [(ht.sets h).func?] at hf
    rw [hs.func?]
    split at hf
    · rename_i hi
      cases hf
      exact ⟨_, if_pos hi, rfl, rfl⟩
    · rename_i hi
      exact ⟨f, by rw [if_neg hi, hf], rfl, rfl⟩

theorem Defined.lookup_eq {o : Except CompileError FuncId} {q : Program} (hd : Defined c d o q)
    {name : String} (hn : name ≠ d.proto.name) : q.lookup name = c.program.lookup name := by
  cases hd with
  | redefinition => rfl
  | faulty ht he ha => exact ha.lookup name
  | placed ht hc hs =>
    rw [hs.lookup]
    exact if_neg hn

theorem Defined.agrees_of_error {e : CompileError} {q : Program}
    (hd : Defined c d (.error e) q) : q.Agrees c.program := by
  cases hd with
  | redefinition => exact .refl _
  | faulty ht he ha => exact ha

theorem Defined.agrees_remove {q : Program} (hd : Defined c d (.ok id) q)
    (hl : c.program.lookup d.proto.name = none) : (q.remove id).Agrees c.program := by
  cases hd with
  | placed ht hc hs => exact hs.agrees_remove hl

theorem Defined.exists_func? {q : Program} (hd : Defined c d (.ok id) q) :
    ∃ f, q.func? id = some f := by
  cases hd with
  | @placed id params p q code ht hc hs hi =>
    have hf := hs.func? id
    rw [if_pos rfl] at hf
    exact ⟨_, hf⟩

inductive Declared (c : Compiler) (proto : Prototype) : Except CompileError FuncId → Program → Prop
  | kept {id : FuncId} (hl : c.program.lookup proto.name = some id)
    (ha : c.program.arity id = proto.params.length) : Declared c proto (.ok id) c.program
  | refused {id : FuncId} (hl : c.program.lookup proto.name = some id)
    (ha : c.program.arity id ≠ proto.params.length) :
    Declared c proto (.error (.redefinition proto.name)) c.program
  | added (hl : c.program.lookup proto.name = none) :
    Declared c proto (.ok ⟨c.program.slots.size⟩)
      (c.program.declare proto.name proto.params).2

theorem declare_declared (c : Compiler) (proto : Prototype) :
    Declared c proto (c.declare proto).outcome (c.declare proto).compiler.program ∧
      (c.declare proto).compiler.cleaning = c.cleaning := by
  unfold declare
  cases hl : c.program.lookup proto.name with
  | none => exact ⟨.added hl, rfl⟩
  | some id =>
    simp only
    by_cases ha : c.program.arity id = proto.params.length
    · rw [if_pos ha]
      exact ⟨.kept hl ha, rfl⟩
    · rw [if_neg ha]
      exact ⟨.refused hl ha, rfl⟩

section Inversion

variable {proto : Prototype} {o : Except CompileError FuncId} {q : Program}

theorem Declared.of_lookup (hd : Declared c proto o q)
    (hl : c.program.lookup proto.name = some id) :
    q = c.program ∧ o =
      if c.program.arity id = proto.params.length then .ok id
      else .error (.redefinition proto.name) := by
  cases hd with
  | kept hl' ha =>
    cases hl.symm.trans hl'
    exact ⟨rfl, (if_pos ha).symm⟩
  | refused hl' ha =>
    cases hl.symm.trans hl'
    exact ⟨rfl, (if_neg ha).symm⟩
  | added hl' => cases hl.symm.trans hl'

theorem Declared.of_lookup_none (hd : Declared c proto o q)
    (hl : c.program.lookup proto.name = none) :
    q = (c.program.declare proto.name proto.params).2 ∧ o = .ok ⟨c.program.slots.size⟩ := by
  cases hd with
  | kept hl' => cases hl.symm.trans hl'
  | refused hl' => cases hl.symm.trans hl'
  | added => exact ⟨rfl, rfl⟩

end Inversion

theorem Declared.lookup_eq {proto : Prototype} {o : Except CompileError FuncId} {q : Program}
    (hd : Declared c proto o q) {name : String} (hn : name ≠ proto.name) :
    q.lookup name = c.program.lookup name := by
  cases hd with
  | kept => rfl
  | refused => rfl
  | added =>
    rw [Program.lookup_declare]
    exact if_neg hn

theorem Declared.consistent (h : c.program.Consistent) {proto : Prototype}
    {o : Except CompileError FuncId} {q : Program} (hd : Declared c proto o q) :
    q.Consistent := by
  cases hd with
  | kept => exact h
  | refused => exact h
  | added hl => exact (Program.Target.fresh hl).consistent h

theorem Declared.agrees_of_error {proto : Prototype} {e : CompileError} {q : Program}
    (hd : Declared c proto (.error e) q) : q.Agrees c.program := by
  cases hd with
  | refused => exact .refl _

theorem Declared.exists_func? (h : c.program.Consistent) {proto : Prototype} {q : Program}
    (hd : Declared c proto (.ok id) q) : ∃ f, q.func? id = some f := by
  cases hd with
  | kept hl => exact h.namesLive _ _ hl
  | added => exact ⟨_, by rw [Program.func?_declare, if_pos rfl]⟩

end Compiler

end Reckoner
