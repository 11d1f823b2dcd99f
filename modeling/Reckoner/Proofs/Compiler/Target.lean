import Reckoner.Compiler
import Reckoner.Proofs.Lowering.Relabel
import Reckoner.Proofs.Program.Invariant

/-!
# Where a definition is built

A definition is built in the function that its name was declared for, or else in a new one
(`Program.Target`).  There the code of the body is put in its place (`Program.commit`), and what is
kept of it in the end is `Compiler.tidied`.
-/

namespace Reckoner

namespace Program

variable {p q : Program} {id : FuncId} {g : Func}

/-- `q` is `p` with the function `g` under the number `id`, which belonged to the name already or
was free. -/
structure Sets (p : Program) (id : FuncId) (g : Func) (q : Program) : Prop where
  room : p.lookup g.name = some id ∨ (p.lookup g.name = none ∧ p.func? id = none)
  params : ∀ f, p.func? id = some f → f.params = g.params
  func? : ∀ i, q.func? i = if i = id then some g else p.func? i
  lookup : ∀ m, q.lookup m = if m = g.name then some id else p.lookup m

theorem Sets.lookup_iff (hp : p.Consistent) (h : p.Sets id g q) (name : String) (i : FuncId) :
    q.lookup name = some i ↔ ∃ f, q.func? i = some f ∧ f.name = name := by
  rw [h.lookup, h.func?]
  by_cases hi : i = id
  · subst hi
    by_cases hn : name = g.name
    · subst hn
      simp
    · rw [if_pos rfl, if_neg hn]
      constructor
      · intro hl
        obtain ⟨f, hf, hfn⟩ := (hp.lookup_iff name i).1 hl
        rcases h.room with hr | ⟨-, hr⟩
        · obtain ⟨f', hf', hfn'⟩ := (hp.lookup_iff g.name i).1 hr
          cases hf.symm.trans hf'
          exact absurd (hfn.symm.trans hfn') hn
        · cases hf.symm.trans hr
      · rintro ⟨f, hf, hfn⟩
        cases hf
        exact absurd hfn.symm hn
  · by_cases hn : name = g.name
    · subst hn
      rw [if_pos rfl, if_neg hi]
      constructor
      · intro hl
        exact absurd (Option.some.inj hl).symm hi
      · rintro ⟨f, hf, hfn⟩
        have hl := (hp.lookup_iff g.name i).2 ⟨f, hf, hfn⟩
        rcases h.room with hr | ⟨hr, -⟩
        · exact absurd (Option.some.inj (hl.symm.trans hr)) hi
        · cases hl.symm.trans hr
    · rw [if_neg hi, if_neg hn]
      exact hp.lookup_iff name i

theorem Sets.extends (hp : p.Consistent) (h : p.Sets id g q) : q.Extends p := by
  intro i f hf
  rw [h.func?]
  by_cases hi : i = id
  · subst hi
    refine ⟨g, if_pos rfl, ?_, (h.params f hf).symm⟩
    rcases h.room with hr | ⟨-, hr⟩
    · obtain ⟨f', hf', hfn'⟩ := (hp.lookup_iff g.name i).1 hr
      cases hf.symm.trans hf'
      exact hfn'.symm
    · cases hf.symm.trans hr
  · exact ⟨f, by rw [if_neg hi, hf], rfl, rfl⟩

theorem Sets.consistent (hp : p.Consistent) (h : p.Sets id g q) (hi : q.Idle)
    (ha : ∀ b, g.body = some b → q.Accepts g.params.length #[] b) : q.Consistent where
  lookup_iff := h.lookup_iff hp
  idle := hi
  accepts i f b hf hb := by
    rw [h.func?] at hf
    split at hf
    · cases hf
      exact ha b hb
    · exact (hp.accepts i f b hf hb).of_extends (h.extends hp)

/-- A new function leaves no trace when it is removed. -/
theorem Sets.agrees_remove (h : p.Sets id g q) (hl : p.lookup g.name = none) :
    (q.remove id).Agrees p := by
  have hf : p.func? id = none := by
    rcases h.room with hr | ⟨-, hr⟩
    · cases hl.symm.trans hr
    · exact hr
  refine ⟨fun i => ?_, fun m => ?_⟩
  · rw [func?_remove, h.func?]
    by_cases hi : i = id
    · rw [if_pos hi, hi, hf]
    · rw [if_neg hi, if_neg hi]
  · rw [lookup_remove, h.lookup, h.func?, if_pos rfl]
    by_cases hm : m = g.name
    · rw [if_pos hm, if_pos ⟨rfl, by rw [hm]; rfl⟩, hm, hl]
    · rw [if_neg hm, if_neg]
      rintro ⟨-, hn⟩
      exact hm (Option.some.inj hn).symm

/-- The number and the parameters under which a definition is compiled, and the program in which
they are declared. -/
inductive Target (p : Program) (proto : Prototype) : FuncId → List String → Program → Prop
  | declared {id : FuncId} {f : Func} (hl : p.lookup proto.name = some id)
    (hf : p.func? id = some f) (hb : f.body = none) : Target p proto id f.params p
  | fresh (hl : p.lookup proto.name = none) :
    Target p proto ⟨p.slots.size⟩ proto.params (p.declare proto.name proto.params).2

theorem Target.sets (hp : p.Consistent) {proto : Prototype} {params : List String}
    (h : p.Target proto id params q) : p.Sets id ⟨proto.name, params, none⟩ q := by
  cases h with
  | @declared id f hl hf hb =>
    obtain ⟨f', hf', hfn⟩ := (hp.lookup_iff proto.name id).1 hl
    cases hf.symm.trans hf'
    refine ⟨.inl hl, fun g hg => ?_, fun i => ?_, fun m => ?_⟩
    · cases hf.symm.trans hg
      rfl
    · by_cases hi : i = id
      · rw [if_pos hi, hi, hf, ← hfn, ← hb]
      · rw [if_neg hi]
    · by_cases hm : m = proto.name
      · rw [if_pos hm, hm, hl]
      · rw [if_neg hm]
  | fresh hl =>
    have hf : p.func? ⟨p.slots.size⟩ = none := func?_of_size_le (Nat.le_refl _)
    exact ⟨.inr ⟨hl, hf⟩, fun f h => (nomatch hf.symm.trans h), func?_declare p _ _,
      lookup_declare p _ _⟩

theorem Target.consistent (hp : p.Consistent) {proto : Prototype} {params : List String}
    (h : p.Target proto id params q) : q.Consistent := by
  refine (h.sets hp).consistent hp ?_ nofun
  cases h with
  | declared => exact hp.idle
  | fresh => exact hp.idle

theorem Target.unique {proto : Prototype} {params : List String} {q' : Program} {id' : FuncId}
    {params' : List String} (h : p.Target proto id params q) (h' : p.Target proto id' params' q') :
    id = id' ∧ params = params' ∧ q = q' := by
  cases h with
  | declared hl hf hb =>
    cases h' with
    | declared hl' hf' hb' =>
      cases hl.symm.trans hl'
      cases hf.symm.trans hf'
      exact ⟨rfl, rfl, rfl⟩
    | fresh hl' => cases hl.symm.trans hl'
  | fresh hl =>
    cases h' with
    | declared hl' hf' hb' => cases hl.symm.trans hl'
    | fresh => exact ⟨rfl, rfl, rfl⟩

theorem Target.hasBody_eq_false {proto : Prototype} {params : List String}
    (h : p.Target proto id params q) {i : FuncId} (hl : p.lookup proto.name = some i) :
    p.hasBody i = false := by
  cases h with
  | declared hl' hf hb =>
    cases hl.symm.trans hl'
    rw [hasBody, body?_of_func? hf, hb]
    rfl
  | fresh hl' => cases hl.symm.trans hl'

def commit (p : Program) (id : FuncId) (code : Code) : Program :=
  (((p.begin id).append code.insts).finish code.value).2

@[simp]
theorem func?_commit (p : Program) (id : FuncId) (code : Code) (i : FuncId) :
    (p.commit id code).func? i =
      if i = id then (p.func? i).map ({ · with body := some (code.insts ++ [.ret code.value]) })
      else p.func? i :=
  func?_setBody { p with building := none, block := [] } id _ i

@[simp]
theorem lookup_commit (p : Program) (id : FuncId) (code : Code) (name : String) :
    (p.commit id code).lookup name = p.lookup name := rfl

theorem extends_commit (p : Program) (id : FuncId) (code : Code) :
    (p.commit id code).Extends p :=
  extends_setBody { p with building := none, block := [] } id _

theorem Idle.commit_eq (h : p.Idle) (id : FuncId) (code : Code) :
    p.commit id code = p.setBody id (some (code.insts ++ [.ret code.value])) :=
  congrArg Prod.snd (h.finish_begin id code.insts code.value)

theorem verify_commit (h : p.NamesLive) {f : Func} (hf : p.func? id = some f) {e : Expr}
    {code : Code} (hc : e.lower p (Scope.ofParams f.params) 0 = .ok code) :
    (p.commit id code).verify id = true := by
  have ha := Expr.accepts_of_lower h (Scope.within_ofParams f.params) hc
  refine verify_eq_true_iff.2 ⟨{ f with body := some (code.insts ++ [.ret code.value]) }, _, ?_,
    rfl, ha.of_extends (extends_commit p id code)⟩
  rw [func?_commit, if_pos rfl, hf]
  rfl

theorem lower_begin (p : Program) (id : FuncId) {scope : Scope} (e : Expr) :
    e.lower (p.begin id) scope 0 = e.lower p scope 0 :=
  Expr.lower_congr (fun name => lookup_begin p id name) (fun _ => rfl) 0 e

end Program

namespace Compiler

variable {c : Compiler} {d : Definition} {id : FuncId}

def tidied (c : Compiler) (b : Block) : Block :=
  if c.cleaning then b.clean else b

theorem run_tidied (call : Callee) (args : List Float) (b : Block) :
    Block.run call args #[] (c.tidied b) = Block.run call args #[] b := by
  unfold tidied
  split
  · exact Block.run_clean b
  · rfl

theorem accepts_tidied {p : Program} {arity : Nat} {b : Block} (h : p.Accepts arity #[] b) :
    p.Accepts arity #[] (c.tidied b) := by
  unfold tidied
  split
  · exact Block.accepts_clean h
  · exact h

def install (c : Compiler) (p : Program) (id : FuncId) (code : Code) : Program :=
  (p.commit id code).setBody id (some (c.tidied (code.insts ++ [.ret code.value])))

@[simp]
theorem func?_install (c : Compiler) (p : Program) (id : FuncId) (code : Code) (i : FuncId) :
    (c.install p id code).func? i =
      if i = id then
        (p.func? i).map ({ · with body := some (c.tidied (code.insts ++ [.ret code.value])) })
      else p.func? i := by
  rw [install, Program.func?_setBody, Program.func?_commit]
  split
  · cases p.func? i <;> rfl
  · rfl

theorem install_eq_of_idle {p : Program} (h : p.Idle) (id : FuncId) (code : Code) :
    c.install p id code = p.setBody id (some (c.tidied (code.insts ++ [.ret code.value]))) := by
  rw [install, h.commit_eq, Program.setBody_setBody]

theorem build_of_error (reused : Bool) {params : List String} {e : CompileError}
    (hp : c.program.params id = params)
    (he : d.body.lower c.program (Scope.ofParams params) 0 = .error e) :
    (c.build id d reused).outcome = .error e ∧
      (c.build id d reused).compiler.program =
        (if reused then (c.program.begin id).clear id else (c.program.begin id).remove id) := by
  have hb : d.body.lower (c.program.begin id) (Scope.ofParams params) 0 = .error e := by
    rw [← he]
    exact Program.lower_begin c.program id d.body
  unfold build abandon
  simp only [hp, hb]
  cases reused <;> exact ⟨rfl, rfl⟩

/-- A body that could be lowered is put in its place, whatever was being built before. -/
theorem build_of_lower (reused : Bool) (h : c.program.NamesLive) {f : Func} {code : Code}
    (hf : c.program.func? id = some f)
    (hc : d.body.lower c.program (Scope.ofParams f.params) 0 = .ok code) :
    (c.build id d reused).outcome = .ok id ∧
      (c.build id d reused).compiler.program = c.install c.program id code := by
  have hb : d.body.lower (c.program.begin id) (Scope.ofParams f.params) 0 = .ok code := by
    rw [← hc]
    exact Program.lower_begin c.program id d.body
  have hv : (((c.program.begin id).append code.insts).finish code.value).2.verify id = true :=
    Program.verify_commit h hf hc
  have hcommit : (c.program.commit id code).func? id =
      some { f with body := some (code.insts ++ [.ret code.value]) } := by
    rw [Program.func?_commit, if_pos rfl, hf]
    rfl
  unfold build accept install tidied
  simp only [Program.params_of_func? hf, hb, hv, if_true]
  cases c.cleaning with
  | false => exact ⟨rfl, (Program.setBody_setBody _ _ _ _).symm⟩
  | true => exact ⟨rfl, Program.cleanup_of_body? (Program.body?_of_func? hcommit)⟩

end Compiler

end Reckoner
