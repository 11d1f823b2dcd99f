import Reckoner.Proofs.Program.Cleanup
import Reckoner.Proofs.Session.Invariant

/-!
# Cleaning is invisible

A session that cleans up its functions and one that does not say and count the same
(`run_cleaning_eq`).  Between any two items the program of the one is that of the other with every
body cleaned (`Program.Cleans`).  That is kept by all that happens to a program, and calls in the
two programs are equal, since a body and the cleaned one do the same with equal callees.
-/

namespace Reckoner

namespace Program

/-- `q` has the functions of `p` under the same numbers and names, with their bodies cleaned. -/
structure Cleans (p q : Program) : Prop where
  func? : ∀ id, q.func? id = (p.func? id).map Func.cleaned
  lookup : ∀ name, q.lookup name = p.lookup name
  size : q.slots.size = p.slots.size

variable {p q p' q' : Program} {id : FuncId} {proto : Prototype} {params : List String}

theorem Cleans.arity_eq (h : p.Cleans q) (id : FuncId) : q.arity id = p.arity id := by
  unfold arity Program.params
  rw [h.func?]
  cases p.func? id <;> rfl

theorem Cleans.hasBody_eq (h : p.Cleans q) (id : FuncId) : q.hasBody id = p.hasBody id := by
  unfold hasBody body?
  rw [h.func?]
  cases p.func? id with
  | none => rfl
  | some f =>
    obtain ⟨name, params, body⟩ := f
    cases body <;> rfl

theorem Cleans.enter_eq (h : p.Cleans q) (inner : Option Callee) :
    q.enter inner = p.enter inner := by
  funext id
  exact enter_eq_of_cleaned (h.func? id) inner

theorem Cleans.callWithin_eq (h : p.Cleans q) (depth : Nat) :
    q.callWithin depth = p.callWithin depth := by
  induction depth with
  | zero => exact h.enter_eq none
  | succ depth ih => rw [callWithin_succ, callWithin_succ, ih, h.enter_eq]

theorem Cleans.declare (h : p.Cleans q) (name : String) (params : List String) :
    (p.declare name params).2.Cleans (q.declare name params).2 := by
  refine ⟨fun i => ?_, fun m => ?_, ?_⟩
  · rw [func?_declare, func?_declare, h.size, h.func?]
    split <;> rfl
  · rw [lookup_declare, lookup_declare, h.size, h.lookup]
  · simp [Program.declare, h.size]

theorem Cleans.remove (h : p.Cleans q) (id : FuncId) : (p.remove id).Cleans (q.remove id) := by
  refine ⟨fun i => ?_, fun m => ?_, ?_⟩
  · rw [func?_remove, func?_remove, h.func?]
    split <;> rfl
  · have hn : (q.func? id).map Func.name = (p.func? id).map Func.name := by
      rw [h.func?]
      cases p.func? id <;> rfl
    rw [lookup_remove, lookup_remove, h.lookup, hn]
  · rw [size_remove, size_remove, h.size]

theorem Cleans.of_agrees (h : p.Cleans q) (hp : p'.Agrees p) (hq : q'.Agrees q)
    (hs : q'.slots.size = p'.slots.size) : p'.Cleans q' :=
  ⟨fun id => by rw [hp.func?, hq.func?, h.func?], fun m => by rw [hp.lookup, hq.lookup, h.lookup],
    hs⟩

theorem Cleans.sets (h : p.Cleans q) {name : String} {b : Block}
    (hp : p.Sets id ⟨name, params, some b⟩ p') (hq : q.Sets id ⟨name, params, some b.clean⟩ q')
    (hs : q'.slots.size = p'.slots.size) : p'.Cleans q' := by
  refine ⟨fun i => ?_, fun m => ?_, hs⟩
  · rw [hp.func?, hq.func?, h.func?]
    split <;> rfl
  · rw [hp.lookup, hq.lookup, h.lookup]

theorem Target.of_cleans (ht : p.Target proto id params p') (h : p.Cleans q) :
    ∃ q', q.Target proto id params q' ∧ p'.Cleans q' := by
  cases ht with
  | @declared id f hl hf hb =>
    have hl' : q.lookup proto.name = some id := by rw [h.lookup, hl]
    have hf' : q.func? id = some f.cleaned := by rw [h.func?, hf]; rfl
    have hb' : f.cleaned.body = none := by rw [Func.cleaned, hb]; rfl
    have ht : q.Target proto id f.cleaned.params q := .declared hl' hf' hb'
    exact ⟨q, ht, h⟩
  | fresh hl =>
    refine ⟨_, ?_, h.declare proto.name proto.params⟩
    rw [← h.size]
    exact .fresh (by rw [h.lookup, hl])

end Program

namespace Compiler

variable {c c' : Compiler} {d : Definition}

/-- The compilers are the same but that the second one cleans up. -/
structure Twins (c c' : Compiler) : Prop where
  ready : c.Ready
  ready' : c'.Ready
  cleaning : c.cleaning = false
  cleaning' : c'.cleaning = true
  cleans : c.program.Cleans c'.program

theorem Twins.defined (h : c.Twins c') {o o' : Except CompileError FuncId} {p q : Program}
    (hp : Defined c d o p) (hq : Defined c' d o' q) : o' = o ∧ p.Cleans q := by
  have hlower {p₀ q₀ : Program} (hc₀ : p₀.Cleans q₀) (scope : Scope) :
      d.body.lower q₀ scope 0 = d.body.lower p₀ scope 0 :=
    Expr.lower_congr hc₀.lookup hc₀.arity_eq 0 d.body
  cases hp with
  | @redefinition id hl hb =>
    have hl' := (h.cleans.lookup d.proto.name).trans hl
    obtain ⟨rfl, rfl⟩ := hq.of_hasBody hl' ((h.cleans.hasBody_eq id).trans hb)
    exact ⟨rfl, h.cleans⟩
  | faulty ht he ha hi hn =>
    obtain ⟨q₀, ht₀, hc₀⟩ := ht.of_cleans h.cleans
    obtain ⟨rfl, ha', hn'⟩ := hq.of_fault ht₀ ((hlower hc₀ _).trans he)
    refine ⟨rfl, h.cleans.of_agrees ha ha' ?_⟩
    rw [hn, hn', hc₀.size]
  | placed ht hc hs hi hn =>
    obtain ⟨q₀, ht₀, hc₀⟩ := ht.of_cleans h.cleans
    obtain ⟨rfl, hs', hn'⟩ := hq.of_code ht₀ ((hlower hc₀ _).trans hc)
    rw [tidied, h.cleaning, if_neg (by simp)] at hs
    rw [tidied, h.cleaning', if_pos rfl] at hs'
    refine ⟨rfl, h.cleans.sets hs hs' ?_⟩
    rw [hn, hn', hc₀.size]

theorem Twins.declared (h : c.Twins c') {proto : Prototype} {o o' : Except CompileError FuncId}
    {p q : Program} (hp : Declared c proto o p) (hq : Declared c' proto o' q) :
    o' = o ∧ p.Cleans q := by
  have hl := h.cleans.lookup proto.name
  cases hlookup : c.program.lookup proto.name with
  | some id =>
    obtain ⟨rfl, rfl⟩ := hp.of_lookup hlookup
    obtain ⟨rfl, rfl⟩ := hq.of_lookup (hl.trans hlookup)
    exact ⟨by rw [h.cleans.arity_eq], h.cleans⟩
  | none =>
    obtain ⟨rfl, rfl⟩ := hp.of_lookup_none hlookup
    obtain ⟨rfl, rfl⟩ := hq.of_lookup_none (hl.trans hlookup)
    exact ⟨by rw [h.cleans.size], h.cleans.declare _ _⟩

theorem twins_new (name : String) : (new name false).Twins (new name true) where
  ready := ready_new name false
  ready' := ready_new name true
  cleaning := rfl
  cleaning' := rfl
  cleans := ⟨fun _ => rfl, fun _ => rfl, rfl⟩

theorem Twins.define (h : c.Twins c') (d : Definition) :
    (c'.define d).outcome = (c.define d).outcome ∧
      (c.define d).compiler.program.Cleans (c'.define d).compiler.program :=
  h.defined (define_defined h.ready.consistent d).1 (define_defined h.ready'.consistent d).1

theorem Twins.evaluate (h : c.Twins c') (hn : d.proto.name = "") :
    (engine.evaluate c d).1 = (engine.evaluate c' d).1 ∧
      (engine.evaluate c d).2.Twins (engine.evaluate c' d).2 := by
  obtain ⟨ho, hc⟩ := h.define d
  have hr := h.ready.evaluate hn
  have hr' := h.ready'.evaluate hn
  have hcl := (define_defined h.ready.consistent d).2.trans h.cleaning
  have hcl' := (define_defined h.ready'.consistent d).2.trans h.cleaning'
  cases he : (c.define d).outcome with
  | error e =>
    rw [he] at ho
    rw [evaluate_of_error he] at hr ⊢
    rw [evaluate_of_error ho] at hr' ⊢
    exact ⟨rfl, hr, hr', hcl, hcl', hc⟩
  | ok id =>
    rw [he] at ho
    rw [evaluate_of_ok he] at hr ⊢
    rw [evaluate_of_ok ho] at hr' ⊢
    refine ⟨?_, hr, hr', hcl, hcl', hc.remove id⟩
    rw [Program.call, Program.call, hc.callWithin_eq]

/-- The engine with cleaning ends like the one without. -/
theorem follows_twins : engine.Follows engine Twins (Item.Names (· ≠ "")) where
  define c c' d hi h := by
    obtain ⟨ho, hc⟩ := h.define d
    have hcl := (define_defined h.ready.consistent d).2.trans h.cleaning
    have hcl' := (define_defined h.ready'.consistent d).2.trans h.cleaning'
    exact ⟨congrArg Except.error? ho.symm, h.ready.define hi.1.1, h.ready'.define hi.1.1, hcl, hcl',
      hc⟩
  declare c c' proto hi h := by
    obtain ⟨hd, hcl⟩ := declare_declared c proto
    obtain ⟨hd', hcl'⟩ := declare_declared c' proto
    obtain ⟨ho, hc⟩ := h.declared hd hd'
    exact ⟨congrArg Except.error? ho.symm, h.ready.declare hi.1, h.ready'.declare hi.1,
      hcl.trans h.cleaning, hcl'.trans h.cleaning', hc⟩
  evaluate c c' d hi h := h.evaluate (congrArg Prototype.name hi.1)

end Compiler

namespace Session

/-- Whether functions are cleaned up does not show in what a session writes and counts.  Between
two items the functions are those without cleaning, with their bodies cleaned. -/
theorem run_cleaning_eq (source : Source) (options : SessionOptions) (name : String) :
    ∃ s t,
      run (Lexer.ofSource source)
        (fresh { options with listing := false } name true .unlimited) = .ok () s ∧
      run (Lexer.ofSource source)
        (fresh { options with listing := false } name false .unlimited) = .ok () t ∧
      s.out.bytes = t.out.bytes ∧ s.journal.bytes = t.journal.bytes ∧ s.tally = t.tally ∧
      List.Forall₂ (fun s t => t.compiler.program.Cleans s.compiler.program)
        (heads (Lexer.ofSource source)
          (fresh { options with listing := false } name true .unlimited))
        (heads (Lexer.ofSource source)
          (fresh { options with listing := false } name false .unlimited)) := by
  have hnames := Reader.names_items_start Lexer.names_ne_empty (Lexer.ofSource source)
  have he := (Compiler.follows_twins.run { options with listing := false } hnames
    (Compiler.twins_new name)).1
  obtain ⟨s, hs, hssaid⟩ := run_fresh (Lexer.ofSource source) { options with listing := false } rfl
    name true
  obtain ⟨t, ht, htsaid⟩ := run_fresh (Lexer.ofSource source) { options with listing := false } rfl
    name false
  rw [← he] at hssaid
  refine ⟨s, t, hs, ht, Array.toList_inj.1 (hssaid.out.trans htsaid.out.symm),
    hssaid.err.trans htsaid.err.symm, hssaid.tally.trans htsaid.tally.symm, ?_⟩
  have hheads := forall₂_headsOf (R := fun c c' => c'.Twins c)
    (fun c c' o w hw h => (Compiler.follows_twins.step o (names_noted source w hw) h).2)
    (s := fresh { options with listing := false } name true .unlimited)
    (t := fresh { options with listing := false } name false .unlimited)
    rfl rfl rfl (Compiler.twins_new name)
  exact hheads.imp fun _ _ h => h.cleans

end Session

end Reckoner
