import Reckoner.Proofs.Session.Invariant

/-!
# What stays of a definition

From one item to the next no function is lost or altered; all that can happen to one is that a
declaration gets a body (`Program.Preserves`).  Units that fail and expressions leave every function
as it is, and a unit that succeeds gives its body to a function that has none.  So at any two heads
of a session the later program still has every function of the earlier one, under the same number,
name and parameters (`preserved_heads`).
-/

namespace Reckoner

namespace Program

variable {p q r : Program} {id : FuncId}

/-- Every function of `p` is in `q` under its number, name and parameters, and with its body if it
has one. -/
def Preserves (q p : Program) : Prop :=
  ∀ id f, p.func? id = some f → ∃ g, q.func? id = some g ∧ g.name = f.name ∧
    g.params = f.params ∧ ∀ b, f.body = some b → g.body = some b

theorem Preserves.refl (p : Program) : p.Preserves p :=
  fun _ f hf => ⟨f, hf, rfl, rfl, fun _ hb => hb⟩

theorem Preserves.trans (h : r.Preserves q) (h' : q.Preserves p) : r.Preserves p := by
  intro id f hf
  obtain ⟨g, hg, hgn, hgp, hgb⟩ := h' id f hf
  obtain ⟨k, hk, hkn, hkp, hkb⟩ := h id g hg
  exact ⟨k, hk, hkn.trans hgn, hkp.trans hgp, fun b hb => hkb b (hgb b hb)⟩

theorem Agrees.preserves (h : q.Agrees p) : q.Preserves p := by
  intro id f hf
  exact ⟨f, (h.func? id).trans hf, rfl, rfl, fun _ hb => hb⟩

theorem Sets.preserves (hp : p.Consistent) {g : Func} (h : p.Sets id g q)
    (hb : ∀ f, p.func? id = some f → f.body = none) : q.Preserves p := by
  intro i f hf
  obtain ⟨k, hk, hkn, hkp⟩ := h.extends hp i f hf
  refine ⟨k, hk, hkn, hkp, fun b hfb => ?_⟩
  by_cases hi : i = id
  · subst hi
    cases (hb f hf).symm.trans hfb
  · rw [h.func?, if_neg hi, hf] at hk
    cases hk
    exact hfb

theorem Target.body_eq_none {proto : Prototype} {params : List String}
    (h : p.Target proto id params q) {f : Func} (hf : p.func? id = some f) : f.body = none := by
  cases h with
  | declared _ hf' hb =>
    cases hf'.symm.trans hf
    exact hb
  | fresh => exact absurd rfl (ne_size_of_func? hf)

end Program

namespace Compiler

variable {c : Compiler} {q : Program}

theorem Defined.preserves (h : c.program.Consistent) {d : Definition}
    {o : Except CompileError FuncId} (hd : Defined c d o q) : q.Preserves c.program := by
  cases hd with
  | redefinition => exact .refl _
  | faulty ht he ha => exact ha.preserves
  | placed ht hc hs => exact hs.preserves h fun f hf => ht.body_eq_none hf

theorem Declared.preserves (h : c.program.Consistent) {proto : Prototype}
    {o : Except CompileError FuncId} (hd : Declared c proto o q) : q.Preserves c.program := by
  cases hd with
  | kept => exact .refl _
  | refused => exact .refl _
  | added hl =>
    have ht : c.program.Target proto ⟨c.program.slots.size⟩ proto.params
        (c.program.declare proto.name proto.params).2 := .fresh hl
    exact (ht.sets h).preserves h fun f hf => ht.body_eq_none hf

theorem Ready.preserves_step (h : c.Ready) (options : SessionOptions) {item : Item}
    (hi : item.Names (· ≠ "")) :
    (engine.step options c item).2.program.Preserves c.program := by
  cases item with
  | definition d => exact (define_defined h.consistent d).1.preserves h.consistent
  | declaration p => exact (declare_declared c p).1.preserves h.consistent
  | expression d => exact (h.agrees_evaluate (congrArg Prototype.name hi.1)).preserves
  | _ => exact .refl _

end Compiler

namespace Session

/-- Definitions are permanent.  Of any two heads of a session, the later one has every function of
the earlier one under the same number, name and parameters, its name leads to it, and a body that it
had is the same still; a function whose body is another one had none before. -/
theorem preserved_heads (source : Source) (options : SessionOptions) (name : String)
    (cleaning : Bool) (out : Sink) :
    (heads (Lexer.ofSource source) (fresh options name cleaning out)).Pairwise fun s t =>
      (∀ id f, s.compiler.program.func? id = some f →
        ∃ g, t.compiler.program.func? id = some g ∧ g.name = f.name ∧ g.params = f.params ∧
          t.compiler.program.lookup f.name = some id ∧
          (∀ b, f.body = some b → g.body = some b) ∧ (g.body ≠ f.body → f.body = none)) ∧
      ∀ m id, s.compiler.program.lookup m = some id →
        t.compiler.program.lookup m = some id ∧
          t.compiler.program.arity id = s.compiler.program.arity id := by
  have hnames := names_noted source
  have hready : ∀ t ∈ heads (Lexer.ofSource source) (fresh options name cleaning out),
      t.compiler.Ready :=
    forall_headsOf (fun c o w hw hc => hc.step o (hnames w hw)) (Compiler.ready_new name cleaning)
  have hpres : (heads (Lexer.ofSource source) (fresh options name cleaning out)).Pairwise
      fun s t => t.compiler.program.Preserves s.compiler.program :=
    pairwise_headsOf (I := Compiler.Ready) (R := fun c c' => c'.program.Preserves c.program)
      (fun _ _ _ hab hbc => hbc.trans hab)
      (fun c o w hw hc => ⟨hc.step o (hnames w hw), hc.preserves_step o (hnames w hw)⟩)
      (Compiler.ready_new name cleaning)
  refine hpres.imp_of_mem fun {s t} hs ht h => ⟨fun id f hf => ?_, fun m id hl => ?_⟩
  · obtain ⟨g, hg, hgn, hgp, hgb⟩ := h id f hf
    have hl := ((hready t ht).consistent.lookup_iff f.name id).2 ⟨g, hg, hgn⟩
    refine ⟨g, hg, hgn, hgp, hl, hgb, fun hne => ?_⟩
    cases hb : f.body with
    | none => rfl
    | some b => exact absurd ((hgb b hb).trans hb.symm) hne
  · obtain ⟨f, hf, rfl⟩ := ((hready s hs).consistent.lookup_iff m id).1 hl
    obtain ⟨g, hg, hgn, hgp, -⟩ := h id f hf
    refine ⟨((hready t ht).consistent.lookup_iff f.name id).2 ⟨g, hg, hgn⟩, ?_⟩
    rw [Program.arity, Program.arity, Program.params_of_func? hf, Program.params_of_func? hg, hgp]

end Session

end Reckoner
