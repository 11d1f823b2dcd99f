import Reckoner.Proofs.Lowering.Acceptance

/-!
# Histories of a program

The operations of a program can be carried out in any order, with numbers of functions that are
there, were removed or never existed, and with any instructions.  What holds after all of them is
that a name leads to a function, and one of that name (`Program.Named`): a name is entered with its
function and taken out with it, and no operation gives a function another name.
-/

namespace Reckoner

namespace Program

inductive Operation
  | declare (name : String) (params : List String)
  | begin (id : FuncId)
  | push (inst : Inst)
  | finish (value : Operand)
  | clear (id : FuncId)
  | remove (id : FuncId)
  | cleanup (id : FuncId)
  | replaceBody (id : FuncId) (body : Block)

def perform (p : Program) : Operation → Program
  | .declare name params => (p.declare name params).2
  | .begin id => p.begin id
  | .push inst => (p.push inst).2
  | .finish value => (p.finish value).2
  | .clear id => p.clear id
  | .remove id => p.remove id
  | .cleanup id => p.cleanup id
  | .replaceBody id body => (p.replaceBody? id body).getD p

def Named (p : Program) : Prop :=
  ∀ name id, p.lookup name = some id → ∃ f, p.func? id = some f ∧ f.name = name

variable {p q : Program}

theorem named_empty (name : String) : (empty name).Named := nofun

theorem Named.namesLive (h : p.Named) : p.NamesLive := by
  intro name id hl
  obtain ⟨f, hf, -⟩ := h name id hl
  exact ⟨f, hf⟩

theorem Named.of_extends (h : p.Named) (hq : q.Extends p) (hl : ∀ m, q.lookup m = p.lookup m) :
    q.Named := by
  intro name id hn
  rw [hl] at hn
  obtain ⟨f, hf, rfl⟩ := h name id hn
  obtain ⟨g, hg, hgn, -⟩ := hq id f hf
  exact ⟨g, hg, hgn⟩

theorem Named.declare (h : p.Named) (name : String) (params : List String) :
    (p.declare name params).2.Named := by
  intro m id hl
  rw [lookup_declare] at hl
  rw [func?_declare]
  split at hl
  · rename_i hm
    cases hl
    exact ⟨_, if_pos rfl, hm.symm⟩
  · obtain ⟨f, hf, hfn⟩ := h m id hl
    exact ⟨f, by rw [if_neg (ne_size_of_func? hf), hf], hfn⟩

theorem Named.setBody (h : p.Named) (id : FuncId) (body : Option Block) :
    (p.setBody id body).Named :=
  h.of_extends (extends_setBody p id body) fun _ => rfl

theorem Named.finish (h : p.Named) (value : Operand) : (p.finish value).2.Named := by
  unfold Program.finish
  simp only
  split
  · exact Named.setBody (p := { p with building := none, block := [] }) h _ _
  · exact h

theorem Named.clear (h : p.Named) (id : FuncId) : (p.clear id).Named := by
  unfold Program.clear
  simp only
  split
  · exact Named.setBody (p := { p with building := none, block := [] }) h _ _
  · exact h.setBody _ _

theorem Named.remove (h : p.Named) (id : FuncId) : (p.remove id).Named := by
  intro m i hl
  rw [lookup_remove] at hl
  split at hl
  · contradiction
  · rename_i hn
    obtain ⟨f, hf, hfn⟩ := h m i hl
    have hi : i ≠ id := by
      rintro rfl
      exact hn ⟨hl, by rw [hf, ← hfn]; rfl⟩
    exact ⟨f, by rw [func?_remove, if_neg hi, hf], hfn⟩

theorem Named.cleanup (h : p.Named) (id : FuncId) : (p.cleanup id).Named := by
  unfold Program.cleanup
  split
  · exact h.setBody _ _
  · exact h

theorem Named.perform (h : p.Named) (op : Operation) : (p.perform op).Named := by
  cases op with
  | declare name params => exact h.declare name params
  | begin id => exact h
  | push inst => exact h
  | finish value => exact h.finish value
  | clear id => exact h.clear id
  | remove id => exact h.remove id
  | cleanup id => exact h.cleanup id
  | replaceBody id body =>
    unfold Program.perform replaceBody?
    simp only
    split
    · exact h.setBody id _
    · exact h

end Program

end Reckoner
