import Reckoner.Proofs.Compiler.Definition
import Reckoner.Proofs.Program.Relabel

/-!
# Compiling up to the numbers of functions

In programs that are the same up to the numbers of their functions an expression is lowered to the
same code up to these numbers, or has the same fault (`Expr.lower_relabel`).  So definitions and
declarations end alike, and the programs after them are the same in this way again
(`Defined.relabels`, `Declared.relabels`).
-/

namespace Reckoner

variable {ρ ρ' : FuncId → FuncId}

namespace Program

variable {p p' q q' : Program} {id : FuncId} {params : List String} {proto : Prototype}

theorem Target.relabels (ht : p.Target proto id params p') (hp : p.Consistent)
    (h : p.Relabels ρ q) :
    ∃ ρ' q', q.Target proto (ρ' id) params q' ∧ p'.Relabels ρ' q' := by
  cases ht with
  | @declared id f hl hf hb =>
    have hl' : q.lookup proto.name = some (ρ id) := by rw [h.lookup, hl]; rfl
    have hb' : (f.relabel ρ).body = none := by rw [Func.relabel, hb]; rfl
    have ht : q.Target proto (ρ id) (f.relabel ρ).params q := .declared hl' (h.func? id f hf) hb'
    exact ⟨ρ, q, ht, h⟩
  | fresh hl =>
    obtain ⟨ρ', h', hn⟩ := h.exists_next hp
    refine ⟨ρ', _, ?_, h'.declare hn proto.name proto.params⟩
    rw [hn]
    exact .fresh (by rw [h.lookup, hl]; rfl)

theorem Relabels.hasBody_eq (h : p.Relabels ρ q) {f : Func} (hf : p.func? id = some f) :
    q.hasBody (ρ id) = p.hasBody id := by
  rw [hasBody, hasBody, body?_of_func? hf, body?_of_func? (h.func? id f hf), Func.relabel,
    Option.isSome_map]

theorem Relabels.lower_eq (h : p.Relabels ρ q) (hp : p.NamesLive) (scope : Scope) (e : Expr) :
    e.lower q scope 0 = (e.lower p scope 0).map (Code.relabel ρ) := by
  refine Expr.lower_relabel h.lookup (fun name i hi => ?_) 0 e
  obtain ⟨f, hf⟩ := hp name i hi
  exact h.arity_eq hf

/-- The programs stay the same up to numbers when a body is put in its place. -/
theorem Relabels.of_sets {p₁ q₁ : Program} {f g f' : Func} (h : p₁.Relabels ρ q₁)
    (hp : p.Sets id f p₁) (hp' : p.Sets id g p') (hq : q.Sets (ρ id) f' q₁)
    (hq' : q.Sets (ρ id) (g.relabel ρ) q') (hf : f.name = g.name) (hf' : f'.name = g.name) :
    p'.Relabels ρ q' := by
  have hid : p₁.func? id = some f := by rw [hp.func?, if_pos rfl]
  have hpi {i : FuncId} (hi : i ≠ id) : p'.func? i = p₁.func? i := by
    rw [hp'.func?, hp.func?, if_neg hi, if_neg hi]
  have hqi {j : FuncId} (hj : j ≠ ρ id) : q'.func? j = q₁.func? j := by
    rw [hq'.func?, hq.func?, if_neg hj, if_neg hj]
  have hlive {i : FuncId} {k : Func} (hk : p'.func? i = some k) : ∃ k, p₁.func? i = some k := by
    by_cases hi : i = id
    · exact ⟨f, hi ▸ hid⟩
    · exact ⟨k, (hpi hi).symm.trans hk⟩
  refine ⟨fun i k hk => ?_, fun j k hk => ?_, fun m => ?_, fun i i' k k' hk hk' hii => ?_⟩
  · by_cases hi : i = id
    · rw [hp'.func?, if_pos hi] at hk
      cases hk
      rw [hq'.func?, if_pos (congrArg ρ hi)]
    · rw [hpi hi] at hk
      rw [hqi fun he => hi (h.inj hk hid he)]
      exact h.func? i k hk
  · by_cases hj : j = ρ id
    · exact ⟨id, g, by rw [hp'.func?, if_pos rfl], hj.symm⟩
    · rw [hqi hj] at hk
      obtain ⟨i, k, hi, rfl⟩ := h.onto j k hk
      exact ⟨i, k, (hpi fun he => hj (congrArg ρ he)).trans hi, rfl⟩
  · have hpl : p'.lookup m = p₁.lookup m := by rw [hp'.lookup, hp.lookup, hf]
    have hql : q'.lookup m = q₁.lookup m := by rw [hq'.lookup, hq.lookup, hf']; rfl
    rw [hpl, hql, h.lookup]
  · obtain ⟨k, hk⟩ := hlive hk
    obtain ⟨k', hk'⟩ := hlive hk'
    exact h.mono i i' k k' hk hk' hii

end Program

namespace Compiler

variable {c c' : Compiler} {d : Definition} {o o' : Except CompileError FuncId} {p q : Program}

theorem tidied_relabel (hc : c'.cleaning = c.cleaning) (b : Block) :
    c'.tidied (Block.relabel ρ b) = Block.relabel ρ (c.tidied b) := by
  unfold tidied
  rw [hc]
  split
  · exact Block.clean_relabel b
  · rfl

theorem Defined.relabels (hp : c.program.Consistent) (hq : c'.program.Consistent)
    (hc : c'.cleaning = c.cleaning) (h : c.program.Relabels ρ c'.program) (hd : Defined c d o p)
    (hd' : Defined c' d o' q) : ∃ ρ', p.Relabels ρ' q ∧ o' = o.map ρ' := by
  cases hd with
  | @redefinition id hl hb =>
    obtain ⟨f, hf⟩ := hp.namesLive _ _ hl
    have hl' : c'.program.lookup d.proto.name = some (ρ id) := by rw [h.lookup, hl]; rfl
    obtain ⟨rfl, rfl⟩ := hd'.of_hasBody hl' ((h.hasBody_eq hf).trans hb)
    exact ⟨ρ, h, rfl⟩
  | @faulty id params p₁ p e ht he ha =>
    obtain ⟨ρ', q₁, ht₁, h₁⟩ := ht.relabels hp h
    have hlow := h₁.lower_eq (ht.consistent hp).namesLive (Scope.ofParams params) d.body
    rw [he] at hlow
    obtain ⟨rfl, ha', -⟩ := hd'.of_fault ht₁ hlow
    exact ⟨ρ, h.of_agrees ha ha', rfl⟩
  | @placed id params p₁ p code ht hlower hs =>
    obtain ⟨ρ', q₁, ht₁, h₁⟩ := ht.relabels hp h
    have hlow := h₁.lower_eq (ht.consistent hp).namesLive (Scope.ofParams params) d.body
    rw [hlower] at hlow
    obtain ⟨rfl, hs', -⟩ := hd'.of_code ht₁ hlow
    have hbody : c'.tidied ((code.relabel ρ').insts ++ [.ret (code.relabel ρ').value]) =
        Block.relabel ρ' (c.tidied (code.insts ++ [.ret code.value])) := by
      rw [← tidied_relabel hc, Block.relabel_append]
      rfl
    rw [hbody] at hs'
    exact ⟨ρ', h₁.of_sets (ht.sets hp) hs (ht₁.sets hq) hs' rfl rfl, rfl⟩

theorem Declared.relabels (hp : c.program.Consistent) (h : c.program.Relabels ρ c'.program)
    {proto : Prototype} (hd : Declared c proto o p) (hd' : Declared c' proto o' q) :
    ∃ ρ', p.Relabels ρ' q ∧ o' = o.map ρ' := by
  have hl := h.lookup proto.name
  cases hlookup : c.program.lookup proto.name with
  | some id =>
    obtain ⟨f, hf⟩ := hp.namesLive _ _ hlookup
    rw [hlookup, Option.map_some] at hl
    obtain ⟨rfl, rfl⟩ := hd.of_lookup hlookup
    obtain ⟨rfl, rfl⟩ := hd'.of_lookup hl
    refine ⟨ρ, h, ?_⟩
    rw [h.arity_eq hf]
    split <;> rfl
  | none =>
    rw [hlookup, Option.map_none] at hl
    obtain ⟨rfl, rfl⟩ := hd.of_lookup_none hlookup
    obtain ⟨rfl, rfl⟩ := hd'.of_lookup_none hl
    obtain ⟨ρ', h', hn⟩ := h.exists_next hp
    exact ⟨ρ', h'.declare hn proto.name proto.params, congrArg Except.ok hn.symm⟩

section Name

theorem name_abandon (c : Compiler) (id : FuncId) (proto : Prototype) (reused : Bool)
    (e : CompileError) : (c.abandon id proto reused e).compiler.program.name = c.program.name := by
  unfold abandon
  cases reused with
  | true => exact Program.name_clear _ id
  | false => exact Program.name_remove _ id

theorem name_accept (c : Compiler) (id : FuncId) (proto : Prototype) :
    (c.accept id proto).compiler.program.name = c.program.name := by
  unfold accept
  split
  · exact Program.name_cleanup _ id
  · rfl

theorem name_build (c : Compiler) (id : FuncId) (d : Definition) (reused : Bool) :
    (c.build id d reused).compiler.program.name = c.program.name := by
  unfold build
  simp only
  split
  · exact name_abandon _ id d.proto reused _
  · rename_i code _
    have hn := Program.name_finish ((c.program.begin id).append code.insts) code.value
    split
    · exact (name_accept _ id d.proto).trans hn
    · exact (name_abandon _ id d.proto reused _).trans hn

theorem name_define (c : Compiler) (d : Definition) :
    (c.define d).compiler.program.name = c.program.name := by
  unfold define
  split
  · split
    · rfl
    · exact name_build _ _ d true
  · exact name_build _ _ d false

theorem name_declare (c : Compiler) (proto : Prototype) :
    (c.declare proto).compiler.program.name = c.program.name := by
  unfold declare
  split
  · split <;> rfl
  · rfl

end Name

end Compiler

end Reckoner
