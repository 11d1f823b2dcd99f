import Mathlib.Data.List.Sort
import Reckoner.Proofs.Block.Relabel
import Reckoner.Proofs.Program.Invariant
import Reckoner.Program.Listing

/-!
# Programs up to the numbers of their functions

Numbers are handed out in turn and never twice, so what a program has declared and removed again
still shows in the numbers of its functions.  `Program.Relabels ρ p q` says that it shows in nothing
else: with every number `i` replaced by `ρ i` the functions of `p` are those of `q`, under the same
names and in the same order.  Functions that correspond do the same when they are called
(`Relabels.callWithin_eq`), and the listings are equal (`Relabels.listing_eq`).
-/

namespace Reckoner

variable {ρ ρ' : FuncId → FuncId}

def Func.relabel (ρ : FuncId → FuncId) (f : Func) : Func :=
  { f with body := f.body.map (Block.relabel ρ) }

namespace Func

variable {f : Func}

theorem relabel_id (f : Func) : f.relabel id = f := by
  have hb : f.body.map (Block.relabel id) = f.body :=
    (Option.map_congr fun b _ => Block.relabel_id b).trans (congrFun Option.map_id f.body)
  rw [relabel, hb]

theorem relabel_congr
    (h : ∀ b, f.body = some b → ∀ callee args, .call callee args ∈ b → ρ' callee = ρ callee) :
    f.relabel ρ' = f.relabel ρ := by
  have hb : f.body.map (Block.relabel ρ') = f.body.map (Block.relabel ρ) :=
    Option.map_congr fun b hb => Block.relabel_congr (h b hb)
  rw [relabel, relabel, hb]

end Func

namespace Program

variable {p p' q q' : Program}

theorem Accepts.exists_callee {arity : Nat} {kinds : Array ResultKind} {b : Block}
    (h : p.Accepts arity kinds b) {callee : FuncId} {args : List Operand}
    (hm : .call callee args ∈ b) : ∃ f, p.func? callee = some f := by
  induction h with
  | ret => simp at hm
  | cons hg _ ih =>
    rcases List.mem_cons.1 hm with rfl | hm
    · cases hg with
      | call hf => exact ⟨_, hf⟩
    · exact ih hm

theorem Sound.exists_callee (h : p.Sound) {i : FuncId} {f : Func} (hf : p.func? i = some f)
    {b : Block} (hb : f.body = some b) {callee : FuncId} {args : List Operand}
    (hm : .call callee args ∈ b) : ∃ f, p.func? callee = some f :=
  (h i f b hf hb).exists_callee hm

/-- With `ρ i` for every number `i` the functions of `p` are those of `q`, under the same names and
in the same order. -/
structure Relabels (ρ : FuncId → FuncId) (p q : Program) : Prop where
  func? : ∀ i f, p.func? i = some f → q.func? (ρ i) = some (f.relabel ρ)
  onto : ∀ j g, q.func? j = some g → ∃ i f, p.func? i = some f ∧ ρ i = j
  lookup : ∀ name, q.lookup name = (p.lookup name).map ρ
  mono : ∀ i i' f f', p.func? i = some f → p.func? i' = some f' → i.index < i'.index →
    (ρ i).index < (ρ i').index

namespace Relabels

variable {i i' : FuncId} {f f' : Func}

protected theorem refl (p : Program) : p.Relabels id p where
  func? i f hf := by rwa [Func.relabel_id]
  onto j g hg := ⟨j, g, hg, rfl⟩
  lookup name := (congrFun Option.map_id _).symm
  mono i i' f f' _ _ hlt := hlt

theorem of_agrees (h : p.Relabels ρ q) (hp : p'.Agrees p) (hq : q'.Agrees q) :
    p'.Relabels ρ q' where
  func? i f hf := by
    rw [hp.func?] at hf
    rw [hq.func?]
    exact h.func? i f hf
  onto j g hg := by
    rw [hq.func?] at hg
    obtain ⟨i, f, hf, hj⟩ := h.onto j g hg
    exact ⟨i, f, by rw [hp.func?, hf], hj⟩
  lookup name := by rw [hp.lookup, hq.lookup, h.lookup]
  mono i i' f f' hf hf' := by
    rw [hp.func?] at hf hf'
    exact h.mono i i' f f' hf hf'

theorem inj (h : p.Relabels ρ q) (hf : p.func? i = some f) (hf' : p.func? i' = some f')
    (he : ρ i = ρ i') : i = i' := by
  rcases Nat.lt_trichotomy i.index i'.index with hlt | heq | hgt
  · have hm := h.mono i i' f f' hf hf' hlt
    rw [he] at hm
    exact absurd hm (Nat.lt_irrefl _)
  · exact congrArg FuncId.mk heq
  · have hm := h.mono i' i f' f hf' hf hgt
    rw [he] at hm
    exact absurd hm (Nat.lt_irrefl _)

theorem arity_eq (h : p.Relabels ρ q) (hf : p.func? i = some f) : q.arity (ρ i) = p.arity i := by
  rw [arity, arity, params_of_func? hf, params_of_func? (h.func? i f hf)]
  rfl

/-- Only the numbers of functions matter. -/
theorem congr (h : p.Relabels ρ q) (hp : p.Consistent)
    (he : ∀ i f, p.func? i = some f → ρ' i = ρ i) : p.Relabels ρ' q where
  func? i f hf := by
    rw [he i f hf, h.func? i f hf]
    refine congrArg some (Func.relabel_congr fun b hb callee args hm => ?_).symm
    obtain ⟨g, hg⟩ := hp.sound.exists_callee hf hb hm
    exact he callee g hg
  onto j g hg := by
    obtain ⟨i, f, hf, hi⟩ := h.onto j g hg
    exact ⟨i, f, hf, (he i f hf).trans hi⟩
  lookup name := by
    rw [h.lookup]
    refine Option.map_congr fun i hi => ?_
    obtain ⟨f, hf⟩ := hp.namesLive name i hi
    exact (he i f hf).symm
  mono i i' f f' hf hf' hlt := by
    rw [he i f hf, he i' f' hf']
    exact h.mono i i' f f' hf hf' hlt

theorem exists_next (h : p.Relabels ρ q) (hp : p.Consistent) :
    ∃ ρ', p.Relabels ρ' q ∧ ρ' ⟨p.slots.size⟩ = ⟨q.slots.size⟩ := by
  refine ⟨fun i => if i = ⟨p.slots.size⟩ then ⟨q.slots.size⟩ else ρ i, ?_, if_pos rfl⟩
  exact h.congr hp fun i f hf => if_neg (ne_size_of_func? hf)

theorem declare (h : p.Relabels ρ q) (hn : ρ ⟨p.slots.size⟩ = ⟨q.slots.size⟩) (name : String)
    (params : List String) :
    (p.declare name params).2.Relabels ρ (q.declare name params).2 := by
  have hold {i : FuncId} {f : Func} (hf : p.func? i = some f) : ρ i ≠ ⟨q.slots.size⟩ :=
    ne_size_of_func? (h.func? i f hf)
  refine ⟨fun i f hf => ?_, fun j g hg => ?_, fun m => ?_, fun i i' f f' hf hf' hii => ?_⟩
  · rw [func?_declare] at hf ⊢
    by_cases hi : i = ⟨p.slots.size⟩
    · rw [if_pos hi] at hf
      cases hf
      rw [hi, if_pos hn]
      rfl
    · rw [if_neg hi] at hf
      rw [if_neg (hold hf), h.func? i f hf]
  · rw [func?_declare] at hg
    by_cases hj : j = ⟨q.slots.size⟩
    · exact ⟨⟨p.slots.size⟩, ⟨name, params, none⟩, by rw [func?_declare, if_pos rfl],
        hn.trans hj.symm⟩
    · rw [if_neg hj] at hg
      obtain ⟨i, f, hf, hi⟩ := h.onto j g hg
      exact ⟨i, f, by rw [func?_declare, if_neg (ne_size_of_func? hf), hf], hi⟩
  · rw [lookup_declare, lookup_declare, h.lookup]
    split
    · exact congrArg some hn.symm
    · rfl
  · rw [func?_declare] at hf hf'
    have hi : i ≠ ⟨p.slots.size⟩ := by
      rintro rfl
      split at hf'
      · rename_i hi'
        rw [hi'] at hii
        exact absurd hii (Nat.lt_irrefl _)
      · exact absurd (Nat.lt_trans hii (index_lt_of_func? hf')) (Nat.lt_irrefl _)
    rw [if_neg hi] at hf
    by_cases hi' : i' = ⟨p.slots.size⟩
    · rw [hi', hn]
      exact index_lt_of_func? (h.func? i f hf)
    · rw [if_neg hi'] at hf'
      exact h.mono i i' f f' hf hf' hii

/-- Functions that correspond do the same when they are called. -/
theorem callWithin_eq (h : p.Relabels ρ q) (hp : p.Sound) (depth : Nat)
    (hf : p.func? i = some f) : q.callWithin depth (ρ i) = p.callWithin depth i := by
  induction depth generalizing i f with
  | zero =>
    funext args
    rw [callWithin_zero, callWithin_zero]
    have hq := h.func? i f hf
    cases hb : f.body with
    | none =>
      rw [enter_of_declaration hf hb, enter_of_declaration hq (by rw [Func.relabel, hb]; rfl)]
      rfl
    | some b =>
      rw [enter_none hf hb, enter_none hq (by rw [Func.relabel, hb]; rfl)]
      rfl
  | succ depth ih =>
    funext args
    rw [callWithin_succ, callWithin_succ]
    have hq := h.func? i f hf
    cases hb : f.body with
    | none =>
      rw [enter_of_declaration hf hb, enter_of_declaration hq (by rw [Func.relabel, hb]; rfl)]
      rfl
    | some b =>
      rw [enter_some hf hb, enter_some hq (by rw [Func.relabel, hb]; rfl), Block.run_relabel]
      · rfl
      · intro callee os hm
        obtain ⟨g, hg⟩ := hp.exists_callee hf hb hm
        exact ih hg

end Relabels

section Listing

variable {f : Func} {i : Nat}

theorem operandText_relabel (f : Func) (o : Operand) :
    operandText (f.relabel ρ) o = operandText f o := by
  cases o <;> rfl

theorem headText_relabel (f : Func) : headText (f.relabel ρ) = headText f := rfl

theorem Relabels.calleeText_eq (h : p.Relabels ρ q) {callee : FuncId} {g : Func}
    (hg : p.func? callee = some g) : q.calleeText (ρ callee) = p.calleeText callee := by
  rw [calleeText, calleeText, hg, h.func? callee g hg]
  rfl

theorem Relabels.instText?_eq (h : p.Relabels ρ q) {inst : Inst}
    (hc : ∀ callee args, inst = .call callee args → ∃ g, p.func? callee = some g) :
    q.instText? (f.relabel ρ) i (inst.relabel ρ) = p.instText? f i inst := by
  have ho : operandText (f.relabel ρ) = operandText f := funext (operandText_relabel f)
  cases inst with
  | call callee args =>
    obtain ⟨g, hg⟩ := hc callee args rfl
    rw [Inst.relabel, instText?, instText?, h.calleeText_eq hg, ho]
  | _ => simp only [Inst.relabel, instText?, ho]

theorem Relabels.bodyLines_eq (h : p.Relabels ρ q) {b : Block}
    (hc : ∀ callee args, .call callee args ∈ b → ∃ g, p.func? callee = some g) :
    q.bodyLines (f.relabel ρ) i (b.relabel ρ) = p.bodyLines f i b := by
  induction b generalizing i with
  | nil => rfl
  | cons inst rest ih =>
    have hi : q.instText? (f.relabel ρ) i (inst.relabel ρ) = p.instText? f i inst :=
      h.instText?_eq fun callee args he => hc callee args (he ▸ List.mem_cons_self)
    have hr : ∀ i, q.bodyLines (f.relabel ρ) i (Block.relabel ρ rest) = p.bodyLines f i rest :=
      fun i => ih fun callee args hm => hc callee args (List.mem_cons_of_mem _ hm)
    rw [Block.relabel_cons, bodyLines, bodyLines, hi, hr]

theorem Relabels.funcText_eq (h : p.Relabels ρ q) (hp : p.Sound) {i : FuncId}
    (hf : p.func? i = some f) : q.funcText (f.relabel ρ) = p.funcText f := by
  have hcallee {b : Block} (hb : f.body = some b) {callee : FuncId} {args : List Operand}
      (hm : .call callee args ∈ b) := hp.exists_callee hf hb hm
  cases hb : f.body with
  | none =>
    have hb' : (f.relabel ρ).body = none := by rw [Func.relabel, hb]; rfl
    rw [funcText, funcText, hb, hb', headText_relabel]
  | some b =>
    have hb' : (f.relabel ρ).body = some (b.relabel ρ) := by rw [Func.relabel, hb]; rfl
    rw [funcText, funcText, hb, hb', headText_relabel]
    simp only
    rw [h.bodyLines_eq fun callee args hm => hcallee hb hm]

theorem Relabels.funcListing_eq (h : p.Relabels ρ q) (hp : p.Sound) {i : FuncId}
    (hf : p.func? i = some f) : q.funcListing (ρ i) = p.funcListing i := by
  rw [funcListing, funcListing, hf, h.func? i f hf]
  exact h.funcText_eq hp hf

theorem mem_funcs {x : FuncId × Func} : x ∈ p.funcs ↔ p.func? x.1 = some x.2 := by
  obtain ⟨⟨i⟩, f⟩ := x
  rw [func?_eq_some_iff, ← Array.getElem?_toList]
  unfold funcs
  simp only [List.mem_filterMap, Prod.exists, List.mem_zipIdx_iff_getElem?, Option.map_eq_some_iff,
    Prod.mk.injEq, FuncId.mk.injEq]
  constructor
  · rintro ⟨slot, k, hk, g, rfl, rfl, rfl⟩
    exact hk
  · intro h
    exact ⟨some f, i, h, f, rfl, rfl, rfl⟩

theorem pairwise_funcs (p : Program) : p.funcs.Pairwise fun x y => x.1.index < y.1.index := by
  unfold funcs
  rw [List.pairwise_filterMap, List.pairwise_iff_getElem]
  intro i j hi hj hlt x hx y hy
  rw [List.getElem_zipIdx] at hx hy
  obtain ⟨f, -, rfl⟩ := Option.map_eq_some_iff.1 hx
  obtain ⟨g, -, rfl⟩ := Option.map_eq_some_iff.1 hy
  simpa using hlt

/-- Listed in order, the functions that correspond stand at the same places. -/
theorem Relabels.funcs_eq (h : p.Relabels ρ q) :
    q.funcs = p.funcs.map fun x => (ρ x.1, x.2.relabel ρ) := by
  let before (x y : FuncId × Func) : Prop := x.1.index < y.1.index
  have : Std.Antisymm before :=
    ⟨fun _ _ h h' => absurd (Nat.lt_trans h h') (Nat.lt_irrefl _)⟩
  have : Std.Irrefl before := ⟨fun _ => Nat.lt_irrefl _⟩
  have hp : (p.funcs.map fun x => (ρ x.1, x.2.relabel ρ)).Pairwise before := by
    rw [List.pairwise_map]
    refine (pairwise_funcs p).imp_of_mem fun {x y} hx hy hlt => ?_
    exact h.mono _ _ _ _ (mem_funcs.1 hx) (mem_funcs.1 hy) hlt
  refine List.Pairwise.eq_of_mem_iff (r := before) (pairwise_funcs q) hp fun x => ?_
  rw [mem_funcs, List.mem_map]
  constructor
  · intro hx
    obtain ⟨i, f, hf, hi⟩ := h.onto _ _ hx
    have hq := h.func? i f hf
    rw [hi, hx] at hq
    exact ⟨(i, f), mem_funcs.2 hf, Prod.ext hi (Option.some.inj hq).symm⟩
  · rintro ⟨⟨i, f⟩, hm, rfl⟩
    exact h.func? i f (mem_funcs.1 hm)

/-- The numbers of functions do not show in listings. -/
theorem Relabels.listing_eq (h : p.Relabels ρ q) (hp : p.Sound) (hn : q.name = p.name) :
    q.listing = p.listing := by
  have hf : q.funcs.map (fun x => "\n" ++ q.funcText x.2) =
      p.funcs.map fun x => "\n" ++ p.funcText x.2 := by
    rw [h.funcs_eq, List.map_map]
    refine List.map_congr_left fun x hx => ?_
    exact congrArg _ (h.funcText_eq hp (mem_funcs.1 hx))
  unfold listing
  rw [hn]
  exact congrArg (fun texts => _ ++ String.join texts) hf

end Listing

end Program

end Reckoner
