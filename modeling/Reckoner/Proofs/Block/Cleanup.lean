import Reckoner.Block.Cleanup
import Reckoner.Proofs.Block.Run
import Reckoner.Proofs.Program.Acceptance

/-!
# Cleaning keeps meaning and acceptance

A block and what cleaning makes of it give the same result wherever they are run (`run_clean`),
and if the one is accepted so is the other (`accepts_clean`).  Both facts are proved alike.  What
has been computed before the rest of a block, values in the one and kinds in the other, is an
array on each side.  For folding the two arrays agree but where a constant is known (`Follows`),
for pruning they agree on what is read later (`AgreeOn`).
-/

namespace Reckoner

variable {α : Type} {call : Callee} {args : List Float} {temps temps' : Array Float}

/-- What is in `ys` is in `xs` too, but at known constants, where `xs` has a value that fits. -/
structure KnownTemps.Follows (known : KnownTemps) (Fits : Float → α → Prop) (xs ys : Array α) :
    Prop where
  size_left : xs.size = known.size
  size_right : ys.size = known.size
  fits : ∀ (t : Nat) (v : Float), known[t]? = some (some v) → ∃ x, xs[t]? = some x ∧ Fits v x
  agree : ∀ t : Nat, (∀ v, known[t]? ≠ some (some v)) → ys[t]? = xs[t]?

namespace KnownTemps

variable {known : KnownTemps} {Fits : Float → α → Prop} {xs ys : Array α}

theorem follows_empty (Fits : Float → α → Prop) :
    Follows (#[] : KnownTemps) Fits (#[] : Array α) #[] :=
  ⟨rfl, rfl, fun t v h => by simp at h, fun t h => rfl⟩

theorem Follows.push (h : known.Follows Fits xs ys) {entry : Option Float} {x y : α}
    (hf : ∀ v, entry = some v → Fits v x) (ha : entry = none → y = x) :
    Follows (known.push entry) Fits (xs.push x) (ys.push y) := by
  refine ⟨?_, ?_, fun t w hw => ?_, fun t ht => ?_⟩
  · rw [Array.size_push, Array.size_push, h.size_left]
  · rw [Array.size_push, Array.size_push, h.size_right]
  · rw [Array.getElem?_push] at hw
    rw [Array.getElem?_push, h.size_left]
    by_cases he : t = known.size
    · rw [if_pos he] at hw
      exact ⟨x, if_pos he, hf w (Option.some.inj hw)⟩
    · rw [if_neg he] at hw
      rw [if_neg he]
      exact h.fits t w hw
  · simp only [Array.getElem?_push] at ht
    rw [Array.getElem?_push, Array.getElem?_push, h.size_left, h.size_right]
    by_cases he : t = known.size
    · simp only [if_pos he, ne_eq, Option.some.injEq] at ht
      rw [if_pos he, if_pos he, ha (Option.eq_none_iff_forall_ne_some.2 ht)]
    · simp only [if_neg he] at ht
      rw [if_neg he, if_neg he]
      exact h.agree t ht

/-- A temporary either is a known constant or is the same on both sides. -/
theorem Follows.temp_cases (h : known.Follows Fits xs ys) (t : Nat) :
    (∃ v x, (Operand.temp t).resolve known = .const v ∧ xs[t]? = some x ∧ Fits v x) ∨
      ((Operand.temp t).resolve known = .temp t ∧ ys[t]? = xs[t]?) := by
  unfold Operand.resolve
  simp only
  split
  · rename_i v hk
    obtain ⟨x, hx, hv⟩ := h.fits t v hk
    exact .inl ⟨v, x, rfl, hx, hv⟩
  · rename_i hk
    exact .inr ⟨rfl, h.agree t hk⟩

end KnownTemps

theorem Inst.result_mapOperands {f : Operand → Operand} {inst : Inst}
    (h : ∀ o ∈ inst.operands, (f o).value args temps' = o.value args temps) :
    (inst.mapOperands f).result call args temps' = inst.result call args temps := by
  cases inst with
  | arith op left right =>
    have hl := h left (by simp [operands])
    have hr := h right (by simp [operands])
    rw [mapOperands, result, result, hl, hr]
  | lessThan left right =>
    have hl := h left (by simp [operands])
    have hr := h right (by simp [operands])
    rw [mapOperands, result, result, hl, hr]
  | widen flag =>
    have hf := h flag (by simp [operands])
    rw [mapOperands, result, result, hf]
  | call callee os =>
    have hos : (os.map f).map (·.value args temps') = os.map (·.value args temps) := by
      rw [List.map_map]
      exact List.map_congr_left fun o ho => h o ho
    rw [mapOperands, result, result, hos]
  | ret value =>
    have hv := h value (by simp [operands])
    rw [mapOperands, result, result, hv]
  | nop => rfl

theorem Inst.result_of_constant? {inst : Inst} {v : Float} (h : inst.constant? = some v) :
    inst.result call args temps = pure v := by
  unfold constant? at h
  split at h <;> first | contradiction | (cases h; rfl)

theorem Inst.continues_mapOperands {f : Operand → Operand} {inst : Inst} (h : inst.Continues) :
    (inst.mapOperands f).Continues := by
  cases inst with
  | ret value => exact absurd rfl (h value)
  | _ => intro value; simp [mapOperands]

namespace Block

theorem foldFrom_cons (known : KnownTemps) (inst : Inst) (rest : Block) :
    foldFrom known (inst :: rest) =
      match (inst.mapOperands (·.resolve known)).constant? with
      | some value => .nop :: foldFrom (known.push (some value)) rest
      | none => inst.mapOperands (·.resolve known) :: foldFrom (known.push none) rest := rfl

theorem value_resolve {known : KnownTemps} (h : known.Follows Eq temps temps') (o : Operand) :
    (o.resolve known).value args temps' = o.value args temps := by
  cases o with
  | const value => rfl
  | param i => rfl
  | temp t =>
    rcases h.temp_cases t with ⟨v, x, hr, hx, rfl⟩ | ⟨hr, ht⟩
    · rw [hr, Operand.value, Operand.value, hx]
      rfl
    · rw [hr, Operand.value, Operand.value, ht]

theorem continues_or_ret (inst : Inst) : inst.Continues ∨ ∃ value, inst = .ret value := by
  cases inst with
  | ret value => exact .inr ⟨value, rfl⟩
  | _ => exact .inl fun value => by simp

theorem continues_nop : Inst.nop.Continues := by
  intro value
  simp

theorem run_foldFrom {known : KnownTemps} (h : known.Follows Eq temps temps') (b : Block) :
    run call args temps' (foldFrom known b) = run call args temps b := by
  induction b generalizing known temps temps' with
  | nil => rfl
  | cons inst rest ih =>
    rcases continues_or_ret inst with hi | ⟨value, rfl⟩
    · have hr : (inst.mapOperands (·.resolve known)).result call args temps' =
          inst.result call args temps :=
        Inst.result_mapOperands fun o _ => value_resolve h o
      rw [foldFrom_cons, run_cons hi, ← hr]
      split
      · rename_i v hv
        rw [Inst.result_of_constant? hv, pure_bind, run_cons continues_nop]
        exact ih (h.push (fun w hw => (Option.some.inj hw).symm) nofun)
      · rw [run_cons (Inst.continues_mapOperands hi)]
        exact bind_congr fun v => ih (h.push nofun fun _ => rfl)
    · change pure (some ((value.resolve known).value args temps')) = _
      rw [value_resolve h]
      rfl

theorem run_fold (b : Block) : run call args #[] b.fold = run call args #[] b :=
  run_foldFrom (KnownTemps.follows_empty Eq) b

structure AgreeOn (b : Block) (xs ys : Array α) : Prop where
  size_eq : ys.size = xs.size
  agree : ∀ t : Nat, b.any (·.reads t) → ys[t]? = xs[t]?

section AgreeOn

variable {xs ys : Array α} {inst : Inst} {rest : Block}

theorem AgreeOn.of_mem_operands (h : AgreeOn (inst :: rest) xs ys) {t : Nat}
    (ht : .temp t ∈ inst.operands) : ys[t]? = xs[t]? := by
  refine h.agree t ?_
  rw [List.any_cons, Inst.reads, List.contains_iff_mem.2 ht]
  rfl

theorem AgreeOn.push (h : AgreeOn (inst :: rest) xs ys) (x : α) :
    AgreeOn rest (xs.push x) (ys.push x) := by
  refine ⟨?_, fun t ht => ?_⟩
  · rw [Array.size_push, Array.size_push, h.size_eq]
  · rw [Array.getElem?_push, Array.getElem?_push, h.size_eq]
    have ha : ys[t]? = xs[t]? := by
      refine h.agree t ?_
      rw [List.any_cons, ht, Bool.or_true]
    rw [ha]

theorem AgreeOn.push_unread (h : AgreeOn (.nop :: rest) xs ys)
    (hu : rest.any (·.reads xs.size) = false) (x y : α) :
    AgreeOn rest (xs.push x) (ys.push y) := by
  refine ⟨?_, fun t ht => ?_⟩
  · rw [Array.size_push, Array.size_push, h.size_eq]
  · have hne : t ≠ xs.size := by
      rintro rfl
      rw [hu] at ht
      contradiction
    rw [Array.getElem?_push, Array.getElem?_push, h.size_eq, if_neg hne, if_neg hne]
    exact h.agree t ht

end AgreeOn

theorem value_of_agreeOn {inst : Inst} {rest : Block} (h : AgreeOn (inst :: rest) temps temps')
    {o : Operand} (ho : o ∈ inst.operands) : o.value args temps' = o.value args temps := by
  cases o with
  | const value => rfl
  | param i => rfl
  | temp t => rw [Operand.value, Operand.value, h.of_mem_operands ho]

theorem result_of_agreeOn {inst : Inst} {rest : Block} (h : AgreeOn (inst :: rest) temps temps') :
    inst.result call args temps' = inst.result call args temps := by
  have hr : (inst.mapOperands id).result call args temps' = inst.result call args temps :=
    Inst.result_mapOperands fun o ho => value_of_agreeOn h ho
  rwa [Inst.mapOperands_id] at hr

theorem exists_result_of_isPure (call : Callee) (args : List Float) (temps : Array Float)
    {inst : Inst} (h : inst.isPure = true) :
    ∃ v, inst.result call args temps = pure v := by
  cases inst with
  | call callee os => contradiction
  | _ => exact ⟨_, rfl⟩

theorem pruneFrom_cons (i : Nat) (inst : Inst) (rest : Block) :
    pruneFrom i (inst :: rest) =
      if inst.isPure && !(pruneFrom (i + 1) rest).any (·.reads i) then
        .nop :: pruneFrom (i + 1) rest
      else inst :: pruneFrom (i + 1) rest := rfl

theorem run_pruneFrom (b : Block) (h : AgreeOn (pruneFrom temps.size b) temps temps') :
    run call args temps' (pruneFrom temps.size b) = run call args temps b := by
  induction b generalizing temps temps' with
  | nil => rfl
  | cons inst rest ih =>
    have hs (x : Float) : temps.size + 1 = (temps.push x).size := by rw [Array.size_push]
    rw [pruneFrom_cons] at h ⊢
    split at h
    · rename_i hc
      rw [if_pos hc]
      obtain ⟨hp, hu⟩ := Bool.and_eq_true_iff.1 hc
      obtain ⟨v, hv⟩ := exists_result_of_isPure call args temps hp
      have hi : inst.Continues := by
        rintro value rfl
        contradiction
      rw [run_cons continues_nop, run_cons hi, hv, Inst.result, pure_bind, pure_bind, hs v]
      refine ih ?_
      rw [← hs v]
      exact h.push_unread (Bool.not_eq_true' _ ▸ hu) v unset
    · rename_i hc
      rw [if_neg hc]
      rcases continues_or_ret inst with hi | ⟨value, rfl⟩
      · rw [run_cons hi, run_cons hi, result_of_agreeOn h]
        refine bind_congr fun v => ?_
        rw [hs v]
        exact ih (hs v ▸ h.push v)
      · change pure (some (value.value args temps')) = pure (some (value.value args temps))
        rw [value_of_agreeOn h (List.mem_singleton.2 rfl)]

theorem run_prune (b : Block) : run call args #[] b.prune = run call args #[] b := by
  have h : AgreeOn (pruneFrom (#[] : Array Float).size b) (#[] : Array Float) #[] :=
    ⟨rfl, fun _ _ => rfl⟩
  exact run_pruneFrom b h

/-- Cleaning does not change what a block does. -/
theorem run_clean (b : Block) : run call args #[] b.clean = run call args #[] b :=
  (run_prune b.fold).trans (run_fold b)

section Accepts

variable {p : Program} {arity : Nat} {kinds kinds' : Array ResultKind}

theorem kind_resolve {known : KnownTemps} (h : known.Follows (fun _ _ => True) kinds kinds')
    {o : Operand} (ho : o.kind arity kinds = .ok .double) :
    (o.resolve known).kind arity kinds' = .ok .double := by
  cases o with
  | const value => rfl
  | param i => exact ho
  | temp t =>
    rcases h.temp_cases t with ⟨v, x, hr, -⟩ | ⟨hr, ht⟩
    · rw [hr]
      rfl
    · rw [hr, Operand.kind, ht]
      exact ho

theorem gives_mapOperands_resolve {known : KnownTemps}
    (h : known.Follows (fun _ _ => True) kinds kinds') {inst : Inst} {kind : ResultKind}
    (hg : p.Gives arity kinds inst kind) :
    p.Gives arity kinds' (inst.mapOperands (·.resolve known)) kind := by
  cases hg with
  | arith hl hr => exact .arith (kind_resolve h hl) (kind_resolve h hr)
  | lessThan hl hr => exact .lessThan (kind_resolve h hl) (kind_resolve h hr)
  | widenConst => exact .widenConst
  | @widen flag hf =>
    rw [Inst.mapOperands]
    cases flag with
    | const value => exact .widenConst
    | param i =>
      rw [Operand.kind] at hf
      split at hf
      · cases hf
      · cases hf
    | temp t =>
      rcases h.temp_cases t with ⟨v, x, hr, -⟩ | ⟨hr, ht⟩
      · rw [hr]
        exact .widenConst
      · rw [hr]
        refine .widen ?_
        rw [Operand.kind, ht]
        exact hf
  | call hf hn ha =>
    refine .call hf (by rw [List.length_map, hn]) fun a hm => ?_
    obtain ⟨o, ho, rfl⟩ := List.mem_map.1 hm
    exact kind_resolve h (ha o ho)
  | nop => exact .nop

theorem accepts_foldFrom {known : KnownTemps} {b : Block} (hb : p.Accepts arity kinds b)
    (h : known.Follows (fun _ _ => True) kinds kinds') :
    p.Accepts arity kinds' (foldFrom known b) := by
  induction hb generalizing known kinds' with
  | ret hv => exact .ret (kind_resolve h hv)
  | cons hg _ ih =>
    rw [foldFrom_cons]
    split
    · exact .cons .nop (ih (h.push (fun _ _ => trivial) nofun))
    · exact .cons (gives_mapOperands_resolve h hg) (ih (h.push nofun fun _ => rfl))

theorem kind_of_agreeOn {inst : Inst} {rest : Block} (h : AgreeOn (inst :: rest) kinds kinds')
    {o : Operand} (ho : o ∈ inst.operands) : o.kind arity kinds' = o.kind arity kinds := by
  cases o with
  | const value => rfl
  | param i => rfl
  | temp t => rw [Operand.kind, Operand.kind, h.of_mem_operands ho]

theorem gives_of_agreeOn {inst : Inst} {rest : Block} (h : AgreeOn (inst :: rest) kinds kinds')
    {kind : ResultKind} (hg : p.Gives arity kinds inst kind) : p.Gives arity kinds' inst kind := by
  have hk : ∀ o ∈ inst.operands, o.kind arity kinds' = o.kind arity kinds :=
    fun o ho => kind_of_agreeOn h ho
  cases hg with
  | @arith op left right hl hr =>
    exact .arith ((hk left (by simp [Inst.operands])).trans hl)
      ((hk right (by simp [Inst.operands])).trans hr)
  | @lessThan left right hl hr =>
    exact .lessThan ((hk left (by simp [Inst.operands])).trans hl)
      ((hk right (by simp [Inst.operands])).trans hr)
  | widenConst => exact .widenConst
  | @widen flag hf => exact .widen ((hk flag (by simp [Inst.operands])).trans hf)
  | call hf hn ha => exact .call hf hn fun a hm => (hk a hm).trans (ha a hm)
  | nop => exact .nop

theorem accepts_pruneFrom {b : Block} (hb : p.Accepts arity kinds b)
    (h : AgreeOn (pruneFrom kinds.size b) kinds kinds') :
    p.Accepts arity kinds' (pruneFrom kinds.size b) := by
  induction hb generalizing kinds' with
  | ret hv => exact .ret ((kind_of_agreeOn h (List.mem_singleton.2 rfl)).trans hv)
  | @cons kinds inst kind rest hg _ ih =>
    have hs (x : ResultKind) : kinds.size + 1 = (kinds.push x).size := by rw [Array.size_push]
    rw [pruneFrom_cons] at h ⊢
    split at h
    · rename_i hc
      rw [if_pos hc, hs kind]
      have hu := (Bool.and_eq_true_iff.1 hc).2
      refine .cons .nop (ih ?_)
      rw [← hs kind]
      exact h.push_unread (Bool.not_eq_true' _ ▸ hu) kind .nothing
    · rename_i hc
      rw [if_neg hc, hs kind]
      refine .cons (gives_of_agreeOn h hg) (ih ?_)
      rw [← hs kind]
      exact h.push kind

/-- Cleaning keeps a body in order. -/
theorem accepts_clean {b : Block} (hb : p.Accepts arity #[] b) : p.Accepts arity #[] b.clean := by
  have hf : p.Accepts arity #[] b.fold := accepts_foldFrom hb (KnownTemps.follows_empty _)
  have ha : AgreeOn (pruneFrom (#[] : Array ResultKind).size b.fold) (#[] : Array ResultKind) #[] :=
    ⟨rfl, fun _ _ => rfl⟩
  exact accepts_pruneFrom hf ha

end Accepts

end Block

end Reckoner
