import Reckoner.Proofs.Block.Cleanup
import Reckoner.Proofs.Lowering.Meaning
import Reckoner.Proofs.Program.Invariant

/-!
# Blocks with gaps

An instruction that was removed leaves a gap, and what is listed of a block passes over the gaps
(`Block.listed`).  Gaps show in the numbers of the temporaries after them, so two accepted blocks
of which the same is listed differ at most in the gaps before their returns, and do the same
(`run_eq_of_listed_eq`).
-/

namespace Reckoner

namespace Block

/-- What is listed of a block: the instructions that were not removed, with the numbers of their
temporaries.  The first instruction has the number `i`, and a return has none. -/
def listed (i : Nat) : Block → List (Option Nat × Inst)
  | [] => []
  | .nop :: rest => listed (i + 1) rest
  | .ret value :: rest => (none, .ret value) :: listed (i + 1) rest
  | inst :: rest => (some i, inst) :: listed (i + 1) rest

variable {i j : Nat} {inst : Inst} {rest b b' : Block}

theorem listed_cons (hc : inst.Continues) (hn : inst ≠ .nop) :
    listed i (inst :: rest) = (some i, inst) :: listed (i + 1) rest := by
  cases inst with
  | ret value => exact absurd rfl (hc value)
  | nop => contradiction
  | _ => rfl

theorem map_snd_listed (i : Nat) (b : Block) : (listed i b).map Prod.snd = b.filter (· ≠ .nop) := by
  induction b generalizing i with
  | nil => rfl
  | cons inst rest ih =>
    cases inst with
    | nop => exact ih (i + 1)
    | _ => simp [listed, ih]

/-- A listed instruction has a number unless it is a return. -/
theorem of_mem_listed {n : Option Nat} (h : (n, inst) ∈ listed i b) :
    inst ∈ b ∧ inst ≠ .nop ∧ (inst.Continues ↔ n ≠ none) := by
  induction b generalizing i with
  | nil => contradiction
  | cons head rest ih =>
    rcases continues_or_ret head with hc | ⟨value, rfl⟩
    · by_cases hn : head = .nop
      · subst hn
        obtain ⟨hm, h⟩ := ih h
        exact ⟨List.mem_cons_of_mem _ hm, h⟩
      · rw [listed_cons hc hn] at h
        rcases List.mem_cons.1 h with h | h
        · cases h
          exact ⟨List.mem_cons_self, hn, by simpa using hc⟩
        · obtain ⟨hm, h⟩ := ih h
          exact ⟨List.mem_cons_of_mem _ hm, h⟩
    · rcases List.mem_cons.1 h with h | h
      · cases h
        exact ⟨List.mem_cons_self, nofun, by simp [Inst.Continues]⟩
      · obtain ⟨hm, h⟩ := ih h
        exact ⟨List.mem_cons_of_mem _ hm, h⟩

theorem le_of_mem_listed (h : (some j, inst) ∈ listed i b) : i ≤ j := by
  induction b generalizing i with
  | nil => contradiction
  | cons head rest ih =>
    rcases continues_or_ret head with hc | ⟨value, rfl⟩
    · by_cases hn : head = .nop
      · subst hn
        exact Nat.le_of_succ_le (ih h)
      · rw [listed_cons hc hn] at h
        rcases List.mem_cons.1 h with h | h
        · cases h
          exact Nat.le_refl j
        · exact Nat.le_of_succ_le (ih h)
    · rcases List.mem_cons.1 h with h | h
      · cases h
      · exact Nat.le_of_succ_le (ih h)

section Run

variable {call : Callee} {args : List Float} {temps : Array Float} {v : Operand} {x : Float}

/-- A block of which only a return is listed gives what it returns. -/
theorem run_of_listed_ret (h : listed i b = [(none, .ret v)]) (hv : v.Keeps args temps x) :
    run call args temps b = pure (some x) := by
  induction b generalizing i temps with
  | nil => contradiction
  | cons inst rest ih =>
    rcases continues_or_ret inst with hc | ⟨value, rfl⟩
    · by_cases hn : inst = .nop
      · subst hn
        rw [run_cons hc, Inst.result, pure_bind]
        exact ih h (hv.of_grows (grows_push temps unset))
      · rw [listed_cons hc hn] at h
        cases (List.cons.inj h).1
    · cases (List.cons.inj h).1
      exact congrArg (fun y => pure (some y)) hv.value_eq

variable {p p' : Program} {arity : Nat} {kinds kinds' : Array ResultKind}

/-- What is in order after some results has the same value after more of them. -/
theorem keeps_of_kind {kind : ResultKind} (h : v.kind arity kinds = .ok kind)
    (hs : kinds.size = temps.size) : v.Keeps args temps (v.value args temps) := by
  intro later
  cases v with
  | const value => rfl
  | param i => rfl
  | temp t =>
    have ht : t < temps.size := by
      rw [← hs]
      refine Nat.lt_of_not_le fun hge => ?_
      rw [Operand.kind, Array.getElem?_eq_none hge] at h
      contradiction
    rw [Operand.value, Operand.value, Array.getElem?_append_left ht]

/-- Accepted blocks of which the same is listed do the same. -/
theorem run_eq_of_listed_eq (hb : p.Accepts arity kinds b) (hb' : p'.Accepts arity kinds' b')
    (hs : kinds.size = temps.size) (hs' : kinds'.size = temps.size)
    (h : listed temps.size b = listed temps.size b') :
    run call args temps b = run call args temps b' := by
  induction hb generalizing b' kinds' temps with
  | @ret kinds v hv =>
    have hk : v.Keeps args temps (v.value args temps) := keeps_of_kind hv hs
    rw [run_of_listed_ret (i := temps.size) rfl hk, run_of_listed_ret h.symm hk]
  | @cons kinds inst kind rest hg hr ih =>
    have hc := hg.continues
    have hsize (k : ResultKind) (y : Float) {ks : Array ResultKind} (hks : ks.size = temps.size) :
        (ks.push k).size = (temps.push y).size := by
      rw [Array.size_push, Array.size_push, hks]
    cases hb' with
    | @ret _ v hv =>
      have hk : v.Keeps args temps (v.value args temps) := keeps_of_kind hv hs'
      rw [run_of_listed_ret h hk, run_of_listed_ret (i := temps.size) rfl hk]
    | @cons _ inst' kind' rest' hg' hr' =>
      have hc' := hg'.continues
      by_cases hn : inst = .nop
      · subst hn
        by_cases hn' : inst' = .nop
        · subst hn'
          rw [run_cons hc, run_cons hc', Inst.result, pure_bind, pure_bind]
          refine ih hr' (hsize _ _ hs) (hsize _ _ hs') ?_
          rw [Array.size_push]
          exact h
        · rw [listed_cons hc' hn'] at h
          have hle := le_of_mem_listed (i := temps.size + 1) (b := rest) (h ▸ List.mem_cons_self)
          omega
      · rw [listed_cons hc hn] at h
        by_cases hn' : inst' = .nop
        · subst hn'
          have hle := le_of_mem_listed (i := temps.size + 1) (b := rest') (h ▸ List.mem_cons_self)
          omega
        · rw [listed_cons hc' hn'] at h
          obtain ⟨hinst, hrest⟩ := List.cons.inj h
          cases hinst
          rw [run_cons hc, run_cons hc']
          refine bind_congr fun y => ih hr' (hsize _ _ hs) (hsize _ _ hs') ?_
          rw [Array.size_push]
          exact hrest

end Run

end Block

end Reckoner
