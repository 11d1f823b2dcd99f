import Reckoner.Proofs.Block.Cleanup

/-!
# Blocks that cleaning leaves alone

A block is normal if no instruction has a constant value and every pure one is read by a later one.
Cleaning a normal block changes nothing (`clean_eq_self`), and what cleaning makes of any block is
normal (`normalFrom_clean`): folding leaves no constant value behind, and pruning, which goes
backward, looks for readers among the instructions that stay.  So there is nothing left for a second
cleaning to do.
-/

namespace Reckoner

namespace Block

inductive NormalFrom : Nat → Block → Prop
  | nil {i : Nat} : NormalFrom i []
  | cons {i : Nat} {inst : Inst} {rest : Block} (hc : inst.constant? = none)
    (hr : inst.isPure = true → rest.any (·.reads i) = true) (h : NormalFrom (i + 1) rest) :
    NormalFrom i (inst :: rest)

variable {i : Nat} {b : Block}

theorem pruneFrom_eq_self (h : NormalFrom i b) : pruneFrom i b = b := by
  induction h with
  | nil => rfl
  | @cons i inst rest hc hr h ih =>
    rw [pruneFrom_cons, ih, if_neg]
    cases hp : inst.isPure with
    | false => simp
    | true => simp [hr hp]

theorem resolve_eq_id {known : KnownTemps} (hk : ∀ entry ∈ known, entry = none) :
    (fun o : Operand => o.resolve known) = id := by
  funext o
  unfold Operand.resolve
  split
  · split
    · rename_i v hv
      cases hk _ (Array.mem_of_getElem? hv)
    · rfl
  · rfl
  · rfl

theorem foldFrom_eq_self {known : KnownTemps} (hk : ∀ entry ∈ known, entry = none)
    (h : NormalFrom i b) : foldFrom known b = b := by
  induction h generalizing known with
  | nil => rfl
  | @cons i inst rest hc hr h ih =>
    have hk' : ∀ entry ∈ known.push none, entry = none := by
      intro entry he
      rcases Array.mem_push.1 he with he | he
      · exact hk entry he
      · exact he
    rw [foldFrom_cons, resolve_eq_id hk, Inst.mapOperands_id, hc]
    exact congrArg _ (ih hk')

theorem clean_eq_self (h : NormalFrom 0 b) : b.clean = b := by
  rw [clean, fold, foldFrom_eq_self (by simp) h, prune, pruneFrom_eq_self h]

/-- Folding leaves no instruction of constant value, whatever it knows at the start. -/
theorem constant?_of_mem_foldFrom {known : KnownTemps} {inst : Inst}
    (h : inst ∈ foldFrom known b) : inst.constant? = none := by
  induction b generalizing known with
  | nil => exact absurd h List.not_mem_nil
  | cons head rest ih =>
    rw [foldFrom_cons] at h
    split at h
    · rcases List.mem_cons.1 h with rfl | h
      · rfl
      · exact ih h
    · rename_i hc
      rcases List.mem_cons.1 h with rfl | h
      · exact hc
      · exact ih h

/-- What is left of a block without constant values is normal. -/
theorem normalFrom_pruneFrom (h : ∀ inst ∈ b, inst.constant? = none) (i : Nat) :
    NormalFrom i (pruneFrom i b) := by
  induction b generalizing i with
  | nil => exact .nil
  | cons head rest ih =>
    obtain ⟨hc, hrest⟩ := List.forall_mem_cons.1 h
    rw [pruneFrom_cons]
    split
    · exact .cons rfl nofun (ih hrest (i + 1))
    · rename_i hr
      refine .cons hc (fun hp => ?_) (ih hrest (i + 1))
      simpa [hp] using hr

theorem normalFrom_clean (b : Block) : NormalFrom 0 b.clean :=
  normalFrom_pruneFrom (fun _ => constant?_of_mem_foldFrom) 0

theorem clean_eq_self_iff : b.clean = b ↔ NormalFrom 0 b :=
  ⟨fun h => h ▸ normalFrom_clean b, clean_eq_self⟩

/-- Every pure instruction is read by a later one; the first instruction has the number `i`. -/
def ReadLater (i : Nat) (b : Block) : Prop :=
  ∀ (k : Nat) (inst : Inst), b[k]? = some inst → inst.isPure = true →
    ∃ j > k, ∃ reader, b[j]? = some reader ∧ .temp (i + k) ∈ reader.operands

theorem any_reads_iff {rest : Block} :
    rest.any (·.reads i) = true ↔
      ∃ (j : Nat) (reader : Inst), rest[j]? = some reader ∧ .temp i ∈ reader.operands := by
  rw [List.any_eq_true]
  constructor
  · rintro ⟨reader, hm, hr⟩
    obtain ⟨j, hj⟩ := List.mem_iff_getElem?.1 hm
    exact ⟨j, reader, hj, List.contains_iff_mem.1 hr⟩
  · rintro ⟨j, reader, hj, hr⟩
    exact ⟨reader, List.mem_of_getElem? hj, List.contains_iff_mem.2 hr⟩

/-- The first instruction has its readers in the rest, which is read as it is by itself. -/
theorem readLater_cons_iff {inst : Inst} {rest : Block} :
    ReadLater i (inst :: rest) ↔
      (inst.isPure = true → rest.any (·.reads i) = true) ∧ ReadLater (i + 1) rest := by
  constructor
  · intro h
    refine ⟨fun hp => ?_, fun k inst' hk hp => ?_⟩
    · obtain ⟨j, hj, reader, hr, hm⟩ := h 0 inst rfl hp
      obtain ⟨j, rfl⟩ := Nat.exists_eq_succ_of_ne_zero (Nat.ne_of_gt hj)
      exact any_reads_iff.2 ⟨j, reader, hr, hm⟩
    · obtain ⟨j, hj, reader, hr, hm⟩ := h (k + 1) inst' hk hp
      obtain ⟨j, rfl⟩ := Nat.exists_eq_succ_of_ne_zero (Nat.ne_zero_of_lt hj)
      refine ⟨j, Nat.lt_of_succ_lt_succ hj, reader, hr, ?_⟩
      rwa [Nat.succ_add_eq_add_succ]
  · rintro ⟨hfirst, hrest⟩ k inst' hk hp
    cases k with
    | zero =>
      obtain rfl := Option.some.inj hk
      obtain ⟨j, reader, hr, hm⟩ := any_reads_iff.1 (hfirst hp)
      exact ⟨j + 1, Nat.succ_pos j, reader, hr, hm⟩
    | succ k =>
      obtain ⟨j, hj, reader, hr, hm⟩ := hrest k inst' hk hp
      refine ⟨j + 1, Nat.succ_lt_succ hj, reader, hr, ?_⟩
      rwa [← Nat.succ_add_eq_add_succ]

theorem normalFrom_iff :
    NormalFrom i b ↔ (∀ inst ∈ b, inst.constant? = none) ∧ ReadLater i b := by
  induction b generalizing i with
  | nil => exact ⟨fun _ => ⟨nofun, nofun⟩, fun _ => .nil⟩
  | cons inst rest ih =>
    rw [List.forall_mem_cons, readLater_cons_iff]
    constructor
    · intro h
      cases h with
      | cons hc hr h =>
        obtain ⟨hcs, hrs⟩ := ih.1 h
        exact ⟨⟨hc, hcs⟩, hr, hrs⟩
    · rintro ⟨⟨hc, hcs⟩, hr, hrs⟩
      exact .cons hc hr (ih.2 ⟨hcs, hrs⟩)

/-- The block has nothing that could be computed from constants, and nothing pure that is not read
by a later instruction. -/
structure IsNormal (b : Block) : Prop where
  arith : ∀ op x y, .arith op (.const x) (.const y) ∉ b
  lessThan : ∀ x y, .lessThan (.const x) (.const y) ∉ b
  widen : ∀ x, .widen (.const x) ∉ b
  read : ∀ (i : Nat) (inst : Inst), b[i]? = some inst → inst.isPure = true →
    ∃ j > i, ∃ reader, b[j]? = some reader ∧ .temp i ∈ reader.operands

theorem isNormal_iff : b.IsNormal ↔ NormalFrom 0 b := by
  have hread : ReadLater 0 b ↔ ∀ (i : Nat) (inst : Inst), b[i]? = some inst →
      inst.isPure = true → ∃ j > i, ∃ reader, b[j]? = some reader ∧ .temp i ∈ reader.operands := by
    simp only [ReadLater, Nat.zero_add]
  rw [normalFrom_iff, hread]
  constructor
  · rintro ⟨ha, hl, hw, hr⟩
    refine ⟨fun inst hi => ?_, hr⟩
    unfold Inst.constant?
    split
    · exact absurd hi (ha _ _ _)
    · exact absurd hi (hl _ _)
    · exact absurd hi (hw _)
    · rfl
  · rintro ⟨hc, hr⟩
    exact ⟨fun op x y hi => Option.some_ne_none _ (hc _ hi),
      fun x y hi => Option.some_ne_none _ (hc _ hi),
      fun x hi => Option.some_ne_none _ (hc _ hi), hr⟩

/-- Cleaning is done after one run, and the blocks that it leaves alone are exactly the normal ones.
This holds of every block, whether or not it is well formed. -/
theorem clean_fixed_iff_isNormal (b : Block) :
    b.clean.clean = b.clean ∧ (b.clean = b ↔ b.IsNormal) :=
  ⟨clean_eq_self (normalFrom_clean b), clean_eq_self_iff.trans isNormal_iff.symm⟩

/-- A read of a later temporary or of its own is never filled in, and does not count as a reader. -/
example (x : Float) :
    clean [.widen (.temp 1), .widen (.const x), .widen (.temp 2), .ret (.temp 0)] =
      [.widen (.temp 1), .nop, .nop, .ret (.temp 0)] := rfl

end Block

end Reckoner
